import Mathlib
import AgenticGovernance.Support.Double
import AgenticGovernance.Support.PyValue

/-!
# JSON values stored as JSONB

A JSONB column keeps strings, arrays and the entries of objects, but neither the order of
the entries nor the text of the numbers.  A number becomes a `numeric`, an exact decimal
with a scale, and is printed without an exponent and without a sign on zero.  The `json`
module reads that text as an integer when it has no point.

`Json.jsonb` is the value that comes back.  On values that Python prints it agrees with the
value that went in, up to the order of entries, exactly when no float was printed with a
positive exponent and none is a negative zero.
-/

namespace AgenticGovernance.Support

/-! ## Numbers -/

/-- The decimal `coefficient / 10 ^ scale`. -/
structure Numeric where
  coefficient : ℤ
  scale : ℕ
  deriving DecidableEq, Repr

def Numeric.ofInt (n : ℤ) : Numeric := ⟨n, 0⟩

/-- The decimal that a finite float is printed as. -/
def Numeric.ofFloat (x : PyFloat) : Numeric where
  coefficient :=
    if x.isNeg then -(x.coefficient * 10 ^ x.power.toNat : ℕ)
    else (x.coefficient * 10 ^ x.power.toNat : ℕ)
  scale := (-x.power).toNat

/-- `json.loads` of the digits of a `numeric`, which have a point when the scale is
positive. -/
def Numeric.loads (n : Numeric) : Json :=
  if n.scale = 0 then .int n.coefficient
  else
    match Double.nearest (decide (n.coefficient < 0)) (n.coefficient.natAbs / 10 ^ n.scale) with
    | some d => .float d.repr
    | none => .float (.infinity (decide (n.coefficient < 0)))

/-- The float is `repr` of a finite double. -/
def PyFloat.Printed (x : PyFloat) : Prop := ∃ d : Double, d.repr = x

def PyFloat.IsNegZero (x : PyFloat) : Prop := x.isNeg = true ∧ x.IsZero

instance : DecidablePred PyFloat.IsNegZero := fun x =>
  inferInstanceAs (Decidable (x.isNeg = true ∧ x.IsZero))

theorem Numeric.sortKeys_loads (n : Numeric) : n.loads.sortKeys = n.loads := by
  rw [Numeric.loads]
  split
  · rfl
  · split <;> rfl

theorem Numeric.loads_ofFloat_of_isLarge {x : PyFloat} (hprinted : x.Printed)
    (hlarge : x.IsLarge) : (Numeric.ofFloat x).loads ≠ .float x := by
  obtain ⟨d, rfl⟩ := hprinted
  have hscale : (Numeric.ofFloat d.repr).scale = 0 := by
    have := d.power_repr_nonneg hlarge
    simp only [Numeric.ofFloat]
    omega
  rw [Numeric.loads, if_pos hscale]
  exact fun h => Json.noConfusion h

section Small

variable {x : PyFloat}

theorem Numeric.loads_ofFloat_of_power_neg (hpower : x.power < 0) {d : Double}
    (hread : Double.nearest (decide ((Numeric.ofFloat x).coefficient < 0))
      (x.coefficient * 10 ^ x.power) = some d) :
    (Numeric.ofFloat x).loads = .float d.repr := by
  have hscale : ((Numeric.ofFloat x).scale : ℤ) = -x.power := by
    simp only [Numeric.ofFloat]
    omega
  have habs : (Numeric.ofFloat x).coefficient.natAbs = x.coefficient := by
    have hzero : x.power.toNat = 0 := by omega
    simp only [Numeric.ofFloat, hzero]
    split <;> simp
  have hvalue : (((Numeric.ofFloat x).coefficient.natAbs : ℚ) / 10 ^ (Numeric.ofFloat x).scale) =
      x.coefficient * 10 ^ x.power := by
    rw [habs, ← zpow_natCast, hscale, zpow_neg, div_inv_eq_mul]
  rw [Numeric.loads, if_neg (by omega), hvalue, hread]

theorem Numeric.coefficient_ofFloat_neg_iff :
    (Numeric.ofFloat x).coefficient < 0 ↔ x.isNeg = true ∧ x.coefficient ≠ 0 := by
  have hpos : 0 < 10 ^ x.power.toNat := by positivity
  simp only [Numeric.ofFloat]
  split
  · rename_i hneg
    rw [Int.neg_neg_iff_pos, Int.natCast_pos, Nat.mul_pos_iff_of_pos_right hpos,
      Nat.pos_iff_ne_zero]
    simp [hneg]
  · rename_i hneg
    simp only [hneg, Bool.false_eq_true, false_and, iff_false, not_lt]
    exact Int.natCast_nonneg _

end Small

/-- A float survives its column exactly when it is not printed with a positive exponent
and not a negative zero. -/
theorem Numeric.loads_ofFloat_eq_iff {x : PyFloat} (hprinted : x.Printed) :
    (Numeric.ofFloat x).loads = .float x ↔ ¬x.IsLarge ∧ ¬x.IsNegZero := by
  by_cases hlarge : x.IsLarge
  · simp [hlarge, Numeric.loads_ofFloat_of_isLarge hprinted hlarge]
  · obtain ⟨d, rfl⟩ := hprinted
    have hpower := d.power_repr_neg hlarge
    have hread := d.reads_repr
    have hsign := Numeric.coefficient_ofFloat_neg_iff (x := d.repr)
    rw [d.isNeg_repr, Ne, d.coefficient_repr_eq_zero_iff] at hsign
    simp only [hlarge, not_false_eq_true, true_and, PyFloat.IsNegZero, d.isNeg_repr]
    by_cases hnegzero : d.neg = true ∧ d.repr.IsZero
    · -- The zero that is read has no sign, so it is printed without one.
      have hzero := d.coefficient_repr_eq_zero_iff.mpr hnegzero.2
      have hpos : decide ((Numeric.ofFloat d.repr).coefficient < 0) = false := by
        rw [decide_eq_false_iff_not, hsign]
        exact fun h => h.2 hnegzero.2
      have hloads : (Numeric.ofFloat d.repr).loads = .float (Double.zero false).repr := by
        apply Numeric.loads_ofFloat_of_power_neg hpower
        rw [hpos, hzero, Nat.cast_zero, zero_mul, Double.nearest_zero]
      have hne : (Double.zero false).repr ≠ d.repr := by
        intro heq
        have hneg := congrArg PyFloat.isNeg heq
        rw [Double.isNeg_repr, Double.isNeg_repr, hnegzero.1] at hneg
        exact Bool.noConfusion hneg
      rw [hloads]
      simp [hne, hnegzero]
    · have hflag : decide ((Numeric.ofFloat d.repr).coefficient < 0) = d.neg := by
        by_cases hneg : d.neg = true
        · rw [hneg, decide_eq_true_eq, hsign]
          exact ⟨hneg, fun hzero => hnegzero ⟨hneg, hzero⟩⟩
        · rw [Bool.eq_false_iff.mpr hneg, decide_eq_false_iff_not, hsign]
          exact fun h => hneg h.1
      have hloads := Numeric.loads_ofFloat_of_power_neg hpower (hflag ▸ hread)
      simp [hloads, hnegzero]

/-! ## Values -/

/-- The order in which an object lists its entries. -/
structure EntryOrder where
  arrange : List (String × Json) → List (String × Json)
  perm : ∀ fields, (arrange fields).Perm fields

/-- JSONB lists the entries of an object by the length of their keys, and keys of one
length by their bytes. -/
def EntryOrder.byLength : EntryOrder where
  arrange fields := fields.insertionSort fun f g =>
    f.1.utf8ByteSize < g.1.utf8ByteSize ∨
      (f.1.utf8ByteSize = g.1.utf8ByteSize ∧ f.1 ≤ g.1)
  perm fields := List.perm_insertionSort _ fields

mutual

/-- The value that is read from a column into which `v` was written. -/
def Json.jsonb (O : EntryOrder) : Json → Json
  | .null => .null
  | .bool b => .bool b
  | .int n => (Numeric.ofInt n).loads
  | .float x => (Numeric.ofFloat x).loads
  | .str s => .str s
  | .arr items => .arr (Json.jsonbItems O items)
  | .obj fields => .obj (O.arrange (Json.jsonbFields O fields))

def Json.jsonbItems (O : EntryOrder) : List Json → List Json
  | [] => []
  | v :: items => v.jsonb O :: Json.jsonbItems O items

def Json.jsonbFields (O : EntryOrder) : List (String × Json) → List (String × Json)
  | [] => []
  | (k, v) :: fields => (k, v.jsonb O) :: Json.jsonbFields O fields

end

mutual

/-- Every float in the value satisfies `p`. -/
def Json.FloatsAll (p : PyFloat → Prop) : Json → Prop
  | .float x => p x
  | .arr items => Json.ItemsAll p items
  | .obj fields => Json.FieldsAll p fields
  | _ => True

def Json.ItemsAll (p : PyFloat → Prop) : List Json → Prop
  | [] => True
  | v :: items => v.FloatsAll p ∧ Json.ItemsAll p items

def Json.FieldsAll (p : PyFloat → Prop) : List (String × Json) → Prop
  | [] => True
  | (_, v) :: fields => v.FloatsAll p ∧ Json.FieldsAll p fields

end

theorem Json.sortFields_eq_map (fields : List (String × Json)) :
    Json.sortFields fields = fields.map fun f => (f.1, f.2.sortKeys) := by
  induction fields with
  | nil => rfl
  | cons f fields ih =>
      obtain ⟨k, v⟩ := f
      rw [Json.sortFields, ih, List.map_cons]

theorem Json.jsonbFields_eq_map (O : EntryOrder) (fields : List (String × Json)) :
    Json.jsonbFields O fields = fields.map fun f => (f.1, f.2.jsonb O) := by
  induction fields with
  | nil => rfl
  | cons f fields ih =>
      obtain ⟨k, v⟩ := f
      rw [Json.jsonbFields, ih, List.map_cons]

/-! ## Sorting forgets the order of entries -/

section Entries

variable {α β : Type*}

theorem insertionSort_eq_of_perm {l m : List (String × α)} (h : l.Perm m)
    (hkeys : (m.map Prod.fst).Nodup) :
    (l.insertionSort fun f g => f.1 ≤ g.1) = m.insertionSort fun f g => f.1 ≤ g.1 := by
  have htotal : Std.Total fun f g : String × α => f.1 ≤ g.1 := ⟨fun f g => le_total f.1 g.1⟩
  have htrans : IsTrans (String × α) fun f g => f.1 ≤ g.1 := ⟨fun _ _ _ => le_trans⟩
  refine List.Perm.eq_of_pairwise ?_ (List.pairwise_insertionSort _ l)
    (List.pairwise_insertionSort _ m) ?_
  · intro f g hf hg hfg hgf
    have hfm : f ∈ m := h.subset ((List.perm_insertionSort _ l).subset hf)
    have hgm : g ∈ m := (List.perm_insertionSort _ m).subset hg
    exact List.inj_on_of_nodup_map hkeys hfm hgm (le_antisymm hfg hgf)
  · exact (List.perm_insertionSort _ l).trans (h.trans (List.perm_insertionSort _ m).symm)

theorem insertionSort_map_eq_iff {l : List (String × α)} {F G : String × α → β} :
    ((l.map fun f => (f.1, F f)).insertionSort fun f g => f.1 ≤ g.1) =
        ((l.map fun f => (f.1, G f)).insertionSort fun f g => f.1 ≤ g.1) ↔
      (l.map fun f => (f.1, F f)) = l.map fun f => (f.1, G f) := by
  have hmap : ∀ F : String × α → β,
      ((l.map fun f => (f.1, F f)).insertionSort fun f g => f.1 ≤ g.1) =
        (l.insertionSort fun f g => f.1 ≤ g.1).map fun f => (f.1, F f) := fun F =>
    (List.map_insertionSort (fun f g => f.1 ≤ g.1) (fun f g => f.1 ≤ g.1)
      (fun f => (f.1, F f)) l fun _ _ _ _ => Iff.rfl).symm
  rw [hmap F, hmap G, List.map_inj_left, List.map_inj_left]
  simp only [List.mem_insertionSort]

end Entries

/-- Not printed with a positive exponent, and not a negative zero. -/
def PyFloat.Plain (x : PyFloat) : Prop := ¬x.IsLarge ∧ ¬x.IsNegZero

instance : DecidablePred PyFloat.Plain := fun x =>
  inferInstanceAs (Decidable (¬x.IsLarge ∧ ¬x.IsNegZero))

section Jsonb

variable (O : EntryOrder)

theorem Json.sortKeys_obj_jsonb {fields : List (String × Json)}
    (hkeys : (fields.map Prod.fst).Nodup) :
    ((Json.obj fields).jsonb O).sortKeys = (Json.obj fields).sortKeys ↔
      Json.sortFields (Json.jsonbFields O fields) = Json.sortFields fields := by
  have hperm : (Json.sortFields (O.arrange (Json.jsonbFields O fields))).Perm
      (Json.sortFields (Json.jsonbFields O fields)) := by
    rw [Json.sortFields_eq_map, Json.sortFields_eq_map]
    exact (O.perm _).map _
  have hnodup : ((Json.sortFields (Json.jsonbFields O fields)).map Prod.fst).Nodup := by
    simpa [Json.sortFields_eq_map, Json.jsonbFields_eq_map, Function.comp_def] using hkeys
  rw [Json.jsonb, Json.sortKeys, Json.sortKeys, Json.obj.injEq,
    insertionSort_eq_of_perm hperm hnodup]
  simp only [Json.sortFields_eq_map, Json.jsonbFields_eq_map, List.map_map, Function.comp_def]
  exact insertionSort_map_eq_iff

mutual

/-- The value that is read agrees with the one that was written, up to the order of
entries, exactly when all its floats are plain. -/
theorem Json.sortKeys_jsonb_eq_iff : ∀ v : Json, v.DistinctKeys →
    v.FloatsAll PyFloat.Printed →
      ((v.jsonb O).sortKeys = v.sortKeys ↔ v.FloatsAll PyFloat.Plain)
  | .null, _, _ => by simp [Json.jsonb, Json.FloatsAll]
  | .bool _, _, _ => by simp [Json.jsonb, Json.FloatsAll]
  | .int _, _, _ => by simp [Json.jsonb, Json.FloatsAll, Numeric.ofInt, Numeric.loads]
  | .str _, _, _ => by simp [Json.jsonb, Json.FloatsAll]
  | .float x, _, hprinted => by
      rw [Json.jsonb, Numeric.sortKeys_loads]
      exact Numeric.loads_ofFloat_eq_iff hprinted
  | .arr items, hdistinct, hprinted => by
      rw [Json.jsonb, Json.sortKeys, Json.sortKeys, Json.arr.injEq]
      exact Json.sortItems_jsonb_eq_iff items hdistinct hprinted
  | .obj fields, hdistinct, hprinted => by
      rw [Json.sortKeys_obj_jsonb O hdistinct.1]
      exact Json.sortFields_jsonb_eq_iff fields hdistinct.2 hprinted

theorem Json.sortItems_jsonb_eq_iff : ∀ items : List Json, Json.DistinctItems items →
    Json.ItemsAll PyFloat.Printed items →
      (Json.sortItems (Json.jsonbItems O items) = Json.sortItems items ↔
        Json.ItemsAll PyFloat.Plain items)
  | [], _, _ => by simp [Json.jsonbItems, Json.ItemsAll]
  | v :: items, hdistinct, hprinted => by
      rw [Json.jsonbItems, Json.sortItems, Json.sortItems, List.cons.injEq,
        Json.sortKeys_jsonb_eq_iff v hdistinct.1 hprinted.1,
        Json.sortItems_jsonb_eq_iff items hdistinct.2 hprinted.2, Json.ItemsAll]

theorem Json.sortFields_jsonb_eq_iff : ∀ fields : List (String × Json),
    Json.DistinctFields fields → Json.FieldsAll PyFloat.Printed fields →
      (Json.sortFields (Json.jsonbFields O fields) = Json.sortFields fields ↔
        Json.FieldsAll PyFloat.Plain fields)
  | [], _, _ => by simp [Json.jsonbFields, Json.FieldsAll]
  | (k, v) :: fields, hdistinct, hprinted => by
      rw [Json.jsonbFields, Json.sortFields, Json.sortFields, List.cons.injEq, Prod.mk.injEq,
        Json.sortKeys_jsonb_eq_iff v hdistinct.1 hprinted.1,
        Json.sortFields_jsonb_eq_iff fields hdistinct.2 hprinted.2, Json.FieldsAll]
      simp

end

end Jsonb

end AgenticGovernance.Support
