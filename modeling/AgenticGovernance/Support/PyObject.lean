import Mathlib
import AgenticGovernance.Support.PyValue
import AgenticGovernance.Support.Utf16

/-!
# Python values whose texts may have surrogates

`PyObject` is `PyValue` with the texts that Python really has: sequences of code points, lone
surrogates among them.  `PyObject.reload` is `json.loads(json.dumps(value))`, which may join two
surrogates, and then merge two keys of a dictionary.

`reload_eq_some_self_iff` says which values come back unchanged.  On values of Unicode texts it
is `PyValue.reload`.
-/

namespace AgenticGovernance.Support

inductive ObjectKey where
  | str (s : PyText)
  | int (n : ℤ)
  | float (x : PyFloat)
  | bool (b : Bool)
  | none
  deriving DecidableEq

/-- `other` is any object outside the types that `json` knows. -/
inductive PyObject where
  | none
  | bool (b : Bool)
  | int (n : ℤ)
  | float (x : PyFloat)
  | str (s : PyText)
  | list (items : List PyObject)
  | tuple (items : List PyObject)
  | dict (entries : List (ObjectKey × PyObject))
  | other (text : PyText)

/-- The member name that `json.dumps` prints for a key. -/
def ObjectKey.text : ObjectKey → PyText
  | .str s => s
  | .int n => .ofString (PyKey.int n).text
  | .float x => .ofString (PyKey.float x).text
  | .bool b => .ofString (PyKey.bool b).text
  | .none => .ofString PyKey.none.text

namespace PyObject

/-- A dictionary of strings. -/
def ofPairs (pairs : List (PyText × PyObject)) : PyObject :=
  .dict (pairs.map fun e => (.str e.1, e.2))

/-- A dictionary display with these string literals as keys. -/
def display (entries : List (String × PyObject)) : PyObject :=
  ofPairs (entries.map fun e => (.ofString e.1, e.2))

/-- `value.get(key)` on a dictionary. -/
def get? (v : PyObject) (key : PyText) : Option PyObject :=
  match v with
  | .dict entries => entries.lookup (.str key)
  | _ => Option.none

/-- `bool(value)`, of an object that defines no truth value of its own. -/
def truthy : PyObject → Bool
  | .none => false
  | .bool b => b
  | .int n => n ≠ 0
  | .float x => ¬x.IsZero
  | .str s => ¬s.isEmpty
  | .list items => ¬items.isEmpty
  | .tuple items => ¬items.isEmpty
  | .dict entries => ¬entries.isEmpty
  | .other _ => true

/-! ## Reloading -/

mutual

/-- `json.loads(json.dumps(value))`; `none` stands for the `TypeError` that an encoder without a
`default` raises. -/
def reload : PyObject → Option PyObject
  | .none => some .none
  | .bool b => some (.bool b)
  | .int n => some (.int n)
  | .float x => some (.float x)
  | .str s => some (.str s.reload)
  | .list items => (reloadItems items).map .list
  | .tuple items => (reloadItems items).map .list
  | .dict entries => (reloadEntries entries).map fun pairs => ofPairs (dictOfPairs pairs)
  | .other _ => Option.none

def reloadItems : List PyObject → Option (List PyObject)
  | [] => some []
  | v :: items => do
      let w ← v.reload
      let rest ← reloadItems items
      return w :: rest

def reloadEntries : List (ObjectKey × PyObject) → Option (List (PyText × PyObject))
  | [] => some []
  | (k, v) :: entries => do
      let w ← v.reload
      let rest ← reloadEntries entries
      return (k.text.reload, w) :: rest

end

/-! ## The values that come back unchanged -/

/-- A string without a pair of surrogates. -/
def PlainKey : ObjectKey → Prop
  | .str s => s.Unpaired
  | _ => False

mutual

/-- A value of JSON in which no text has a high surrogate before a low one. -/
def Plain : PyObject → Prop
  | .str s => s.Unpaired
  | .list items => PlainItems items
  | .tuple _ => False
  | .dict entries => (entries.map Prod.fst).Nodup ∧ PlainEntries entries
  | .other _ => False
  | _ => True

def PlainItems : List PyObject → Prop
  | [] => True
  | v :: items => v.Plain ∧ PlainItems items

def PlainEntries : List (ObjectKey × PyObject) → Prop
  | [] => True
  | (k, v) :: entries => PlainKey k ∧ v.Plain ∧ PlainEntries entries

end

theorem plainEntries_iff {entries : List (ObjectKey × PyObject)} :
    PlainEntries entries ↔ ∀ e ∈ entries, PlainKey e.1 ∧ e.2.Plain := by
  induction entries with
  | nil => simp [PlainEntries]
  | cons e entries ih =>
      obtain ⟨k, v⟩ := e
      rw [PlainEntries, ih, List.forall_mem_cons, and_assoc]

theorem plain_ofPairs_iff {pairs : List (PyText × PyObject)} :
    (ofPairs pairs).Plain ↔ (pairs.map Prod.fst).Nodup ∧
      ∀ e ∈ pairs, e.1.Unpaired ∧ e.2.Plain := by
  have hinj : Function.Injective ObjectKey.str := fun _ _ => ObjectKey.str.inj
  have hkeys : ((pairs.map fun e => (ObjectKey.str e.1, e.2)).map Prod.fst) =
      (pairs.map Prod.fst).map ObjectKey.str := by
    rw [List.map_map, List.map_map]
    rfl
  rw [ofPairs, Plain, plainEntries_iff, hkeys, List.nodup_map_iff hinj, List.forall_mem_map]
  rfl

mutual

/-- What `json.loads` returns is plain. -/
theorem plain_of_reload : ∀ (v : PyObject) {w : PyObject}, v.reload = some w → w.Plain
  | .none, w, h => by cases h; trivial
  | .bool _, w, h => by cases h; trivial
  | .int _, w, h => by cases h; trivial
  | .float _, w, h => by cases h; trivial
  | .str s, w, h => by
      cases h
      exact PyText.unpaired_reload s
  | .list items, w, h => by
      rw [reload] at h
      obtain ⟨ws, hws, rfl⟩ := Option.map_eq_some_iff.mp h
      exact plainItems_of_reloadItems items hws
  | .tuple items, w, h => by
      rw [reload] at h
      obtain ⟨ws, hws, rfl⟩ := Option.map_eq_some_iff.mp h
      exact plainItems_of_reloadItems items hws
  | .dict entries, w, h => by
      rw [reload] at h
      obtain ⟨pairs, hpairs, rfl⟩ := Option.map_eq_some_iff.mp h
      have hplain := plain_of_reloadEntries entries hpairs
      obtain ⟨hnodup, hmem⟩ := dictOfPairs_spec pairs
      exact plain_ofPairs_iff.mpr ⟨hnodup, fun e he => hplain e (hmem e he)⟩
  | .other _, w, h => by cases h

theorem plainItems_of_reloadItems : ∀ (items : List PyObject) {ws : List PyObject},
    reloadItems items = some ws → PlainItems ws
  | [], ws, h => by cases h; trivial
  | v :: items, ws, h => by
      simp only [reloadItems, Option.bind_eq_bind, Option.bind_eq_some_iff, Option.pure_def,
        Option.some.injEq] at h
      obtain ⟨w, hw, rest, hrest, rfl⟩ := h
      exact ⟨plain_of_reload v hw, plainItems_of_reloadItems items hrest⟩

theorem plain_of_reloadEntries :
    ∀ (entries : List (ObjectKey × PyObject)) {pairs : List (PyText × PyObject)},
      reloadEntries entries = some pairs → ∀ e ∈ pairs, e.1.Unpaired ∧ e.2.Plain
  | [], pairs, h => by cases h; simp
  | (k, v) :: entries, pairs, h => by
      simp only [reloadEntries, Option.bind_eq_bind, Option.bind_eq_some_iff, Option.pure_def,
        Option.some.injEq] at h
      obtain ⟨w, hw, rest, hrest, rfl⟩ := h
      rw [List.forall_mem_cons]
      exact ⟨⟨PyText.unpaired_reload _, plain_of_reload v hw⟩,
        plain_of_reloadEntries entries hrest⟩

end

mutual

theorem reload_of_plain : ∀ v : PyObject, v.Plain → v.reload = some v
  | .none, _ => rfl
  | .bool _, _ => rfl
  | .int _, _ => rfl
  | .float _, _ => rfl
  | .str s, h => by
      rw [Plain] at h
      rw [reload, PyText.reload_eq_self_iff.mpr h]
  | .list items, h => by
      rw [Plain] at h
      rw [reload, reloadItems_of_plain items h]
      rfl
  | .tuple _, h => by
      rw [Plain] at h
      exact h.elim
  | .dict entries, h => by
      have hplain := h
      rw [Plain] at hplain
      obtain ⟨pairs, hpairs, rfl⟩ := reloadEntries_of_plain entries hplain.2
      have hnodup := (plain_ofPairs_iff.mp h).1
      rw [reload, hpairs, Option.map_some, dictOfPairs_of_nodup hnodup]
      rfl
  | .other _, h => by
      rw [Plain] at h
      exact h.elim

theorem reloadItems_of_plain : ∀ items : List PyObject, PlainItems items →
    reloadItems items = some items
  | [], _ => rfl
  | v :: items, h => by
      rw [PlainItems] at h
      rw [reloadItems, reload_of_plain v h.1, reloadItems_of_plain items h.2]
      rfl

theorem reloadEntries_of_plain : ∀ entries : List (ObjectKey × PyObject),
    PlainEntries entries →
      ∃ pairs, reloadEntries entries = some pairs ∧
        entries = pairs.map fun e => (ObjectKey.str e.1, e.2)
  | [], _ => ⟨[], rfl, rfl⟩
  | (k, v) :: entries, h => by
      rw [PlainEntries] at h
      obtain ⟨hkey, hvalue, hrest⟩ := h
      obtain ⟨pairs, hpairs, rfl⟩ := reloadEntries_of_plain entries hrest
      cases k with
      | str s =>
          refine ⟨(s, v) :: pairs, ?_, rfl⟩
          rw [reloadEntries, reload_of_plain v hvalue, hpairs, ObjectKey.text,
            PyText.reload_eq_self_iff.mpr hkey]
          rfl
      | _ => exact hkey.elim

end

/-- The plain values are exactly those that come back unchanged. -/
theorem reload_eq_some_self_iff {v : PyObject} : v.reload = some v ↔ v.Plain :=
  ⟨plain_of_reload v, reload_of_plain v⟩

/-- Two keys that come back as one: U+1F600, and the two surrogates that stand for it. -/
example :
    (ofPairs [([⟨0xD83D, by decide⟩, ⟨0xDE00, by decide⟩], .int 1),
      ([⟨0x1F600, by decide⟩], .int 2)]).reload =
        some (ofPairs [([⟨0x1F600, by decide⟩], .int 2)]) := rfl

/-- A dictionary is reloaded as a dictionary of strings. -/
theorem exists_of_reload_ofPairs {pairs : List (PyText × PyObject)} {v : PyObject}
    (h : (ofPairs pairs).reload = some v) : ∃ pairs', v = ofPairs pairs' := by
  rw [ofPairs, reload] at h
  obtain ⟨pairs', -, rfl⟩ := Option.map_eq_some_iff.mp h
  exact ⟨_, rfl⟩

/-! ## Dictionary displays -/

section Display

variable {entries : List (String × PyObject)}

theorem get?_display (key : String) :
    (display entries).get? (.ofString key) = entries.lookup key := by
  rw [display, ofPairs, get?]
  induction entries with
  | nil => rfl
  | cons e entries ih =>
      obtain ⟨k, v⟩ := e
      have hkey : (ObjectKey.str (.ofString key) == .str (.ofString k)) = (key == k) := by
        rw [Bool.eq_iff_iff, beq_iff_eq, beq_iff_eq, ObjectKey.str.injEq,
          PyText.ofString_injective.eq_iff]
      simp only [List.map_cons, List.lookup_cons, hkey, ih]

/-- The values of a display, reloaded one by one. -/
def reloadValues (entries : List (String × PyObject)) : Option (List (String × PyObject)) :=
  entries.mapM fun e => e.2.reload.map fun w => (e.1, w)

theorem map_fst_of_reloadValues {ws : List (String × PyObject)}
    (h : reloadValues entries = some ws) : ws.map Prod.fst = entries.map Prod.fst := by
  induction entries generalizing ws with
  | nil =>
      cases h
      rfl
  | cons e entries ih =>
      simp only [reloadValues, List.mapM_cons, Option.bind_eq_bind, Option.bind_eq_some_iff,
        Option.map_eq_some_iff, Option.pure_def, Option.some.injEq] at h
      obtain ⟨_, ⟨w, -, rfl⟩, rest, hrest, rfl⟩ := h
      rw [List.map_cons, List.map_cons, ih hrest]

theorem reloadEntries_display :
    reloadEntries ((entries.map fun e => (PyText.ofString e.1, e.2)).map
        fun e => (ObjectKey.str e.1, e.2)) =
      (reloadValues entries).map fun ws => ws.map fun e => (PyText.ofString e.1, e.2) := by
  induction entries with
  | nil => rfl
  | cons e entries ih =>
      obtain ⟨k, v⟩ := e
      rw [reloadValues, List.mapM_cons, ← reloadValues, List.map_cons, List.map_cons,
        reloadEntries, ih, ObjectKey.text, PyText.reload_ofString]
      cases v.reload with
      | none => rfl
      | some w => cases reloadValues entries <;> rfl

theorem reload_display (hkeys : (entries.map Prod.fst).Nodup) :
    (display entries).reload = (reloadValues entries).map display := by
  rw [display, ofPairs, reload, reloadEntries_display]
  rcases hws : reloadValues entries with _ | ws
  · rfl
  · have hnodup : (ws.map Prod.fst).Nodup := map_fst_of_reloadValues hws ▸ hkeys
    have hpairs : dictOfPairs (ws.map fun e => (PyText.ofString e.1, e.2)) =
        ws.map fun e => (PyText.ofString e.1, e.2) := by
      have hmap := dictOfPairs_map PyText.ofString_injective (fun v : PyObject => v) ws
      rwa [dictOfPairs_of_nodup hnodup] at hmap
    rw [Option.map_some, Option.map_some, Option.map_some, hpairs, display]

end Display

/-! ## Values of Unicode texts -/

end PyObject

def ObjectKey.ofKey : PyKey → ObjectKey
  | .str s => .str (.ofString s)
  | .int n => .int n
  | .float x => .float x
  | .bool b => .bool b
  | .none => .none

theorem ObjectKey.text_ofKey (k : PyKey) : (ObjectKey.ofKey k).text = .ofString k.text := by
  cases k <;> rfl

namespace PyObject

mutual

def ofValue : PyValue → PyObject
  | .none => .none
  | .bool b => .bool b
  | .int n => .int n
  | .float x => .float x
  | .str s => .str (.ofString s)
  | .list items => .list (ofItems items)
  | .tuple items => .tuple (ofItems items)
  | .dict entries => .dict (ofEntries entries)
  | .other text => .other (.ofString text)

def ofItems : List PyValue → List PyObject
  | [] => []
  | v :: items => ofValue v :: ofItems items

def ofEntries : List (PyKey × PyValue) → List (ObjectKey × PyObject)
  | [] => []
  | (k, v) :: entries => (.ofKey k, ofValue v) :: ofEntries entries

end

/-- What `json.loads` returns, as Python holds it. -/
def ofJson (j : Json) : PyObject := ofValue (.ofJson j)

def ofFields (fields : List (String × Json)) : List (PyText × PyObject) :=
  fields.map fun e => (.ofString e.1, ofJson e.2)

theorem ofJson_obj (fields : List (String × Json)) :
    ofJson (.obj fields) = ofPairs (ofFields fields) := by
  have hentries : ofEntries (PyValue.ofFields fields) =
      (ofFields fields).map fun e => (ObjectKey.str e.1, e.2) := by
    induction fields with
    | nil => rfl
    | cons e fields ih =>
        obtain ⟨k, j⟩ := e
        rw [PyValue.ofFields, ofEntries, ih]
        rfl
  rw [ofJson, PyValue.ofJson, ofValue, hentries]
  rfl

mutual

/-- On values of Unicode texts `reload` is that of `PyValue`. -/
theorem reload_ofValue : ∀ v : PyValue, (ofValue v).reload = v.reload.map ofJson
  | .none => rfl
  | .bool _ => rfl
  | .int _ => rfl
  | .float _ => rfl
  | .str s => by
      rw [ofValue, reload, PyText.reload_ofString]
      rfl
  | .list items => by
      rw [ofValue, reload, reloadItems_ofItems, PyValue.reload]
      cases PyValue.reloadItems items <;> rfl
  | .tuple items => by
      rw [ofValue, reload, reloadItems_ofItems, PyValue.reload]
      cases PyValue.reloadItems items <;> rfl
  | .dict entries => by
      rw [ofValue, reload, reloadEntries_ofEntries, PyValue.reload]
      cases PyValue.reloadEntries entries with
      | none => rfl
      | some pairs =>
          simp only [Option.map_some]
          rw [ofJson_obj, ofFields, ofFields, dictOfPairs_map PyText.ofString_injective]
  | .other _ => rfl

theorem reloadItems_ofItems : ∀ items : List PyValue,
    reloadItems (ofItems items) =
      (PyValue.reloadItems items).map fun js => ofItems (PyValue.ofItems js)
  | [] => rfl
  | v :: items => by
      rw [ofItems, reloadItems, reload_ofValue v, reloadItems_ofItems items,
        PyValue.reloadItems]
      cases v.reload with
      | none => rfl
      | some j => cases PyValue.reloadItems items <;> rfl

theorem reloadEntries_ofEntries : ∀ entries : List (PyKey × PyValue),
    reloadEntries (ofEntries entries) = (PyValue.reloadEntries entries).map ofFields
  | [] => rfl
  | (k, v) :: entries => by
      rw [ofEntries, reloadEntries, reload_ofValue v, reloadEntries_ofEntries entries,
        PyValue.reloadEntries, ObjectKey.text_ofKey, PyText.reload_ofString]
      cases v.reload with
      | none => rfl
      | some j => cases PyValue.reloadEntries entries <;> rfl

end

end PyObject

end AgenticGovernance.Support
