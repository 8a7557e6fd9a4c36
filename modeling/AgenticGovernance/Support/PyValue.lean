import Mathlib
import AgenticGovernance.Support.Json

/-!
# Python values that the `json` module prints

`Json` is what `json.loads` returns.  The values that callers pass to
`json.dumps` are more: tuples, dictionaries whose keys are numbers, booleans or
`None`, and arbitrary objects, which only an encoder with a `default` prints.
`PyValue` is that larger space, `PyValue.ofJson` embeds the smaller one, and
`PyValue.reload` is `json.loads(json.dumps(value))`.

Reloading is the identity exactly on the values that are JSON already.
-/

namespace AgenticGovernance.Support

/-- A dictionary key that `json.dumps` accepts. -/
inductive PyKey where
  | str (s : String)
  | int (n : ℤ)
  | float (x : PyFloat)
  | bool (b : Bool)
  | none
  deriving DecidableEq

/-- `other` is any object outside the types that `json` knows; `text` is what
`str` prints for it. -/
inductive PyValue where
  | none
  | bool (b : Bool)
  | int (n : ℤ)
  | float (x : PyFloat)
  | str (s : String)
  | list (items : List PyValue)
  | tuple (items : List PyValue)
  | dict (entries : List (PyKey × PyValue))
  | other (text : String)

/-- The member name that `json.dumps` prints for a key. -/
def PyKey.text : PyKey → String
  | .str s => s
  | .int n => n.repr
  | .float x => String.ofList x.repr
  | .bool true => "true"
  | .bool false => "false"
  | .none => "null"

/-! ## Dictionaries from pairs -/

section Pairs

variable {κ α : Type*} [DecidableEq κ]

/-- `d[key] = value`, which keeps the position of a key that is there. -/
def setKey : List (κ × α) → κ → α → List (κ × α)
  | [], key, value => [(key, value)]
  | (k, v) :: entries, key, value =>
      if k = key then (key, value) :: entries else (k, v) :: setKey entries key value

/-- `dict(pairs)`: of two pairs with one key the later value stays. -/
def dictOfPairs (pairs : List (κ × α)) : List (κ × α) :=
  pairs.foldl (fun d e => setKey d e.1 e.2) []

variable {d : List (κ × α)} {key : κ} {value : α}

theorem map_fst_setKey :
    (setKey d key value).map Prod.fst =
      if key ∈ d.map Prod.fst then d.map Prod.fst else d.map Prod.fst ++ [key] := by
  induction d with
  | nil => simp [setKey]
  | cons e d ih =>
      obtain ⟨k, v⟩ := e
      rw [setKey]
      by_cases hk : k = key
      · simp [hk]
      · rw [if_neg hk, List.map_cons, ih]
        by_cases hmem : key ∈ d.map Prod.fst
        · simp [hmem]
        · simp [hmem, Ne.symm hk]

theorem mem_setKey {e : κ × α} (h : e ∈ setKey d key value) :
    e = (key, value) ∨ e ∈ d := by
  induction d with
  | nil => simpa [setKey] using h
  | cons f d ih =>
      obtain ⟨k, v⟩ := f
      rw [setKey] at h
      split at h
      · rcases List.mem_cons.mp h with h | h
        · exact Or.inl h
        · exact Or.inr (List.mem_cons_of_mem _ h)
      · rcases List.mem_cons.mp h with rfl | h
        · exact Or.inr List.mem_cons_self
        · exact (ih h).imp_right (List.mem_cons_of_mem _)

/-- The entries of the other keys stay. -/
theorem mem_setKey_of_ne {e : κ × α} (hkey : e.1 ≠ key) (h : e ∈ d) :
    e ∈ setKey d key value := by
  induction d with
  | nil => exact absurd h (by simp)
  | cons f d ih =>
      obtain ⟨k, v⟩ := f
      rw [setKey]
      split
      · rename_i hk
        rcases List.mem_cons.mp h with rfl | h
        · exact absurd hk hkey
        · exact List.mem_cons_of_mem _ h
      · rcases List.mem_cons.mp h with rfl | h
        · exact List.mem_cons_self
        · exact List.mem_cons_of_mem _ (ih h)

theorem nodup_setKey (h : (d.map Prod.fst).Nodup) :
    ((setKey d key value).map Prod.fst).Nodup := by
  rw [map_fst_setKey]
  split
  · exact h
  · rename_i hmem
    exact List.Nodup.append h (List.nodup_singleton _) (by simpa using hmem)

theorem setKey_of_not_mem (h : key ∉ d.map Prod.fst) :
    setKey d key value = d ++ [(key, value)] := by
  induction d with
  | nil => rfl
  | cons e d ih =>
      obtain ⟨k, v⟩ := e
      rw [List.map_cons, List.mem_cons, not_or] at h
      rw [setKey, if_neg (Ne.symm h.1), ih h.2, List.cons_append]

theorem foldl_setKey_of_nodup {pairs : List (κ × α)}
    (h : ((d ++ pairs).map Prod.fst).Nodup) :
    pairs.foldl (fun d e => setKey d e.1 e.2) d = d ++ pairs := by
  induction pairs generalizing d with
  | nil => simp
  | cons e pairs ih =>
      have hnew : e.1 ∉ d.map Prod.fst := by
        rw [List.map_append, List.map_cons] at h
        intro hmem
        exact List.disjoint_of_nodup_append h hmem List.mem_cons_self
      rw [List.foldl_cons, setKey_of_not_mem hnew, ih (by simpa using h)]
      simp

theorem dictOfPairs_of_nodup {pairs : List (κ × α)}
    (h : (pairs.map Prod.fst).Nodup) : dictOfPairs pairs = pairs :=
  foldl_setKey_of_nodup (d := []) h

theorem dictOfPairs_spec (pairs : List (κ × α)) :
    ((dictOfPairs pairs).map Prod.fst).Nodup ∧ ∀ e ∈ dictOfPairs pairs, e ∈ pairs := by
  have hgen : ∀ d : List (κ × α), (d.map Prod.fst).Nodup →
      ((pairs.foldl (fun d e => setKey d e.1 e.2) d).map Prod.fst).Nodup ∧
        ∀ e ∈ pairs.foldl (fun d e => setKey d e.1 e.2) d, e ∈ d ∨ e ∈ pairs := by
    induction pairs with
    | nil =>
        intro d hd
        exact ⟨hd, fun e he => Or.inl he⟩
    | cons f pairs ih =>
        intro d hd
        obtain ⟨hnodup, hmem⟩ := ih (setKey d f.1 f.2) (nodup_setKey hd)
        refine ⟨hnodup, ?_⟩
        intro e he
        rcases hmem e he with he | he
        · rcases mem_setKey he with rfl | he
          · exact Or.inr List.mem_cons_self
          · exact Or.inl he
        · exact Or.inr (List.mem_cons_of_mem _ he)
  obtain ⟨hnodup, hmem⟩ := hgen [] (by simp)
  exact ⟨hnodup, fun e he => (hmem e he).resolve_left List.not_mem_nil⟩

theorem setKey_map {κ' β : Type*} [DecidableEq κ'] {g : κ → κ'} (hg : Function.Injective g)
    (f : α → β) :
    setKey (d.map fun e => (g e.1, f e.2)) (g key) (f value) =
      (setKey d key value).map fun e => (g e.1, f e.2) := by
  induction d with
  | nil => rfl
  | cons e d ih =>
      obtain ⟨k, v⟩ := e
      rw [List.map_cons, setKey, setKey]
      by_cases hk : k = key
      · rw [if_pos (congrArg g hk), if_pos hk, List.map_cons]
      · rw [if_neg (hg.ne hk), if_neg hk, List.map_cons, ih]

/-- A dictionary can be renamed after it was built. -/
theorem dictOfPairs_map {κ' β : Type*} [DecidableEq κ'] {g : κ → κ'}
    (hg : Function.Injective g) (f : α → β) (pairs : List (κ × α)) :
    dictOfPairs (pairs.map fun e => (g e.1, f e.2)) =
      (dictOfPairs pairs).map fun e => (g e.1, f e.2) := by
  have hgen : ∀ d : List (κ × α),
      (pairs.map fun e => (g e.1, f e.2)).foldl (fun d e => setKey d e.1 e.2)
          (d.map fun e => (g e.1, f e.2)) =
        (pairs.foldl (fun d e => setKey d e.1 e.2) d).map fun e => (g e.1, f e.2) := by
    induction pairs with
    | nil => exact fun _ => rfl
    | cons e pairs ih =>
        intro d
        rw [List.map_cons, List.foldl_cons, setKey_map hg f, ih]
        rfl
  exact hgen []

theorem lookup_map_snd {β : Type*} (g : α → β) (key : κ) (l : List (κ × α)) :
    (l.map fun e => (e.1, g e.2)).lookup key = (l.lookup key).map g := by
  induction l with
  | nil => rfl
  | cons e l ih =>
      rw [List.map_cons, List.lookup_cons, List.lookup_cons, ih]
      split
      · rfl
      · rfl

end Pairs

/-! ## Reloading -/

mutual

/-- `json.loads(json.dumps(value))`; `none` stands for the `TypeError` that an
encoder without a `default` raises. -/
def PyValue.reload : PyValue → Option Json
  | .none => some .null
  | .bool b => some (.bool b)
  | .int n => some (.int n)
  | .float x => some (.float x)
  | .str s => some (.str s)
  | .list items => (PyValue.reloadItems items).map .arr
  | .tuple items => (PyValue.reloadItems items).map .arr
  | .dict entries => (PyValue.reloadEntries entries).map fun pairs => .obj (dictOfPairs pairs)
  | .other _ => Option.none

def PyValue.reloadItems : List PyValue → Option (List Json)
  | [] => some []
  | v :: items => do
      let j ← v.reload
      let rest ← PyValue.reloadItems items
      return j :: rest

def PyValue.reloadEntries : List (PyKey × PyValue) → Option (List (String × Json))
  | [] => some []
  | (k, v) :: entries => do
      let j ← v.reload
      let rest ← PyValue.reloadEntries entries
      return (k.text, j) :: rest

end

mutual

/-- A JSON value as Python holds it. -/
def PyValue.ofJson : Json → PyValue
  | .null => .none
  | .bool b => .bool b
  | .int n => .int n
  | .float x => .float x
  | .str s => .str s
  | .arr items => .list (PyValue.ofItems items)
  | .obj fields => .dict (PyValue.ofFields fields)

def PyValue.ofItems : List Json → List PyValue
  | [] => []
  | j :: items => PyValue.ofJson j :: PyValue.ofItems items

def PyValue.ofFields : List (String × Json) → List (PyKey × PyValue)
  | [] => []
  | (k, j) :: fields => (.str k, PyValue.ofJson j) :: PyValue.ofFields fields

end

mutual

/-- No object has two entries with one key, as in every Python dictionary. -/
def Json.DistinctKeys : Json → Prop
  | .arr items => Json.DistinctItems items
  | .obj fields => (fields.map Prod.fst).Nodup ∧ Json.DistinctFields fields
  | _ => True

def Json.DistinctItems : List Json → Prop
  | [] => True
  | j :: items => j.DistinctKeys ∧ Json.DistinctItems items

def Json.DistinctFields : List (String × Json) → Prop
  | [] => True
  | (_, j) :: fields => j.DistinctKeys ∧ Json.DistinctFields fields

end

theorem Json.distinctFields_iff {fields : List (String × Json)} :
    Json.DistinctFields fields ↔ ∀ e ∈ fields, e.2.DistinctKeys := by
  induction fields with
  | nil => simp [Json.DistinctFields]
  | cons e fields ih =>
      obtain ⟨k, j⟩ := e
      rw [Json.DistinctFields, ih, List.forall_mem_cons]

mutual

/-- A JSON value reloads as itself. -/
theorem PyValue.reload_ofJson : ∀ j : Json, j.DistinctKeys →
    (PyValue.ofJson j).reload = some j
  | .null, _ => rfl
  | .bool _, _ => rfl
  | .int _, _ => rfl
  | .float _, _ => rfl
  | .str _, _ => rfl
  | .arr items, h => by
      rw [Json.DistinctKeys] at h
      rw [PyValue.ofJson, PyValue.reload, PyValue.reloadItems_ofItems items h]
      rfl
  | .obj fields, h => by
      rw [Json.DistinctKeys] at h
      rw [PyValue.ofJson, PyValue.reload, PyValue.reloadEntries_ofFields fields h.2,
        Option.map_some, dictOfPairs_of_nodup h.1]

theorem PyValue.reloadItems_ofItems : ∀ items : List Json, Json.DistinctItems items →
    PyValue.reloadItems (PyValue.ofItems items) = some items
  | [], _ => rfl
  | j :: items, h => by
      rw [Json.DistinctItems] at h
      rw [PyValue.ofItems, PyValue.reloadItems, PyValue.reload_ofJson j h.1,
        PyValue.reloadItems_ofItems items h.2]
      rfl

theorem PyValue.reloadEntries_ofFields : ∀ fields : List (String × Json),
    Json.DistinctFields fields →
      PyValue.reloadEntries (PyValue.ofFields fields) = some fields
  | [], _ => rfl
  | (k, j) :: fields, h => by
      rw [Json.DistinctFields] at h
      rw [PyValue.ofFields, PyValue.reloadEntries, PyValue.reload_ofJson j h.1,
        PyValue.reloadEntries_ofFields fields h.2]
      rfl

end

mutual

/-- What `json.loads` returns has no repeated keys. -/
theorem PyValue.distinctKeys_of_reload : ∀ (v : PyValue) {j : Json},
    v.reload = some j → j.DistinctKeys
  | .none, j, h => by cases h; trivial
  | .bool _, j, h => by cases h; trivial
  | .int _, j, h => by cases h; trivial
  | .float _, j, h => by cases h; trivial
  | .str _, j, h => by cases h; trivial
  | .list items, j, h => by
      rw [PyValue.reload] at h
      obtain ⟨js, hjs, rfl⟩ := Option.map_eq_some_iff.mp h
      exact PyValue.distinctItems_of_reloadItems items hjs
  | .tuple items, j, h => by
      rw [PyValue.reload] at h
      obtain ⟨js, hjs, rfl⟩ := Option.map_eq_some_iff.mp h
      exact PyValue.distinctItems_of_reloadItems items hjs
  | .dict entries, j, h => by
      rw [PyValue.reload] at h
      obtain ⟨pairs, hpairs, rfl⟩ := Option.map_eq_some_iff.mp h
      have hvalues := Json.distinctFields_iff.mp
        (PyValue.distinctFields_of_reloadEntries entries hpairs)
      obtain ⟨hnodup, hmem⟩ := dictOfPairs_spec pairs
      refine ⟨hnodup, Json.distinctFields_iff.mpr ?_⟩
      intro e he
      exact hvalues e (hmem e he)
  | .other _, j, h => by cases h

theorem PyValue.distinctItems_of_reloadItems : ∀ (items : List PyValue) {js : List Json},
    PyValue.reloadItems items = some js → Json.DistinctItems js
  | [], js, h => by cases h; trivial
  | v :: items, js, h => by
      simp only [PyValue.reloadItems, Option.bind_eq_bind, Option.bind_eq_some_iff,
        Option.pure_def, Option.some.injEq] at h
      obtain ⟨j, hj, rest, hrest, rfl⟩ := h
      exact ⟨PyValue.distinctKeys_of_reload v hj,
        PyValue.distinctItems_of_reloadItems items hrest⟩

theorem PyValue.distinctFields_of_reloadEntries :
    ∀ (entries : List (PyKey × PyValue)) {fields : List (String × Json)},
      PyValue.reloadEntries entries = some fields → Json.DistinctFields fields
  | [], fields, h => by cases h; trivial
  | (k, v) :: entries, fields, h => by
      simp only [PyValue.reloadEntries, Option.bind_eq_bind, Option.bind_eq_some_iff,
        Option.pure_def, Option.some.injEq] at h
      obtain ⟨j, hj, rest, hrest, rfl⟩ := h
      exact ⟨PyValue.distinctKeys_of_reload v hj,
        PyValue.distinctFields_of_reloadEntries entries hrest⟩

end

mutual

theorem PyValue.ofJson_inj : ∀ (i : Json) {j : Json},
    PyValue.ofJson i = PyValue.ofJson j → i = j
  | .null, j, h => by cases j <;> simp_all [PyValue.ofJson]
  | .bool _, j, h => by cases j <;> simp_all [PyValue.ofJson]
  | .int _, j, h => by cases j <;> simp_all [PyValue.ofJson]
  | .float _, j, h => by cases j <;> simp_all [PyValue.ofJson]
  | .str _, j, h => by cases j <;> simp_all [PyValue.ofJson]
  | .arr is, j, h => by
      cases j with
      | arr js =>
          simp only [PyValue.ofJson, PyValue.list.injEq] at h
          rw [PyValue.ofItems_inj is h]
      | _ => simp [PyValue.ofJson] at h
  | .obj fs, j, h => by
      cases j with
      | obj gs =>
          simp only [PyValue.ofJson, PyValue.dict.injEq] at h
          rw [PyValue.ofFields_inj fs h]
      | _ => simp [PyValue.ofJson] at h

theorem PyValue.ofItems_inj : ∀ (is : List Json) {js : List Json},
    PyValue.ofItems is = PyValue.ofItems js → is = js
  | [], [], _ => rfl
  | [], _ :: _, h => by simp [PyValue.ofItems] at h
  | _ :: _, [], h => by simp [PyValue.ofItems] at h
  | i :: is, j :: js, h => by
      simp only [PyValue.ofItems, List.cons.injEq] at h
      rw [PyValue.ofJson_inj i h.1, PyValue.ofItems_inj is h.2]

theorem PyValue.ofFields_inj : ∀ (fs : List (String × Json)) {gs : List (String × Json)},
    PyValue.ofFields fs = PyValue.ofFields gs → fs = gs
  | [], [], _ => rfl
  | [], _ :: _, h => by simp [PyValue.ofFields] at h
  | _ :: _, [], h => by simp [PyValue.ofFields] at h
  | (k, i) :: fs, (l, j) :: gs, h => by
      simp only [PyValue.ofFields, List.cons.injEq, Prod.mk.injEq, PyKey.str.injEq] at h
      rw [h.1.1, PyValue.ofJson_inj i h.1.2, PyValue.ofFields_inj fs h.2]

end

/-! ## Printing with a default -/

mutual

/-- `json.dumps(value, default=str)`, with the separators `", "` and `": "`. -/
def PyValue.dumpsDefault : PyValue → List Char
  | .none => ['n', 'u', 'l', 'l']
  | .bool true => ['t', 'r', 'u', 'e']
  | .bool false => ['f', 'a', 'l', 's', 'e']
  | .int n => n.repr.toList
  | .float x => x.repr
  | .str s => stringText s.toList
  | .list [] => ['[', ']']
  | .list (v :: items) => '[' :: (v.dumpsDefault ++ PyValue.dumpsDefaultItems items)
  | .tuple [] => ['[', ']']
  | .tuple (v :: items) => '[' :: (v.dumpsDefault ++ PyValue.dumpsDefaultItems items)
  | .dict [] => ['{', '}']
  | .dict ((k, v) :: entries) =>
      '{' :: (stringText k.text.toList ++ ':' :: ' ' ::
        (v.dumpsDefault ++ PyValue.dumpsDefaultEntries entries))
  | .other text => stringText text.toList

def PyValue.dumpsDefaultItems : List PyValue → List Char
  | [] => [']']
  | v :: items => ',' :: ' ' :: (v.dumpsDefault ++ PyValue.dumpsDefaultItems items)

def PyValue.dumpsDefaultEntries : List (PyKey × PyValue) → List Char
  | [] => ['}']
  | (k, v) :: entries =>
      ',' :: ' ' :: (stringText k.text.toList ++ ':' :: ' ' ::
        (v.dumpsDefault ++ PyValue.dumpsDefaultEntries entries))

end

/-! ### Integers that are too long to be printed -/

/-- `sys.get_int_max_str_digits()`; to print an integer of more digits is a `ValueError`. -/
def maxStrDigits : ℕ := 4300

def printsInt (n : ℤ) : Bool := n.natAbs.repr.length ≤ maxStrDigits

def PyKey.prints : PyKey → Bool
  | .int n => printsInt n
  | _ => true

mutual

/-- `json.dumps` prints all integers of the value. -/
def PyValue.prints : PyValue → Bool
  | .int n => printsInt n
  | .list items => PyValue.printsItems items
  | .tuple items => PyValue.printsItems items
  | .dict entries => PyValue.printsEntries entries
  | _ => true

def PyValue.printsItems : List PyValue → Bool
  | [] => true
  | v :: items => v.prints && PyValue.printsItems items

def PyValue.printsEntries : List (PyKey × PyValue) → Bool
  | [] => true
  | (k, v) :: entries => k.prints && v.prints && PyValue.printsEntries entries

end

theorem PyValue.printsEntries_iff {entries : List (PyKey × PyValue)} :
    PyValue.printsEntries entries = true ↔
      ∀ e ∈ entries, e.1.prints = true ∧ e.2.prints = true := by
  induction entries with
  | nil => simp [PyValue.printsEntries]
  | cons e entries ih =>
      obtain ⟨k, v⟩ := e
      rw [PyValue.printsEntries, Bool.and_eq_true, Bool.and_eq_true, ih, List.forall_mem_cons]

/-! ### Lengths -/

theorem length_escapeChar_le (c : Char) : (escapeChar c).length ≤ 12 := by
  rcases escapeChar_cases c with ⟨h, -⟩ | ⟨x, h, -⟩ | ⟨h, -⟩ | ⟨h, -⟩
  · simp [h]
  · simp [h]
  · simp [h, escapeUnit]
  · simp [h, escapeUnit]

theorem length_stringText_le (s : List Char) : (stringText s).length ≤ 12 * s.length + 2 := by
  have hbody : (s.flatMap escapeChar).length ≤ 12 * s.length := by
    induction s with
    | nil => simp
    | cons c s ih =>
        have hc := length_escapeChar_le c
        rw [List.flatMap_cons, List.length_append, List.length_cons]
        omega
  rw [stringText, List.length_cons, List.length_append, List.length_singleton]
  omega

/-- What an entry adds to the text of its dictionary, with a separator before it. -/
def PyValue.entrySize (e : PyKey × PyValue) : ℕ :=
  (stringText e.1.text.toList).length + e.2.dumpsDefault.length + 4

theorem PyValue.length_dumpsDefaultEntries (entries : List (PyKey × PyValue)) :
    (PyValue.dumpsDefaultEntries entries).length =
      (entries.map PyValue.entrySize).sum + 1 := by
  induction entries with
  | nil => rfl
  | cons e entries ih =>
      rw [PyValue.dumpsDefaultEntries, List.map_cons, List.sum_cons, PyValue.entrySize]
      simp only [List.length_cons, List.length_append, ih]
      omega

theorem PyValue.length_dumpsDefault_dict_le (entries : List (PyKey × PyValue)) :
    (PyValue.dict entries).dumpsDefault.length ≤ (entries.map PyValue.entrySize).sum + 2 := by
  rcases entries with _ | ⟨e, entries⟩
  · simp [PyValue.dumpsDefault]
  · rw [PyValue.dumpsDefault, List.map_cons, List.sum_cons, PyValue.entrySize]
    simp only [List.length_cons, List.length_append, PyValue.length_dumpsDefaultEntries]
    omega

end AgenticGovernance.Support
