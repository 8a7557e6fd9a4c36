import Mathlib

/-!
# Ordered tables with unique keys

`Keyed κ α` is a dictionary in insertion order, or a table with a primary key.
Every operation is described by what `get?` finds afterwards.
-/

namespace AgenticGovernance.Support

structure Keyed (κ α : Type*) where
  entries : List (κ × α)
  nodup : (entries.map Prod.fst).Nodup

namespace Keyed

variable {κ α β : Type*} [DecidableEq κ]

def empty : Keyed κ α := ⟨[], List.nodup_nil⟩

def get? (d : Keyed κ α) (k : κ) : Option α := d.entries.lookup k

/-- Updates the value of `k`, or appends `new` if there is none. -/
def upsertEntries (k : κ) (new : α) (update : α → α) : List (κ × α) → List (κ × α)
  | [] => [(k, new)]
  | (k', v) :: entries =>
      if k' = k then (k, update v) :: entries
      else (k', v) :: upsertEntries k new update entries

theorem map_fst_upsertEntries (k : κ) (new : α) (update : α → α) (l : List (κ × α)) :
    (upsertEntries k new update l).map Prod.fst =
      if k ∈ l.map Prod.fst then l.map Prod.fst else l.map Prod.fst ++ [k] := by
  induction l with
  | nil => simp [upsertEntries]
  | cons e l ih =>
      rw [upsertEntries]
      by_cases hk : e.1 = k
      · simp [hk]
      · rw [if_neg hk, List.map_cons, ih]
        by_cases hmem : k ∈ l.map Prod.fst
        · simp [hmem]
        · simp [hmem, Ne.symm hk]

theorem nodup_upsertEntries {k : κ} {new : α} {update : α → α} {l : List (κ × α)}
    (h : (l.map Prod.fst).Nodup) : ((upsertEntries k new update l).map Prod.fst).Nodup := by
  rw [map_fst_upsertEntries]
  by_cases hmem : k ∈ l.map Prod.fst
  · rwa [if_pos hmem]
  · rw [if_neg hmem]
    exact List.Nodup.append h (List.nodup_singleton k) (by simpa using hmem)

/-- `INSERT … ON CONFLICT DO UPDATE`. -/
def upsert (d : Keyed κ α) (k : κ) (new : α) (update : α → α) : Keyed κ α :=
  ⟨upsertEntries k new update d.entries, nodup_upsertEntries d.nodup⟩

/-- `d[k] = v`, which keeps the position of a key that is there. -/
def set (d : Keyed κ α) (k : κ) (v : α) : Keyed κ α := d.upsert k v fun _ => v

/-- The entries that `f` keeps, with the values it gives them. -/
def filterMap (d : Keyed κ α) (f : κ → α → Option β) : Keyed κ β where
  entries := d.entries.filterMap fun e => (f e.1 e.2).map (e.1, ·)
  nodup := by
    refine d.nodup.sublist ?_
    induction d.entries with
    | nil => exact List.Sublist.slnil
    | cons e l ih =>
        rcases hf : f e.1 e.2 with _ | b
        · rw [List.filterMap_cons_none (by simp [hf])]
          exact ih.cons _
        · rw [List.filterMap_cons_some (by simp [hf]; rfl)]
          exact ih.cons_cons _

/-- `UPDATE` of every entry. -/
def updateAll (d : Keyed κ α) (f : κ → α → α) : Keyed κ α :=
  d.filterMap fun k v => some (f k v)

/-- `UPDATE … WHERE key = k`. -/
def update (d : Keyed κ α) (k : κ) (f : α → α) : Keyed κ α :=
  d.updateAll fun k' v => if k' = k then f v else v

/-- `DELETE … WHERE p`. -/
def deleteWhere (d : Keyed κ α) (p : κ → α → Bool) : Keyed κ α :=
  d.filterMap fun k v => if p k v then none else some v

variable {d : Keyed κ α} {k k' : κ}

@[simp] theorem get?_empty : (empty : Keyed κ α).get? k = none := rfl

theorem lookup_cons_self (v : α) (l : List (κ × α)) : ((k, v) :: l).lookup k = some v := by
  simp

theorem lookup_cons_of_ne (hne : k ≠ k') (v : α) (l : List (κ × α)) :
    ((k', v) :: l).lookup k = l.lookup k := by
  rw [List.lookup_cons, beq_false_of_ne hne]

theorem lookup_upsertEntries_self {new : α} {f : α → α} (l : List (κ × α)) :
    (upsertEntries k new f l).lookup k = some (((l.lookup k).map f).getD new) := by
  induction l with
  | nil => simp [upsertEntries]
  | cons e l ih =>
      obtain ⟨k', v⟩ := e
      rw [upsertEntries]
      by_cases hk : k' = k
      · subst hk
        simp
      · rw [if_neg hk, lookup_cons_of_ne (Ne.symm hk), lookup_cons_of_ne (Ne.symm hk), ih]

theorem lookup_upsertEntries_of_ne {new : α} {f : α → α} (hne : k' ≠ k)
    (l : List (κ × α)) : (upsertEntries k new f l).lookup k' = l.lookup k' := by
  induction l with
  | nil => rw [upsertEntries, lookup_cons_of_ne hne]
  | cons e l ih =>
      obtain ⟨key, v⟩ := e
      rw [upsertEntries]
      by_cases hk : key = k
      · subst hk
        rw [if_pos rfl, lookup_cons_of_ne hne, lookup_cons_of_ne hne]
      · rw [if_neg hk, List.lookup_cons, List.lookup_cons, ih]

theorem get?_upsert_self {new : α} {f : α → α} :
    (d.upsert k new f).get? k = some (((d.get? k).map f).getD new) :=
  lookup_upsertEntries_self d.entries

theorem get?_upsert_of_ne {new : α} {f : α → α} (hne : k' ≠ k) :
    (d.upsert k new f).get? k' = d.get? k' :=
  lookup_upsertEntries_of_ne hne d.entries

@[simp] theorem get?_set_self {v : α} : (d.set k v).get? k = some v := by
  rw [set, get?_upsert_self]
  rcases d.get? k with _ | w
  · rfl
  · rfl

theorem get?_set_of_ne {v : α} (hne : k' ≠ k) : (d.set k v).get? k' = d.get? k' :=
  get?_upsert_of_ne hne

/-- The entries are what `get?` finds. -/
theorem mem_entries_iff {v : α} : (k, v) ∈ d.entries ↔ d.get? k = some v := by
  have hgen : ∀ l : List (κ × α), (l.map Prod.fst).Nodup →
      ((k, v) ∈ l ↔ l.lookup k = some v) := by
    intro l
    induction l with
    | nil => simp
    | cons e l ih =>
        obtain ⟨key, w⟩ := e
        intro hnodup
        rw [List.map_cons, List.nodup_cons] at hnodup
        rw [List.mem_cons, ih hnodup.2]
        by_cases hk : k = key
        · subst hk
          have habsent : l.lookup k ≠ some v := by
            intro hfound
            exact hnodup.1 (List.mem_map.mpr ⟨(k, v), (ih hnodup.2).mpr hfound, rfl⟩)
          simp [habsent, eq_comm]
        · rw [lookup_cons_of_ne hk]
          simp [hk]
  exact hgen d.entries d.nodup

theorem lookup_filterMap_eq_none {f : κ → α → Option β} {l : List (κ × α)}
    (h : k ∉ l.map Prod.fst) :
    (l.filterMap fun e => (f e.1 e.2).map (e.1, ·)).lookup k = none := by
  rw [List.lookup_eq_none_iff]
  intro e he
  obtain ⟨e', he', hmap⟩ := List.mem_filterMap.mp he
  obtain ⟨b, -, rfl⟩ := Option.map_eq_some_iff.mp hmap
  have hne : k ≠ e'.1 := fun heq => h (heq ▸ List.mem_map_of_mem he')
  simpa using hne

/-- Unique keys make a filtered table agree with its source entry by entry. -/
theorem lookup_filterMap {f : κ → α → Option β} {l : List (κ × α)}
    (hnodup : (l.map Prod.fst).Nodup) :
    (l.filterMap fun e => (f e.1 e.2).map (e.1, ·)).lookup k = (l.lookup k).bind (f k) := by
  induction l with
  | nil => rfl
  | cons e l ih =>
      obtain ⟨key, v⟩ := e
      rw [List.map_cons, List.nodup_cons] at hnodup
      have hrest := ih hnodup.2
      by_cases hk : k = key
      · subst hk
        rw [lookup_cons_self, Option.bind_some]
        rcases hf : f k v with _ | b
        · rw [List.filterMap_cons_none (by simp [hf])]
          exact lookup_filterMap_eq_none hnodup.1
        · rw [List.filterMap_cons_some (b := (k, b)) (by simp [hf]), lookup_cons_self]
      · rw [lookup_cons_of_ne hk]
        rcases hf : f key v with _ | b
        · rw [List.filterMap_cons_none (by simp [hf])]
          exact hrest
        · rw [List.filterMap_cons_some (b := (key, b)) (by simp [hf]), lookup_cons_of_ne hk]
          exact hrest

@[simp] theorem get?_filterMap {f : κ → α → Option β} :
    (d.filterMap f).get? k = (d.get? k).bind (f k) :=
  lookup_filterMap d.nodup

@[simp] theorem get?_updateAll {f : κ → α → α} :
    (d.updateAll f).get? k = (d.get? k).map (f k) := by
  rw [updateAll, get?_filterMap]
  rcases d.get? k with _ | v
  · rfl
  · rfl

theorem get?_deleteWhere_of_kept {p : κ → α → Bool} {v : α} (h : d.get? k = some v)
    (hkept : p k v = false) : (d.deleteWhere p).get? k = some v := by
  simp [deleteWhere, h, hkept]

theorem get?_deleteWhere {p : κ → α → Bool} :
    (d.deleteWhere p).get? k = (d.get? k).bind fun v => if p k v then none else some v :=
  get?_filterMap

/-! ## The same entries -/

/-- The tables hold the same entries, in any order. -/
def Agrees (d d' : Keyed κ α) : Prop := ∀ k, d.get? k = d'.get? k

namespace Agrees

variable {d' : Keyed κ α}

theorem refl (d : Keyed κ α) : d.Agrees d := fun _ => rfl

theorem upsert (h : d.Agrees d') {new new' : α} {f f' : α → α}
    (hself : ((d.get? k).map f).getD new = ((d.get? k).map f').getD new') :
    (d.upsert k new f).Agrees (d'.upsert k new' f') := by
  intro k'
  by_cases hk : k' = k
  · rw [hk, get?_upsert_self, get?_upsert_self, hself, h k]
  · rw [get?_upsert_of_ne hk, get?_upsert_of_ne hk, h k']

theorem filterMap (h : d.Agrees d') (f : κ → α → Option β) :
    (d.filterMap f).Agrees (d'.filterMap f) := by
  intro k
  rw [get?_filterMap, get?_filterMap, h k]

theorem updateAll (h : d.Agrees d') {f f' : κ → α → α} (hf : ∀ k v, f k v = f' k v) :
    (d.updateAll f).Agrees (d'.updateAll f') := by
  have hfun : f = f' := by
    funext k v
    exact hf k v
  rw [hfun]
  exact h.filterMap _

theorem perm (h : d.Agrees d') : d.entries.Perm d'.entries := by
  rw [List.perm_ext_iff_of_nodup d.nodup.of_map d'.nodup.of_map]
  intro e
  rw [mem_entries_iff, mem_entries_iff, h e.1]

end Agrees

/-! ## Other keys -/

section MapKeys

variable {κ' : Type*}

omit [DecidableEq κ] in
theorem map_fst_mapKeys (f : κ → κ') (l : List (κ × α)) :
    (l.map fun e => (f e.1, e.2)).map Prod.fst = (l.map Prod.fst).map f := by
  rw [List.map_map, List.map_map]
  rfl

/-- The entries under other keys. -/
def mapKeys (d : Keyed κ α) (f : κ ↪ κ') : Keyed κ' α where
  entries := d.entries.map fun e => (f e.1, e.2)
  nodup := by
    rw [map_fst_mapKeys]
    exact d.nodup.map f.injective

theorem lookup_mapKeys [DecidableEq κ'] (f : κ ↪ κ') (l : List (κ × α)) :
    (l.map fun e => (f e.1, e.2)).lookup (f k) = l.lookup k := by
  induction l with
  | nil => rfl
  | cons e l ih =>
      obtain ⟨key, v⟩ := e
      rw [List.map_cons]
      by_cases hk : k = key
      · rw [hk, lookup_cons_self, lookup_cons_self]
      · have hne : f k ≠ f key := fun h => hk (f.injective h)
        rw [lookup_cons_of_ne hk, lookup_cons_of_ne hne, ih]

theorem get?_mapKeys [DecidableEq κ'] {f : κ ↪ κ'} : (d.mapKeys f).get? (f k) = d.get? k :=
  lookup_mapKeys f d.entries

end MapKeys

end Keyed

end AgenticGovernance.Support
