import Mathlib

/-!
# Walks along pointers

The entries of a table name a parent, and a walk follows the names until there is none, the
name is not in the table, or it was met before.  The table is finite and a key is entered at
most once, so that every walk ends, whatever the entries point to.

`chainTo_isPathTo` describes the entries that were met, read from the last one back.
-/

namespace AgenticGovernance.Support

/-- A finite table of entries that know their own key and the key of their parent. -/
structure PointerTable (κ α : Type*) where
  get : κ → Option α
  ident : α → κ
  parent : α → Option κ
  keys : Finset κ
  mem_keys : ∀ k, (get k).isSome → k ∈ keys
  ident_of_get : ∀ k a, get k = some a → ident a = k

/-- `path` leads from a root to the entry `k` of a collection: it never meets a key twice,
each entry is the parent of the next, and the parent of the first is not to be had. -/
structure IsPathTo {κ α : Type*} (ident : α → κ) (parent : α → Option κ) (Held : α → Prop)
    (k : κ) (path : List α) : Prop where
  held : ∀ a ∈ path, Held a
  nodup : (path.map ident).Nodup
  nil_iff : path = [] ↔ ∀ a, Held a → ident a ≠ k
  ends : ∀ a ∈ path.getLast?, ident a = k
  linked : path.IsChain fun a b => parent b = some (ident a)
  root : ∀ a ∈ path.head?, ∀ p ∈ parent a,
    (∀ b, Held b → ident b ≠ p) ∨ ∃ b ∈ path, ident b = p

namespace PointerTable

variable {κ α : Type*} (T : PointerTable κ α)

/-- The table has `a` under its own key. -/
def Holds (a : α) : Prop := T.get (T.ident a) = some a

section

variable {T} {k : κ} {a : α}

theorem holds_of_get (hget : T.get k = some a) : T.Holds a := by
  rw [Holds, T.ident_of_get k a hget]
  exact hget

theorem get_eq_none_iff : T.get k = none ↔ ∀ a, T.Holds a → T.ident a ≠ k := by
  constructor
  · intro hnone a hholds hident
    rw [Holds, hident, hnone] at hholds
    simp at hholds
  · intro habsent
    by_contra hsome
    obtain ⟨a, hget⟩ := Option.ne_none_iff_exists'.mp hsome
    exact habsent a (holds_of_get hget) (T.ident_of_get k a hget)

end

variable [DecidableEq κ]

theorem card_keys_sdiff_insert {visited : Finset κ} {k : κ} {a : α} (hnew : k ∉ visited)
    (hget : T.get k = some a) : (T.keys \ insert k visited).card < (T.keys \ visited).card := by
  apply Finset.card_lt_card
  rw [Finset.ssubset_iff_of_subset]
  · refine ⟨k, ?_, ?_⟩
    · have hkey : k ∈ T.keys := T.mem_keys k (by rw [hget]; rfl)
      exact Finset.mem_sdiff.mpr ⟨hkey, hnew⟩
    · simp
  · exact Finset.sdiff_subset_sdiff le_rfl (Finset.subset_insert k visited)

/-- The loop: `chain` is what was met, `visited` the keys that were entered, and the last
argument the key to enter next. -/
def walk (chain : List α) (visited : Finset κ) : Option κ → List α
  | none => chain
  | some current =>
      if current ∈ visited then chain
      else
        match _ : T.get current with
        | none => chain
        | some a => walk (chain ++ [a]) (insert current visited) (T.parent a)
termination_by (T.keys \ visited).card
decreasing_by
  rename_i hnew hget
  exact T.card_keys_sdiff_insert hnew hget

/-- The entries from the last one that the walk from `k` meets down to `k`. -/
def chainTo (k : κ) : List α := (T.walk [] ∅ (some k)).reverse

/-! ## The loop -/

/-- What the loop knows when it is about to enter `next`. -/
structure Walked (k : κ) (chain : List α) (visited : Finset κ) (next : Option κ) : Prop where
  held : ∀ a ∈ chain, T.Holds a
  nodup : (chain.map T.ident).Nodup
  visited : visited = (chain.map T.ident).toFinset
  starts : ∀ a ∈ chain.head?, T.ident a = k
  linked : chain.IsChain fun a b => T.parent a = some (T.ident b)
  next : next = chain.getLast?.elim (some k) T.parent

variable {T} {k current : κ} {chain : List α} {visited : Finset κ} {next : Option κ} {a : α}

theorem walked_start : T.Walked k [] ∅ (some k) where
  held := by simp
  nodup := List.nodup_nil
  visited := rfl
  starts := by simp
  linked := List.IsChain.nil
  next := rfl

namespace Walked

/-- The key that is entered next is the parent of the entry met last. -/
theorem parent_of_getLast? (h : T.Walked k chain visited next) (ha : chain.getLast? = some a) :
    T.parent a = next := by
  rw [h.next, ha]
  rfl

/-- Entering a new key appends its entry. -/
theorem step (h : T.Walked k chain visited (some current)) (hnew : current ∉ visited)
    (hget : T.get current = some a) :
    T.Walked k (chain ++ [a]) (insert current visited) (T.parent a) := by
  have hident : T.ident a = current := T.ident_of_get current a hget
  rw [h.visited, List.mem_toFinset] at hnew
  refine ⟨?_, ?_, ?_, ?_, ?_, ?_⟩
  · intro b hb
    rcases List.mem_append.mp hb with hb | hb
    · exact h.held b hb
    · rw [List.mem_singleton.mp hb]
      exact holds_of_get hget
  · rw [List.map_append, List.map_singleton, hident]
    apply List.Nodup.append h.nodup (List.nodup_singleton current)
    simpa using hnew
  · rw [List.map_append, List.map_singleton, hident, List.toFinset_append, ← h.visited,
      Finset.insert_eq, Finset.union_comm]
    rfl
  · intro b hb
    rcases hchain : chain with _ | ⟨first, rest⟩
    · have hstart : some current = some k := by
        rw [h.next, hchain]
        rfl
      rw [hchain] at hb
      have hb' : a = b := by simpa using hb
      rw [← hb', hident]
      exact Option.some.inj hstart
    · apply h.starts
      rw [hchain] at hb ⊢
      exact hb
  · rw [List.isChain_append]
    refine ⟨h.linked, List.isChain_singleton a, ?_⟩
    intro last hlast b hb
    have hb' : a = b := by simpa using hb
    rw [h.parent_of_getLast? hlast, ← hb', hident]
  · rw [List.getLast?_append]
    rfl

/-- When the loop stops, what was met leads to `k`. -/
theorem stop (h : T.Walked k chain visited next)
    (hstop : ∀ current ∈ next, current ∈ visited ∨ T.get current = none) :
    IsPathTo T.ident T.parent T.Holds k chain.reverse := by
  refine ⟨?_, ?_, ?_, ?_, ?_, ?_⟩
  · intro a ha
    exact h.held a (List.mem_reverse.mp ha)
  · rw [List.map_reverse, List.nodup_reverse]
    exact h.nodup
  · rw [List.reverse_eq_nil_iff, ← get_eq_none_iff]
    constructor
    · intro hnil
      subst hnil
      have hvisited : visited = ∅ := h.visited
      have hcurrent := hstop k (by rw [h.next]; rfl)
      rw [hvisited] at hcurrent
      exact hcurrent.resolve_left (Finset.notMem_empty k)
    · intro hnone
      by_contra hne
      obtain ⟨first, rest, rfl⟩ := List.exists_cons_of_ne_nil hne
      have hholds := h.held first List.mem_cons_self
      rw [Holds, h.starts first rfl, hnone] at hholds
      simp at hholds
  · rw [List.getLast?_reverse]
    exact h.starts
  · rw [List.isChain_reverse]
    exact h.linked
  · rw [List.head?_reverse]
    intro a ha p hp
    rw [h.parent_of_getLast? ha] at hp
    rcases hstop p hp with hmem | hnone
    · rw [h.visited, List.mem_toFinset] at hmem
      obtain ⟨b, hb, hident⟩ := List.mem_map.mp hmem
      exact Or.inr ⟨b, List.mem_reverse.mpr hb, hident⟩
    · exact Or.inl (get_eq_none_iff.mp hnone)

/-- From any point of the loop on, the walk ends in a path to `k`. -/
theorem walk (h : T.Walked k chain visited next) :
    IsPathTo T.ident T.parent T.Holds k (T.walk chain visited next).reverse := by
  induction chain, visited, next using PointerTable.walk.induct T with
  | case1 chain visited =>
      rw [PointerTable.walk]
      exact h.stop (by simp)
  | case2 chain visited current hmem =>
      rw [PointerTable.walk, if_pos hmem]
      exact h.stop (by simp [hmem])
  | case3 chain visited current hnew hnone =>
      rw [PointerTable.walk, if_neg hnew]
      split
      · exact h.stop (by simp [hnone])
      · rename_i b hb
        simp [hnone] at hb
  | case4 chain visited current hnew a hget ih =>
      rw [PointerTable.walk, if_neg hnew]
      split
      · rename_i hnone
        simp [hnone] at hget
      · rename_i b hb
        have hsame : a = b := Option.some.inj (hget.symm.trans hb)
        subst hsame
        exact ih (h.step hnew hget)

end Walked

/-- The walk from `k` read backwards is a path to `k`. -/
theorem chainTo_isPathTo (T : PointerTable κ α) (k : κ) :
    IsPathTo T.ident T.parent T.Holds k (T.chainTo k) :=
  walked_start.walk

/-! ## Walks that decode -/

section Decoding

variable {β : Type*}

/-- The loop over entries that are decoded as they are met; `none` if one of them cannot
be. -/
def walkDecoding (T : PointerTable κ α) (decode : α → Option β) (parent : β → Option κ)
    (chain : List β) (visited : Finset κ) : Option κ → Option (List β)
  | none => some chain
  | some current =>
      if current ∈ visited then some chain
      else
        match _ : T.get current with
        | none => some chain
        | some a =>
            match decode a with
            | none => none
            | some b =>
                walkDecoding T decode parent (chain ++ [b]) (insert current visited) (parent b)
termination_by (T.keys \ visited).card
decreasing_by
  rename_i hnew hget
  exact T.card_keys_sdiff_insert hnew hget

/-- What was met stays met. -/
theorem subset_walk : chain ⊆ T.walk chain visited next := by
  induction chain, visited, next using PointerTable.walk.induct T with
  | case1 chain visited =>
      rw [PointerTable.walk]
      exact List.Subset.refl _
  | case2 chain visited current hmem =>
      rw [PointerTable.walk, if_pos hmem]
      exact List.Subset.refl _
  | case3 chain visited current hnew hnone =>
      rw [PointerTable.walk, if_neg hnew]
      split
      · exact List.Subset.refl _
      · rename_i b hb
        simp [hnone] at hb
  | case4 chain visited current hnew a hget ih =>
      rw [PointerTable.walk, if_neg hnew]
      split
      · exact List.Subset.refl _
      · rename_i b hb
        obtain rfl : a = b := Option.some.inj (hget.symm.trans hb)
        exact List.Subset.trans (List.subset_append_left _ _) ih

/-- The decoding loop returns what the other loop meets, decoded, or it meets an entry that
cannot be. -/
theorem walkDecoding_spec {decode : α → Option β} {parent : β → Option κ}
    (hparent : ∀ a b, decode a = some b → parent b = T.parent a) {decoded : List β}
    (h : chain.map decode = decoded.map some) :
    (∃ out, T.walkDecoding decode parent decoded visited next = some out ∧
      (T.walk chain visited next).map decode = out.map some) ∨
    (T.walkDecoding decode parent decoded visited next = none ∧
      ∃ a ∈ T.walk chain visited next, decode a = none) := by
  induction chain, visited, next using PointerTable.walk.induct T generalizing decoded with
  | case1 chain visited =>
      rw [PointerTable.walk, walkDecoding]
      exact Or.inl ⟨decoded, rfl, h⟩
  | case2 chain visited current hmem =>
      rw [PointerTable.walk, walkDecoding, if_pos hmem, if_pos hmem]
      exact Or.inl ⟨decoded, rfl, h⟩
  | case3 chain visited current hnew hnone =>
      rw [PointerTable.walk, walkDecoding, if_neg hnew, if_neg hnew]
      split
      · exact Or.inl ⟨decoded, rfl, h⟩
      · rename_i b hb
        simp [hnone] at hb
  | case4 chain visited current hnew a hget ih =>
      rw [PointerTable.walk, walkDecoding, if_neg hnew, if_neg hnew]
      split
      · rename_i hnone
        simp [hnone] at hget
      · rename_i a' ha'
        obtain rfl : a = a' := Option.some.inj (hget.symm.trans ha')
        split
        · rename_i hfails
          exact Or.inr ⟨rfl, a, subset_walk List.mem_concat_self, hfails⟩
        · rename_i b hdecode
          rw [hparent a b hdecode]
          apply ih
          rw [List.map_append, List.map_append, h, List.map_singleton, hdecode]
          rfl

end Decoding

/-! ## Walks along a known line -/

/-- Whatever the table has under a key of `line` points to the next key, and whatever it
has under the last one points to nothing. -/
def Points (T : PointerTable κ α) : List κ → Prop
  | [] => True
  | k :: line => (∀ a, T.get k = some a → T.parent a = line.head?) ∧ T.Points line

/-- From the head of a line the walk meets the keys that are there, up to the first that is
not. -/
theorem map_ident_walk {line : List κ} (hpoints : T.Points line) (hnodup : line.Nodup)
    (hnew : ∀ k ∈ line, k ∉ visited) :
    (T.walk chain visited line.head?).map T.ident =
      chain.map T.ident ++ line.takeWhile fun k => (T.get k).isSome := by
  induction line generalizing chain visited with
  | nil =>
      rw [List.head?_nil, PointerTable.walk]
      simp
  | cons k line ih =>
      obtain ⟨hparent, hrest⟩ := hpoints
      obtain ⟨hhead, htail⟩ := List.nodup_cons.mp hnodup
      rw [List.head?_cons, PointerTable.walk, if_neg (hnew k List.mem_cons_self)]
      split
      · rename_i hnone
        rw [List.takeWhile_cons_of_neg (by simp [hnone]), List.append_nil]
      · rename_i a hget
        have hnew' : ∀ k' ∈ line, k' ∉ insert k visited := by
          intro k' hk'
          rw [Finset.mem_insert, not_or]
          refine ⟨?_, hnew k' (List.mem_cons_of_mem k hk')⟩
          intro heq
          exact hhead (heq ▸ hk')
        rw [hparent a hget, ih hrest htail hnew', List.map_append, List.map_singleton,
          T.ident_of_get k a hget, List.takeWhile_cons_of_pos (by simp [hget]),
          List.append_assoc, List.singleton_append]

theorem map_ident_chainTo {line : List κ} (hpoints : T.Points (k :: line))
    (hnodup : (k :: line).Nodup) :
    (T.chainTo k).map T.ident =
      ((k :: line).takeWhile fun k => (T.get k).isSome).reverse := by
  have hwalk : (T.walk [] ∅ (k :: line).head?).map T.ident =
      [].map T.ident ++ (k :: line).takeWhile fun k => (T.get k).isSome :=
    map_ident_walk hpoints hnodup (by simp)
  rw [chainTo, List.map_reverse]
  rw [List.head?_cons, List.map_nil, List.nil_append] at hwalk
  rw [hwalk]

end PointerTable

namespace IsPathTo

variable {κ α : Type*} {ident : α → κ} {parent : α → Option κ} {Held Held' : α → Prop} {k : κ}
  {path : List α}

/-- A path in a collection is a path in a larger one with the same keys. -/
theorem mono (h : IsPathTo ident parent Held k path) (hheld : ∀ a, Held a → Held' a)
    (hkeys : ∀ a, Held' a → ∃ b, Held b ∧ ident b = ident a) :
    IsPathTo ident parent Held' k path := by
  have habsent : ∀ p, (∀ b, Held b → ident b ≠ p) → ∀ b, Held' b → ident b ≠ p := by
    intro p hp b hb hident
    obtain ⟨c, hc, hsame⟩ := hkeys b hb
    exact hp c hc (hsame.trans hident)
  refine ⟨fun a ha => hheld a (h.held a ha), h.nodup, ?_, h.ends, h.linked, ?_⟩
  · rw [h.nil_iff]
    constructor
    · exact habsent k
    · intro hk a ha
      exact hk a (hheld a ha)
  · intro a ha p hp
    exact (h.root a ha p hp).imp_left (habsent p)

end IsPathTo

end AgenticGovernance.Support
