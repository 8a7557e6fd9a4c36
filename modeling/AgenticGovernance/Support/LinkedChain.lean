import Mathlib

/-!
# Linear hash chains

A hash chain is a list whose entries each name the digest of the entry before
them.  `LinkedFrom p l` says that `l` continues a chain whose last digest is
`p`, with `p = none` for a chain that starts at its genesis entry.

The results are independent of what an entry is: `prev` and `digest` read the
two chain fields off an arbitrary type.
-/

namespace AgenticGovernance.Support

variable {α H : Type*}

section LinkedFrom

variable (prev : α → Option H) (digest : α → H)

/-- Every entry of `l` names the digest of the entry before it, and the first
one names `p`. -/
def LinkedFrom : Option H → List α → Prop
  | _, [] => True
  | p, a :: l => prev a = p ∧ LinkedFrom (some (digest a)) l

/-- The digest a further entry has to name after `l`, when it is `p` before. -/
def tip (p : Option H) (l : List α) : Option H :=
  l.foldl (fun _ a => some (digest a)) p

variable {prev digest}

@[simp] theorem tip_nil (p : Option H) : tip digest p [] = p := rfl

@[simp] theorem tip_cons (p : Option H) (a : α) (l : List α) :
    tip digest p (a :: l) = tip digest (some (digest a)) l := rfl

theorem tip_append (p : Option H) (l m : List α) :
    tip digest p (l ++ m) = tip digest (tip digest p l) m := by
  simp [tip, List.foldl_append]

@[simp] theorem tip_concat (p : Option H) (l : List α) (a : α) :
    tip digest p (l ++ [a]) = some (digest a) := by
  rw [tip_append]
  rfl

theorem tip_eq_getLast? (l : List α) :
    tip digest none l = l.getLast?.map digest := by
  induction l using List.reverseRecOn with
  | nil => rfl
  | append_singleton l a => simp

theorem tip_eq_none_iff {l : List α} : tip digest none l = none ↔ l = [] := by
  rw [tip_eq_getLast?]
  simp

@[simp] theorem linkedFrom_nil (p : Option H) : LinkedFrom prev digest p [] :=
  trivial

@[simp] theorem linkedFrom_cons (p : Option H) (a : α) (l : List α) :
    LinkedFrom prev digest p (a :: l) ↔
      prev a = p ∧ LinkedFrom prev digest (some (digest a)) l := Iff.rfl

theorem linkedFrom_append (p : Option H) (l m : List α) :
    LinkedFrom prev digest p (l ++ m) ↔
      LinkedFrom prev digest p l ∧ LinkedFrom prev digest (tip digest p l) m := by
  induction l generalizing p with
  | nil => simp
  | cons a l ih => simp [ih, and_assoc]

theorem linkedFrom_concat (p : Option H) (l : List α) (a : α) :
    LinkedFrom prev digest p (l ++ [a]) ↔
      LinkedFrom prev digest p l ∧ prev a = tip digest p l := by
  simp [linkedFrom_append]

/-- A linked list in terms of its consecutive pairs. -/
theorem linkedFrom_cons_iff_isChain (p : Option H) (a : α) (l : List α) :
    LinkedFrom prev digest p (a :: l) ↔
      prev a = p ∧ (a :: l).IsChain fun x y => prev y = some (digest x) := by
  induction l generalizing p a with
  | nil => simp
  | cons b l ih => rw [linkedFrom_cons, ih, List.isChain_cons_cons]

theorem linkedFrom_none_iff_isChain (l : List α) :
    LinkedFrom prev digest none l ↔
      (∀ a, l.head? = some a → prev a = none) ∧
        l.IsChain fun x y => prev y = some (digest x) := by
  cases l with
  | nil => simp
  | cons a l => rw [linkedFrom_cons_iff_isChain]; simp

/-! ## Splits -/

theorem linkedFrom_map (f : β → α) (p : Option H) (l : List β) :
    LinkedFrom prev digest p (l.map f) ↔
      LinkedFrom (fun b => prev (f b)) (fun b => digest (f b)) p l := by
  induction l generalizing p with
  | nil => simp
  | cons b l ih => simp [ih]

/-- A list that is linked from some predecessor, in terms of its splits. -/
theorem exists_linkedFrom_iff {g : Prop} (l : List α) :
    (∃ p, LinkedFrom prev digest p l ∧ (g → p = none)) ↔
      ∀ before a after, l = before ++ a :: after →
        (before = [] → g → prev a = none) ∧
          ∀ b, before.getLast? = some b → prev a = some (digest b) := by
  constructor
  · rintro ⟨p, hlinked, hgenesis⟩ before a after rfl
    rw [linkedFrom_append, linkedFrom_cons] at hlinked
    refine ⟨?_, ?_⟩
    · rintro rfl hg
      exact hlinked.2.1.trans (hgenesis hg)
    · intro b hb
      obtain ⟨init, rfl⟩ := List.getLast?_eq_some_iff.mp hb
      rw [hlinked.2.1, tip_concat]
  · intro h
    induction l using List.reverseRecOn with
    | nil => exact ⟨none, trivial, fun _ => rfl⟩
    | append_singleton l a ih =>
        obtain ⟨hfirst, hnext⟩ := h l a [] rfl
        rcases l.eq_nil_or_concat' with rfl | ⟨init, b, rfl⟩
        · exact ⟨prev a, ⟨rfl, trivial⟩, hfirst rfl⟩
        · obtain ⟨p, hlinked, hgenesis⟩ := ih (by
            intro before x after hsplit
            exact h before x (after ++ [a]) (by rw [hsplit]; simp))
          refine ⟨p, (linkedFrom_concat _ _ _).mpr ⟨hlinked, ?_⟩, hgenesis⟩
          rw [tip_concat]
          exact hnext b (by simp)

/-- A split of a filtered list comes from a split of the list. -/
theorem filter_eq_append_cons_iff {P : α → Bool} {l before after : List α} {a : α} :
    l.filter P = before ++ a :: after ↔
      ∃ pre post, l = pre ++ a :: post ∧ P a = true ∧ pre.filter P = before ∧
        post.filter P = after := by
  constructor
  · intro h
    obtain ⟨l₁, l₂, rfl, hbefore, hrest⟩ := List.filter_eq_append_iff.mp h
    obtain ⟨skipped, post, rfl, hskipped, ha, hafter⟩ := List.filter_eq_cons_iff.mp hrest
    refine ⟨l₁ ++ skipped, post, by simp, ha, ?_, hafter⟩
    rw [List.filter_append, hbefore, List.filter_eq_nil_iff.mpr hskipped, List.append_nil]
  · rintro ⟨pre, post, rfl, ha, rfl, rfl⟩
    simp [List.filter_append, ha]

/-- The last entry of a filtered list is the last entry, if what follows a kept
entry is kept. -/
theorem getLast?_of_getLast?_filter {P : α → Bool} {l : List α}
    (hl : l.Pairwise fun a b => P a = true → P b = true) {q : α}
    (hq : (l.filter P).getLast? = some q) : l.getLast? = some q := by
  rcases l.eq_nil_or_concat' with rfl | ⟨init, z, rfl⟩
  · exact hq
  · rw [List.pairwise_append] at hl
    by_cases hz : P z = true
    · rw [List.filter_append, List.filter_singleton, hz] at hq
      simpa using hq
    · have hnil : init.filter P = [] := by
        rw [List.filter_eq_nil_iff]
        exact fun x hx hxP => hz (hl.2.2 x hx z (by simp) hxP)
      rw [List.filter_append, hnil, List.filter_singleton] at hq
      simp [hz] at hq

theorem append_singleton_eq_append_cons {l before after : List α} {a x : α}
    (h : l ++ [a] = before ++ x :: after) :
    (before = l ∧ x = a ∧ after = []) ∨
      ∃ init, after = init ++ [a] ∧ l = before ++ x :: init := by
  rcases after.eq_nil_or_concat' with rfl | ⟨init, b, rfl⟩
  · obtain ⟨hl, hx⟩ := List.append_inj' h rfl
    exact Or.inl ⟨hl.symm, (List.singleton_inj.mp hx).symm, rfl⟩
  · have h' : l ++ [a] = (before ++ x :: init) ++ [b] := by simpa using h
    obtain ⟨hl, hb⟩ := List.append_inj' h' rfl
    exact Or.inr ⟨init, by rw [List.singleton_inj.mp hb], hl⟩

/-! ## Forks -/

theorem LinkedFrom.prev_getElem_zero {l : List α} (h : LinkedFrom prev digest none l)
    (h₀ : 0 < l.length) : prev l[0] = none := by
  rw [linkedFrom_none_iff_isChain] at h
  apply h.1
  rw [List.head?_eq_getElem?, List.getElem?_eq_getElem h₀]

theorem LinkedFrom.prev_getElem_succ {l : List α} (h : LinkedFrom prev digest none l)
    {i : ℕ} (hi : i + 1 < l.length) : prev l[i + 1] = some (digest l[i]) := by
  rw [linkedFrom_none_iff_isChain] at h
  exact List.isChain_iff_getElem.mp h.2 i hi

/-- If equal digests force equal predecessors, a chain from the genesis does not
fork.  A predecessor named at two positions is pushed back one link at a time,
until one of the two positions is the genesis entry. -/
theorem LinkedFrom.nodup_prev {l : List α} (h : LinkedFrom prev digest none l)
    (hbind : ∀ a ∈ l, ∀ b ∈ l, digest a = digest b → prev a = prev b) :
    (l.map prev).Nodup := by
  have hne : ∀ i j, ∀ (hij : i < j) (hj : j < l.length), prev l[i] ≠ prev l[j] := by
    intro i
    induction i with
    | zero =>
        intro j hij hj
        obtain ⟨k, rfl⟩ := Nat.exists_eq_succ_of_ne_zero hij.ne'
        rw [h.prev_getElem_zero, h.prev_getElem_succ hj]
        simp
    | succ i ih =>
        intro j hij hj heq
        obtain ⟨k, rfl⟩ := Nat.exists_eq_succ_of_ne_zero (Nat.ne_zero_of_lt hij)
        have hik : i < k := Nat.lt_of_succ_lt_succ hij
        have hk : k < l.length := Nat.lt_of_succ_lt hj
        rw [h.prev_getElem_succ (hij.trans hj), h.prev_getElem_succ hj] at heq
        apply ih k hik hk
        exact hbind _ (List.getElem_mem _) _ (List.getElem_mem _) (Option.some.inj heq)
  rw [List.Nodup, List.pairwise_map, List.pairwise_iff_getElem]
  intro i j _ hj hij
  exact hne i j hij hj

/-! ## Commitment -/

/-- If equal digests force related entries with the same predecessor, then two
chains from the genesis with the same last digest are related entry by entry.
A shorter chain cannot be a suffix of a longer one: its genesis entry would
have to share its digest with an entry that names a predecessor. -/
theorem forall₂_of_tip_eq {R : α → α → Prop} {l m : List α}
    (hl : LinkedFrom prev digest none l) (hm : LinkedFrom prev digest none m)
    (hbind : ∀ a ∈ l, ∀ b ∈ m, digest a = digest b → R a b ∧ prev a = prev b)
    (htip : tip digest none l = tip digest none m) :
    List.Forall₂ R l m := by
  induction l using List.reverseRecOn generalizing m with
  | nil =>
      rw [tip_nil] at htip
      rw [tip_eq_none_iff.mp htip.symm]
      exact List.Forall₂.nil
  | append_singleton l a ih =>
      rcases m.eq_nil_or_concat' with rfl | ⟨m, b, rfl⟩
      · simp at htip
      rw [tip_concat, tip_concat] at htip
      rw [linkedFrom_concat] at hl hm
      obtain ⟨hab, hprev⟩ := hbind a (by simp) b (by simp) (Option.some.inj htip)
      have hinit : List.Forall₂ R l m := by
        apply ih hl.1 hm.1
        · intro x hx y hy
          exact hbind x (List.mem_append_left _ hx) y (List.mem_append_left _ hy)
        · rw [← hl.2, ← hm.2, hprev]
      exact List.rel_append hinit (List.Forall₂.cons hab List.Forall₂.nil)

end LinkedFrom

end AgenticGovernance.Support
