import Mathlib
import AgenticGovernance.Audit.WholeStore

/-!
# Verifying a chain window by window

`verify_chain` takes the bounds of a window.  The chain head is checked only in a window
that starts at the first event, and links only inside the window, so two windows that share
an event check together what one window over both checks.

An error names the sequence number of an event.  The HMACs of the whole window are checked
before its links, so the number is that of the first bad event only if no broken link comes
before the first bad HMAC.
-/

namespace AgenticGovernance.Audit

open Support

variable {H : Hmac} {secret : Bytes} {events window : List AuditEventRecord}

/-! ## What a window accepts -/

/-- The second event names the HMAC of the first. -/
def Links (before r : AuditEventRecord) : Prop := r.prevHash = some before.hmac

instance : DecidableRel Links :=
  fun before r => inferInstanceAs (Decidable (r.prevHash = some before.hmac))

/-- The checks on a window, where `head` says that it starts at the first event. -/
structure Accepted (H : Hmac) (secret : Bytes) (head : Prop) (window : List AuditEventRecord) :
    Prop where
  genesis : head → ∀ r, window.head? = some r → r.prevHash = none
  authentic : ∀ r ∈ window, verifyEvent H r secret = .ok true
  linked : window.IsChain Links

theorem checkLinksFrom_eq_ok_iff {start : ℕ} :
    checkLinksFrom start window = .ok () ↔ window.IsChain Links := by
  cases window with
  | nil => simp [checkLinksFrom]
  | cons r window =>
      rw [checkLinksFrom, checkLinkage_eq_ok_iff]
      have hchain : ChainFrom r.prevHash (r :: window) ↔
          r.prevHash = r.prevHash ∧ (r :: window).IsChain Links :=
        linkedFrom_cons_iff_isChain r.prevHash r window
      simp only [linkedFrom_cons, true_and] at hchain
      exact hchain

theorem verifyWindow_eq_ok_iff {start : ℕ} :
    verifyWindow H secret start window = .ok true ↔ Accepted H secret (start = 0) window := by
  have hpasses : (checkEvents H secret .violationAtIndex start window = .ok () ∧
      checkLinksFrom start window = .ok ()) ↔
        (∀ r ∈ window, verifyEvent H r secret = .ok true) ∧ window.IsChain Links := by
    rw [checkEvents_eq_ok_iff, checkLinksFrom_eq_ok_iff]
  rw [verifyWindow]
  by_cases hstart : start = 0
  · rw [if_pos hstart]
    simp only [pass_bind_eq_ok_iff, pure, Except.pure, and_true, checkGenesis_eq_ok_iff]
    rw [hpasses]
    constructor
    · rintro ⟨hgenesis, hauthentic, hlinked⟩
      exact ⟨fun _ => hgenesis, hauthentic, hlinked⟩
    · intro h
      exact ⟨h.genesis hstart, h.authentic, h.linked⟩
  · rw [if_neg hstart]
    simp only [pass_bind_eq_ok_iff, pure, Except.pure, and_true]
    rw [hpasses]
    constructor
    · rintro ⟨hauthentic, hlinked⟩
      exact ⟨fun h => absurd h hstart, hauthentic, hlinked⟩
    · intro h
      exact ⟨h.authentic, h.linked⟩

theorem mapError_eq_ok_iff {ε ε' β : Type} {f : ε → ε'} {x : Except ε β} {b : β} :
    x.mapError f = .ok b ↔ x = .ok b := by
  cases x with
  | error e => simp [Except.mapError]
  | ok a => simp [Except.mapError]

theorem verifyRange_some_eq_ok_iff {lo hi : ℕ} (hle : lo ≤ hi) :
    verifyRange H secret (some lo) (some hi) events = .ok true ↔
      Accepted H secret (lo = 0) ((events.take (hi + 1)).drop lo) := by
  have hvalid : ¬∃ l ∈ some lo, ∃ h ∈ some hi, h < l := by
    rintro ⟨l, hl, h, hh, hlt⟩
    rw [Option.mem_some_iff] at hl hh
    omega
  rw [verifyRange, if_neg hvalid, mapError_eq_ok_iff, ← verifyWindow_eq_ok_iff]
  rfl

/-- The whole list is the window from its first event to its last. -/
theorem verifyRange_none_iff_some (hne : events ≠ []) :
    verifyRange H secret none none events = .ok true ↔
      verifyRange H secret (some 0) (some (events.length - 1)) events = .ok true := by
  have hpos : 0 < events.length := List.length_pos_iff.mpr hne
  have hvalid : ¬∃ l ∈ (none : Option ℕ), ∃ h ∈ (none : Option ℕ), h < l := by simp
  rw [verifyRange_some_eq_ok_iff (Nat.zero_le _), verifyRange, if_neg hvalid,
    mapError_eq_ok_iff, ← verifyWindow_eq_ok_iff, Nat.sub_add_cancel hpos]
  rfl

/-! ## Windows that share an event -/

/-- A window is accepted exactly when its two parts around one of its events are. -/
theorem accepted_split {head : Prop} {left right : List AuditEventRecord}
    {r : AuditEventRecord} :
    Accepted H secret head (left ++ r :: right) ↔
      Accepted H secret head (left ++ [r]) ∧
        Accepted H secret (head ∧ left = []) (r :: right) := by
  have hhead : (left ++ r :: right).head? = (left ++ [r]).head? := by
    cases left with
    | nil => rfl
    | cons first left => rfl
  constructor
  · intro h
    obtain ⟨hleft, hright⟩ := List.isChain_split.mp h.linked
    refine ⟨⟨?_, ?_, hleft⟩, ⟨?_, ?_, hright⟩⟩
    · rw [← hhead]
      exact h.genesis
    · intro x hx
      apply h.authentic
      rw [List.mem_append, List.mem_singleton] at hx
      rcases hx with hx | rfl
      · exact List.mem_append_left _ hx
      · simp
    · rintro ⟨hfirst, rfl⟩
      exact h.genesis hfirst
    · intro x hx
      exact h.authentic x (List.mem_append_right _ hx)
  · rintro ⟨hleft, hright⟩
    refine ⟨?_, ?_, List.isChain_split.mpr ⟨hleft.linked, hright.linked⟩⟩
    · rw [hhead]
      exact hleft.genesis
    · intro x hx
      rcases List.mem_append.mp hx with hx | hx
      · exact hleft.authentic x (List.mem_append_left _ hx)
      · exact hright.authentic x hx

/-- The bounds of a window are inclusive, so the windows up to `b` and from `b` on share
the event `b`. -/
theorem verifyRange_split {lo b hi : ℕ} (hlo : lo ≤ b) (hhi : b ≤ hi)
    (hlt : hi < events.length) :
    verifyRange H secret (some lo) (some hi) events = .ok true ↔
      verifyRange H secret (some lo) (some b) events = .ok true ∧
        verifyRange H secret (some b) (some hi) events = .ok true := by
  rw [verifyRange_some_eq_ok_iff (hlo.trans hhi), verifyRange_some_eq_ok_iff hlo,
    verifyRange_some_eq_ok_iff hhi]
  have hb : b < (events.take (hi + 1)).length := by
    rw [List.length_take]
    omega
  have hright : (events.take (hi + 1)).drop b =
      (events.take (hi + 1))[b] :: (events.take (hi + 1)).drop (b + 1) :=
    List.drop_eq_getElem_cons hb
  have hwhole : (events.take (hi + 1)).drop lo =
      ((events.take (hi + 1)).take b).drop lo ++ (events.take (hi + 1)).drop b := by
    rw [← List.drop_append_of_le_length, List.take_append_drop]
    rw [List.length_take]
    omega
  have hleft : (events.take (b + 1)).drop lo =
      ((events.take (hi + 1)).take b).drop lo ++ [(events.take (hi + 1))[b]] := by
    rw [← List.drop_append_of_le_length, List.take_append_getElem, List.take_take]
    · congr 2
      omega
    · rw [List.length_take]
      omega
  have hfirst : ((events.take (hi + 1)).take b).drop lo = [] ↔ b = lo := by
    rw [List.drop_eq_nil_iff, List.length_take]
    omega
  rw [hwhole, hright, hleft, accepted_split, hfirst]
  have hhead : (lo = 0 ∧ b = lo) ↔ b = 0 := by omega
  rw [hhead]

/-- The windows between consecutive cuts. -/
def cutWindows (lo : ℕ) : List ℕ → List (ℕ × ℕ)
  | [] => []
  | hi :: cuts => (lo, hi) :: cutWindows hi cuts

theorem verifyRange_cutWindows {lo : ℕ} {cuts : List ℕ} (hcuts : (lo :: cuts).IsChain (· ≤ ·))
    (hne : cuts ≠ []) (hlt : cuts.getLast hne < events.length) :
    verifyRange H secret (some lo) (some (cuts.getLast hne)) events = .ok true ↔
      ∀ w ∈ cutWindows lo cuts, verifyRange H secret (some w.1) (some w.2) events = .ok true := by
  induction cuts generalizing lo with
  | nil => exact absurd rfl hne
  | cons hi cuts ih =>
      obtain ⟨hle, hcuts⟩ := List.isChain_cons_cons.mp hcuts
      rw [cutWindows, List.forall_mem_cons]
      rcases cuts with _ | ⟨next, cuts⟩
      · simp [cutWindows]
      · have hlast : (hi :: next :: cuts).getLast hne =
            (next :: cuts).getLast (List.cons_ne_nil next cuts) := List.getLast_cons_cons
        rw [hlast] at hlt ⊢
        have hupto : hi ≤ (next :: cuts).getLast (List.cons_ne_nil next cuts) := by
          have hsorted := List.isChain_iff_pairwise.mp hcuts
          exact (List.pairwise_cons.mp hsorted).1 _ (List.getLast_mem _)
        rw [verifyRange_split hle hupto hlt, ih hcuts (List.cons_ne_nil next cuts) hlt]

/-- The full range is verified exactly when the windows up to an event and from it on are,
and exactly when all windows between consecutive cuts are. -/
theorem verify_chain_windows_iff (H : Hmac) (secret : Bytes) (events : List AuditEventRecord) :
    (∀ b < events.length,
      (verifyRange H secret none none events = .ok true ↔
        verifyRange H secret (some 0) (some b) events = .ok true ∧
          verifyRange H secret (some b) (some (events.length - 1)) events = .ok true)) ∧
      ∀ cuts, (0 :: cuts).IsChain (· ≤ ·) → cuts.getLast? = some (events.length - 1) →
        events ≠ [] →
        (verifyRange H secret none none events = .ok true ↔
          ∀ w ∈ cutWindows 0 cuts,
            verifyRange H secret (some w.1) (some w.2) events = .ok true) := by
  constructor
  · intro b hb
    have hne : events ≠ [] := List.ne_nil_of_length_pos (by omega)
    rw [verifyRange_none_iff_some hne, verifyRange_split (Nat.zero_le b) (by omega) (by omega)]
  · intro cuts hcuts hlast hne
    have hpos : 0 < events.length := List.length_pos_iff.mpr hne
    have hcuts_ne : cuts ≠ [] := by
      rintro rfl
      cases hlast
    rw [List.getLast?_eq_some_getLast hcuts_ne, Option.some_inj] at hlast
    rw [verifyRange_none_iff_some hne, ← hlast]
    exact verifyRange_cutWindows hcuts hcuts_ne (by omega)

/-! ## The event that an error names -/

/-- The index that Python takes for `i` in a list of length `n`. -/
def sliceIndex (n : ℕ) (i : ℤ) : ℕ := (if i < 0 then max (n + i) 0 else min i n).toNat

/-- An error of `verify_chain` on a window.  The indices in `e` count from the first event
of the window; `seq` is the sequence number in the message, if it has one. -/
inductive SliceError where
  | valueError
  | integrity (seq : Option ℤ) (e : ChainError)

/-- The index of the event that an error is about. -/
def ChainError.index : ChainError → Option ℕ
  | .violationAtIndex idx _ => some idx
  | .gap position _ _ => some position
  | _ => none

section Slice

variable (H : Hmac) (secret : Bytes) (fromSeq toSeq : Option ℤ) (events : List AuditEventRecord)

def sliceStart : ℤ := fromSeq.getD 0

/-- `events[start:end]` -/
def sliceWindow : List AuditEventRecord :=
  let stop := (toSeq.map fun hi => hi + 1).getD (events.length : ℤ)
  (events.take (sliceIndex events.length stop)).drop
    (sliceIndex events.length (sliceStart fromSeq))

/-- The three passes of `verify_chain`, without the numbers that it adds. -/
def checkSlice (window : List AuditEventRecord) : Except ChainError Bool := do
  if sliceStart fromSeq = 0 then checkGenesis window
  checkEvents H secret .violationAtIndex 0 window
  checkLinksFrom 0 window
  return true

/-- `verify_chain` with arbitrary integers as its bounds. -/
def verifySlice : Except SliceError Bool :=
  if ∃ lo ∈ fromSeq, ∃ hi ∈ toSeq, hi < lo then .error .valueError
  else
    (checkSlice H secret fromSeq (sliceWindow fromSeq toSeq events)).mapError fun e =>
      .integrity (e.index.map fun (idx : ℕ) => sliceStart fromSeq + (idx : ℤ)) e

/-- The bounds of a slice are clamped, which makes no difference to `take` and `drop`. -/
theorem sliceWindow_natCast (fromSeq toSeq : Option ℕ) :
    sliceWindow (fromSeq.map fun n => (n : ℤ)) (toSeq.map fun n => (n : ℤ)) events =
      (events.take ((toSeq.map (· + 1)).getD events.length)).drop (fromSeq.getD 0) := by
  have hindex : ∀ n : ℕ, sliceIndex events.length (n : ℤ) = min n events.length := by
    intro n
    rw [sliceIndex, if_neg (not_lt.mpr (Int.natCast_nonneg n))]
    omega
  have hstart : sliceStart (fromSeq.map fun n => (n : ℤ)) = ((fromSeq.getD 0 : ℕ) : ℤ) := by
    cases fromSeq with
    | none => rfl
    | some n => rfl
  have hstop : ((toSeq.map fun n => (n : ℤ)).map fun hi => hi + 1).getD (events.length : ℤ) =
      (((toSeq.map (· + 1)).getD events.length : ℕ) : ℤ) := by
    cases toSeq with
    | none => rfl
    | some n => rfl
  simp only [sliceWindow]
  rw [hstart, hstop, hindex, hindex, ← List.take_eq_take_min]
  by_cases hle : fromSeq.getD 0 ≤ events.length
  · rw [min_eq_left hle]
  · rw [List.drop_eq_nil_of_le, List.drop_eq_nil_of_le]
    · rw [List.length_take]
      omega
    · rw [List.length_take]
      omega

/-- The event at index `i` of the window does not carry its own HMAC. -/
def FailsHmac (window : List AuditEventRecord) (i : ℕ) : Prop :=
  ∃ r, window[i]? = some r ∧ verifyEvent H r secret ≠ .ok true

/-- The event at index `i` of the window does not name the one before it. -/
def BreaksLink (window : List AuditEventRecord) (i : ℕ) : Prop :=
  ∃ r before, window[i]? = some r ∧ 0 < i ∧ window[i - 1]? = some before ∧ ¬Links before r

/-- The absolute indices of the events of the window that are bad. -/
def badSequences : Set ℤ :=
  {a | ∃ i : ℕ, a = (sliceIndex events.length (sliceStart fromSeq) : ℤ) + (i : ℤ) ∧
    (FailsHmac H secret (sliceWindow fromSeq toSeq events) i ∨
      BreaksLink (sliceWindow fromSeq toSeq events) i)}

end Slice

/-- The HMAC pass stops at the first event that fails. -/
theorem checkEvents_error {idx : ℕ} {e : ChainError}
    (h : checkEvents H secret .violationAtIndex idx window = .error e) :
    (∃ raised, e = .raised raised) ∨
      ∃ i event, e = .violationAtIndex (idx + i) event ∧ FailsHmac H secret window i ∧
        ∀ k < i, ¬FailsHmac H secret window k := by
  induction window generalizing idx with
  | nil => cases h
  | cons r window ih =>
      rw [checkEvents] at h
      split at h
      next raised hraised =>
        cases h
        exact Or.inl ⟨raised, rfl⟩
      next hfails =>
        cases h
        refine Or.inr ⟨0, r.eventId, rfl, ⟨r, rfl, ?_⟩, fun k hk => absurd hk (Nat.not_lt_zero k)⟩
        rw [hfails]
        simp
      next hok =>
        rcases ih h with hraised | ⟨i, event, rfl, ⟨x, hx, hfails⟩, hfirst⟩
        · exact Or.inl hraised
        · refine Or.inr ⟨i + 1, event, ?_, ⟨x, hx, hfails⟩, ?_⟩
          · rw [Nat.add_right_comm, Nat.add_assoc]
          · rintro k hk ⟨y, hy, hyfails⟩
            rcases k with _ | k
            · cases hy
              exact hyfails hok
            · exact hfirst k (Nat.lt_of_succ_lt_succ hk) ⟨y, hy, hyfails⟩

/-- The linkage pass stops at the first event that does not link. -/
theorem checkLinkage_error {position : ℕ} {before : AuditEventRecord} {e : ChainError}
    (h : checkLinkage position before window = .error e) :
    ∃ i event preceding, e = .gap (position + i) event preceding ∧
      BreaksLink (before :: window) (i + 1) ∧
        ∀ k < i + 1, ¬BreaksLink (before :: window) k := by
  induction window generalizing position before with
  | nil => cases h
  | cons r window ih =>
      rw [checkLinkage] at h
      split at h
      next hbroken =>
        cases h
        refine ⟨0, r.eventId, before.eventId, rfl, ⟨r, before, rfl, Nat.one_pos, rfl, hbroken⟩, ?_⟩
        rintro k hk ⟨-, -, -, hpos, -⟩
        omega
      next hlinked =>
        obtain ⟨i, event, preceding, rfl, ⟨x, y, hx, hpos, hy, hbroken⟩, hfirst⟩ := ih h
        refine ⟨i + 1, event, preceding, ?_, ⟨x, y, hx, Nat.succ_pos _, hy, hbroken⟩, ?_⟩
        · rw [Nat.add_right_comm, Nat.add_assoc]
        · rintro k hk ⟨x', y', hx', hpos', hy', hbroken'⟩
          rcases k with _ | _ | k
          · omega
          · cases hx'
            cases hy'
            exact hbroken' (not_not.mp hlinked)
          · exact hfirst (k + 1) (by omega) ⟨x', y', hx', Nat.succ_pos k, hy', hbroken'⟩

/-- A pass fails, or the rest of the verification does. -/
theorem pass_bind_eq_error_iff {β : Type} {x : Except ChainError Unit}
    {f : Unit → Except ChainError β} {e : ChainError} :
    (x >>= f) = .error e ↔ x = .error e ∨ (x = .ok () ∧ f () = .error e) := by
  cases x <;> simp [bind, Except.bind]

theorem checkGenesis_error {e : ChainError} (h : checkGenesis window = .error e) :
    e.index = none := by
  cases window with
  | nil => cases h
  | cons r window =>
      rw [checkGenesis] at h
      split at h
      · cases h
        rfl
      · cases h

/-- The error with a number that the passes end in. -/
theorem checkSlice_error {fromSeq : Option ℤ} {e : ChainError} {j : ℕ}
    (h : checkSlice H secret fromSeq window = .error e) (hindex : e.index = some j) :
    (FailsHmac H secret window j ∧ ∀ k < j, ¬FailsHmac H secret window k) ∨
      ((∀ k, ¬FailsHmac H secret window k) ∧ BreaksLink window j ∧
        ∀ k < j, ¬BreaksLink window k) := by
  have hgenesis : checkGenesis window ≠ .error e := by
    intro hgenesis
    rw [checkGenesis_error hgenesis] at hindex
    cases hindex
  have hpasses : checkEvents H secret .violationAtIndex 0 window = .error e ∨
      (checkEvents H secret .violationAtIndex 0 window = .ok () ∧
        checkLinksFrom 0 window = .error e) := by
    rw [checkSlice] at h
    split at h
    · have hrest : checkGenesis window = .ok () ∧
          (checkEvents H secret .violationAtIndex 0 window = .error e ∨
            (checkEvents H secret .violationAtIndex 0 window = .ok () ∧
              checkLinksFrom 0 window = .error e)) := by
        simpa [pass_bind_eq_error_iff, hgenesis, pure, Except.pure] using h
      exact hrest.2
    · simpa [pass_bind_eq_error_iff, pure, Except.pure] using h
  rcases hpasses with hevents | ⟨hevents, hlinks⟩
  · rcases checkEvents_error hevents with ⟨raised, rfl⟩ | ⟨i, event, rfl, hfails, hfirst⟩
    · cases hindex
    · rw [ChainError.index, Option.some_inj, Nat.zero_add] at hindex
      subst hindex
      exact Or.inl ⟨hfails, hfirst⟩
  · right
    refine ⟨?_, ?_⟩
    · rintro k ⟨r, hr, hfails⟩
      exact hfails (checkEvents_eq_ok_iff.mp hevents r (List.mem_of_getElem? hr))
    · cases window with
      | nil => cases hlinks
      | cons r window =>
          obtain ⟨i, event, preceding, rfl, hbroken, hfirst⟩ := checkLinkage_error hlinks
          rw [ChainError.index, Option.some_inj, Nat.zero_add, Nat.add_comm] at hindex
          subst hindex
          exact ⟨hbroken, hfirst⟩

theorem length_sliceWindow_le {fromSeq toSeq : Option ℤ} :
    (sliceWindow fromSeq toSeq events).length ≤
      events.length - sliceIndex events.length (sliceStart fromSeq) := by
  rw [sliceWindow, List.length_drop, List.length_take]
  omega

/-- The first event of a window that is not empty has the sequence number that the window
starts at, unless that is negative. -/
theorem sliceIndex_of_lt {n : ℕ} {i : ℤ} {j : ℕ} (h : j < n - sliceIndex n i) :
    (0 ≤ i → (sliceIndex n i : ℤ) = i) ∧ (i < 0 → i + (j : ℤ) < 0) := by
  rw [sliceIndex] at h ⊢
  constructor
  · intro hi
    rw [if_neg (not_lt.mpr hi)] at h ⊢
    omega
  · intro hi
    rw [if_pos hi] at h
    omega

/-- The sequence number that `verify_chain` raises with is that of the first bad event of
the window, exactly when the window does not start at a negative number and no event with a
broken link comes before the first event with a bad HMAC. -/
theorem verify_chain_first_bad_iff {fromSeq toSeq : Option ℤ} {seq : ℤ} {e : ChainError}
    (hraises : verifySlice H secret fromSeq toSeq events = .error (.integrity (some seq) e)) :
    IsLeast (badSequences H secret fromSeq toSeq events) seq ↔
      0 ≤ sliceStart fromSeq ∧
        ∀ i, BreaksLink (sliceWindow fromSeq toSeq events) i →
          (∃ f, FailsHmac H secret (sliceWindow fromSeq toSeq events) f) →
            ∃ f ≤ i, FailsHmac H secret (sliceWindow fromSeq toSeq events) f := by
  obtain ⟨j, hslice, hindex, rfl⟩ : ∃ j : ℕ,
      checkSlice H secret fromSeq (sliceWindow fromSeq toSeq events) = .error e ∧
        e.index = some j ∧ seq = sliceStart fromSeq + (j : ℤ) := by
    rw [verifySlice] at hraises
    split at hraises
    · cases hraises
    · rcases hslice : checkSlice H secret fromSeq (sliceWindow fromSeq toSeq events) with e' | b
      · rw [hslice] at hraises
        simp only [Except.mapError, Except.error.injEq, SliceError.integrity.injEq,
          Option.map_eq_some_iff] at hraises
        obtain ⟨⟨j, hj, hseq⟩, rfl⟩ := hraises
        exact ⟨j, rfl, hj, hseq.symm⟩
      · rw [hslice] at hraises
        cases hraises
  have hcases := checkSlice_error hslice hindex
  have hmem : FailsHmac H secret (sliceWindow fromSeq toSeq events) j ∨
      BreaksLink (sliceWindow fromSeq toSeq events) j := by
    rcases hcases with ⟨hfails, -⟩ | ⟨-, hbroken, -⟩
    · exact Or.inl hfails
    · exact Or.inr hbroken
  have hlength : j < (sliceWindow fromSeq toSeq events).length := by
    rcases hmem with ⟨r, hr, -⟩ | ⟨r, -, hr, -⟩
    · exact (List.getElem?_eq_some_iff.mp hr).1
    · exact (List.getElem?_eq_some_iff.mp hr).1
  obtain ⟨hstart, hnegative⟩ := sliceIndex_of_lt (hlength.trans_le length_sliceWindow_le)
  by_cases hsign : 0 ≤ sliceStart fromSeq
  · have hleast : IsLeast (badSequences H secret fromSeq toSeq events)
        (sliceStart fromSeq + (j : ℤ)) ↔
          ∀ i, FailsHmac H secret (sliceWindow fromSeq toSeq events) i ∨
            BreaksLink (sliceWindow fromSeq toSeq events) i → j ≤ i := by
      constructor
      · rintro ⟨-, hlower⟩ i hi
        have hle := hlower ⟨i, rfl, hi⟩
        rw [hstart hsign] at hle
        omega
      · intro hlower
        refine ⟨⟨j, by rw [hstart hsign], hmem⟩, ?_⟩
        rintro a ⟨i, rfl, hi⟩
        have hle := hlower i hi
        rw [hstart hsign]
        omega
    rw [hleast]
    rcases hcases with ⟨hfails, hfirst⟩ | ⟨hnone, hbroken, hfirst⟩
    · constructor
      · intro hlower
        exact ⟨hsign, fun i hi _ => ⟨j, hlower i (Or.inr hi), hfails⟩⟩
      · rintro ⟨-, hlinks⟩ i hi
        by_contra hlt
        rcases hi with hi | hi
        · exact hfirst i (not_le.mp hlt) hi
        · obtain ⟨f, hf, hffails⟩ := hlinks i hi ⟨j, hfails⟩
          exact hfirst f (by omega) hffails
    · constructor
      · intro _
        exact ⟨hsign, fun i _ ⟨f, hf⟩ => absurd hf (hnone f)⟩
      · rintro - i hi
        by_contra hlt
        rcases hi with hi | hi
        · exact hnone i hi
        · exact hfirst i (not_le.mp hlt) hi
  · constructor
    · rintro ⟨⟨i, hi, -⟩, -⟩
      have hneg := hnegative (not_le.mp hsign)
      omega
    · rintro ⟨hnonneg, -⟩
      exact absurd hnonneg hsign

/-! ### A broken link before an altered event -/

/-- The second record of the sample session, with the HMAC of the first. -/
def alteredRecord : AuditEventRecord :=
  sampleRecord ⟨2⟩ [] (some sampleDigest₁) sampleDigest₁ .unsigned

theorem verify_alteredRecord : verifyEvent sampleHmac alteredRecord sampleSecret = .ok false := by
  have hascii : isAscii (digestText sampleDigest₁) = true := isAscii_digestText _
  have hascii' : isAscii (digestText sampleDigest₂) = true := isAscii_digestText _
  have hne : digestText sampleDigest₂ ≠ digestText sampleDigest₁ := by
    intro h
    exact absurd (digestText_injective h) (by decide)
  change compareDigest (computeEventHmac sampleHmac sampleSecret sampleSecond)
    (digestText sampleDigest₁) = .ok false
  rw [sampleHmac_second, compareDigest, hascii, hascii', Bool.and_self, if_pos rfl]
  exact congrArg Except.ok (beq_eq_false_iff_ne.mpr hne)

/-- Without bounds, the window is the whole list and its first event is the first of all. -/
theorem sliceWindow_none : sliceWindow none none events = events := by
  have h : sliceWindow none none events =
      (events.take ((none : Option ℕ).getD events.length)).drop ((none : Option ℕ).getD 0) :=
    sliceWindow_natCast events none none
  rw [h, Option.getD_none, Option.getD_none, List.take_length, List.drop_zero]

theorem verifySlice_none_error {idx : ℕ} {event : Uuid}
    (hgenesis : checkGenesis events = .ok ())
    (hevents : checkEvents H secret .violationAtIndex 0 events =
      .error (.violationAtIndex idx event)) :
    verifySlice H secret none none events =
      .error (.integrity (some (idx : ℤ)) (.violationAtIndex idx event)) := by
  have hslice : checkSlice H secret none events = .error (.violationAtIndex idx event) := by
    rw [checkSlice, hgenesis, hevents, sliceStart, Option.getD_none, if_pos rfl]
    rfl
  rw [verifySlice, if_neg (by simp), sliceWindow_none, hslice, sliceStart, Option.getD_none]
  simp only [Except.mapError, ChainError.index, Option.map_some, zero_add]

theorem checkGenesis_sample (rest : List AuditEventRecord) :
    checkGenesis (sampleRecord₁ :: rest) = .ok () := by
  have hfirst : sampleRecord₁.prevHash = none := rfl
  rw [checkGenesis, hfirst]
  exact if_neg (not_not.mpr rfl)

theorem checkEvents_sample_cons (idx : ℕ) (rest : List AuditEventRecord) :
    checkEvents sampleHmac sampleSecret .violationAtIndex idx (sampleRecord₁ :: rest) =
      checkEvents sampleHmac sampleSecret .violationAtIndex (idx + 1) rest := by
  rw [checkEvents, sample_verify₁]

theorem checkEvents_altered (idx : ℕ) :
    checkEvents sampleHmac sampleSecret .violationAtIndex idx [alteredRecord] =
      .error (.violationAtIndex idx ⟨2⟩) := by
  have hid : alteredRecord.eventId = ⟨2⟩ := rfl
  rw [checkEvents, verify_alteredRecord, hid]

theorem altered_event_raises :
    verifySlice sampleHmac sampleSecret none none [sampleRecord₁, alteredRecord] =
      .error (.integrity (some 1) (.violationAtIndex 1 ⟨2⟩)) := by
  have hevents : checkEvents sampleHmac sampleSecret .violationAtIndex 0
      [sampleRecord₁, alteredRecord] = .error (.violationAtIndex 1 ⟨2⟩) := by
    rw [checkEvents_sample_cons, checkEvents_altered]
  exact verifySlice_none_error (checkGenesis_sample _) hevents

/-- The only bad event is found. -/
theorem altered_event_first_bad :
    IsLeast (badSequences sampleHmac sampleSecret none none [sampleRecord₁, alteredRecord]) 1 := by
  refine (verify_chain_first_bad_iff altered_event_raises).mpr ⟨le_rfl, ?_⟩
  have hwindow : sliceWindow none none [sampleRecord₁, alteredRecord] =
      [sampleRecord₁, alteredRecord] := rfl
  rw [hwindow]
  rintro i ⟨r, before, hr, hpos, hbefore, hbroken⟩ -
  refine ⟨1, hpos, alteredRecord, rfl, ?_⟩
  rw [verify_alteredRecord]
  simp

/-- The first event is stored twice, so that the event 1 does not link to its predecessor.
The altered event 2 is the one that is reported. -/
theorem broken_link_not_reported :
    verifySlice sampleHmac sampleSecret none none [sampleRecord₁, sampleRecord₁, alteredRecord] =
        .error (.integrity (some 2) (.violationAtIndex 2 ⟨2⟩)) ∧
      ¬IsLeast (badSequences sampleHmac sampleSecret none none
        [sampleRecord₁, sampleRecord₁, alteredRecord]) 2 := by
  have hwindow : sliceWindow none none [sampleRecord₁, sampleRecord₁, alteredRecord] =
      [sampleRecord₁, sampleRecord₁, alteredRecord] := rfl
  constructor
  · have hevents : checkEvents sampleHmac sampleSecret .violationAtIndex 0
        [sampleRecord₁, sampleRecord₁, alteredRecord] = .error (.violationAtIndex 2 ⟨2⟩) := by
      rw [checkEvents_sample_cons, checkEvents_sample_cons, checkEvents_altered]
    exact verifySlice_none_error (checkGenesis_sample _) hevents
  · rintro ⟨-, hlower⟩
    have hbad : (1 : ℤ) ∈ badSequences sampleHmac sampleSecret none none
        [sampleRecord₁, sampleRecord₁, alteredRecord] := by
      refine ⟨1, rfl, Or.inr ?_⟩
      rw [hwindow]
      refine ⟨sampleRecord₁, sampleRecord₁, rfl, Nat.one_pos, rfl, ?_⟩
      intro hlink
      cases hlink
    exact absurd (hlower hbad) (by decide)

end AgenticGovernance.Audit
