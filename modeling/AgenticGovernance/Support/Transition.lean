import Mathlib

/-!
# Transition systems

A system is a set of initial states and a step relation.  Safety results about
concurrent code are statements about `System.Reachable`, and they are all proved
through `System.invariant`.
-/

namespace AgenticGovernance.Support

/-- A transition system over states `σ`. -/
structure System (σ : Type*) where
  init : σ → Prop
  step : σ → σ → Prop

namespace System

variable {σ : Type*} {M : System σ}

/-- A state that some run of the system ends in. -/
def Reachable (M : System σ) (s : σ) : Prop :=
  ∃ s₀, M.init s₀ ∧ Relation.ReflTransGen M.step s₀ s

theorem Reachable.start {s : σ} (h : M.init s) : M.Reachable s :=
  ⟨s, h, .refl⟩

theorem Reachable.next {s t : σ} (h : M.Reachable s) (hstep : M.step s t) :
    M.Reachable t := by
  obtain ⟨s₀, hinit, hrun⟩ := h
  exact ⟨s₀, hinit, hrun.tail hstep⟩

/-- The invariant rule.  A step may use that its source is reachable, so
invariants proved earlier are available. -/
theorem invariant {I : σ → Prop} (hinit : ∀ s, M.init s → I s)
    (hstep : ∀ s t, M.Reachable s → I s → M.step s t → I t)
    {s : σ} (h : M.Reachable s) : I s := by
  obtain ⟨s₀, hs₀, hrun⟩ := h
  induction hrun with
  | refl => exact hinit s₀ hs₀
  | tail hprefix hlast ih => exact hstep _ _ ⟨s₀, hs₀, hprefix⟩ ih hlast

/-- The runs of `M` all of whose states satisfy `Q`. -/
def within (M : System σ) (Q : σ → Prop) : System σ where
  init s := M.init s ∧ Q s
  step s t := M.step s t ∧ Q t

theorem Reachable.of_within {Q : σ → Prop} {s : σ} (h : (M.within Q).Reachable s) :
    M.Reachable s ∧ Q s := by
  refine invariant (I := fun s => M.Reachable s ∧ Q s) ?_ ?_ h
  · rintro s ⟨hinit, hQ⟩
    exact ⟨.start hinit, hQ⟩
  · rintro s t - ⟨hreach, -⟩ ⟨hstep, hQ⟩
    exact ⟨hreach.next hstep, hQ⟩

/-- The runs of `M` all of whose steps satisfy `C`. -/
def along (M : System σ) (C : σ → σ → Prop) : System σ where
  init := M.init
  step s t := M.step s t ∧ C s t

theorem Reachable.of_along {C : σ → σ → Prop} {s : σ} (h : (M.along C).Reachable s) :
    M.Reachable s := by
  refine invariant (I := M.Reachable) ?_ ?_ h
  · intro s hinit
    exact .start hinit
  · rintro s t - hreach ⟨hstep, -⟩
    exact hreach.next hstep

theorem Reachable.to_within {Q : σ → Prop} (hQ : ∀ s, Q s) {s : σ}
    (h : M.Reachable s) : (M.within Q).Reachable s := by
  refine invariant (I := (M.within Q).Reachable) ?_ ?_ h
  · intro s hinit
    exact .start ⟨hinit, hQ s⟩
  · intro s t _ hreach hstep
    exact hreach.next ⟨hstep, hQ t⟩

end System

end AgenticGovernance.Support
