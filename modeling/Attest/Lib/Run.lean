import Mathlib.Logic.Relation

/-!
# Runs of a transition system

A system is its initial states and its steps. `Reachable` states are those at the end
of a run, and what holds initially and is kept by every step holds of them all
(`TransitionSystem.invariant`). A step may use what is already known to hold
(`TransitionSystem.invariant_of`).
-/

/-- Initial states and steps. -/
structure TransitionSystem (σ : Type) where
  init : σ → Prop
  step : σ → σ → Prop

namespace TransitionSystem

variable {σ : Type} {sys : TransitionSystem σ}

/-- A run leads from `s` to `t`. -/
def Run (sys : TransitionSystem σ) : σ → σ → Prop :=
  Relation.ReflTransGen sys.step

/-- The state at the end of a run from an initial state. -/
def Reachable (sys : TransitionSystem σ) (s : σ) : Prop :=
  ∃ s₀, sys.init s₀ ∧ sys.Run s₀ s

theorem Reachable.init {s : σ} (h : sys.init s) : sys.Reachable s :=
  ⟨s, h, Relation.ReflTransGen.refl⟩

theorem Reachable.step {s t : σ} (h : sys.Reachable s) (hst : sys.step s t) :
    sys.Reachable t := by
  obtain ⟨s₀, hinit, hrun⟩ := h
  exact ⟨s₀, hinit, hrun.tail hst⟩

/-- What holds initially and is kept by every step from a reachable state holds of
every reachable state. -/
theorem invariant_of {P : σ → Prop} (hinit : ∀ s, sys.init s → P s)
    (hstep : ∀ s t, sys.Reachable s → P s → sys.step s t → P t) {s : σ}
    (h : sys.Reachable s) : P s := by
  obtain ⟨s₀, hs₀, hrun⟩ := h
  induction hrun with
  | refl => exact hinit s₀ hs₀
  | tail hrun hst ih => exact hstep _ _ ⟨s₀, hs₀, hrun⟩ ih hst

/-- What holds initially and is kept by every step holds of every reachable state. -/
theorem invariant {P : σ → Prop} (hinit : ∀ s, sys.init s → P s)
    (hstep : ∀ s t, P s → sys.step s t → P t) {s : σ} (h : sys.Reachable s) : P s :=
  invariant_of hinit (fun s t _ hs hst => hstep s t hs hst) h

end TransitionSystem
