import Mathlib.Logic.Relation

/-!
# Executable transition systems

A system is a set of initial states and, for every label, a partial step function. Interleavings,
failures and clocks are choices of label, so a run is a list of labels and can be evaluated.

`Steps P` is the set of runs all of whose steps are allowed by `P`, a predicate on the state before
the step and the label; `Steps.invariant` is the induction rule, and `Steps.map` and `Reachable.map`
carry runs along a simulation. `Took` is what a run has in its past; `invariant_of_run` relates the
labels of a run to the state at its end.
-/

set_option autoImplicit false

namespace Foundation

universe u v w x

/-- Initial states and a partial step for every label. -/
structure TransitionSystem (σ : Type u) (ι : Type v) where
  init : σ → Prop
  step : ι → σ → Option σ

namespace TransitionSystem

variable {σ : Type u} {ι : Type v} (T : TransitionSystem σ ι)

/-- Runs from `s` in which every step is taken with a label allowed in the state before it. -/
inductive Steps (P : σ → ι → Prop) (s : σ) : σ → Prop where
  | refl : Steps P s s
  | tail {t u : σ} (l : ι) : Steps P s t → P t l → T.step l t = some u → Steps P s u

/-- No restriction on the steps of a run. -/
def anyStep : σ → ι → Prop := fun _ _ => True

instance (s : σ) (l : ι) : Decidable (anyStep s l) := .isTrue trivial

/-- States at the end of a run from an initial state whose steps are all allowed by `P`. -/
def Reachable (P : σ → ι → Prop) (t : σ) : Prop := ∃ s, T.init s ∧ T.Steps P s t

/-- Execute a list of labels, stopping at a step that `P` does not allow. -/
def run (P : σ → ι → Prop) [∀ s l, Decidable (P s l)] : List ι → σ → Option σ
  | [], s => some s
  | l :: ls, s => if P s l then (T.step l s).bind (run P ls) else none

variable {T} {P Q : σ → ι → Prop}

theorem Steps.single {s t : σ} {l : ι} (hP : P s l) (h : T.step l s = some t) :
    T.Steps P s t :=
  .tail l .refl hP h

theorem Steps.trans {s t u : σ} (hst : T.Steps P s t) (htu : T.Steps P t u) : T.Steps P s u := by
  induction htu with
  | refl => exact hst
  | tail l _ hP hstep ih => exact .tail l ih hP hstep

/-- Weakening the condition on steps keeps the run. -/
theorem Steps.mono (hPQ : ∀ s l, P s l → Q s l) {s t : σ} (h : T.Steps P s t) :
    T.Steps Q s t := by
  induction h with
  | refl => exact .refl
  | tail l _ hP hstep ih => exact .tail l ih (hPQ _ _ hP) hstep

/-- **Invariant rule.** What every allowed step preserves holds at the end of a run. -/
theorem Steps.invariant {I : σ → Prop} {s t : σ} (h : T.Steps P s t) (h₀ : I s)
    (hstep : ∀ s l t, P s l → T.step l s = some t → I s → I t) : I t := by
  induction h with
  | refl => exact h₀
  | tail l _ hP hs ih => exact hstep _ l _ hP hs ih

theorem Reachable.mono (hPQ : ∀ s l, P s l → Q s l) {t : σ} (h : T.Reachable P t) :
    T.Reachable Q t := by
  obtain ⟨s, hs, hst⟩ := h
  exact ⟨s, hs, hst.mono hPQ⟩

theorem Reachable.trans {t u : σ} (h : T.Reachable P t) (htu : T.Steps P t u) :
    T.Reachable P u := by
  obtain ⟨s, hs, hst⟩ := h
  exact ⟨s, hs, hst.trans htu⟩

/-- What holds initially and is preserved by every allowed step holds in every state reached. -/
theorem Reachable.invariant {I : σ → Prop} {t : σ} (h : T.Reachable P t)
    (h₀ : ∀ s, T.init s → I s)
    (hstep : ∀ s l t, P s l → T.step l s = some t → I s → I t) : I t := by
  obtain ⟨s, hs, hst⟩ := h
  exact hst.invariant (h₀ s hs) hstep

/-- The invariant rule, where a step may use that the state before it is reachable. -/
theorem Reachable.invariant_of_reachable {I : σ → Prop} {t : σ} (h : T.Reachable P t)
    (h₀ : ∀ s, T.init s → I s)
    (hstep : ∀ s l t, T.Reachable P s → P s l → T.step l s = some t → I s → I t) : I t := by
  obtain ⟨s, hs, hst⟩ := h
  induction hst with
  | refl => exact h₀ s hs
  | tail l hst hP hlast ih => exact hstep _ l _ ⟨s, hs, hst⟩ hP hlast ih

/-- Without a restriction, a list of labels is executed one after the other. -/
theorem run_anyStep_cons (l : ι) (ls : List ι) (s : σ) :
    T.run anyStep (l :: ls) s = (T.step l s).bind (T.run anyStep ls) :=
  if_pos trivial

/-- An executed list of labels is a run. -/
theorem steps_of_run [∀ s l, Decidable (P s l)] (ls : List ι) {s t : σ}
    (h : T.run P ls s = some t) : T.Steps P s t := by
  induction ls generalizing s with
  | nil =>
      simp only [run, Option.some.injEq] at h
      subst h
      exact .refl
  | cons l ls ih =>
      simp only [run] at h
      split at h
      next hP =>
        obtain ⟨u, hu, ht⟩ := Option.bind_eq_some_iff.1 h
        exact (Steps.single hP hu).trans (ih ht)
      next => cases h

/-- An executed list of labels from an initial state ends in a reachable state. -/
theorem reachable_of_run [∀ s l, Decidable (P s l)] (ls : List ι) {s t : σ} (hinit : T.init s)
    (h : T.run P ls s = some t) : T.Reachable P t :=
  ⟨s, hinit, steps_of_run ls h⟩

/-- **Invariant rule for executed labels.** What relates the labels executed so far to the state,
and is kept by every step, relates all of them to the state at the end. -/
theorem invariant_of_run [∀ s l, Decidable (P s l)] {I : List ι → σ → Prop} (past ls : List ι)
    {s t : σ} (h : T.run P ls s = some t) (h₀ : I past s)
    (hstep : ∀ past s l t, P s l → T.step l s = some t → I past s → I (past ++ [l]) t) :
    I (past ++ ls) t := by
  induction ls generalizing past s with
  | nil =>
      simp only [run, Option.some.injEq] at h
      subst h
      rw [List.append_nil]
      exact h₀
  | cons l ls ih =>
      simp only [run] at h
      split at h
      next hP =>
        obtain ⟨u, hu, ht⟩ := Option.bind_eq_some_iff.1 h
        have hrest := ih (past ++ [l]) ht (hstep past s l u hP hu h₀)
        rw [List.append_assoc] at hrest
        exact hrest
      next => cases h

/-- **Simulation rule.** If every allowed step of `T` is a run of `U` between the images of its
endpoints, then so is every run. -/
theorem Steps.map {τ : Type w} {κ : Type x} {U : TransitionSystem τ κ} {R : τ → κ → Prop}
    (f : σ → τ)
    (hsim : ∀ s l t, P s l → T.step l s = some t → U.Steps R (f s) (f t)) {s t : σ}
    (h : T.Steps P s t) : U.Steps R (f s) (f t) := by
  induction h with
  | refl => exact .refl
  | tail l _ hP hs ih => exact ih.trans (hsim _ l _ hP hs)

/-- **Simulation rule for reachable states.** The simulated steps may be taken from reachable states
only, so their proof can use invariants. -/
theorem Reachable.map {τ : Type w} {κ : Type x} {U : TransitionSystem τ κ} {R : τ → κ → Prop}
    (f : σ → τ) (hinit : ∀ s, T.init s → U.init (f s))
    (hsim : ∀ s l t, T.Reachable P s → P s l → T.step l s = some t → U.Steps R (f s) (f t))
    {t : σ} (h : T.Reachable P t) : U.Reachable R (f t) := by
  obtain ⟨s, hs, hst⟩ := h
  refine ⟨f s, hinit s hs, ?_⟩
  induction hst with
  | refl => exact .refl
  | tail l hst hP hstep ih => exact ih.trans (hsim _ l _ ⟨s, hs, hst⟩ hP hstep)

/-! ## The past of a run -/

/-- A run from `s` to `t` that on its way took a step from `r` to `r'`. -/
structure Took (T : TransitionSystem σ ι) (P : σ → ι → Prop) (s t : σ) (l : ι) (r r' : σ) :
    Prop where
  before : T.Steps P s r
  allowed : P r l
  step : T.step l r = some r'
  after : T.Steps P r' t

namespace Took

variable {s t u r r' : σ} {l m : ι}

/-- The run goes on. -/
theorem tail (h : T.Took P s t l r r') (hP : P t m) (hstep : T.step m t = some u) :
    T.Took P s u l r r' :=
  { h with after := .tail m h.after hP hstep }

/-- The last step of a run. -/
theorem last (h : T.Steps P s r) (hP : P r l) (hstep : T.step l r = some r') :
    T.Took P s r' l r r' :=
  ⟨h, hP, hstep, .refl⟩

end Took

end TransitionSystem

end Foundation
