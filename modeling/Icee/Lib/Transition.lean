import Mathlib.Data.List.Infix
import Mathlib.Tactic.TypeStar
import Mathlib.Tactic.Lemma

set_option relaxedAutoImplicit false
set_option autoImplicit false

/-!
# Runs of a labelled transition function

A system is given by a partial function `step s l`, the state after the step labelled `l` if that
step is possible in `s`. A run is a finite list of labels; interleavings of threads are runs whose
labels name the thread that moves.

## Main definitions

* `Transition.exec` — the state after a run, if all its steps are possible.
* `Transition.Along` — every step of the run meets a condition in the state it is taken in.
* `Transition.observe` — what is seen of a run in the middle, before a given step, and at its end.
* `Transition.Stuck` — no step is possible.

## Main results

* `Transition.invariant_of_along` — the invariant rule: what every step that meets the condition
  preserves holds after every run whose steps all meet it.
* `Transition.invariant_of_exec` — the same for all runs.
* `Transition.along_iff` — the rule for exact conditions: if the steps that violate the condition
  end in a bad state, then it is met along the run exactly if no state of the run is bad.
* `Transition.along_of_forall` — what holds of every step taken in a good state holds along every
  run through good states.
* `Transition.along_congr` — conditions that agree under an invariant are met along the same runs.
* `Transition.exists_exec_of_steps` — a run of a system is a run of its components.
* `Transition.length_le_of_measure` — the termination rule.
-/

namespace Transition

variable {σ ℓ : Type*} (step : σ → ℓ → Option σ)

/-- The state after a run, if all its steps are possible. -/
def exec : σ → List ℓ → Option σ
  | s, [] => some s
  | s, l :: ls => match step s l with
    | none => none
    | some s' => exec s' ls

variable {step} in
/-- A run whose first step is possible goes on from the state after it. -/
lemma exec_cons {s s' : σ} {l : ℓ} (h : step s l = some s') (ls : List ℓ) :
    exec step s (l :: ls) = exec step s' ls := by
  simp only [exec, h]

variable {step} in
/-- A run and then another one. -/
lemma exec_append {s s' : σ} {ls : List ℓ} (ls' : List ℓ) (h : exec step s ls = some s') :
    exec step s (ls ++ ls') = exec step s' ls' := by
  induction ls generalizing s with
  | nil =>
    rw [← Option.some.inj h]
    rfl
  | cons l ls ih =>
    cases hstep : step s l with
    | none => simp only [exec, hstep, reduceCtorEq] at h
    | some s₁ =>
      rw [exec_cons hstep] at h
      rw [List.cons_append, exec_cons hstep]
      exact ih h

/-- Every step of the run meets `cond` in the state in which it is taken. -/
def Along (cond : σ → ℓ → Prop) : σ → List ℓ → Prop
  | _, [] => True
  | s, l :: ls => cond s l ∧ ∀ s', step s l = some s' → Along cond s' ls

/-- A run whose first step is possible. -/
lemma along_cons {cond : σ → ℓ → Prop} {s s' : σ} {l : ℓ} (h : step s l = some s') (ls : List ℓ) :
    Along step cond s (l :: ls) ↔ cond s l ∧ Along step cond s' ls := by
  simp only [Along, h, Option.some.injEq, forall_eq']

/-- Whether all steps of a run meet a decidable condition can be computed by running it. -/
instance decidableAlong (cond : σ → ℓ → Prop) [∀ s l, Decidable (cond s l)] :
    ∀ s ls, Decidable (Along step cond s ls)
  | _, [] => .isTrue trivial
  | s, l :: ls => match h : step s l with
    | none => decidable_of_iff (cond s l) (by simp [Along, h])
    | some s' =>
      have := decidableAlong cond s' ls
      decidable_of_iff (cond s l ∧ Along step cond s' ls) (along_cons step h ls).symm

/-- What is seen of a run in the state before the step labelled `l` and in the last state, if all
its steps are possible. -/
def observe {β : Type*} (s : σ) (ls₁ : List ℓ) (l : ℓ) (ls₂ : List ℓ) (f : σ → σ → β) : Option β :=
  match exec step s ls₁ with
  | none => none
  | some s₁ => match step s₁ l with
    | none => none
    | some s₁' => match exec step s₁' ls₂ with
      | none => none
      | some s₂ => some (f s₁ s₂)

/-- A run of which something is seen. -/
lemma exists_of_observe {β : Type*} {s : σ} {ls₁ : List ℓ} {l : ℓ} {ls₂ : List ℓ} {f : σ → σ → β}
    {b : β} (h : observe step s ls₁ l ls₂ f = some b) :
    ∃ s₁ s₁' s₂, exec step s ls₁ = some s₁ ∧ step s₁ l = some s₁' ∧
      exec step s₁' ls₂ = some s₂ ∧ f s₁ s₂ = b := by
  unfold observe at h
  cases h₁ : exec step s ls₁ with
  | none => rw [h₁] at h; cases h
  | some s₁ =>
    cases hl : step s₁ l with
    | none => simp only [h₁, hl] at h; cases h
    | some s₁' =>
      cases h₂ : exec step s₁' ls₂ with
      | none => simp only [h₁, hl, h₂] at h; cases h
      | some s₂ =>
        simp only [h₁, hl, h₂] at h
        exact ⟨s₁, s₁', s₂, rfl, hl, h₂, Option.some.inj h⟩

variable {step} {cond : σ → ℓ → Prop} {Inv : σ → Prop}

/-- **The invariant rule** for runs whose steps all meet a condition. -/
theorem invariant_of_along
    (hstep : ∀ s l s', Inv s → cond s l → step s l = some s' → Inv s') :
    ∀ (ls : List ℓ) {s s' : σ}, Inv s → Along step cond s ls → exec step s ls = some s' →
      Inv s' := by
  intro ls
  induction ls with
  | nil =>
    intro s s' hs _ he
    rw [← Option.some.inj he]
    exact hs
  | cons l ls ih =>
    intro s s' hs ha he
    unfold exec at he
    cases hl : step s l with
    | none => rw [hl] at he; cases he
    | some s₁ =>
      rw [hl] at he
      exact ih (hstep s l s₁ hs ha.1 hl) (ha.2 s₁ hl) he

/-- **The invariant rule** for all runs. -/
theorem invariant_of_exec (hstep : ∀ s l s', Inv s → step s l = some s' → Inv s') :
    ∀ (ls : List ℓ) {s s' : σ}, Inv s → exec step s ls = some s' → Inv s' := by
  have hany : ∀ (ls : List ℓ) (s : σ), Along step (fun _ _ => True) s ls := by
    intro ls
    induction ls with
    | nil => intro s; trivial
    | cons l ls ih => intro s; exact ⟨trivial, fun s' _ => ih s'⟩
  intro ls s s' hs he
  exact invariant_of_along (fun s l s' hs _ => hstep s l s' hs) ls hs (hany ls s) he

/-- **Exact conditions**: let the steps that meet the condition preserve an invariant, under which
all states are good, and let the other steps end in a state that is not. Then a run meets the
condition exactly if all its states are good.

**Proof sketch.** By induction on the run. If the first step meets the condition, the invariant
holds behind it and the rest of the run begins there. If it does not, the state behind it, which the
run reaches, is not good. -/
theorem along_iff {Good : σ → Prop} (hgood : ∀ s, Inv s → Good s)
    (hstep : ∀ s l s', Inv s → cond s l → step s l = some s' → Inv s')
    (hbad : ∀ s l s', Inv s → ¬ cond s l → step s l = some s' → ¬ Good s') :
    ∀ (ls : List ℓ) {s s' : σ}, Inv s → exec step s ls = some s' →
      (Along step cond s ls ↔
        ∀ (front : List ℓ) (t : σ), front <+: ls → exec step s front = some t → Good t) := by
  intro ls
  induction ls with
  | nil =>
    intro s s' hs _
    refine iff_of_true trivial fun front t hfront ht => ?_
    rw [List.prefix_nil.mp hfront] at ht
    rw [← Option.some.inj ht]
    exact hgood s hs
  | cons l ls ih =>
    intro s s' hs he
    unfold exec at he
    cases hl : step s l with
    | none => rw [hl] at he; cases he
    | some s₁ =>
      rw [hl] at he
      have hone : exec step s [l] = some s₁ := by simp [exec, hl]
      rw [along_cons step hl]
      constructor
      · rintro ⟨hc, ha⟩ front t hfront ht
        have hrest := (ih (hstep s l s₁ hs hc hl) he).mp ha
        cases front with
        | nil =>
          rw [← Option.some.inj ht]
          exact hgood s hs
        | cons l' front =>
          obtain ⟨rfl, htail⟩ := List.cons_prefix_cons.mp hfront
          simp only [exec, hl] at ht
          exact hrest front t htail ht
      · intro h
        have hc : cond s l := by
          by_contra hc
          exact hbad s l s₁ hs hc hl (h [l] s₁ (by simp) hone)
        refine ⟨hc, (ih (hstep s l s₁ hs hc hl) he).mpr fun front t hfront ht => ?_⟩
        exact h (l :: front) t (List.cons_prefix_cons.mpr ⟨rfl, hfront⟩)
          (by simpa [exec, hl] using ht)

/-- What holds of every step that is taken in a good state holds along every run through good
states. -/
theorem along_of_forall {Good : σ → Prop} (hcond : ∀ s l, Good s → cond s l) :
    ∀ (ls : List ℓ) {s : σ},
      (∀ (front : List ℓ) (t : σ), front <+: ls → exec step s front = some t → Good t) →
        Along step cond s ls := by
  intro ls
  induction ls with
  | nil => intro s _; trivial
  | cons l ls ih =>
    intro s h
    refine ⟨hcond s l (h [] s List.nil_prefix rfl), fun s' hl => ih fun front t hfront ht => ?_⟩
    exact h (l :: front) t (List.cons_prefix_cons.mpr ⟨rfl, hfront⟩) (by simpa [exec, hl] using ht)

/-- **Equivalent conditions**: two conditions that agree wherever an invariant holds are met along
the same runs, if the steps that meet them preserve the invariant. -/
theorem along_congr {cond' : σ → ℓ → Prop} (Inv : σ → Prop) (ls : List ℓ)
    (hstep : ∀ s l s', Inv s → cond s l → step s l = some s' → Inv s')
    (h : ∀ s, ∀ l ∈ ls, Inv s → (cond s l ↔ cond' s l)) :
    ∀ s, Inv s → (Along step cond s ls ↔ Along step cond' s ls) := by
  induction ls with
  | nil => intro s _; exact Iff.rfl
  | cons l ls ih =>
    intro s hs
    have ih' := ih fun s' l' hl' => h s' l' (by simp [hl'])
    have hl := h s l (by simp) hs
    constructor
    · rintro ⟨hc, ha⟩
      exact ⟨hl.mp hc, fun s' he => (ih' s' (hstep s l s' hs hc he)).mp (ha s' he)⟩
    · rintro ⟨hc, ha⟩
      exact ⟨hl.mpr hc, fun s' he => (ih' s' (hstep s l s' hs (hl.mpr hc) he)).mpr (ha s' he)⟩

/-! ## Runs of a part -/

/-- A run of a system that is only a part of another one is a run of that one. -/
lemma exec_of_restricted {step' : σ → ℓ → Option σ}
    (hstep : ∀ s l s', step' s l = some s' → step s l = some s') :
    ∀ (ls : List ℓ) {s s' : σ}, exec step' s ls = some s' → exec step s ls = some s' := by
  intro ls
  induction ls with
  | nil => intro s s' he; exact he
  | cons l ls ih =>
    intro s s' he
    cases hl : step' s l with
    | none => simp only [exec, hl, reduceCtorEq] at he
    | some s₁ =>
      rw [exec_cons hl] at he
      rw [exec_cons (hstep s l s₁ hl)]
      exact ih he

/-- **The runs of a component**: if every step of a system either is a step of one of its components
or leaves it as it is, then a run of the system is a run of the component. -/
theorem exists_exec_of_steps {σ' ℓ' : Type*} {step' : σ' → ℓ' → Option σ'} (f : σ → σ')
    (hstep : ∀ s l s', step s l = some s' → f s' = f s ∨ ∃ l', step' (f s) l' = some (f s')) :
    ∀ (ls : List ℓ) {s s' : σ}, exec step s ls = some s' →
      ∃ ls', exec step' (f s) ls' = some (f s') := by
  intro ls
  induction ls with
  | nil =>
    intro s s' he
    exact ⟨[], by rw [← Option.some.inj he]; rfl⟩
  | cons l ls ih =>
    intro s s' he
    cases hl : step s l with
    | none => simp only [exec, hl, reduceCtorEq] at he
    | some s₁ =>
      rw [exec_cons hl] at he
      obtain ⟨ls', hrest⟩ := ih he
      rcases hstep s l s₁ hl with heq | ⟨l', hl'⟩
      · exact ⟨ls', heq ▸ hrest⟩
      · exact ⟨l' :: ls', by rw [exec_cons hl', hrest]⟩

/-- **Simulation**: if every step of a system can be followed by a run of another one, so can every
run of it. -/
theorem exists_exec_of_simulation {σ' ℓ' : Type*} {step' : σ' → ℓ' → Option σ'}
    (R : σ → σ' → Prop) (hstep : ∀ s t l s', R s t → step s l = some s' →
      ∃ ls' t', exec step' t ls' = some t' ∧ R s' t') :
    ∀ (ls : List ℓ) {s s' : σ} {t : σ'}, R s t → exec step s ls = some s' →
      ∃ ls' t', exec step' t ls' = some t' ∧ R s' t' := by
  intro ls
  induction ls with
  | nil =>
    intro s s' t hR he
    rw [← Option.some.inj he]
    exact ⟨[], t, rfl, hR⟩
  | cons l ls ih =>
    intro s s' t hR he
    cases hl : step s l with
    | none => simp only [exec, hl, reduceCtorEq] at he
    | some s₁ =>
      rw [exec_cons hl] at he
      obtain ⟨ls₁, t₁, hrun, hR₁⟩ := hstep s t l s₁ hR hl
      obtain ⟨ls₂, t₂, hrest, hR₂⟩ := ih hR₁ he
      exact ⟨ls₁ ++ ls₂, t₂, (exec_append ls₂ hrun).trans hrest, hR₂⟩

/-! ## Termination -/

/-- No step is possible. -/
def Stuck (step : σ → ℓ → Option σ) (s : σ) : Prop := ∀ l, step s l = none

/-- **The termination rule**: if every step from a good state makes a measure smaller, a run from
a good state is no longer than what the measure loses on it. -/
theorem length_le_of_measure (measure : σ → ℕ)
    (hstep : ∀ s l s', Inv s → step s l = some s' → Inv s' ∧ measure s' < measure s) :
    ∀ (ls : List ℓ) {s s' : σ}, Inv s → exec step s ls = some s' →
      ls.length + measure s' ≤ measure s := by
  intro ls
  induction ls with
  | nil =>
    intro s s' _ he
    rw [← Option.some.inj he, List.length_nil, Nat.zero_add]
  | cons l ls ih =>
    intro s s' hs he
    cases hl : step s l with
    | none => simp only [exec, hl, reduceCtorEq] at he
    | some s₁ =>
      rw [exec_cons hl] at he
      obtain ⟨hs₁, hless⟩ := hstep s l s₁ hs hl
      have hrest := ih hs₁ he
      rw [List.length_cons]
      omega

end Transition
