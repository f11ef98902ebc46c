import Mathlib.Data.Set.Insert
import Mathlib.Logic.Function.Basic
import Mathlib.Tactic.Lemma

set_option relaxedAutoImplicit false
set_option autoImplicit false

/-!
# Exclusive ownership of handles

Some owners hold handles, at most one each, that an environment gives out and takes back. A handle
that has been taken back may be given out again. The holders own their handles exclusively if no two
of them hold the same one and every handle held is open.

## Main definitions

* `Ownership.Exclusive` — the invariant.

## Main results

* `Ownership.Exclusive.acquire`, `Ownership.Exclusive.release`, `Ownership.Exclusive.move`,
  `Ownership.Exclusive.drop` — what keeps it.
* `Ownership.not_exclusive_of_held` — what breaks it: a handle that is still held is taken back.
-/

namespace Ownership

variable {ι κ : Type*} [DecidableEq ι]

/-- No two owners hold the same handle, and every handle held is open. -/
structure Exclusive (held : ι → Option κ) (opened : Set κ) : Prop where
  inj : ∀ i j k, held i = some k → held j = some k → i = j
  mem : ∀ i k, held i = some k → k ∈ opened

variable {held : ι → Option κ} {opened : Set κ} {i : ι} {k : κ}

/-- An owner forgets its handle, which stays open. -/
lemma Exclusive.drop (h : Exclusive held opened) (i : ι) :
    Exclusive (Function.update held i none) opened := by
  have hold : ∀ j k, Function.update held i none j = some k → held j = some k := by
    intro j k hj
    by_cases hji : j = i
    · rw [hji, Function.update_self] at hj
      cases hj
    · rwa [Function.update_of_ne hji] at hj
  exact ⟨fun j j' k hj hj' => h.inj j j' k (hold j k hj) (hold j' k hj'),
    fun j k hj => h.mem j k (hold j k hj)⟩

/-- A handle that is not open is given to an owner. -/
lemma Exclusive.acquire (h : Exclusive held opened) (hk : k ∉ opened) (i : ι) :
    Exclusive (Function.update held i (some k)) (insert k opened) := by
  have hcases : ∀ j k', Function.update held i (some k) j = some k' →
      j = i ∧ k' = k ∨ held j = some k' ∧ k' ≠ k := by
    intro j k' hj
    by_cases hji : j = i
    · rw [hji, Function.update_self] at hj
      exact .inl ⟨hji, (Option.some.inj hj).symm⟩
    · rw [Function.update_of_ne hji] at hj
      exact .inr ⟨hj, fun hkk => hk (hkk ▸ h.mem j k' hj)⟩
  constructor
  · intro j j' k' hj hj'
    rcases hcases j k' hj with ⟨hji, hk₁⟩ | ⟨hj, hk₁⟩
    · rcases hcases j' k' hj' with ⟨hji', -⟩ | ⟨-, hk₂⟩
      · rw [hji, hji']
      · exact absurd hk₁ hk₂
    · rcases hcases j' k' hj' with ⟨-, hk₂⟩ | ⟨hj', -⟩
      · exact absurd hk₂ hk₁
      · exact h.inj j j' k' hj hj'
  · intro j k' hj
    rcases hcases j k' hj with ⟨-, rfl⟩ | ⟨hj, -⟩
    · exact Set.mem_insert k' opened
    · exact Set.mem_insert_of_mem k (h.mem j k' hj)

/-- An owner gives its handle back. -/
lemma Exclusive.release (h : Exclusive held opened) (hi : held i = some k) :
    Exclusive (Function.update held i none) (opened \ {k}) := by
  refine ⟨(h.drop i).inj, fun j k' hj => ⟨(h.drop i).mem j k' hj, ?_⟩⟩
  rintro rfl
  by_cases hji : j = i
  · rw [hji, Function.update_self] at hj
    cases hj
  · rw [Function.update_of_ne hji] at hj
    exact hji (h.inj j i k' hj hi)

/-- A handle passes from one owner to another, which forgets the one it had. -/
lemma Exclusive.move (h : Exclusive held opened) (i j : ι) :
    Exclusive (Function.update (Function.update held i (held j)) j none) opened := by
  -- the new holder of a handle is `i` for the handle of `j`, and else the old one
  have hcases : ∀ m k, Function.update (Function.update held i (held j)) j none m = some k →
      m ≠ j ∧ (m = i ∧ held j = some k ∨ held m = some k) := by
    intro m k hm
    by_cases hmj : m = j
    · rw [hmj, Function.update_self] at hm
      cases hm
    · rw [Function.update_of_ne hmj] at hm
      refine ⟨hmj, ?_⟩
      by_cases hmi : m = i
      · rw [hmi, Function.update_self] at hm
        exact .inl ⟨hmi, hm⟩
      · rw [Function.update_of_ne hmi] at hm
        exact .inr hm
  constructor
  · intro m m' k hm hm'
    obtain ⟨hmj, ⟨hmi, hk⟩ | hk⟩ := hcases m k hm
    · obtain ⟨hmj', ⟨hmi', -⟩ | hk'⟩ := hcases m' k hm'
      · rw [hmi, hmi']
      · exact absurd (h.inj m' j k hk' hk) hmj'
    · obtain ⟨hmj', ⟨hmi', hk'⟩ | hk'⟩ := hcases m' k hm'
      · exact absurd (h.inj m j k hk hk') hmj
      · exact h.inj m m' k hk hk'
  · intro m k hm
    obtain ⟨-, ⟨-, hk⟩ | hk⟩ := hcases m k hm
    · exact h.mem j k hk
    · exact h.mem m k hk

omit [DecidableEq ι] in
/-- Nobody else holds the handle of an owner. -/
lemma Exclusive.sole (h : Exclusive held opened) (hi : held i = some k) :
    k ∈ opened ∧ ∀ j, j ≠ i → held j ≠ some k :=
  ⟨h.mem i k hi, fun j hji hj => hji (h.inj j i k hj hi)⟩

omit [DecidableEq ι] in
/-- A handle must not be given back as long as it is held. -/
lemma not_exclusive_of_held (hi : held i = some k) (hk : k ∉ opened) : ¬ Exclusive held opened :=
  fun h => hk (h.mem i k hi)

end Ownership
