import Mathlib.Algebra.BigOperators.Group.Finset.Basic
import Mathlib.Algebra.BigOperators.Group.Finset.Piecewise
import Mathlib.Data.Fintype.Card

set_option relaxedAutoImplicit false
set_option autoImplicit false

/-!
# Counting the members of a group by what they do

Each member of a finite group is in some phase, and one member after the other changes its own.

## Main definitions

* `Census.count` — how many members are in a phase with a given property.

## Main results

* `Census.count_update`, `Census.sum_update` — what one change does to the count, and to a sum.
* `Census.count_add_count_not` — the others are the rest of the group.
-/

namespace Census

variable {ι β : Type*} [Fintype ι]

/-- How many members are in a phase with the property. -/
def count (p : β → Bool) (phase : ι → β) : ℕ := (Finset.univ.filter fun i => p (phase i)).card

/-- The count, member by member. -/
lemma count_eq_sum (p : β → Bool) (phase : ι → β) :
    count p phase = ∑ i, (p (phase i)).toNat := by
  rw [count, Finset.card_filter]
  refine Finset.sum_congr rfl fun i _ => ?_
  cases p (phase i) <;> rfl

/-- **A change of one member** takes away what it has counted for and adds what it counts for. -/
lemma count_update [DecidableEq ι] (p : β → Bool) (phase : ι → β) (i : ι) (b : β) :
    count p (Function.update phase i b) + (p (phase i)).toNat = count p phase + (p b).toNat := by
  have hupdate : (fun j => (p (Function.update phase i b j)).toNat) =
      Function.update (fun j => (p (phase j)).toNat) i (p b).toNat := by
    funext j
    by_cases hj : j = i
    · rw [hj, Function.update_self, Function.update_self]
    · rw [Function.update_of_ne hj, Function.update_of_ne hj]
  rw [count_eq_sum, count_eq_sum, hupdate, Finset.sum_update_of_mem (Finset.mem_univ i),
    Finset.sum_eq_add_sum_sdiff_singleton_of_mem (Finset.mem_univ i) fun j => (p (phase j)).toNat]
  omega

/-- A change of one member in a sum over all of them. -/
lemma sum_update [DecidableEq ι] (f : β → ℕ) (phase : ι → β) (i : ι) (b : β) :
    ∑ j, f (Function.update phase i b j) + f (phase i) = ∑ j, f (phase j) + f b := by
  have hupdate : (fun j => f (Function.update phase i b j)) =
      Function.update (fun j => f (phase j)) i (f b) := by
    funext j
    by_cases hj : j = i
    · rw [hj, Function.update_self, Function.update_self]
    · rw [Function.update_of_ne hj, Function.update_of_ne hj]
  rw [hupdate, Finset.sum_update_of_mem (Finset.mem_univ i),
    Finset.sum_eq_add_sum_sdiff_singleton_of_mem (Finset.mem_univ i) fun j => f (phase j)]
  omega

/-- Nobody is counted exactly if nobody has the property. -/
lemma count_eq_zero_iff {p : β → Bool} {phase : ι → β} :
    count p phase = 0 ↔ ∀ i, p (phase i) = false := by
  simp [count, Finset.filter_eq_empty_iff]

/-- Somebody who is counted has the property. -/
lemma exists_of_count_pos {p : β → Bool} {phase : ι → β} (h : 0 < count p phase) :
    ∃ i, p (phase i) = true := by
  by_contra hnone
  have hzero : count p phase = 0 :=
    count_eq_zero_iff.mpr fun i => Bool.eq_false_iff.mpr fun hi => hnone ⟨i, hi⟩
  omega

/-- **The others** are the rest of the group. -/
lemma count_add_count_not (p : β → Bool) (phase : ι → β) :
    count p phase + count (fun b => !p b) phase = Fintype.card ι := by
  have hsplit := Finset.card_filter_add_card_filter_not (s := Finset.univ)
    fun i : ι => p (phase i) = true
  simpa [count] using hsplit

end Census
