import Mathlib.Data.List.Chain
import Mathlib.Data.List.Nodup
import Mathlib.Logic.Function.Basic

set_option relaxedAutoImplicit false
set_option autoImplicit false

/-!
# Doubly linked chains of nodes

Two partial functions `next prev : α → Option α` on an arbitrary type of nodes stand for the
two pointer fields of a doubly linked list; `none` is the null pointer. A list of nodes is
*linked* when every two consecutive ones point at each other. The file says what following the
pointers of a linked list visits, and what the two elementary pointer surgeries do to it.

## Main definitions

* `Links.Visits` — following one pointer field from a node visits exactly the given nodes and
  then reaches the given end.
* `Links.Linked` — consecutive nodes of the list point at each other.

## Main results

* `Links.Linked.visits`, `Links.Linked.visits_reverse` — a linked list is walked forwards along
  `next` and backwards along `prev`.
* `Links.Linked.frame` — the pointers that matter: `next` of all nodes but the last, `prev` of
  all nodes but the first.
* `Links.Linked.unlink`, `Links.Linked.splice` — taking a node out of a duplicate-free linked
  list by two writes, and putting a node between two neighbours by four.
-/

namespace Links

variable {α : Type*} {next prev next' prev' : α → Option α}

/-! ## Walks -/

/-- Following `f` from the first node visits exactly the nodes of the list, in order, and then
reaches the last node. -/
def Visits (f : α → Option α) : α → List α → α → Prop
  | a, [], b => f a = some b
  | a, x :: xs, b => f a = some x ∧ Visits f x xs b

/-- A walk can be extended by one more node at its end. -/
lemma Visits.concat {f : α → Option α} {a x b : α} {xs : List α} (h : Visits f a xs x)
    (hb : f x = some b) : Visits f a (xs ++ [x]) b := by
  induction xs generalizing a with
  | nil => exact ⟨h, hb⟩
  | cons y ys ih => exact ⟨h.1, ih h.2⟩

/-! ## Linked lists -/

/-- Consecutive nodes of the list point at each other. -/
def Linked (next prev : α → Option α) (l : List α) : Prop :=
  l.IsChain fun x y => next x = some y ∧ prev y = some x

/-- The forward walk of a linked list. -/
lemma Linked.visits {a b : α} {xs : List α} (h : Linked next prev (a :: xs ++ [b])) :
    Visits next a xs b := by
  induction xs generalizing a with
  | nil => exact (List.isChain_cons_cons.mp h).1.1
  | cons x xs ih =>
    obtain ⟨hax, hx⟩ := List.isChain_cons_cons.mp h
    exact ⟨hax.1, ih hx⟩

/-- The backward walk of a linked list. -/
lemma Linked.visits_reverse {a b : α} {xs : List α} (h : Linked next prev (a :: xs ++ [b])) :
    Visits prev b xs.reverse a := by
  induction xs generalizing a with
  | nil => exact (List.isChain_cons_cons.mp h).1.2
  | cons x xs ih =>
    obtain ⟨hax, hx⟩ := List.isChain_cons_cons.mp h
    rw [List.reverse_cons]
    exact (ih hx).concat hax.2

/-- Only `next` of the nodes before the last and `prev` of the nodes after the first matter. -/
lemma Linked.frame {l : List α} (h : Linked next prev l)
    (hn : ∀ x ∈ l.dropLast, next' x = next x) (hp : ∀ y ∈ l.tail, prev' y = prev y) :
    Linked next' prev' l := by
  induction l with
  | nil => exact List.isChain_nil
  | cons x l ih =>
    cases l with
    | nil => exact List.isChain_singleton x
    | cons y l =>
      obtain ⟨⟨hxy, hyx⟩, hl⟩ := List.isChain_cons_cons.mp h
      refine List.isChain_cons_cons.mpr ⟨⟨?_, ?_⟩, ih hl ?_ ?_⟩
      · rw [hn x (by simp), hxy]
      · rw [hp y (by simp), hyx]
      · exact fun z hz => hn z (by simp [hz])
      · exact fun z hz => hp z (by simp_all)

/-- A linked list falls apart at any two consecutive nodes. -/
lemma linked_append_cons_cons {l₁ l₂ : List α} {x y : α} :
    Linked next prev (l₁ ++ x :: y :: l₂) ↔
      Linked next prev (l₁ ++ [x]) ∧ (next x = some y ∧ prev y = some x) ∧
        Linked next prev (y :: l₂) := by
  unfold Linked
  rw [List.isChain_split, List.isChain_cons_cons]

/-- Pointers of a node inside a linked list, forwards. -/
lemma Linked.next_eq {l₁ l₂ : List α} {x y : α} (h : Linked next prev (l₁ ++ x :: y :: l₂)) :
    next x = some y :=
  (linked_append_cons_cons.mp h).2.1.1

/-- Pointers of a node inside a linked list, backwards. -/
lemma Linked.prev_eq {l₁ l₂ : List α} {x y : α} (h : Linked next prev (l₁ ++ x :: y :: l₂)) :
    prev y = some x :=
  (linked_append_cons_cons.mp h).2.1.2

variable [DecidableEq α]

/-- **Unlinking** a node: pointing its two neighbours at each other takes it out of the list. -/
lemma Linked.unlink {l₁ l₂ : List α} {x n y : α}
    (h : Linked next prev (l₁ ++ x :: n :: y :: l₂)) (hd : (l₁ ++ x :: n :: y :: l₂).Nodup) :
    Linked (Function.update next x (some y)) (Function.update prev y (some x))
      (l₁ ++ x :: y :: l₂) := by
  obtain ⟨h₁, -, h₂⟩ := linked_append_cons_cons.mp h
  have h₃ : Linked next prev (y :: l₂) := h₂.tail
  have hx : x ∉ l₁ ∧ x ∉ y :: l₂ := by simp_all [List.nodup_append]; grind
  have hy : y ∉ l₁ ++ [x] ∧ y ∉ l₂ := by simp_all [List.nodup_append]; grind
  refine linked_append_cons_cons.mpr ⟨h₁.frame ?_ ?_, ⟨by simp, by simp⟩, h₃.frame ?_ ?_⟩
  · intro z hz
    have hz : z ∈ l₁ := by simpa using hz
    exact Function.update_of_ne (ne_of_mem_of_not_mem hz hx.1) _ _
  · intro z hz
    exact Function.update_of_ne (ne_of_mem_of_not_mem (List.mem_of_mem_tail hz) hy.1) _ _
  · intro z hz
    exact Function.update_of_ne (ne_of_mem_of_not_mem (List.dropLast_subset _ hz) hx.2) _ _
  · intro z hz
    exact Function.update_of_ne (ne_of_mem_of_not_mem hz hy.2) _ _

/-- **Splicing** a new node between two neighbours: four pointer writes put it into the list. -/
lemma Linked.splice {l₁ l₂ : List α} {x n y : α} (h : Linked next prev (l₁ ++ x :: y :: l₂))
    (hd : (l₁ ++ x :: y :: l₂).Nodup) (hn : n ∉ l₁ ++ x :: y :: l₂) :
    Linked (Function.update (Function.update next n (some y)) x (some n))
      (Function.update (Function.update prev n (some x)) y (some n))
      (l₁ ++ x :: n :: y :: l₂) := by
  obtain ⟨h₁, -, h₂⟩ := linked_append_cons_cons.mp h
  have hx : x ∉ l₁ ∧ x ∉ y :: l₂ := by simp_all [List.nodup_append]; grind
  have hy : y ∉ l₁ ++ [x] ∧ y ∉ l₂ := by simp_all [List.nodup_append]; grind
  have hn' : n ∉ l₁ ++ [x] ∧ n ∉ y :: l₂ := by simp_all
  have hnx : n ≠ x := fun e => hn'.1 (by simp [e])
  have hny : n ≠ y := fun e => hn'.2 (by simp [e])
  refine linked_append_cons_cons.mpr ⟨h₁.frame ?_ ?_, ⟨by simp, by simp [hny]⟩,
    List.isChain_cons_cons.mpr ⟨⟨by simp [hnx], by simp⟩, h₂.frame ?_ ?_⟩⟩
  · intro z hz
    have hz : z ∈ l₁ := by simpa using hz
    rw [Function.update_of_ne (ne_of_mem_of_not_mem hz hx.1),
      Function.update_of_ne (ne_of_mem_of_not_mem (List.mem_append_left _ hz) hn'.1)]
  · intro z hz
    have hz := List.mem_of_mem_tail hz
    rw [Function.update_of_ne (ne_of_mem_of_not_mem hz hy.1),
      Function.update_of_ne (ne_of_mem_of_not_mem hz hn'.1)]
  · intro z hz
    have hz := List.dropLast_subset _ hz
    rw [Function.update_of_ne (ne_of_mem_of_not_mem hz hx.2),
      Function.update_of_ne (ne_of_mem_of_not_mem hz hn'.2)]
  · intro z hz
    have hz : z ∈ l₂ := hz
    rw [Function.update_of_ne (ne_of_mem_of_not_mem hz hy.2),
      Function.update_of_ne (ne_of_mem_of_not_mem (List.mem_cons_of_mem _ hz) hn'.2)]

end Links
