import Mathlib.Data.List.Infix

set_option relaxedAutoImplicit false
set_option autoImplicit false

/-!
# Messages in a stream

A peer that gets messages one behind the other takes them off the stream by a reader, which says for
the front of a stream what it means, if the front is complete. Over a connection that may break off
anywhere, the peer has a beginning of the stream. This file says what it has read then.

## Main definitions

* `Messages.Reads` — a reader understands a message, whatever comes behind it.
* `Messages.Stable` — what a reader has read stays read when the stream goes on.
* `Messages.readAll` — all that can be read off a stream.

## Main results

* `Messages.readAll_flatten` — all messages of a stream are read.
* `Messages.readAll_of_prefix` — in the beginning of a stream, the first messages are read.
-/

namespace Messages

variable {α ρ : Type*}

/-- The reader understands the message, whatever comes behind it. -/
def Reads (read : List α → Option (ρ × List α)) (m : List α) (r : ρ) : Prop :=
  ∀ s, read (m ++ s) = some (r, s)

/-- What has been read stays read when the stream goes on. -/
structure Stable (read : List α → Option (ρ × List α)) : Prop where
  nil : read [] = none
  append : ∀ {s rest : List α} {r : ρ}, read s = some (r, rest) →
    ∀ m, read (s ++ m) = some (r, rest ++ m)

/-- What is read off a stream, for at most `n` messages, and what is left. -/
def readUpTo (read : List α → Option (ρ × List α)) : ℕ → List α → List ρ × List α
  | 0, s => ([], s)
  | n + 1, s => match read s with
    | none => ([], s)
    | some (r, rest) => (r :: (readUpTo read n rest).1, (readUpTo read n rest).2)

/-- All that can be read off a stream, and what is left. -/
def readAll (read : List α → Option (ρ × List α)) (s : List α) : List ρ × List α :=
  readUpTo read s.length s

variable {read : List α → Option (ρ × List α)} (hstable : Stable read)

include hstable in
/-- Nothing is understood in an empty message. -/
lemma Reads.ne_nil {m : List α} {r : ρ} (h : Reads read m r) : m ≠ [] := by
  rintro rfl
  have hread := h []
  rw [List.append_nil, hstable.nil] at hread
  cases hread

include hstable in
/-- There are no more messages than elements. -/
lemma length_le_flatten {ms : List (List α)} {rs : List ρ} (h : List.Forall₂ (Reads read) ms rs) :
    rs.length ≤ ms.flatten.length := by
  induction h with
  | nil => exact Nat.zero_le _
  | cons hm _ ih =>
    have := List.length_pos_of_ne_nil (hm.ne_nil hstable)
    rw [List.flatten_cons, List.length_append, List.length_cons]
    omega

/-- Messages are read one after the other. -/
lemma readUpTo_flatten {ms : List (List α)} {rs : List ρ} (h : List.Forall₂ (Reads read) ms rs)
    (hnil : read [] = none) : ∀ n, rs.length ≤ n → readUpTo read n ms.flatten = (rs, []) := by
  induction h with
  | nil =>
    intro n _
    cases n with
    | zero => rfl
    | succ n => simp [readUpTo, hnil]
  | @cons m r ms rs hm _ ih =>
    intro n hn
    cases n with
    | zero => cases hn
    | succ n =>
      have hrest := ih n (Nat.le_of_succ_le_succ hn)
      simp only [List.flatten_cons, readUpTo, hm ms.flatten, hrest]

include hstable in
/-- **All messages of a stream are read.** -/
theorem readAll_flatten {ms : List (List α)} {rs : List ρ}
    (h : List.Forall₂ (Reads read) ms rs) : readAll read ms.flatten = (rs, []) :=
  readUpTo_flatten h hstable.nil _ (length_le_flatten hstable h)

include hstable in
/-- In the beginning of a stream, no more than its messages are read. -/
lemma readUpTo_of_prefix {ms : List (List α)} {rs : List ρ}
    (h : List.Forall₂ (Reads read) ms rs) : ∀ (n : ℕ) {s : List α}, s <+: ms.flatten →
      (readUpTo read n s).1 <+: rs := by
  induction h with
  | nil =>
    intro n s hs
    obtain rfl : s = [] := List.prefix_nil.mp hs
    cases n with
    | zero => exact List.nil_prefix
    | succ n => simp [readUpTo, hstable.nil]
  | @cons m r ms rs hm _ ih =>
    intro n s hs
    cases n with
    | zero => exact List.nil_prefix
    | succ n =>
      cases hread : read s with
      | none => simp [readUpTo, hread]
      | some p =>
        obtain ⟨r', rest⟩ := p
        obtain ⟨tail, htail⟩ := hs
        -- what is read is the first message, which the whole stream begins with
        have hwhole := hstable.append hread tail
        rw [htail, List.flatten_cons, hm ms.flatten] at hwhole
        obtain ⟨rfl, hrest⟩ := Prod.mk.inj (Option.some.inj hwhole)
        simp only [readUpTo, hread]
        exact (List.prefix_cons_inj r).mpr (ih n ⟨tail, hrest.symm⟩)

include hstable in
/-- **In the beginning of a stream, the first messages are read**, and nothing else. -/
theorem readAll_of_prefix {ms : List (List α)} {rs : List ρ} {s : List α}
    (h : List.Forall₂ (Reads read) ms rs) (hs : s <+: ms.flatten) :
    (readAll read s).1 <+: rs :=
  readUpTo_of_prefix hstable h s.length hs

end Messages
