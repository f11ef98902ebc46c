import Mathlib.Data.List.Infix

set_option relaxedAutoImplicit false
set_option autoImplicit false

/-!
# Leftmost occurrences and delimited frames

Searching a list for the leftmost occurrence of a pattern, and cutting a stream into *frames*,
each of which ends with the first occurrence of a delimiter. The alphabet is arbitrary.

## Main definitions

* `Search.leftmost t s` — the position of the leftmost occurrence of `t` in `s`.
* `Search.cut t s` — the first frame of `s`, up to and including the delimiter `t`, and the rest.
* `Search.frames t s` — all frames of `s`.

## Main results

* `Search.leftmost_eq_none_iff` — nothing is found exactly when `t` does not occur.
* `Search.leftmost_append`, `Search.cut_append` — what is found in a stream is found when more
  of the stream has arrived.
* `Search.eq_of_cut` — a frame contains its delimiter only at its end.
* `Search.leftmost_append_of_notMem` — a stretch without the first letter of the pattern is
  skipped.
* `Search.frames_of_cut` — the frames of a stream, one at a time.
-/

namespace Search

variable {α : Type*} [DecidableEq α] {t s r f : List α} {i : ℕ}

/-! ## The leftmost occurrence -/

/-- The position of the leftmost occurrence of `t`. -/
def leftmost (t : List α) : List α → Option ℕ
  | [] => if t = [] then some 0 else none
  | a :: s => if t <+: a :: s then some 0 else (leftmost t s).map (· + 1)

/-- A prefix is found at once. -/
lemma leftmost_eq_zero (h : t <+: s) : leftmost t s = some 0 := by
  cases s with
  | nil => exact if_pos (List.prefix_nil.mp h)
  | cons a s => exact if_pos h

/-- Otherwise the search goes on behind the first letter. -/
lemma leftmost_cons_eq {a : α} (h : ¬ t <+: a :: s) :
    leftmost t (a :: s) = (leftmost t s).map (· + 1) :=
  if_neg h

/-- The pattern stands where it is found. -/
lemma eq_append_of_leftmost : ∀ {s : List α} {i : ℕ}, leftmost t s = some i →
    s = s.take i ++ t ++ s.drop (i + t.length)
  | [], i, h => by
    unfold leftmost at h
    split at h
    · next ht => subst ht; simp
    · cases h
  | a :: s, i, h => by
    unfold leftmost at h
    split at h
    · next hp =>
      obtain rfl : 0 = i := Option.some.inj h
      obtain ⟨u, hu⟩ := hp
      rw [← hu]
      simp
    · obtain ⟨j, hj, rfl⟩ := Option.map_eq_some_iff.mp h
      have ih := eq_append_of_leftmost hj
      rw [List.take_succ_cons, show j + 1 + t.length = (j + t.length) + 1 by omega,
        List.drop_succ_cons, List.cons_append, List.cons_append, ← ih]

/-- What is found fits in the list. -/
lemma leftmost_add_length_le (h : leftmost t s = some i) : i + t.length ≤ s.length := by
  induction s generalizing i with
  | nil =>
    unfold leftmost at h
    split at h
    · next ht => obtain rfl := Option.some.inj h; subst ht; simp
    · cases h
  | cons a s ih =>
    unfold leftmost at h
    split at h
    · next hp =>
      obtain rfl : 0 = i := Option.some.inj h
      simpa using hp.length_le
    · obtain ⟨j, hj, rfl⟩ := Option.map_eq_some_iff.mp h
      have := ih hj
      simp only [List.length_cons]
      omega

/-- Nothing is found exactly when the pattern does not occur. -/
lemma leftmost_eq_none_iff : leftmost t s = none ↔ ¬ t <:+: s := by
  induction s with
  | nil =>
    unfold leftmost
    by_cases ht : t = []
    · subst ht; simp
    · simp [ht]
  | cons a s ih =>
    rw [List.infix_cons_iff]
    by_cases hp : t <+: a :: s
    · simp [leftmost_eq_zero hp, hp]
    · rw [leftmost_cons_eq hp, Option.map_eq_none_iff, ih]
      simp [hp]

/-- **Stability**: more of the stream does not change what has been found. -/
lemma leftmost_append (r : List α) : ∀ {s : List α} {i : ℕ}, leftmost t s = some i →
    leftmost t (s ++ r) = some i
  | [], i, h => by
    unfold leftmost at h
    split at h
    · next ht =>
      obtain rfl := Option.some.inj h
      exact leftmost_eq_zero (ht ▸ List.nil_prefix)
    · cases h
  | a :: s, i, h => by
    by_cases hp : t <+: a :: s
    · rw [leftmost_eq_zero hp] at h
      rw [← h]
      exact leftmost_eq_zero (hp.trans (List.prefix_append _ _))
    · have hlen := leftmost_add_length_le h
      rw [leftmost_cons_eq hp] at h
      obtain ⟨j, hj, rfl⟩ := Option.map_eq_some_iff.mp h
      -- the pattern is no longer than what was there, so it is not a prefix now either
      have hp' : ¬ t <+: a :: (s ++ r) := fun hp' =>
        hp (List.prefix_of_prefix_length_le hp' (List.prefix_append (a :: s) r) (by omega))
      rw [List.cons_append, leftmost_cons_eq hp', leftmost_append r hj]
      rfl

/-- Nothing to the right of an occurrence is found. -/
lemma leftmost_le (v : List α) : ∀ u : List α, ∃ i ≤ u.length, leftmost t (u ++ (t ++ v)) = some i
  | [] => ⟨0, le_rfl, leftmost_eq_zero (List.prefix_append t v)⟩
  | a :: u => by
    by_cases hp : t <+: a :: (u ++ (t ++ v))
    · exact ⟨0, Nat.zero_le _, leftmost_eq_zero hp⟩
    · obtain ⟨i, hi, hfound⟩ := leftmost_le v u
      refine ⟨i + 1, by simpa using hi, ?_⟩
      rw [List.cons_append, leftmost_cons_eq hp, hfound]
      rfl

/-- A stretch that does not contain the first letter of the pattern is skipped. -/
lemma leftmost_append_of_notMem {a : α} {u p : List α} (h : a ∉ p) (s : List α) :
    leftmost (a :: u) (p ++ s) = (leftmost (a :: u) s).map (· + p.length) := by
  induction p with
  | nil => simp
  | cons b p ih =>
    have hb : ¬ a :: u <+: b :: (p ++ s) := fun hp => by
      have := (List.cons_prefix_cons.mp hp).1
      simp [this] at h
    rw [List.cons_append, leftmost_cons_eq hb, ih (fun hm => h (by simp [hm])),
      Option.map_map]
    congr 1

/-! ## Frames -/

/-- The first frame of the stream, with its delimiter, and the rest. -/
def cut (t s : List α) : Option (List α × List α) :=
  (leftmost t s).map fun i => (s.take (i + t.length), s.drop (i + t.length))

/-- Cutting loses nothing. -/
lemma append_of_cut (h : cut t s = some (f, r)) : f ++ r = s := by
  obtain ⟨i, -, hi⟩ := Option.map_eq_some_iff.mp h
  obtain ⟨rfl, rfl⟩ := Prod.mk.inj hi
  exact List.take_append_drop _ _

/-- A frame ends with the delimiter. -/
lemma suffix_of_cut (h : cut t s = some (f, r)) : t <:+ f := by
  obtain ⟨i, hi, he⟩ := Option.map_eq_some_iff.mp h
  obtain ⟨rfl, rfl⟩ := Prod.mk.inj he
  have hlen := leftmost_add_length_le hi
  refine ⟨s.take i, ?_⟩
  calc s.take i ++ t = (s.take i ++ t ++ s.drop (i + t.length)).take (i + t.length) :=
        (List.take_left' (by simp; omega)).symm
    _ = s.take (i + t.length) := by rw [← eq_append_of_leftmost hi]

/-- No occurrence of the delimiter in a frame ends before its end. -/
lemma eq_of_cut (h : cut t s = some (f, r)) {p : List α} (hp : p <+: f) (ht : t <:+ p) :
    p = f := by
  obtain ⟨u, rfl⟩ := ht
  obtain ⟨i, hi, he⟩ := Option.map_eq_some_iff.mp h
  obtain ⟨v, hv⟩ := hp.trans ⟨r, append_of_cut h⟩
  obtain ⟨j, hj, hfound⟩ := leftmost_le v u
  rw [← List.append_assoc, hv, hi] at hfound
  obtain rfl := Option.some.inj hfound
  have hlen := leftmost_add_length_le hi
  have hf : f.length = i + t.length := by
    rw [← (Prod.mk.inj he).1, List.length_take]
    omega
  exact hp.eq_of_length_le (by rw [hf, List.length_append]; omega)

/-- A frame is at least as long as the delimiter. -/
lemma length_le_of_cut (h : cut t s = some (f, r)) : t.length ≤ f.length :=
  (suffix_of_cut h).length_le

/-- The rest is shorter than the stream. -/
lemma length_rest_lt_of_cut (ht : t ≠ []) (h : cut t s = some (f, r)) : r.length < s.length := by
  have hpos : 0 < t.length := List.length_pos_of_ne_nil ht
  have hlen := congrArg List.length (append_of_cut h)
  have hf := length_le_of_cut h
  rw [List.length_append] at hlen
  omega

/-- Nothing is cut off exactly when the delimiter does not occur. -/
lemma cut_eq_none_iff : cut t s = none ↔ ¬ t <:+: s := by
  rw [cut, Option.map_eq_none_iff, leftmost_eq_none_iff]

/-- **Stability of frames**: the first frame is the same when more of the stream has arrived. -/
lemma cut_append (h : cut t s = some (f, r)) (m : List α) : cut t (s ++ m) = some (f, r ++ m) := by
  obtain ⟨i, hi, he⟩ := Option.map_eq_some_iff.mp h
  obtain ⟨rfl, rfl⟩ := Prod.mk.inj he
  have hlen := leftmost_add_length_le hi
  rw [cut, leftmost_append m hi, Option.map_some, List.take_append_of_le_length hlen,
    List.drop_append_of_le_length hlen]

/-- A frame is cut off again, whatever comes behind it. -/
lemma cut_append_of_cut (h : cut t s = some (f, r)) (m : List α) :
    cut t (f ++ m) = some (f, m) := by
  cases hcut : cut t f with
  | none => exact absurd (suffix_of_cut h).isInfix (cut_eq_none_iff.mp hcut)
  | some p =>
    obtain ⟨f', r'⟩ := p
    have hsplit := append_of_cut hcut
    have heq : f' = f := eq_of_cut h ⟨r', hsplit⟩ (suffix_of_cut hcut)
    rw [heq, List.append_right_eq_self] at hsplit
    simpa [heq, hsplit] using cut_append hcut m

/-- All frames of the stream, for at most `n` cuts. -/
def framesUpTo (t : List α) : ℕ → List α → List (List α)
  | 0, _ => []
  | n + 1, s => match cut t s with
    | none => []
    | some (f, r) => f :: framesUpTo t n r

/-- All frames of the stream, in order. -/
def frames (t s : List α) : List (List α) := framesUpTo t s.length s

/-- As many cuts as the stream is long are enough for a nonempty delimiter. -/
lemma framesUpTo_eq (ht : t ≠ []) : ∀ (n m : ℕ) (s : List α), s.length ≤ n → s.length ≤ m →
    framesUpTo t n s = framesUpTo t m s := by
  have hnil : ∀ n, framesUpTo t n [] = [] := by
    intro n
    cases n with
    | zero => rfl
    | succ n =>
      have hcut : cut t [] = none := cut_eq_none_iff.mpr (by simp [ht])
      simp [framesUpTo, hcut]
  intro n
  induction n with
  | zero =>
    intro m s hn _
    obtain rfl : s = [] := List.length_eq_zero_iff.mp (by omega)
    rw [hnil, hnil]
  | succ n ih =>
    intro m s hn hm
    cases m with
    | zero =>
      obtain rfl : s = [] := List.length_eq_zero_iff.mp (by omega)
      rw [hnil, hnil]
    | succ m =>
      unfold framesUpTo
      cases hcut : cut t s with
      | none => rfl
      | some p =>
        obtain ⟨f, r⟩ := p
        have hrest := length_rest_lt_of_cut ht hcut
        simp only [ih m r (by omega) (by omega)]

/-- A stream without the delimiter has no frames. -/
lemma frames_of_cut_none (h : cut t s = none) : frames t s = [] := by
  unfold frames
  cases s with
  | nil => rfl
  | cons a s => simp [framesUpTo, h]

/-- The frames of a stream are its first frame and the frames of the rest. -/
lemma frames_of_cut (ht : t ≠ []) (h : cut t s = some (f, r)) : frames t s = f :: frames t r := by
  have hrest := length_rest_lt_of_cut ht h
  unfold frames
  obtain ⟨n, hn⟩ : ∃ n, s.length = n + 1 := ⟨s.length - 1, by omega⟩
  rw [hn, framesUpTo, h]
  simp only [framesUpTo_eq ht n r.length r (by omega) le_rfl]

/-- A frame of a stream ends with the delimiter and is no longer than the stream. -/
lemma of_mem_frames (ht : t ≠ []) (s : List α) :
    f ∈ frames t s → t <:+ f ∧ f.length ≤ s.length := by
  induction hn : s.length using Nat.strong_induction_on generalizing s with
  | _ n ih =>
    intro hf
    cases hcut : cut t s with
    | none =>
      rw [frames_of_cut_none hcut] at hf
      cases hf
    | some p =>
      obtain ⟨f', r⟩ := p
      have hrest := length_rest_lt_of_cut ht hcut
      have hlen := congrArg List.length (append_of_cut hcut)
      rw [List.length_append] at hlen
      rw [frames_of_cut ht hcut] at hf
      rcases List.mem_cons.mp hf with rfl | hf
      · exact ⟨suffix_of_cut hcut, by omega⟩
      · obtain ⟨hsuffix, hle⟩ := ih r.length (by omega) r rfl hf
        exact ⟨hsuffix, by omega⟩

/-- The first frames of a stream are known before the rest of it has arrived. -/
lemma frames_prefix_append (ht : t ≠ []) (s m : List α) : frames t s <+: frames t (s ++ m) := by
  induction hn : s.length using Nat.strong_induction_on generalizing s with
  | _ n ih =>
    cases hcut : cut t s with
    | none =>
      rw [frames_of_cut_none hcut]
      exact List.nil_prefix
    | some p =>
      obtain ⟨f, r⟩ := p
      have hrest := length_rest_lt_of_cut ht hcut
      rw [frames_of_cut ht hcut, frames_of_cut ht (cut_append hcut m)]
      exact (List.prefix_cons_inj f).mpr (ih r.length (by omega) r rfl)

/-! ## Lines and the blank line after them

A head is a list of lines, each ended by the two letters `a` and `b`, and then these two letters
once more: the first occurrence of `a b a b` is the end of the head. -/

section Head

variable {a b : α}

/-- The lines of a head with their ends, and the blank line. -/
def head (a b : α) (lines : List (List α)) : List α := lines.flatMap (· ++ [a, b]) ++ [a, b]

omit [DecidableEq α] in
/-- The first line of a head. -/
lemma head_cons (l : List α) (lines : List (List α)) :
    head a b (l :: lines) = l ++ ([a, b] ++ head a b lines) := by
  simp [head]

/-- A line is cut off at its end. -/
lemma cut_line {l : List α} (h : a ∉ l) (s : List α) :
    cut [a, b] (l ++ ([a, b] ++ s)) = some (l ++ [a, b], s) := by
  have hfirst : leftmost [a, b] ([a, b] ++ s) = some 0 := leftmost_eq_zero (List.prefix_append _ _)
  rw [cut, leftmost_append_of_notMem h, hfirst, Option.map_some, Option.map_some,
    ← List.append_assoc, show 0 + l.length + [a, b].length = (l ++ [a, b]).length by simp,
    List.take_left, List.drop_left]

/-- **The lines of a head**, read one after the other. -/
lemma frames_head {lines : List (List α)} (h : ∀ l ∈ lines, a ∉ l) :
    frames [a, b] (head a b lines) = lines.map (· ++ [a, b]) ++ [[a, b]] := by
  have ht : [a, b] ≠ ([] : List α) := List.cons_ne_nil _ _
  induction lines with
  | nil =>
    have hcut : cut [a, b] (head a b []) = some ([a, b], []) := by
      simpa [head] using cut_line (b := b) (List.not_mem_nil (a := a)) []
    rw [frames_of_cut ht hcut]
    rfl
  | cons l lines ih =>
    rw [head_cons, frames_of_cut ht (cut_line (h l (by simp)) _),
      ih fun l' hl' => h l' (by simp [hl'])]
    rfl

/-- The end of a head is where the blank line is, if no line is empty. -/
lemma leftmost_head (hab : a ≠ b) (body : List α) : ∀ {lines : List (List α)}, lines ≠ [] →
    (∀ l ∈ lines, l ≠ [] ∧ a ∉ l) →
    ∃ i, leftmost [a, b, a, b] (head a b lines ++ body) = some i ∧
      i + 4 = (head a b lines).length := by
  intro lines
  induction lines with
  | nil => intro h; exact absurd rfl h
  | cons l lines ih =>
    intro _ hlines
    have hl := (hlines l (by simp)).2
    rw [head_cons, List.append_assoc, leftmost_append_of_notMem hl]
    cases lines with
    | nil =>
      refine ⟨l.length, ?_, by simp [head]⟩
      have hfirst : leftmost [a, b, a, b] ([a, b] ++ head a b [] ++ body) = some 0 :=
        leftmost_eq_zero ⟨body, by simp [head]⟩
      rw [hfirst]
      simp
    | cons l' lines =>
      obtain ⟨i, hi, hlen⟩ := ih (List.cons_ne_nil _ _) fun l'' hl'' => hlines l'' (by simp [hl''])
      obtain ⟨hne, hl'⟩ := hlines l' (by simp)
      refine ⟨i + 2 + l.length, ?_, ?_⟩
      · -- the next line begins with a letter other than `a`, so the blank line is not here
        obtain ⟨c, l', rfl⟩ := List.exists_cons_of_ne_nil hne
        have hc : a ≠ c := fun hac => hl' (by simp [hac])
        have h₁ : ¬ [a, b, a, b] <+: a :: b :: (head a b ((c :: l') :: lines) ++ body) := by
          simp [head_cons, List.cons_prefix_cons, hc]
        have h₂ : ¬ [a, b, a, b] <+: b :: (head a b ((c :: l') :: lines) ++ body) := by
          simp [List.cons_prefix_cons, hab]
        rw [show [a, b] ++ head a b ((c :: l') :: lines) ++ body =
            a :: b :: (head a b ((c :: l') :: lines) ++ body) by simp,
          leftmost_cons_eq h₁, leftmost_cons_eq h₂, hi]
        rfl
      · simp only [List.length_append, List.length_cons, List.length_nil]
        omega

/-- **A head is cut off at its end**, whatever follows it. -/
lemma cut_head (hab : a ≠ b) {lines : List (List α)} (hne : lines ≠ [])
    (h : ∀ l ∈ lines, l ≠ [] ∧ a ∉ l) (body : List α) :
    cut [a, b, a, b] (head a b lines ++ body) = some (head a b lines, body) := by
  obtain ⟨i, hi, hlen⟩ := leftmost_head hab body hne h
  rw [cut, hi, Option.map_some, show i + [a, b, a, b].length = (head a b lines).length from hlen,
    List.take_left, List.drop_left]

end Head

end Search
