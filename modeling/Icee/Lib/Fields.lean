import Icee.Lib.Search

set_option relaxedAutoImplicit false
set_option autoImplicit false

/-!
# Fields between delimiters

A text is a list of fields, each ended by a delimiter, and a rest behind the last one. Reading the
fields off from the left undoes writing them, for every delimiter that does not overlap itself.

## Main definitions

* `Search.Unbordered` — a delimiter two occurrences of which cannot overlap.
* `Search.fields t s` — the fields of `s` that are ended by `t`, and the rest.
* `Search.tokens t s` — the fields and the rest, unless the rest is empty.
* `Search.Decomposes t s ts` — what makes a list the tokens of a text.

## Main results

* `Search.leftmost_append_delim` — a field without the delimiter ends at the first delimiter.
* `Search.fields_spec` — the fields and the rest make up the text and are free of the delimiter.
* `Search.fields_flatMap_append` — no other list of fields and rest does.
* `Search.fields_of_cut` — the fields of a text that ends with the first doubled delimiter.
* `Search.decomposes_iff` — the tokens are the only list that decomposes the text.
-/

namespace Search

variable {α : Type*} {t s p x : List α}

/-! ## Delimiters -/

/-- No nonempty proper prefix of the delimiter is also a suffix of it. -/
def Unbordered (t : List α) : Prop := ∀ u, u ≠ [] → u <+: t → u <:+ t → u = t

/-- A single letter does not overlap itself. -/
lemma unbordered_singleton (a : α) : Unbordered [a] := by
  intro u hne hfront _
  refine hfront.eq_of_length ?_
  have hpos := List.length_pos_of_ne_nil hne
  have hle := hfront.length_le
  simp only [List.length_singleton] at hle ⊢
  omega

/-- Two different letters do not overlap themselves. -/
lemma unbordered_pair {a b : α} (hab : a ≠ b) : Unbordered [a, b] := by
  intro u hne hfront hsuffix
  refine hfront.eq_of_length ?_
  have hpos := List.length_pos_of_ne_nil hne
  have hle := hfront.length_le
  simp only [List.length_cons, List.length_nil] at hle ⊢
  by_contra hlen
  obtain ⟨c, rfl⟩ := List.length_eq_one_iff.mp (show u.length = 1 by omega)
  have ha : c = a := by simpa using hfront
  have hb : c = b := by
    obtain ⟨v, hv⟩ := hsuffix
    have := congrArg List.getLast? hv
    simpa using this
  exact hab (ha.symm.trans hb)

/-- A delimiter that stands in a field and the delimiter behind it stands in the field. -/
lemma Unbordered.not_prefix_append (ht : Unbordered t) (hp : ¬ t <:+: p) (hne : p ≠ [])
    (s : List α) : ¬ t <+: p ++ (t ++ s) := by
  intro h
  by_cases hlen : t.length ≤ p.length
  · exact hp (List.prefix_of_prefix_length_le h (List.prefix_append _ _) hlen).isInfix
  · -- the field is a prefix of the delimiter, and what remains of the delimiter is a border
    obtain ⟨u, rfl⟩ := List.prefix_of_prefix_length_le (List.prefix_append p _) h (by omega)
    have hpos := List.length_pos_of_ne_nil hne
    rw [List.length_append] at hlen
    have hu : u <+: (p ++ u) ++ s := (List.prefix_append_right_inj p).mp h
    have hborder : u <+: p ++ u := List.prefix_of_prefix_length_le hu (List.prefix_append _ _)
      (by rw [List.length_append]; omega)
    have heq := ht u (List.ne_nil_of_length_pos (by omega)) hborder (List.suffix_append _ _)
    have := congrArg List.length heq
    rw [List.length_append] at this
    omega

variable [DecidableEq α]

/-- **A field ends at the first delimiter behind it.** -/
lemma leftmost_append_delim (ht : Unbordered t) (s : List α) : ∀ {p : List α}, ¬ t <:+: p →
    leftmost t (p ++ (t ++ s)) = some p.length
  | [], _ => leftmost_eq_zero (List.prefix_append _ _)
  | a :: p, hp => by
    have hnot := ht.not_prefix_append hp (List.cons_ne_nil _ _) s
    have htail : ¬ t <:+: p := fun h => hp (h.trans (List.suffix_cons a p).isInfix)
    rw [List.cons_append] at hnot ⊢
    rw [leftmost_cons_eq hnot, leftmost_append_delim ht s htail]
    rfl

/-- What stands before the first delimiter is free of it. -/
lemma not_infix_take_of_leftmost {i : ℕ} (ht : t ≠ []) (h : leftmost t s = some i) :
    ¬ t <:+: s.take i := by
  intro hinfix
  cases hleft : leftmost t (s.take i) with
  | none => exact leftmost_eq_none_iff.mp hleft hinfix
  | some j =>
    have hlen := leftmost_add_length_le hleft
    have hpos := List.length_pos_of_ne_nil ht
    have happend := leftmost_append (s.drop i) hleft
    rw [List.take_append_drop, h] at happend
    obtain rfl := Option.some.inj happend
    rw [List.length_take] at hlen
    omega

omit [DecidableEq α] in
/-- A single letter occurs in a text exactly if it is one of its letters. -/
lemma singleton_infix_iff {a : α} : [a] <:+: s ↔ a ∈ s := by
  constructor
  · intro h
    exact h.subset List.mem_cons_self
  · intro h
    obtain ⟨u, v, rfl⟩ := List.append_of_mem h
    exact ⟨u, v, by simp⟩

/-! ## Fields -/

/-- The fields of the text and the rest, for at most `n` fields. -/
def fieldsUpTo (t : List α) : ℕ → List α → List (List α) × List α
  | 0, s => ([], s)
  | n + 1, s => match leftmost t s with
    | none => ([], s)
    | some i =>
      let (ps, x) := fieldsUpTo t n (s.drop (i + t.length))
      (s.take i :: ps, x)

/-- The fields of the text that are ended by the delimiter, and the rest. -/
def fields (t s : List α) : List (List α) × List α := fieldsUpTo t s.length s

/-- As many fields as the text is long are enough for a nonempty delimiter. -/
lemma fieldsUpTo_eq (ht : t ≠ []) : ∀ (n m : ℕ) (s : List α), s.length ≤ n → s.length ≤ m →
    fieldsUpTo t n s = fieldsUpTo t m s := by
  have hpos := List.length_pos_of_ne_nil ht
  have hnil : ∀ n, fieldsUpTo t n [] = ([], []) := by
    intro n
    cases n with
    | zero => rfl
    | succ n => simp [fieldsUpTo, leftmost, ht]
  intro n
  induction n with
  | zero =>
    intro m s hn _
    obtain rfl : s = [] := List.length_eq_zero_iff.mp (by omega)
    rw [hnil, hnil]
  | succ n ih =>
    intro m s hn hm
    cases m with
    | zero =>
      obtain rfl : s = [] := List.length_eq_zero_iff.mp (by omega)
      rw [hnil, hnil]
    | succ m =>
      unfold fieldsUpTo
      cases hleft : leftmost t s with
      | none => rfl
      | some i =>
        have hle := leftmost_add_length_le hleft
        have hdrop : (s.drop (i + t.length)).length = s.length - (i + t.length) := List.length_drop
        simp only [ih m (s.drop (i + t.length)) (by omega) (by omega)]

/-- A text without the delimiter has no fields. -/
lemma fields_of_leftmost_none (h : leftmost t s = none) : fields t s = ([], s) := by
  unfold fields
  cases s with
  | nil => rfl
  | cons a s => simp [fieldsUpTo, h]

/-- The first field of a text and the others. -/
lemma fields_of_leftmost {i : ℕ} (ht : t ≠ []) (h : leftmost t s = some i) :
    fields t s = (s.take i :: (fields t (s.drop (i + t.length))).1,
      (fields t (s.drop (i + t.length))).2) := by
  have hpos := List.length_pos_of_ne_nil ht
  have hle := leftmost_add_length_le h
  obtain ⟨n, hn⟩ : ∃ n, s.length = n + 1 := ⟨s.length - 1, by omega⟩
  have hdrop : (s.drop (i + t.length)).length = s.length - (i + t.length) := List.length_drop
  conv_lhs => rw [fields, hn, fieldsUpTo, h]
  simp only [fields, fieldsUpTo_eq ht n (s.drop (i + t.length)).length _ (by omega) le_rfl]

/-- **The fields and the rest make up the text**, and none of them contains the delimiter. -/
lemma fields_spec (ht : t ≠ []) (s : List α) :
    (fields t s).1.flatMap (· ++ t) ++ (fields t s).2 = s ∧
      (∀ p ∈ (fields t s).1, ¬ t <:+: p) ∧ ¬ t <:+: (fields t s).2 := by
  induction hn : s.length using Nat.strong_induction_on generalizing s with
  | _ n ih =>
    cases hleft : leftmost t s with
    | none =>
      rw [fields_of_leftmost_none hleft]
      exact ⟨rfl, by simp, leftmost_eq_none_iff.mp hleft⟩
    | some i =>
      have hpos := List.length_pos_of_ne_nil ht
      have hle := leftmost_add_length_le hleft
      have hdrop : (s.drop (i + t.length)).length < n := by rw [List.length_drop]; omega
      obtain ⟨htext, hfields, hrest⟩ := ih _ hdrop (s.drop (i + t.length)) rfl
      rw [fields_of_leftmost ht hleft]
      refine ⟨?_, ?_, hrest⟩
      · rw [List.flatMap_cons, List.append_assoc, htext]
        exact (eq_append_of_leftmost hleft).symm
      · intro q hq
        rcases List.mem_cons.mp hq with rfl | hq
        · exact not_infix_take_of_leftmost ht hleft
        · exact hfields q hq

/-- A field in front of a text. -/
lemma fields_append_delim (ht : t ≠ []) (hu : Unbordered t) (hp : ¬ t <:+: p) (s : List α) :
    fields t (p ++ (t ++ s)) = (p :: (fields t s).1, (fields t s).2) := by
  rw [fields_of_leftmost ht (leftmost_append_delim hu s hp), List.take_left,
    ← List.append_assoc, List.drop_left' (by rw [List.length_append])]

/-- **The fields of a text are read back as they were written.** -/
lemma fields_flatMap_append (ht : t ≠ []) (hu : Unbordered t) (hx : ¬ t <:+: x) :
    ∀ {ps : List (List α)}, (∀ p ∈ ps, ¬ t <:+: p) →
      fields t (ps.flatMap (· ++ t) ++ x) = (ps, x)
  | [], _ => fields_of_leftmost_none (leftmost_eq_none_iff.mpr hx)
  | p :: ps, h => by
    have ih := fields_flatMap_append ht hu hx fun q hq => h q (List.mem_cons_of_mem _ hq)
    rw [List.flatMap_cons, List.append_assoc, List.append_assoc,
      fields_append_delim ht hu (h p List.mem_cons_self), ih]

/-- **A text cut at a doubled delimiter**: its last field is empty, and no other field is, except
possibly the first one.

**Proof sketch.** Before the doubled delimiter there are some fields and a rest, which becomes the
last field but one. An empty field behind another one would put a doubled delimiter in front of the
one at which the text has been cut. -/
lemma fields_of_cut (ht : t ≠ []) (hu : Unbordered t) {f r : List α}
    (h : cut (t ++ t) s = some (f, r)) :
    ∃ p ps, fields t f = (p :: ps ++ [[]], []) ∧ ∀ q ∈ ps, q ≠ [] := by
  obtain ⟨u, hf⟩ := suffix_of_cut h
  obtain ⟨hspec, hfree, hrest⟩ := fields_spec ht u
  generalize fields t u = fs at hspec hfree hrest
  obtain ⟨qs, x⟩ := fs
  dsimp only at hspec hfree hrest
  have hnil : ¬ t <:+: ([] : List α) := by simpa using ht
  have hfields : fields t f = ((qs ++ [x]) ++ [[]], []) := by
    have hdelim : ∀ p ∈ (qs ++ [x]) ++ [[]], ¬ t <:+: p := by
      simp only [List.mem_append, List.mem_singleton]
      rintro p ((hp | rfl) | rfl)
      · exact hfree p hp
      · exact hrest
      · exact hnil
    rw [← hf, ← hspec, ← fields_flatMap_append ht hu hnil hdelim]
    simp [List.append_assoc]
  obtain ⟨p, ps, hps⟩ := List.exists_cons_of_ne_nil (show qs ++ [x] ≠ [] by simp)
  refine ⟨p, ps, by rw [hfields, hps], ?_⟩
  rintro q hq rfl
  -- the fields up to the empty one and the delimiters around it
  obtain ⟨as, bs, rfl⟩ := List.append_of_mem hq
  have htext := (fields_spec ht f).1
  rw [hfields, hps] at htext
  obtain ⟨ls, l, hls⟩ : ∃ ls l, p :: as = ls ++ [l] :=
    ⟨_, _, (List.dropLast_concat_getLast (List.cons_ne_nil p as)).symm⟩
  have hsplit : f = (ls.flatMap (· ++ t) ++ l ++ (t ++ t)) ++ (bs.flatMap (· ++ t) ++ t) := by
    rw [← htext, ← List.cons_append, hls]
    simp [List.flatMap_append, List.append_assoc]
  have hearly := eq_of_cut h (p := ls.flatMap (· ++ t) ++ l ++ (t ++ t))
    (by rw [hsplit]; exact List.prefix_append _ _) (List.suffix_append _ _)
  have hlen := congrArg List.length (hearly.trans hsplit)
  have hpos := List.length_pos_of_ne_nil ht
  simp only [List.length_append] at hlen
  omega

/-- The fields and the rest, unless the rest is empty. -/
def tokens (t s : List α) : List (List α) :=
  (fields t s).1 ++ if (fields t s).2 = [] then [] else [(fields t s).2]

/-- A token is no longer than the text. -/
lemma length_le_of_mem_tokens (ht : t ≠ []) (h : p ∈ tokens t s) : p.length ≤ s.length := by
  have hlen := congrArg List.length (fields_spec ht s).1
  rw [List.length_append] at hlen
  rcases List.mem_append.mp h with h | h
  · have hmem : p ++ t ∈ (fields t s).1.map (· ++ t) := List.mem_map_of_mem h
    have hle := (List.sublist_flatten_of_mem hmem).length_le
    rw [← List.flatMap_def, List.length_append] at hle
    omega
  · split at h
    · cases h
    · rw [List.mem_singleton.mp h]
      omega

/-- The tokens of a text that has been written field by field. -/
lemma tokens_flatMap_append (ht : t ≠ []) (hu : Unbordered t) (hx : ¬ t <:+: x)
    {ps : List (List α)} (h : ∀ p ∈ ps, ¬ t <:+: p) :
    tokens t (ps.flatMap (· ++ t) ++ x) = ps ++ if x = [] then [] else [x] := by
  rw [tokens, fields_flatMap_append ht hu hx h]

/-- The tokens of a text and its first delimiter. -/
lemma tokens_of_leftmost {i : ℕ} (ht : t ≠ []) (h : leftmost t s = some i) :
    tokens t s = s.take i :: tokens t (s.drop (i + t.length)) := by
  rw [tokens, fields_of_leftmost ht h]
  rfl

/-- The tokens of a text without the delimiter. -/
lemma tokens_of_leftmost_none (h : leftmost t s = none) :
    tokens t s = if s = [] then [] else [s] := by
  rw [tokens, fields_of_leftmost_none h]
  rfl

/-! ## Decompositions -/

/-- The texts are free of the delimiter, and joined by it they make up the text, which may have one
more delimiter behind them; the last one is not empty if it has none. -/
def Decomposes (t s : List α) (ts : List (List α)) : Prop :=
  ts ≠ [] ∧ (∀ p ∈ ts, ¬ t <:+: p) ∧
    (s = t.intercalate ts ∧ ts.getLast? ≠ some [] ∨ s = t.intercalate ts ++ t)

omit [DecidableEq α] in
/-- Joining texts puts the delimiter behind each of them but the last. -/
lemma intercalate_concat (t x : List α) : ∀ ps : List (List α),
    t.intercalate (ps ++ [x]) = ps.flatMap (· ++ t) ++ x
  | [] => by simp
  | p :: ps => by
    rw [List.cons_append, List.intercalate_cons_of_ne_nil (by simp), intercalate_concat t x ps,
      List.flatMap_cons, List.append_assoc, List.append_assoc, List.append_assoc]

omit [DecidableEq α] in
/-- A delimiter behind joined texts puts one behind each of them. -/
lemma intercalate_append_delim (t : List α) {ps : List (List α)} (hne : ps ≠ []) :
    t.intercalate ps ++ t = ps.flatMap (· ++ t) := by
  obtain ⟨qs, q, rfl⟩ : ∃ qs q, ps = qs ++ [q] := ⟨_, _, (List.dropLast_concat_getLast hne).symm⟩
  rw [intercalate_concat, List.flatMap_append, List.append_assoc]
  simp

/-- **The tokens are the only decomposition** of a text that is not empty, for every delimiter that
does not overlap itself.

**Proof sketch.** A decomposition is written with delimiters between its pieces, and perhaps one
behind the last; from either text the fields are read back, as no piece contains the delimiter. For
the converse the fields give the text back, and the rest is left out exactly if it is empty. -/
lemma decomposes_iff (ht : t ≠ []) (hu : Unbordered t) (hs : s ≠ []) {ts : List (List α)} :
    Decomposes t s ts ↔ ts = tokens t s := by
  have hnil : ¬ t <:+: ([] : List α) := by simpa using ht
  constructor
  · rintro ⟨hne, hfree, hjoin⟩
    obtain ⟨ps, x, rfl⟩ : ∃ ps x, ts = ps ++ [x] :=
      ⟨_, _, (List.dropLast_concat_getLast hne).symm⟩
    have hps : ∀ p ∈ ps, ¬ t <:+: p := fun p hp => hfree p (List.mem_append_left _ hp)
    have hx : ¬ t <:+: x := hfree x (by simp)
    rw [intercalate_concat] at hjoin
    rcases hjoin with ⟨rfl, hlast⟩ | rfl
    · rw [tokens_flatMap_append ht hu hx hps, if_neg]
      rintro rfl
      exact hlast List.getLast?_concat
    · have hwritten := tokens_flatMap_append ht hu hnil hfree
      rw [if_pos rfl, List.append_nil, List.append_nil, ← intercalate_append_delim t hne,
        intercalate_concat] at hwritten
      exact hwritten.symm
  · rintro rfl
    obtain ⟨htext, hfree, hrest⟩ := fields_spec ht s
    rw [tokens]
    generalize fields t s = fs at htext hfree hrest
    obtain ⟨ps, x⟩ := fs
    dsimp only at htext hfree hrest ⊢
    by_cases hx : x = []
    · -- the text ends with a delimiter, behind the last field
      rw [if_pos hx, List.append_nil]
      rw [hx, List.append_nil] at htext
      rcases List.eq_nil_or_concat ps with rfl | ⟨qs, q, rfl⟩
      · exact absurd htext.symm hs
      · rw [List.concat_eq_append] at htext hfree ⊢
        refine ⟨by simp, hfree, .inr ?_⟩
        rw [intercalate_append_delim t (by simp), htext]
    · rw [if_neg hx]
      refine ⟨by simp, fun p hp => ?_, .inl ⟨?_, ?_⟩⟩
      · rcases List.mem_append.mp hp with hp | hp
        · exact hfree p hp
        · rw [List.mem_singleton.mp hp]
          exact hrest
      · rw [intercalate_concat, htext]
      · rw [List.getLast?_concat]
        exact fun h => hx (Option.some.inj h)

end Search
