import Icee.Http.Request

set_option relaxedAutoImplicit false
set_option autoImplicit false

/-!
# Header lines

What `Header::Header(header_line)` makes of a line: it cuts the line at every colon and puts the
pieces behind the first one together again with `Join`.

## Main definitions

* `Icee.Http.ColonsLead` — a value whose colons all stand at its beginning.

## Main results

* `Icee.Http.Header.ofLine_of_value` — the header made from a key, a colon and a value.
* `Icee.Http.Header.roundTrip_iff` — which headers survive being written and read.

## Design

`Join` puts a colon *before* every token but the last instead of between the tokens. A value
`a:b` therefore comes back as `:ab`; only values all of whose colons lead come back unchanged.
-/

namespace Icee.Http

/-! ## `Join` -/

/-- What `Join` has put together so far stays in front. -/
lemma joinFrom_append (res : Bytes) : ∀ tokens : List Bytes,
    joinFrom tokens res = res ++ joinFrom tokens []
  | [] => by simp [joinFrom]
  | [token] => by simp [joinFrom]
  | token :: token' :: tokens => by
    have ih := joinFrom_append (res ++ colon ++ token) (token' :: tokens)
    have ih' := joinFrom_append ([] ++ colon ++ token) (token' :: tokens)
    simp only [joinFrom]
    rw [ih, ih']
    simp only [List.append_assoc, List.nil_append]

/-- `Join` puts a colon before every token but the last. -/
lemma joinFrom_concat (token : Bytes) : ∀ tokens : List Bytes,
    joinFrom (tokens ++ [token]) [] = tokens.flatMap (colon ++ ·) ++ token
  | [] => rfl
  | [t] => by simp [joinFrom]
  | t :: t' :: tokens => by
    have ih := joinFrom_concat token (t' :: tokens)
    simp only [List.cons_append, joinFrom] at ih ⊢
    rw [joinFrom_append, ih]
    simp only [List.flatMap_cons, List.append_assoc, List.nil_append]

/-- `Join` on a list of tokens, one token included. -/
lemma join_eq {tokens : List Bytes} (h : tokens ≠ []) (deli : Bytes) :
    join tokens deli = .ok (joinFrom tokens []) := by
  rcases tokens with _ | ⟨token, _ | ⟨token', tokens⟩⟩
  · exact absurd rfl h
  · rfl
  · rfl

/-! ## The parsed header -/

namespace Header

variable {key value : Bytes}

/-- The fields of a line that has a key. -/
lemma fields_line (hkey : 58 ∉ key) (value : Bytes) :
    Search.fields colon (key ++ colon ++ value) =
      (key :: (Search.fields colon value).1, (Search.fields colon value).2) := by
  rw [List.append_assoc]
  exact Search.fields_append_delim (by decide) (Search.unbordered_singleton 58)
    (fun h => hkey (Search.singleton_infix_iff.mp h)) value

/-- A value has a token. -/
lemma tokens_ne_nil (hvalue : value ≠ []) : Search.tokens colon value ≠ [] := by
  intro h
  obtain ⟨hfields, hrest⟩ := List.append_eq_nil_iff.mp h
  have hspec := (Search.fields_spec (show colon ≠ [] by decide) value).1
  split at hrest
  · next hnil =>
    rw [hfields, hnil] at hspec
    exact hvalue hspec.symm
  · cases hrest

/-- **The header of a line** with a key, a colon and something behind it. -/
lemma ofLine_of_value (hkey : 58 ∉ key) (hvalue : value ≠ [])
    (hlast : (key ++ colon ++ value).length - (Search.fields colon value).2.length < 2 ^ 31) :
    ofLine (key ++ colon ++ value) =
      .ok { key, value := joinFrom (Search.tokens colon value) [] } := by
  have hfields := fields_line hkey value
  have htokens : Search.tokens colon (key ++ colon ++ value) =
      key :: Search.tokens colon value := by
    rw [Search.tokens, hfields]
    rfl
  have hsplit : split (key ++ colon ++ value) colon =
      .ok (key :: Search.tokens colon value) := by
    rw [← htokens]
    exact split_eq (by decide) (by rwa [hfields])
  unfold ofLine
  rw [hsplit]
  rcases htail : Search.tokens colon value with _ | ⟨token, tokens⟩
  · exact absurd htail (tokens_ne_nil hvalue)
  · simp only [bind, Except.bind, join_eq (List.cons_ne_nil token tokens)]
    split
    · next hone =>
      obtain rfl : tokens = [] := List.length_eq_zero_iff.mp (by simpa using hone)
      rfl
    · rfl

/-- A line whose first colon is its last byte, or that has none, is not a header. -/
lemma ofLine_invalid {line : Bytes} (hline : line.length < 2 ^ 31)
    (h : ∀ key value, line = key ++ colon ++ value → 58 ∉ key → value = []) :
    ofLine line = .ok { valid := false } := by
  have hsplit := split_eq (show colon ≠ [] by decide)
    (show line.length - (Search.fields colon line).2.length < 2 ^ 31 by omega)
  obtain ⟨hspec, hfree, hrest⟩ := Search.fields_spec (show colon ≠ [] by decide) line
  have hshort : (Search.tokens colon line).length < 2 := by
    unfold Search.tokens
    generalize Search.fields colon line = fs at hspec hfree hrest
    obtain ⟨ps, x⟩ := fs
    rcases ps with _ | ⟨p, ps⟩
    · dsimp only
      split <;> simp
    · have hp : 58 ∉ p := fun hmem =>
        hfree p List.mem_cons_self (Search.singleton_infix_iff.mpr hmem)
      have hnil := h p (ps.flatMap (· ++ colon) ++ x)
        (by rw [← hspec]; simp [List.append_assoc]) hp
      obtain ⟨hps, rfl⟩ := List.append_eq_nil_iff.mp hnil
      obtain rfl : ps = [] := by
        rcases ps with _ | ⟨q, qs⟩
        · rfl
        · simp [colon, bytes] at hps
      simp
  unfold ofLine
  rw [hsplit]
  rcases htokens : Search.tokens colon line with _ | ⟨t, _ | ⟨t', ts⟩⟩
  · rfl
  · rfl
  · rw [htokens] at hshort
    simp only [List.length_cons] at hshort
    omega

end Header

/-! ## Headers that survive -/

/-- All colons of the value stand at its beginning, and something stands behind them. -/
def ColonsLead (value : Bytes) : Prop :=
  value.dropWhile (· = 58) ≠ [] ∧ 58 ∉ value.dropWhile (· = 58)

instance (value : Bytes) : Decidable (ColonsLead value) :=
  inferInstanceAs (Decidable (_ ∧ _))

section Value

variable {key value x : Bytes}

/-- The colons at the beginning of a value, and the rest. -/
lemma exists_leading_colons (value : Bytes) :
    value = List.replicate (value.takeWhile (· = 58)).length 58 ++ value.dropWhile (· = 58) := by
  have htake : value.takeWhile (· = 58) =
      List.replicate (value.takeWhile (· = 58)).length 58 := by
    refine List.eq_replicate_iff.mpr ⟨rfl, fun c hc => ?_⟩
    simpa using List.mem_takeWhile_imp hc
  rw [← htake]
  exact (List.takeWhile_append_dropWhile).symm

/-- Colons at the beginning of a value are found there. -/
lemma span_leading_colons (hx : 58 ∉ x) (j : ℕ) :
    (List.replicate j 58 ++ x).takeWhile (· = 58) = List.replicate j 58 ∧
      (List.replicate j 58 ++ x).dropWhile (· = 58) = x := by
  induction j with
  | zero =>
    rcases x with _ | ⟨c, x⟩
    · exact ⟨rfl, rfl⟩
    · have hc : c ≠ 58 := fun h => hx (h ▸ List.mem_cons_self)
      simp [hc]
  | succ j ih => simpa [List.replicate_succ, List.takeWhile_cons, List.dropWhile_cons] using ih

/-- Empty fields leave nothing but their colons, wherever these are put. -/
lemma flatMap_empty_fields (j : ℕ) :
    (List.replicate j ([] : Bytes)).flatMap (· ++ colon) = List.replicate j 58 ∧
      (List.replicate j ([] : Bytes)).flatMap (colon ++ ·) = List.replicate j 58 := by
  induction j with
  | zero => exact ⟨rfl, rfl⟩
  | succ j ih =>
    rw [List.replicate_succ, List.replicate_succ, List.flatMap_cons, List.flatMap_cons, ih.1, ih.2]
    exact ⟨rfl, rfl⟩

/-- The fields of a value whose colons lead are empty. -/
lemma fields_leading_colons (hx : 58 ∉ x) (j : ℕ) :
    Search.fields colon (List.replicate j 58 ++ x) = (List.replicate j [], x) := by
  rw [← (flatMap_empty_fields j).1]
  refine Search.fields_flatMap_append (by decide) (Search.unbordered_singleton 58)
    (fun h => hx (Search.singleton_infix_iff.mp h)) fun p hp => ?_
  rw [List.eq_of_mem_replicate hp]
  decide

/-- Fields with colons behind them equal the same fields with colons before them only if they are
all empty. -/
lemma eq_nil_of_flatMap_colon : ∀ {ps : List Bytes}, (∀ p ∈ ps, 58 ∉ p) →
    ps.flatMap (· ++ colon) = ps.flatMap (colon ++ ·) → ∀ p ∈ ps, p = []
  | [], _, _ => by simp
  | p :: ps, hfree, heq => by
    rw [List.flatMap_cons, List.flatMap_cons] at heq
    rcases p with _ | ⟨c, p⟩
    · have htail := List.append_cancel_left
        (show colon ++ ps.flatMap (· ++ colon) = colon ++ ps.flatMap (colon ++ ·) by
          simpa using heq)
      have ih := eq_nil_of_flatMap_colon (fun q hq => hfree q (List.mem_cons_of_mem _ hq)) htail
      simpa using ih
    · -- the first letter of the first field would be a colon
      have hc : c = 58 := (List.cons.inj heq).1
      exact absurd (hc ▸ List.mem_cons_self) (hfree (c :: p) List.mem_cons_self)

/-- **`Join` restores a value** exactly if its colons lead.

**Proof sketch.** If something stands behind the last colon, both texts end with it, and what is
left has the colons behind the fields on one side and before them on the other. If nothing does,
the text of `Join` is one colon short. -/
lemma joinFrom_tokens_iff (hvalue : value ≠ []) :
    joinFrom (Search.tokens colon value) [] = value ↔ ColonsLead value := by
  obtain ⟨hspec, hfree, hrest⟩ := Search.fields_spec (show colon ≠ [] by decide) value
  constructor
  · intro hjoin
    unfold Search.tokens at hjoin
    generalize Search.fields colon value = fs at hspec hfree hrest hjoin
    obtain ⟨ps, x⟩ := fs
    dsimp only at hspec hfree hrest hjoin
    have hcolon : ∀ p ∈ ps, 58 ∉ p := fun p hp hmem =>
      hfree p hp (Search.singleton_infix_iff.mpr hmem)
    have hx : 58 ∉ x := fun hmem => hrest (Search.singleton_infix_iff.mpr hmem)
    by_cases hnil : x = []
    · exfalso
      subst hnil
      rw [if_pos rfl, List.append_nil] at hjoin
      rcases List.eq_nil_or_concat ps with rfl | ⟨qs, q, rfl⟩
      · exact hvalue hspec.symm
      · rw [List.concat_eq_append] at hjoin hspec
        rw [joinFrom_concat] at hjoin
        have hlen := congrArg List.length (hjoin.trans hspec.symm)
        simp [colon, bytes] at hlen
    · rw [if_neg hnil, joinFrom_concat, ← hspec] at hjoin
      have hempty := eq_nil_of_flatMap_colon hcolon (List.append_cancel_right hjoin).symm
      obtain ⟨j, rfl⟩ : ∃ j, ps = List.replicate j [] :=
        ⟨_, List.eq_replicate_iff.mpr ⟨rfl, hempty⟩⟩
      rw [(flatMap_empty_fields j).1] at hspec
      rw [ColonsLead, ← hspec, (span_leading_colons hx j).2]
      exact ⟨hnil, hx⟩
  · rintro ⟨hne, hx⟩
    rw [Search.tokens]
    conv_lhs => rw [exists_leading_colons value, fields_leading_colons hx]
    rw [if_neg hne, joinFrom_concat, (flatMap_empty_fields _).2]
    exact (exists_leading_colons value).symm

/-- The line of a header, without its end. -/
lemma Header.line_make (key value : Bytes) :
    (Header.make key value).serialize.dropLast.dropLast = key ++ colon ++ value := by
  rw [Header.serialize, show crlf = [13] ++ [10] from rfl, ← List.append_assoc,
    List.dropLast_concat, List.dropLast_concat]
  rfl

/-- Where the last colon of a line stands if those of the value lead. -/
lemma length_sub_of_colonsLead (key : Bytes) (hlead : ColonsLead value) :
    (key ++ colon ++ value).length - (Search.fields colon value).2.length =
      key.length + (value.takeWhile (· = 58)).length + 1 := by
  have hlen : (key ++ colon ++ value).length = key.length + 1 + value.length := by
    rw [List.length_append, List.length_append]
    rfl
  have hvalue := congrArg List.length (exists_leading_colons value)
  have hfields := fields_leading_colons hlead.2 (value.takeWhile (· = 58)).length
  rw [← exists_leading_colons value] at hfields
  rw [List.length_append, List.length_replicate] at hvalue
  rw [hfields, hlen]
  dsimp only
  omega

/-- **Which headers survive being written and read.** A header whose key has no colon and whose
value is not empty comes back from its own line exactly if the colons of the value all stand at
its beginning, with something behind them, and the last colon of the line is within the reach of
the `int` cursor of `Split`. (A line holds less than `2^63` bytes, as every `std::string` does.) -/
theorem Header.roundTrip_iff (hkey : 58 ∉ key) (hvalue : value ≠ [])
    (hmem : (Header.make key value).serialize.length < 2 ^ 63) :
    (∃ h, Header.ofLine ((Header.make key value).serialize.dropLast.dropLast) = .ok h ∧
      h.valid = true ∧ h.key = key ∧ h.value = value) ↔
      ColonsLead value ∧ key.length + (value.takeWhile (· = 58)).length + 1 < 2 ^ 31 := by
  have hline := Header.line_make key value
  rw [hline]
  by_cases hlast : (key ++ colon ++ value).length - (Search.fields colon value).2.length < 2 ^ 31
  · rw [Header.ofLine_of_value hkey hvalue hlast]
    constructor
    · rintro ⟨h, heq, -, -, hback⟩
      cases heq
      have hlead := (joinFrom_tokens_iff hvalue).mp hback
      exact ⟨hlead, by rw [← length_sub_of_colonsLead key hlead]; exact hlast⟩
    · rintro ⟨hlead, -⟩
      exact ⟨_, rfl, rfl, rfl, (joinFrom_tokens_iff hvalue).mpr hlead⟩
  · have hlong : (key ++ colon ++ value).length < 2 ^ 63 := by
      rw [← hline]
      simp only [List.length_dropLast]
      omega
    obtain ⟨fault, hfault⟩ := split_error_of_letter hlong (show 2 ^ 31 ≤ _ -
      (Search.fields [58] (key ++ colon ++ value)).2.length by
        rw [show [58] = colon from rfl, Header.fields_line hkey]
        exact Nat.le_of_not_lt hlast)
    refine iff_of_false ?_ fun ⟨hlead, hcursor⟩ => ?_
    · rintro ⟨h, heq, -⟩
      rw [Header.ofLine, show split _ colon = .error fault from hfault] at heq
      cases heq
    · rw [← length_sub_of_colonsLead key hlead] at hcursor
      exact hlast hcursor

/-- A header without a colon in its value. -/
theorem Header.roundTrip_host :
    ∃ h, Header.ofLine ((Header.make (bytes "Host") (bytes "a.org")).serialize.dropLast.dropLast) =
      .ok h ∧ h.valid = true ∧ h.key = bytes "Host" ∧ h.value = bytes "a.org" :=
  (Header.roundTrip_iff (by decide) (by decide) (by decide)).mpr (by decide)

/-- A value with a port comes back with its colon in front: `a.org:80` as `:a.org80`. -/
theorem Header.roundTrip_port_fails :
    ¬ ∃ h, Header.ofLine
        ((Header.make (bytes "Host") (bytes "a.org:80")).serialize.dropLast.dropLast) = .ok h ∧
      h.valid = true ∧ h.key = bytes "Host" ∧ h.value = bytes "a.org:80" := by
  rintro ⟨h, heq, -, -, hvalue⟩
  have hback : Header.ofLine
      ((Header.make (bytes "Host") (bytes "a.org:80")).serialize.dropLast.dropLast) =
        .ok { key := bytes "Host", value := bytes ":a.org80" } := by
    decide +kernel
  rw [hback] at heq
  cases heq
  exact absurd hvalue (by decide)

end Value

end Icee.Http
