import Icee.Core.Basic
import Icee.Lib.Fields

set_option relaxedAutoImplicit false
set_option autoImplicit false

/-!
# Strings, files and the tables of the HTTP layer

`src/http/http_utils.cc` and its header: the constants of the protocol, the string helpers the
parser is made of, and the file helpers.

## Main definitions

* `Icee.Http.split`, `Icee.Http.join`, `Icee.Http.trim`, `Icee.Http.format` — strings.
* `Icee.Http.FileSystem`, `Icee.Http.fileSize`, `Icee.Http.loadFile` — files.
* `Icee.Http.Method`, `Icee.Http.Version`, `Icee.Http.Extension` and their conversions.

## Main results

* `Icee.Http.split_ok` — below `2^31` bytes `Split` returns, and its tokens are no longer than
  the string.
* `Icee.Http.split_error` — from `2^31` bytes on, a string that ends with `CRLF` makes it fail.
* `Icee.Http.split_canonical` — the tokens are the only decomposition of the string.

## Design

`std::string::find` and `substr` take their position as a `size_t`; `Split` hands them an `int`,
which is converted by `sizeOfInt`. The loop of `Split` is run for one turn more than the string
has bytes: its state is the cursor, so a longer run would have visited some cursor twice and would
never end.

A path is absent, a regular file or a directory. `std::filesystem::file_size` throws on a
directory. `LoadFile` takes the address of `buffer[origin]`, which for an empty file is the
element past the end; the call has no effect beyond that, so it is reported and not a fault.
-/

namespace Icee.Http

/-! ## Constants -/

/-- `SPACE`. -/
def space : Bytes := bytes " "

/-- `CRLF`. -/
def crlf : Bytes := bytes "\r\n"

/-- The end of a request, `"\r\n\r\n"` in the handler. -/
def crlfCrlf : Bytes := bytes "\r\n\r\n"

/-- `DEFAULT_ROUTE`. -/
def defaultRoute : Bytes := bytes "index.html"

/-- `COLON`. -/
def colon : Bytes := bytes ":"

/-- `Dot`. -/
def dot : Bytes := bytes "."

/-- `CGI_BIN`. -/
def cgiBin : Bytes := bytes "cgi_bin"

/-- `RESPONSE_OK`. -/
def responseOk : Bytes := bytes "200 OK"

/-- `RESPONSE_BAD_REQUEST`. -/
def responseBadRequest : Bytes := bytes "400 Bad Request"

/-- `RESPONSE_NOT_FOUND`. -/
def responseNotFound : Bytes := bytes "404 Not Found"

/-- `RESPONSE_SERVICE_UNAVAILABLE`. -/
def responseServiceUnavailable : Bytes := bytes "503 Service Unavailable"

/-- `HEADER_SERVER`. -/
def headerServer : Bytes := bytes "Server"

/-- `SERVER_ICEE`. -/
def serverIcee : Bytes := bytes "Icee/1.0"

/-- `HEADER_CONNECTION`. -/
def headerConnection : Bytes := bytes "Connection"

/-- `CONNECTION_CLOSE`. -/
def connectionClose : Bytes := bytes "Close"

/-- `CONNECTION_KEEP_ALIVE`. -/
def connectionKeepAlive : Bytes := bytes "Keep-Alive"

/-- `HEADER_CONTENT_LENGTH`. -/
def headerContentLength : Bytes := bytes "Content-Length"

/-- `HEADER_CONTENT_TYPE`. -/
def headerContentType : Bytes := bytes "Content-Type"

/-- `HTTP_VERSION`. -/
def httpVersion : Bytes := bytes "Http/1.1"

/-! ## Strings -/

/-- `str.find(delim, pos)`. -/
def find (str delim : Bytes) (pos : ℕ) : Option ℕ :=
  if pos ≤ str.length then (Search.leftmost delim (str.drop pos)).map (· + pos) else none

/-- `str.substr(pos, n)`. -/
def substr (str : Bytes) (pos n : ℕ) : Except Fault Bytes :=
  if pos ≤ str.length then .ok ((str.drop pos).take n) else .error .outOfRangeException

/-- The loop of `Split` and what follows it, for at most the given number of searches. -/
def splitFrom (str delim : Bytes) : ℕ → Int32 → List Bytes → Except Fault (List Bytes)
  | 0, _, _ => .error .endless
  | fuel + 1, beginIndex, res =>
    match find str delim (sizeOfInt beginIndex) with
    | some targetIndex => do
      let token ← substr str (sizeOfInt beginIndex) (targetIndex - sizeOfInt beginIndex)
      splitFrom str delim fuel (Int32.ofNat (targetIndex + delim.length)) (res ++ [token])
    | none =>
      if sizeOfInt beginIndex ≠ str.length then do
        let token ← substr str (sizeOfInt beginIndex) (str.length - sizeOfInt beginIndex)
        return res ++ [token]
      else
        return res

/-- `Split`. -/
def split (str delim : Bytes) : Except Fault (List Bytes) :=
  if str = [] then .ok [] else splitFrom str delim (str.length + 1) 0 []

/-- What `find` finds lies behind the position and inside the string. -/
lemma find_bounds {str delim : Bytes} {pos i : ℕ} (h : find str delim pos = some i) :
    pos ≤ i ∧ i + delim.length ≤ str.length := by
  unfold find at h
  split at h
  · next hpos =>
    obtain ⟨j, hj, rfl⟩ := Option.map_eq_some_iff.mp h
    have := Search.leftmost_add_length_le hj
    rw [List.length_drop] at this
    omega
  · cases h

/-- A position inside the string is a good one for `substr`. -/
lemma substr_of_le {str : Bytes} {pos : ℕ} (h : pos ≤ str.length) (n : ℕ) :
    substr str pos n = .ok ((str.drop pos).take n) :=
  if_pos h

/-- The loop of `Split`, as long as its cursor can hold the position behind the last delimiter.
The cursor moves on by at least one byte with every delimiter found, so the searches suffice. -/
lemma splitFrom_eq {str delim : Bytes} (hdelim : delim ≠ []) :
    ∀ (fuel n : ℕ) (res : List Bytes), n ≤ str.length → str.length - n < fuel →
      str.length - (Search.fields delim (str.drop n)).2.length < 2 ^ 31 →
      splitFrom str delim fuel (Int32.ofNat n) res =
        .ok (res ++ Search.tokens delim (str.drop n)) := by
  have hpos : 0 < delim.length := List.length_pos_of_ne_nil hdelim
  intro fuel
  induction fuel with
  | zero => intro n res _ hfuel; omega
  | succ fuel ih =>
    intro n res hn hfuel hlast
    have hcursor : sizeOfInt (Int32.ofNat n) = n := by
      have hlen := congrArg List.length (Search.fields_spec hdelim (str.drop n)).1
      rw [List.length_append, List.length_drop] at hlen
      exact sizeOfInt_ofNat (by omega)
    unfold splitFrom
    rw [hcursor]
    cases hleft : Search.leftmost delim (str.drop n) with
    | some j =>
      have hfind : find str delim n = some (j + n) := by rw [find, if_pos hn, hleft]; rfl
      obtain ⟨hle, hend⟩ := find_bounds hfind
      have hdrop : (str.drop n).drop (j + delim.length) = str.drop (j + n + delim.length) := by
        rw [List.drop_drop]
        congr 1
        omega
      rw [Search.fields_of_leftmost hdelim hleft, hdrop] at hlast
      rw [hfind, Search.tokens_of_leftmost hdelim hleft, hdrop]
      simp only [substr_of_le hn, Nat.add_sub_cancel]
      refine (ih (j + n + delim.length) _ hend (by omega) hlast).trans ?_
      rw [List.append_assoc]
      rfl
    | none =>
      have hfind : find str delim n = none := by rw [find, if_pos hn, hleft]; rfl
      rw [hfind, Search.tokens_of_leftmost_none hleft]
      by_cases heq : n = str.length
      · subst heq
        simp [pure, Except.pure]
      · have hne : str.drop n ≠ [] := fun h => heq (le_antisymm hn (List.drop_eq_nil_iff.mp h))
        have htake : (str.drop n).take (str.length - n) = str.drop n :=
          List.take_of_length_le (by rw [List.length_drop])
        simp only [ne_eq, heq, not_false_eq_true, if_true, substr_of_le hn, if_neg hne, htake]
        rfl

/-- **`Split` gives the tokens of the string**, if the position behind the last delimiter fits in
an `int`. -/
lemma split_eq {str delim : Bytes} (hdelim : delim ≠ [])
    (h : str.length - (Search.fields delim str).2.length < 2 ^ 31) :
    split str delim = .ok (Search.tokens delim str) := by
  unfold split
  split
  · next hnil =>
    subst hnil
    rw [Search.tokens_of_leftmost_none (by simp [Search.leftmost, hdelim])]
    rfl
  · exact splitFrom_eq hdelim (str.length + 1) 0 [] (Nat.zero_le _) (by omega) h

/-- **`Split` returns** on every string of less than `2^31` bytes, with tokens no longer than the
string. -/
lemma split_ok {str delim : Bytes} (hdelim : delim ≠ []) (hstr : str.length < 2 ^ 31) :
    ∃ tokens, split str delim = .ok tokens ∧ ∀ token ∈ tokens, token.length ≤ str.length :=
  ⟨_, split_eq hdelim (by omega), fun _ h => Search.length_le_of_mem_tokens hdelim h⟩

/-- The position of a cursor that `Split` can get to: the beginning, or right behind a `CRLF`. -/
def BehindCrlf (str : Bytes) (beginIndex : Int32) : Prop :=
  beginIndex = 0 ∨ ∃ i, crlf <+: str.drop i ∧ beginIndex = Int32.ofNat (i + crlf.length)

/-- A cursor inside a string of `2^31` bytes that is not negative holds its true position. -/
lemma eq_of_sizeOfInt_ofNat {n : ℕ} (h : sizeOfInt (Int32.ofNat n) < 2 ^ 31) (hn : n ≤ 2 ^ 31) :
    sizeOfInt (Int32.ofNat n) = n := by
  rcases Nat.lt_or_eq_of_le hn with hlt | rfl
  · exact sizeOfInt_ofNat hlt
  · exact absurd h (by decide)

/-- What `find` finds stands there. -/
lemma prefix_of_find {str delim : Bytes} {pos i : ℕ} (h : find str delim pos = some i) :
    delim <+: str.drop i := by
  unfold find at h
  split at h
  · obtain ⟨j, hj, rfl⟩ := Option.map_eq_some_iff.mp h
    have heq := Search.eq_append_of_leftmost hj
    have hle := Search.leftmost_add_length_le hj
    rw [Nat.add_comm, ← List.drop_drop]
    refine ⟨(str.drop pos).drop (j + delim.length), ?_⟩
    conv_rhs => rw [heq]
    rw [List.append_assoc, List.drop_left' (by rw [List.length_take]; omega)]
  · cases h

/-- In a string that ends with `CRLF` the search finds nothing only from behind the last byte
but one. -/
lemma lt_of_find_crlf_none {str : Bytes} (hend : crlf <:+ str) {pos : ℕ}
    (h : find str crlf pos = none) : str.length < pos + crlf.length := by
  by_contra hle
  have hlen : crlf.length = 2 := rfl
  rw [find, if_pos (by omega), Option.map_eq_none_iff, Search.leftmost_eq_none_iff] at h
  obtain ⟨u, rfl⟩ := hend
  rw [List.length_append] at hle
  rw [List.drop_append_of_le_length (by omega)] at h
  exact h (List.suffix_append _ _).isInfix

/-- No `CRLF` ends one byte before the end of a string that ends with `CRLF`: its `LF` would be
the `CR` of the last one. -/
lemma not_crlf_before_last {str : Bytes} (hend : crlf <:+ str) {i : ℕ} (h : crlf <+: str.drop i)
    (hi : i + crlf.length + 1 = str.length) : False := by
  obtain ⟨u, rfl⟩ := hend
  have hlen : crlf.length = 2 := rfl
  rw [List.length_append] at hi
  rw [List.drop_append_of_le_length (by omega)] at h
  obtain ⟨x, hx⟩ : ∃ x, u.drop i = [x] :=
    List.length_eq_one_iff.mp (by rw [List.length_drop]; omega)
  rw [hx] at h
  have h₂ := (List.cons_prefix_cons.mp h).2
  exact absurd (List.cons_prefix_cons.mp h₂).1 (by decide)

/-- **`Split` fails** on every string from `2^31` bytes on that ends with `CRLF`. The cursor
cannot hold the position behind the last delimiter: it is below `2^31`, where a delimiter is still
ahead, or negative, where `substr` throws.

**Proof sketch.** Induction on the number of searches. When one of them finds nothing, the cursor
is behind the last byte but one. A cursor that is not negative is then exactly one byte before
the end, so the byte before it is the `CR` at the end of the string; but the byte before a cursor
is the `LF` of a delimiter. -/
lemma splitFrom_error {str : Bytes} (hstr : 2 ^ 31 ≤ str.length) (hmem : str.length < 2 ^ 63)
    (hend : crlf <:+ str) : ∀ (fuel : ℕ) (beginIndex : Int32) (res : List Bytes),
      BehindCrlf str beginIndex →
        ∃ fault, splitFrom str crlf fuel beginIndex res = .error fault := by
  intro fuel
  induction fuel with
  | zero => intro beginIndex res _; exact ⟨_, rfl⟩
  | succ fuel ih =>
    intro beginIndex res hcursor
    unfold splitFrom
    cases hfind : find str crlf (sizeOfInt beginIndex) with
    | some i =>
      have hle := (find_bounds hfind).1
      have hbound := (find_bounds hfind).2
      simp only [substr_of_le (show sizeOfInt beginIndex ≤ str.length by omega)]
      exact ih _ _ (.inr ⟨i, prefix_of_find hfind, rfl⟩)
    | none =>
      have hlen : crlf.length = 2 := rfl
      have hlt := lt_of_find_crlf_none hend hfind
      rcases sizeOfInt_lt_or_le beginIndex with hsmall | hlarge
      · exfalso
        have hpos : sizeOfInt beginIndex = str.length - 1 := by omega
        rcases hcursor with rfl | ⟨i, hi, rfl⟩
        · rw [show sizeOfInt 0 = 0 from rfl] at hpos
          omega
        · have hle := hi.length_le
          rw [List.length_drop] at hle
          rw [eq_of_sizeOfInt_ofNat hsmall (by omega)] at hpos
          exact not_crlf_before_last hend hi (by omega)
      · have hne : sizeOfInt beginIndex ≠ str.length := by omega
        simp only [ne_eq, hne, not_false_eq_true, if_true, substr,
          if_neg (show ¬ sizeOfInt beginIndex ≤ str.length by omega)]
        exact ⟨_, rfl⟩

/-- `Split` fails on a frame that its cursor cannot cross. -/
lemma split_error {str : Bytes} (hstr : 2 ^ 31 ≤ str.length) (hmem : str.length < 2 ^ 63)
    (hend : crlf <:+ str) : ∃ fault, split str crlf = .error fault := by
  unfold split
  split
  · next h => simp [h] at hstr
  · exact splitFrom_error hstr hmem hend _ 0 [] (.inl rfl)

/-- The loop of `Split` cannot get behind a delimiter that ends from byte `2^31` on: where it stops
searching, its cursor is negative, and `substr` throws. -/
lemma splitFrom_error_of_delim {str delim : Bytes} {i : ℕ} (hdelim : delim ≠ [])
    (h : delim <+: str.drop i) (hi : 2 ^ 31 ≤ i + 1) (hmem : str.length < 2 ^ 63) :
    ∀ (fuel : ℕ) (beginIndex : Int32) (res : List Bytes),
      ∃ fault, splitFrom str delim fuel beginIndex res = .error fault := by
  have hpos := List.length_pos_of_ne_nil hdelim
  intro fuel
  induction fuel with
  | zero => intro beginIndex res; exact ⟨_, rfl⟩
  | succ fuel ih =>
    intro beginIndex res
    unfold splitFrom
    cases hfind : find str delim (sizeOfInt beginIndex) with
    | some j =>
      have hbounds := find_bounds hfind
      simp only [substr_of_le (show sizeOfInt beginIndex ≤ str.length by omega)]
      exact ih _ _
    | none =>
      rcases sizeOfInt_lt_or_le beginIndex with hsmall | hlarge
      · exfalso
        have hle := h.length_le
        rw [List.length_drop] at hle
        rw [find, if_pos (by omega), Option.map_eq_none_iff, Search.leftmost_eq_none_iff] at hfind
        have hdrop : str.drop i = (str.drop (sizeOfInt beginIndex)).drop
            (i - sizeOfInt beginIndex) := by
          rw [List.drop_drop]
          congr 1
          omega
        rw [hdrop] at h
        apply hfind
        exact h.isInfix.trans (List.drop_suffix _ _).isInfix
      · have hne : sizeOfInt beginIndex ≠ str.length := by omega
        simp only [ne_eq, hne, not_false_eq_true, if_true, substr,
          if_neg (show ¬ sizeOfInt beginIndex ≤ str.length by omega)]
        exact ⟨_, rfl⟩

/-- **`Split` fails** at a letter whose last occurrence is at byte `2^31 - 1` or behind it. -/
lemma split_error_of_letter {str : Bytes} {c : UInt8} (hmem : str.length < 2 ^ 63)
    (h : 2 ^ 31 ≤ str.length - (Search.fields [c] str).2.length) :
    ∃ fault, split str [c] = .error fault := by
  obtain ⟨hstr, -, -⟩ := Search.fields_spec (List.cons_ne_nil c []) str
  generalize Search.fields [c] str = fs at h hstr
  obtain ⟨ps, x⟩ := fs
  dsimp only at h hstr
  rcases List.eq_nil_or_concat ps with rfl | ⟨ps, p, rfl⟩
  · rw [List.flatMap_nil, List.nil_append] at hstr
    rw [hstr] at h
    omega
  · -- the last delimiter stands behind the last field
    have hlast : str = (ps.flatMap (· ++ [c]) ++ p) ++ (c :: x) := by
      rw [← hstr]
      simp [List.flatMap_append]
    have hlen := congrArg List.length hlast
    rw [List.length_append, List.length_cons] at hlen
    unfold split
    split
    · next hnil => simp [hnil] at h
    · refine splitFrom_error_of_delim (List.cons_ne_nil c [])
        (i := (ps.flatMap (· ++ [c]) ++ p).length) ?_ (by omega) hmem _ 0 []
      conv_rhs => rw [hlast, List.drop_left]
      exact ⟨x, rfl⟩

/-- The last token is empty only if the cursor has come to the end of the string. -/
lemma splitFrom_last {str delim : Bytes} {tokens : List Bytes} (hmem : str.length < 2 ^ 63) :
    ∀ (fuel : ℕ) (beginIndex : Int32) (res : List Bytes),
      splitFrom str delim fuel beginIndex res = .ok tokens → tokens.getLast? = some [] →
        str.length < 2 ^ 31 := by
  intro fuel
  induction fuel with
  | zero => intro beginIndex res h; cases h
  | succ fuel ih =>
    intro beginIndex res h hlast
    unfold splitFrom at h
    cases hfind : find str delim (sizeOfInt beginIndex) with
    | some i =>
      have hle := find_bounds hfind
      simp only [hfind, substr_of_le (show sizeOfInt beginIndex ≤ str.length by omega)] at h
      exact ih _ _ h hlast
    | none =>
      simp only [hfind] at h
      rcases sizeOfInt_lt_or_le beginIndex with hsmall | hlarge
      · by_cases heq : sizeOfInt beginIndex = str.length
        · omega
        · -- something is left behind the cursor, and it is the last token
          by_cases hle : sizeOfInt beginIndex ≤ str.length
          · simp only [ne_eq, heq, not_false_eq_true, if_true, substr_of_le hle] at h
            cases h
            rw [List.getLast?_concat] at hlast
            have hlen := congrArg List.length (Option.some.inj hlast)
            rw [List.length_take, List.length_drop, List.length_nil] at hlen
            omega
          · omega
      · have hne : sizeOfInt beginIndex ≠ str.length := by omega
        simp only [ne_eq, hne, not_false_eq_true, if_true, substr,
          if_neg (show ¬ sizeOfInt beginIndex ≤ str.length by omega)] at h
        cases h

/-- **The last token is empty** only if the string is shorter than `2^31` bytes. -/
lemma length_lt_of_split {str delim : Bytes} {tokens : List Bytes} (hmem : str.length < 2 ^ 63)
    (h : split str delim = .ok tokens) (hlast : tokens.getLast? = some []) :
    str.length < 2 ^ 31 := by
  unfold split at h
  split at h
  · next hnil => simp [hnil]
  · exact splitFrom_last hmem _ 0 [] h hlast

/-- The delimiters that the program splits at. -/
def delimiters : List Bytes := [crlf, space, colon]

/-- The delimiters do not overlap themselves. -/
lemma unbordered_of_mem_delimiters {delim : Bytes} (h : delim ∈ delimiters) :
    delim ≠ [] ∧ Search.Unbordered delim := by
  simp only [delimiters, List.mem_cons, List.not_mem_nil, or_false] at h
  rcases h with rfl | rfl | rfl
  · exact ⟨by decide, Search.unbordered_pair (by decide)⟩
  · exact ⟨by decide, Search.unbordered_singleton 32⟩
  · exact ⟨by decide, Search.unbordered_singleton 58⟩

/-- **`Split` is the canonical decomposition.** On every string that is not empty and no longer than
an `int` can tell it returns the only list of tokens that are free of the delimiter and, joined by
it, make up the string, where the last one is not empty unless one more delimiter follows. Of the
pieces between the delimiters it leaves out the last one if that is empty, and no other. -/
theorem split_canonical {str delim : Bytes} (hdelim : delim ∈ delimiters) (hne : str ≠ [])
    (hlen : str.length ≤ 2 ^ 31 - 1) :
    ∃ tokens, split str delim = .ok tokens ∧ Search.Decomposes delim str tokens ∧
      (∀ tokens', Search.Decomposes delim str tokens' → tokens' = tokens) ∧
      ∃ pieces, str = delim.intercalate pieces ∧ (∀ piece ∈ pieces, ¬ delim <:+: piece) ∧
        (pieces = tokens ∧ tokens.getLast? ≠ some [] ∨ pieces = tokens ++ [[]]) := by
  obtain ⟨ht, hu⟩ := unbordered_of_mem_delimiters hdelim
  have hsplit : split str delim = .ok (Search.tokens delim str) := split_eq ht (by omega)
  have htokens : Search.Decomposes delim str (Search.tokens delim str) :=
    (Search.decomposes_iff ht hu hne).mpr rfl
  refine ⟨_, hsplit, htokens, fun tokens' => (Search.decomposes_iff ht hu hne).mp, ?_⟩
  obtain ⟨hsome, hfree, ⟨hjoin, hlast⟩ | hjoin⟩ := htokens
  · exact ⟨_, hjoin, hfree, .inl ⟨rfl, hlast⟩⟩
  · refine ⟨Search.tokens delim str ++ [[]], ?_, fun piece hpiece => ?_, .inr rfl⟩
    · rw [Search.intercalate_concat, List.append_nil, ← Search.intercalate_append_delim delim hsome]
      exact hjoin
    · rcases List.mem_append.mp hpiece with hpiece | hpiece
      · exact hfree piece hpiece
      · rw [List.mem_singleton.mp hpiece]
        simpa using ht

/-- The first and the third piece are empty, and so is the last one, which is left out. The stray
`CR` and `LF` stay in their pieces. -/
theorem split_canonical_stray :
    split (bytes "\r\n\n\r\r\n\r\na\r\n") crlf = .ok [[], bytes "\n\r", [], bytes "a"] ∧
    Search.Decomposes crlf (bytes "\r\n\n\r\r\n\r\na\r\n") [[], bytes "\n\r", [], bytes "a"] := by
  have hsplit : split (bytes "\r\n\n\r\r\n\r\na\r\n") crlf =
      .ok [[], bytes "\n\r", [], bytes "a"] := by decide +kernel
  obtain ⟨tokens, htokens, hdecomposes, -⟩ := split_canonical
    (show crlf ∈ delimiters from List.mem_cons_self)
    (show bytes "\r\n\n\r\r\n\r\na\r\n" ≠ [] by decide +kernel) (by decide +kernel)
  obtain rfl := Except.ok.inj (hsplit.symm.trans htokens)
  exact ⟨hsplit, hdecomposes⟩

/-- The loop of `Join`: a colon goes before every token but the last. -/
def joinFrom : List Bytes → Bytes → Bytes
  | [], res => res
  | [token], res => res ++ token
  | token :: tokens, res => joinFrom tokens (res ++ colon ++ token)

/-- `Join`. The separator that the caller names is not used. -/
def join (tokens : List Bytes) (_deli : Bytes) : Except Fault Bytes :=
  match tokens with
  | [] => .error (.assertFailed .joinTokensNotEmpty)
  | [token] => .ok token
  | _ => .ok (joinFrom tokens [])

/-- `str.find_first_not_of(set)`. -/
def findFirstNotOf (str set : Bytes) : Option ℕ := str.findIdx? fun c => c ∉ set

/-- `str.find_last_not_of(set)`. -/
def findLastNotOf (str set : Bytes) : Option ℕ :=
  (findFirstNotOf str.reverse set).map fun i => str.length - 1 - i

/-- `str.find_last_of(set)`. -/
def findLastOf (str set : Bytes) : Option ℕ :=
  (str.reverse.findIdx? fun c => c ∈ set).map fun i => str.length - 1 - i

/-- `Trim`. -/
def trim (str delim : Bytes) : Bytes :=
  match findFirstNotOf str delim, findLastNotOf str delim with
  | some firstIndex, some lastIndex => (str.drop firstIndex).take (lastIndex - firstIndex + 1)
  | _, _ => []

/-- `ToUpper`, in the "C" locale. -/
def toUpper (str : Bytes) : Bytes := str.map fun c => if 97 ≤ c ∧ c ≤ 122 then c - 32 else c

/-- `Format`. -/
def format (str : Bytes) : Bytes := toUpper (trim str space)

/-- `std::to_string` of a `size_t`. -/
def toDecimal (n : ℕ) : Bytes :=
  if n = 0 then [48] else (Nat.digits 10 n).reverse.map fun d => 48 + d.toUInt8

/-! ## Methods, versions, file types -/

/-- `Method`. -/
inductive Method
  | get
  | head
  | unsupported
  deriving DecidableEq, Repr

/-- `Version`. -/
inductive Version
  | http11
  | unsupported
  deriving DecidableEq, Repr

/-- `Extension`. -/
inductive Extension
  | html
  | css
  | png
  | jpg
  | jpeg
  | gif
  | octet
  deriving DecidableEq, Repr

/-- `Method_String_Map`. -/
def methodString : Method → Bytes
  | .get => bytes "GET"
  | .head => bytes "HEAD"
  | .unsupported => bytes "UNSUPPORTED"

/-- `Version_String_Map`. -/
def versionString : Version → Bytes
  | .http11 => bytes "HTTP/1.1"
  | .unsupported => bytes "UNSUPPORTED"

/-- `Extension_String_Map`. -/
def extensionString : Extension → Bytes
  | .html => bytes "HTML"
  | .css => bytes "CSS"
  | .png => bytes "PNG"
  | .jpg => bytes "JPG"
  | .jpeg => bytes "JPEG"
  | .gif => bytes "GIF"
  | .octet => bytes "OCTET"

/-- `ToMethod`. -/
def toMethod (methodStr : Bytes) : Method :=
  if format methodStr = methodString .get then .get
  else if format methodStr = methodString .head then .head
  else .unsupported

/-- `ToVersion`. -/
def toVersion (versionStr : Bytes) : Version :=
  if format versionStr = versionString .http11 then .http11 else .unsupported

/-- `ToExtension`. -/
def toExtension (extensionStr : Bytes) : Extension :=
  if format extensionStr = extensionString .html then .html
  else if format extensionStr = extensionString .css then .css
  else if format extensionStr = extensionString .png then .png
  else if format extensionStr = extensionString .jpg then .jpg
  else if format extensionStr = extensionString .jpeg then .jpeg
  else if format extensionStr = extensionString .gif then .gif
  else .octet

/-- `ExtensionToMime`. -/
def extensionToMime : Extension → Bytes
  | .html => bytes "text/html"
  | .css => bytes "text/css"
  | .png => bytes "image/png"
  | .jpg => bytes "image/jpg"
  | .jpeg => bytes "image/jpeg"
  | .gif => bytes "image/gif"
  | .octet => bytes "application/octet-stream"

/-- `IsCgiRequest`. -/
def isCgiRequest (resourceUrl : Bytes) : Bool := (find resourceUrl cgiBin 0).isSome

/-! ## Files -/

/-- What a path leads to. Other entries are not part of this model, nor is an error of the system
other than that nothing is there (`ENAMETOOLONG`, `EACCES`), on which `std::filesystem::exists` and
its like throw. -/
inductive Entry
  | absent
  | regular (content : Bytes)
  | directory
  deriving DecidableEq

/-- A file system as the helpers see it: a path is all bytes of the string, and a zero byte does not
cut it. -/
abbrev FileSystem := Bytes → Entry

/-- `IsFileExist`: `std::filesystem::exists`, which is true of directories too. -/
def isFileExist (fs : FileSystem) (filePath : Bytes) : Bool := fs filePath ≠ .absent

/-- `IsDirectoryExists`: `std::filesystem::is_directory`. -/
def isDirectoryExists (fs : FileSystem) (direPath : Bytes) : Bool := fs direPath = .directory

/-- `FileSize`. -/
def fileSize (fs : FileSystem) (filePath : Bytes) : Except Fault ℕ :=
  match fs filePath with
  | .absent => .error (.assertFailed .fileSizeFileExists)
  | .regular content => .ok content.length
  | .directory => .error .filesystemError

/-- `LoadFile`: the buffer after the call, and whether `buffer[origin]` was the element past its
end. -/
def loadFile (fs : FileSystem) (filePath buffer : Bytes) : Except Fault (Bytes × Bool) := do
  let size ← fileSize fs filePath
  match fs filePath with
  | .regular content => return (buffer ++ content, size = 0)
  | _ => throw (.assertFailed .loadFileIsOpen)

/-- Loading a regular file. Only an empty one makes `LoadFile` refer past the end. -/
lemma loadFile_regular {fs : FileSystem} {filePath content : Bytes}
    (h : fs filePath = .regular content) (buffer : Bytes) :
    loadFile fs filePath buffer = .ok (buffer ++ content, decide (content = [])) := by
  have hsize : fileSize fs filePath = .ok content.length := by simp [fileSize, h]
  simp [loadFile, hsize, h, bind, Except.bind, pure, Except.pure]

end Icee.Http
