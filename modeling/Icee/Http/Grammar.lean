import Icee.Http.HeaderLine

set_option relaxedAutoImplicit false
set_option autoImplicit false

/-!
# The grammar of requests

The strings that `Request::Request(request_str)` accepts, and what it reads in them. The parser
cuts the string at `CRLF`, its first line at spaces and the other lines at colons; each of these
cuts drops one empty piece at the end.

## Main definitions

* `Icee.Http.IsRequestLine`, `Icee.Http.IsHeaderLine`, `Icee.Http.IsRequest` — the grammar.

## Main results

* `Icee.Http.Request.parseRequestLine_iff`, `Icee.Http.Request.parseHeaders_iff` — the parts.
* `Icee.Http.Request.isValid_iff` — the parser accepts the grammar, and reads it as it should.
-/

namespace Icee.Http

/-! ## The grammar -/

/-- The two strings are equal up to the case of their letters. -/
def SameUpToCase (a b : Bytes) : Prop := toUpper a = toUpper b

instance (a b : Bytes) : Decidable (SameUpToCase a b) :=
  inferInstanceAs (Decidable (toUpper a = toUpper b))

/-- A request line: a method, a url and a version, separated by single spaces, and at most one
space behind them. -/
structure IsRequestLine (line method url version : Bytes) : Prop where
  text : line = method ++ space ++ url ++ space ++ version ∨
    line = method ++ space ++ url ++ space ++ version ++ space
  method_free : 32 ∉ method
  url_free : 32 ∉ url
  version_free : 32 ∉ version
  isMethod : SameUpToCase method (bytes "GET") ∨ SameUpToCase method (bytes "HEAD")
  isVersion : SameUpToCase version (bytes "HTTP/1.1")

/-- A header line: its first colon exists and is not its last byte. -/
def IsHeaderLine (line : Bytes) : Prop :=
  ∃ key value, line = key ++ colon ++ value ∧ 58 ∉ key ∧ value ≠ []

/-- The part of a header line before its first colon. -/
def keyOf (line : Bytes) : Bytes := line.takeWhile (· ≠ 58)

/-- A request: a request line, header lines, each of them ended by `CRLF`, and one more `CRLF`. -/
structure IsRequest (str line : Bytes) (headerLines : List Bytes) (method url version : Bytes) :
    Prop where
  text : str = (line :: headerLines).flatMap (· ++ crlf) ++ crlf
  line_free : ∀ l ∈ line :: headerLines, ¬ crlf <:+: l
  requestLine : IsRequestLine line method url version
  headers : ∀ l ∈ headerLines, IsHeaderLine l

/-! ## Words -/

/-- A string without the letters to be trimmed is left alone. -/
lemma trim_of_notMem {str set : Bytes} (h : ∀ c ∈ str, c ∉ set) : trim str set = str := by
  rcases str with _ | ⟨c, str⟩
  · rfl
  · have hfirst : ∀ (c : UInt8) (s : Bytes), c ∉ set → findFirstNotOf (c :: s) set = some 0 := by
      intro c s hc
      simp [findFirstNotOf, List.findIdx?_cons, hc]
    have hlast : findLastNotOf (c :: str) set = some str.length := by
      obtain ⟨d, s, hd⟩ := List.exists_cons_of_ne_nil (l := (c :: str).reverse) (by simp)
      have hmem : d ∈ c :: str := List.mem_reverse.mp (hd ▸ List.mem_cons_self)
      rw [findLastNotOf, hd, hfirst d s (h d hmem)]
      simp
    simp only [trim, hfirst c str (h c List.mem_cons_self), hlast]
    simp

/-- `Format` of a word, which has no spaces to be trimmed. -/
lemma format_of_notMem {str : Bytes} (h : 32 ∉ str) : format str = toUpper str := by
  rw [format, trim_of_notMem]
  intro c hc hspace
  obtain rfl : c = 32 := List.mem_singleton.mp hspace
  exact h hc

/-- The three words of a line.

**Proof sketch.** A line that ends with a space has its three tokens from three fields in front of
an empty rest, and one that does not has the third from the rest. For the converse the fields of a
text that is written with delimiters are read back. -/
lemma tokens_eq_three {line m u v : Bytes} :
    Search.tokens space line = [m, u, v] ↔
      (line = m ++ space ++ u ++ space ++ v ∧ v ≠ [] ∨
        line = m ++ space ++ u ++ space ++ v ++ space) ∧ 32 ∉ m ∧ 32 ∉ u ∧ 32 ∉ v := by
  have hspace : space ≠ [] := by decide
  have hword : ∀ {w : Bytes}, ¬ space <:+: w ↔ 32 ∉ w := Search.singleton_infix_iff.not
  constructor
  · intro h
    obtain ⟨hspec, hfree, hrest⟩ := Search.fields_spec hspace line
    unfold Search.tokens at h
    generalize Search.fields space line = fs at h hspec hfree hrest
    obtain ⟨ps, x⟩ := fs
    dsimp only at h hspec hfree hrest
    by_cases hx : x = []
    · subst hx
      rw [if_pos rfl, List.append_nil] at h
      subst h
      refine ⟨.inr ?_, hword.mp (hfree m (by simp)), hword.mp (hfree u (by simp)),
        hword.mp (hfree v (by simp))⟩
      rw [← hspec]
      simp [List.append_assoc]
    · rw [if_neg hx] at h
      obtain ⟨rfl, hv⟩ : ps = [m, u] ∧ [x] = [v] :=
        List.append_inj' (show ps ++ [x] = [m, u] ++ [v] from h) rfl
      obtain rfl := List.singleton_inj.mp hv
      refine ⟨.inl ⟨?_, hx⟩, hword.mp (hfree m (by simp)), hword.mp (hfree u (by simp)),
        hword.mp hrest⟩
      rw [← hspec]
      simp [List.append_assoc]
  · rintro ⟨hline, hm, hu, hv⟩
    have hwords : ∀ p ∈ [m, u, v], ¬ space <:+: p := by
      intro p hp
      rcases List.mem_cons.mp hp with rfl | hp
      · exact hword.mpr hm
      · rcases List.mem_cons.mp hp with rfl | hp
        · exact hword.mpr hu
        · exact List.mem_singleton.mp hp ▸ hword.mpr hv
    rcases hline with ⟨rfl, hne⟩ | rfl
    · have hfirst : ∀ p ∈ [m, u], ¬ space <:+: p := fun p hp =>
        hwords p (List.mem_append_left [v] hp)
      have htokens := Search.tokens_flatMap_append hspace (Search.unbordered_singleton 32)
        (hword.mpr hv) hfirst
      rw [if_neg hne] at htokens
      simpa [List.append_assoc] using htokens
    · have htokens := Search.tokens_flatMap_append hspace (Search.unbordered_singleton 32)
        (x := []) (by decide) hwords
      rw [if_pos rfl] at htokens
      simpa [List.append_assoc] using htokens

/-- `ToMethod` of a word. -/
lemma toMethod_of_notMem {m : Bytes} (h : 32 ∉ m) : toMethod m =
    if SameUpToCase m (bytes "GET") then .get
    else if SameUpToCase m (bytes "HEAD") then .head else .unsupported := by
  rw [toMethod, format_of_notMem h]
  rfl

/-- `ToVersion` of a word. -/
lemma toVersion_of_notMem {v : Bytes} (h : 32 ∉ v) : toVersion v =
    if SameUpToCase v (bytes "HTTP/1.1") then .http11 else .unsupported := by
  rw [toVersion, format_of_notMem h]
  rfl

/-! ## The request line -/

/-- The method that a word stands for. -/
def methodOf (m : Bytes) : Method := if SameUpToCase m (bytes "GET") then .get else .head

/-- The url that is asked for: a directory stands for its index. -/
def urlOf (u : Bytes) : Bytes :=
  if u = [] ∨ u.getLast? = some 47 then u ++ defaultRoute else u

namespace Request

/-- A request line is accepted, and its three words are read. -/
lemma parseRequestLine_of_isRequestLine {line m u v : Bytes} (hlen : line.length < 2 ^ 31)
    (h : IsRequestLine line m u v) (r : Request) :
    r.parseRequestLine line = .ok ({ r with
      method := some (methodOf m), version := some .http11, url := urlOf u }, true) := by
  have hne : v ≠ [] := by
    rintro rfl
    exact absurd h.isVersion (by decide)
  have htokens : Search.tokens space line = [m, u, v] := by
    refine tokens_eq_three.mpr ⟨?_, h.method_free, h.url_free, h.version_free⟩
    rcases h.text with htext | htext
    · exact .inl ⟨htext, hne⟩
    · exact .inr htext
  have hmethod : toMethod m = methodOf m := by
    rw [toMethod_of_notMem h.method_free, methodOf]
    rcases h.isMethod with hm | hm
    · rw [if_pos hm, if_pos hm]
    · rw [if_pos hm]
  have hsupported : methodOf m ≠ .unsupported := by
    unfold methodOf
    split <;> decide
  have hversion : toVersion v = .http11 := by
    rw [toVersion_of_notMem h.version_free, if_pos h.isVersion]
  unfold parseRequestLine
  rw [split_eq (by decide) (by omega), htokens]
  simp only [bind, Except.bind, hmethod, hversion, if_neg hsupported]
  rfl

/-- Only a request line is accepted. -/
lemma isRequestLine_of_parseRequestLine {line : Bytes} (hlen : line.length < 2 ^ 31)
    {r r' : Request} (h : r.parseRequestLine line = .ok (r', true)) :
    ∃ m u v, IsRequestLine line m u v := by
  unfold parseRequestLine at h
  rw [split_eq (show space ≠ [] by decide) (by omega)] at h
  rcases htokens : Search.tokens space line with _ | ⟨m, _ | ⟨u, _ | ⟨v, _ | ⟨w, ts⟩⟩⟩⟩
  · rw [htokens] at h; cases h
  · rw [htokens] at h; cases h
  · rw [htokens] at h; cases h
  · rw [htokens] at h
    obtain ⟨htext, hm, hu, hv⟩ := tokens_eq_three.mp htokens
    simp only [bind, Except.bind] at h
    split at h
    · cases h
    · next hmethod =>
      split at h
      · cases h
      · next hversion =>
        refine ⟨m, u, v, htext.imp And.left id, hm, hu, hv, ?_, ?_⟩
        · by_contra hno
          obtain ⟨hget, hhead⟩ := not_or.mp hno
          apply hmethod
          rw [toMethod_of_notMem hm, if_neg hget, if_neg hhead]
        · by_contra hno
          apply hversion
          rw [toVersion_of_notMem hv, if_neg hno]
  · rw [htokens] at h; cases h

/-! ## The header lines -/

/-- The key of a header line. -/
lemma keyOf_append {key : Bytes} (hkey : 58 ∉ key) (value : Bytes) :
    keyOf (key ++ colon ++ value) = key := by
  unfold keyOf
  rw [List.append_assoc, List.takeWhile_append_of_pos]
  · rw [show colon ++ value = 58 :: value from rfl, List.takeWhile_cons_of_neg (by simp),
      List.append_nil]
  · intro c hc
    have hne : c ≠ 58 := fun h => hkey (h ▸ hc)
    simpa using hne

/-- A header line gives a valid header with its key. -/
lemma ofLine_of_isHeaderLine {line : Bytes} (hlen : line.length < 2 ^ 31) (h : IsHeaderLine line) :
    ∃ header, Header.ofLine line = .ok header ∧ header.valid = true ∧
      header.key = keyOf line := by
  obtain ⟨key, value, rfl, hkey, hvalue⟩ := h
  refine ⟨_, Header.ofLine_of_value hkey hvalue (by omega), rfl, ?_⟩
  exact (keyOf_append hkey value).symm

/-- Any other line does not. -/
lemma ofLine_of_not_isHeaderLine {line : Bytes} (hlen : line.length < 2 ^ 31)
    (h : ¬ IsHeaderLine line) : Header.ofLine line = .ok { valid := false } := by
  refine Header.ofLine_invalid hlen fun key value hline hkey => ?_
  by_contra hvalue
  exact h ⟨key, value, hline, hkey, hvalue⟩

/-- A header line at the front is appended to the headers. -/
lemma parseHeaders_cons {line : Bytes} (hlen : line.length < 2 ^ 31) (h : IsHeaderLine line)
    (r : Request) (lines : List Bytes) :
    ∃ (header : Header) (close : Bool), header.key = keyOf line ∧
      r.parseHeaders (line :: lines) = ({ r with
        shouldClose := close
        headers := r.headers ++ [header.moved] } : Request).parseHeaders lines := by
  obtain ⟨header, hheader, hvalid, hkey⟩ := ofLine_of_isHeaderLine hlen h
  obtain ⟨close, hclose⟩ := r.checkConnectionState_eq header
  refine ⟨header, close, hkey, ?_⟩
  simp only [parseHeaders, hheader, bind, Except.bind, hvalid, not_true_eq_false, if_false, hclose]

/-- Any other line at the front is the reason for rejecting the request. -/
lemma parseHeaders_cons_of_not {line : Bytes} (hlen : line.length < 2 ^ 31)
    (h : ¬ IsHeaderLine line) (r : Request) (lines : List Bytes) :
    r.parseHeaders (line :: lines) =
      .ok { r with invalidReason := bytes "Fail to parse header line:" ++ line } := by
  simp only [parseHeaders, ofLine_of_not_isHeaderLine hlen h, bind, Except.bind]
  rfl

/-- Header lines are accepted, and their keys are read in order. -/
lemma parseHeaders_of_isHeaderLine (lines : List Bytes) : ∀ r : Request,
    (∀ l ∈ lines, l.length < 2 ^ 31) → (∀ l ∈ lines, IsHeaderLine l) →
      ∃ r', r.parseHeaders lines = .ok r' ∧ r'.isValid = true ∧ r'.method = r.method ∧
        r'.version = r.version ∧ r'.url = r.url ∧
        r'.headers.map Header.key = r.headers.map Header.key ++ lines.map keyOf := by
  induction lines with
  | nil =>
    intro r _ _
    exact ⟨_, rfl, rfl, rfl, rfl, rfl, by simp⟩
  | cons line lines ih =>
    intro r hlen h
    obtain ⟨header, close, hkey, hcons⟩ :=
      parseHeaders_cons (hlen line (by simp)) (h line (by simp)) r lines
    obtain ⟨r', hr', hvalid', hmethod, hversion, hurl, hkeys⟩ :=
      ih { r with shouldClose := close, headers := r.headers ++ [header.moved] }
        (fun l hl => hlen l (by simp [hl])) (fun l hl => h l (by simp [hl]))
    refine ⟨r', hcons.trans hr', hvalid', hmethod, hversion, hurl, ?_⟩
    rw [hkeys, List.map_append, List.append_assoc]
    simp [Header.moved, hkey]

/-- Only header lines are accepted. -/
lemma isHeaderLine_of_parseHeaders (lines : List Bytes) : ∀ {r r' : Request},
    (∀ l ∈ lines, l.length < 2 ^ 31) → r.isValid = false → r.parseHeaders lines = .ok r' →
      r'.isValid = true → ∀ l ∈ lines, IsHeaderLine l := by
  induction lines with
  | nil => intro r r' _ _ _ _ l hl; cases hl
  | cons line lines ih =>
    intro r r' hlen hinvalid hparse hvalid
    have hline : IsHeaderLine line := by
      by_contra hno
      rw [parseHeaders_cons_of_not (hlen line (by simp)) hno] at hparse
      cases hparse
      rw [hinvalid] at hvalid
      cases hvalid
    obtain ⟨header, close, -, hcons⟩ := parseHeaders_cons (hlen line (by simp)) hline r lines
    rw [hcons] at hparse
    intro l hl
    rcases List.mem_cons.mp hl with rfl | hl
    · exact hline
    · refine ih ?_ ?_ hparse hvalid l hl
      · exact fun l hl => hlen l (by simp [hl])
      · exact hinvalid

/-! ## The request -/

/-- The lines of a string that ends with a blank line. -/
lemma tokens_of_lines {line : Bytes} {lines : List Bytes}
    (hfree : ∀ l ∈ line :: lines, ¬ crlf <:+: l) :
    Search.tokens crlf ((line :: lines).flatMap (· ++ crlf) ++ crlf) = line :: lines ++ [[]] := by
  have hfree' : ∀ l ∈ line :: lines ++ [[]], ¬ crlf <:+: l := by
    intro l hl
    rcases List.mem_append.mp hl with hl | hl
    · exact hfree l hl
    · rw [List.mem_singleton.mp hl]
      decide
  have htokens := Search.tokens_flatMap_append (show crlf ≠ [] by decide)
    (Search.unbordered_pair (show (13 : UInt8) ≠ 10 by decide)) (x := []) (by decide) hfree'
  rw [if_pos rfl, List.append_nil, List.append_nil, List.flatMap_append] at htokens
  exact htokens

/-- A line is shorter than the string it is a line of. -/
lemma length_lt_of_lines {lines : List Bytes} {bound : ℕ}
    (hlen : (lines.flatMap (· ++ crlf) ++ crlf).length < bound) :
    ∀ l ∈ lines, l.length < bound := by
  intro l hl
  have hle : (l ++ crlf).length ≤ (lines.flatMap (· ++ crlf)).length := by
    rw [List.flatMap_def]
    apply List.Sublist.length_le
    exact List.sublist_flatten_of_mem (List.mem_map_of_mem hl)
  rw [List.length_append] at hle hlen
  omega

/-- A string that has the format of a request is a list of lines and a blank line. -/
lemma exists_lines_of_tokens {str : Bytes} (hsize : ¬ (Search.tokens crlf str).length < 2)
    (hlast : (Search.tokens crlf str).getLast? = some []) :
    ∃ line lines, str = (line :: lines).flatMap (· ++ crlf) ++ crlf ∧
      ∀ l ∈ line :: lines, ¬ crlf <:+: l := by
  obtain ⟨hspec, hfree, -⟩ := Search.fields_spec (show crlf ≠ [] by decide) str
  unfold Search.tokens at hsize hlast
  generalize Search.fields crlf str = fs at hsize hlast hspec hfree
  obtain ⟨ps, x⟩ := fs
  dsimp only at hsize hlast hspec hfree
  have hx : x = [] := by
    by_contra hne
    rw [if_neg hne, List.getLast?_concat] at hlast
    exact hne (Option.some.inj hlast)
  subst hx
  rw [if_pos rfl, List.append_nil] at hsize hlast
  -- the last field is the empty one before the blank line
  rcases List.eq_nil_or_concat ps with rfl | ⟨qs, q, rfl⟩
  · cases hlast
  · rw [List.concat_eq_append] at hsize hlast hspec hfree
    rw [List.getLast?_concat] at hlast
    obtain rfl := Option.some.inj hlast
    rcases qs with _ | ⟨line, lines⟩
    · simp at hsize
    · refine ⟨line, lines, ?_, fun l hl => hfree l (List.mem_append_left _ hl)⟩
      rw [← hspec, List.flatMap_append, List.append_nil]
      rfl

/-- **The parser on a list of lines and a blank line.** -/
lemma ofString_of_lines {line : Bytes} {lines : List Bytes}
    (hfree : ∀ l ∈ line :: lines, ¬ crlf <:+: l)
    (hlen : ((line :: lines).flatMap (· ++ crlf) ++ crlf).length < 2 ^ 31) :
    ofString ((line :: lines).flatMap (· ++ crlf) ++ crlf) =
      (do
        let (r, requestParseSuccess) ← parseRequestLine {} line
        if ¬ requestParseSuccess then
          return { r with invalidReason := bytes "Request line error" }
        r.parseHeaders lines) := by
  have hlast : (line :: lines ++ [[]]).getLast? = some ([] : Bytes) := List.getLast?_concat
  have hsize : ¬ ((line :: lines ++ [[]]).length < 2 ∨
      (line :: lines ++ [[]]).getLast? ≠ some ([] : Bytes)) := by
    rw [hlast]
    simp
  unfold ofString
  rw [split_eq (by decide) (by omega), tokens_of_lines hfree]
  simp only [bind, Except.bind]
  rw [if_neg hsize, if_neg (by rw [hlast]; simp), List.dropLast_concat]

/-- A string of the grammar is accepted, and read as it should be. -/
lemma ofString_of_isRequest {str line m u v : Bytes} {headerLines : List Bytes}
    (hlen : str.length < 2 ^ 31) (h : IsRequest str line headerLines m u v) :
    ∃ r, ofString str = .ok r ∧ r.isValid = true ∧ r.method = some (methodOf m) ∧
      r.version = some .http11 ∧ r.url = urlOf u ∧
      r.headers.map Header.key = headerLines.map keyOf := by
  obtain ⟨rfl, hfree, hline, hheaders⟩ := h
  have hshort := length_lt_of_lines hlen
  obtain ⟨r, hr, hvalid, hmethod, hversion, hurl, hkeys⟩ := parseHeaders_of_isHeaderLine
    headerLines { method := some (methodOf m), version := some .http11, url := urlOf u }
    (fun l hl => hshort l (List.mem_cons_of_mem _ hl)) hheaders
  refine ⟨r, ?_, hvalid, hmethod, hversion, hurl, by simpa using hkeys⟩
  rw [ofString_of_lines hfree hlen,
    parseRequestLine_of_isRequestLine (hshort line List.mem_cons_self) hline]
  exact hr

/-- Only strings of the grammar are accepted. -/
lemma isRequest_of_ofString {str : Bytes} (hlen : str.length < 2 ^ 31) {r : Request}
    (hparse : ofString str = .ok r) (hvalid : r.isValid = true) :
    ∃ line headerLines m u v, IsRequest str line headerLines m u v := by
  have hsplit := split_eq (show crlf ≠ [] by decide)
    (show str.length - (Search.fields crlf str).2.length < 2 ^ 31 by omega)
  by_cases hformat : (Search.tokens crlf str).length < 2 ∨
      (Search.tokens crlf str).getLast? ≠ some []
  · unfold ofString at hparse
    rw [hsplit] at hparse
    simp only [bind, Except.bind, if_pos hformat] at hparse
    cases hparse
    cases hvalid
  · obtain ⟨hsize, hlast⟩ := not_or.mp hformat
    obtain ⟨line, lines, rfl, hfree⟩ := exists_lines_of_tokens hsize (not_not.mp hlast)
    have hshort := length_lt_of_lines hlen
    rw [ofString_of_lines hfree hlen] at hparse
    cases hline : parseRequestLine {} line with
    | error fault =>
      rw [hline] at hparse
      cases hparse
    | ok result =>
      obtain ⟨r₁, success⟩ := result
      rw [hline] at hparse
      have hinvalid := (parseRequestLine_spec hline).1
      cases success with
      | false =>
        cases hparse
        rw [show r₁.isValid = false from hinvalid] at hvalid
        cases hvalid
      | true =>
        obtain ⟨m, u, v, hwords⟩ :=
          isRequestLine_of_parseRequestLine (hshort line List.mem_cons_self) hline
        refine ⟨line, lines, m, u, v, rfl, hfree, hwords, ?_⟩
        exact isHeaderLine_of_parseHeaders lines
          (fun l hl => hshort l (List.mem_cons_of_mem _ hl)) hinvalid hparse hvalid

/-- **The parser accepts exactly its grammar**, for every string of less than `2^31` bytes, and
what it reads in a string of the grammar is the method and the version of the request line, its
url, completed if it names a directory, and the keys of the header lines in order. -/
theorem isValid_iff {str : Bytes} (hlen : str.length < 2 ^ 31) :
    ((∃ r, ofString str = .ok r ∧ r.isValid = true) ↔
      ∃ line headerLines m u v, IsRequest str line headerLines m u v) ∧
    ∀ line headerLines m u v, IsRequest str line headerLines m u v →
      ∃ r, ofString str = .ok r ∧ r.isValid = true ∧ r.method = some (methodOf m) ∧
        r.version = some .http11 ∧ r.url = urlOf u ∧
        r.headers.map Header.key = headerLines.map keyOf := by
  refine ⟨⟨?_, ?_⟩, fun line headerLines m u v h => ofString_of_isRequest hlen h⟩
  · rintro ⟨r, hparse, hvalid⟩
    exact isRequest_of_ofString hlen hparse hvalid
  · rintro ⟨line, headerLines, m, u, v, h⟩
    obtain ⟨r, hparse, hvalid, -⟩ := ofString_of_isRequest hlen h
    exact ⟨r, hparse, hvalid⟩

/-- A request with a trailing space in its first line, an empty url and one header. -/
theorem isValid_iff_sample :
    ∃ r, ofString (bytes "get  HTTP/1.1 \r\nHost:a:b\r\n\r\n") = .ok r ∧ r.isValid = true ∧
      r.method = some .get ∧ r.url = bytes "index.html" ∧
      r.headers.map Header.key = [bytes "Host"] := by
  have hrequest : IsRequest (bytes "get  HTTP/1.1 \r\nHost:a:b\r\n\r\n")
      (bytes "get  HTTP/1.1 ") [bytes "Host:a:b"] (bytes "get") [] (bytes "HTTP/1.1") := by
    refine ⟨by decide, ?_, ⟨by decide, by decide, by decide, by decide, by decide, by decide⟩, ?_⟩
    · intro l hl
      rcases List.mem_cons.mp hl with rfl | hl
      · decide
      · rw [List.mem_singleton.mp hl]
        decide
    · intro l hl
      rw [List.mem_singleton.mp hl]
      exact ⟨bytes "Host", bytes "a:b", by decide, by decide, by decide⟩
  obtain ⟨r, hparse, hvalid, hmethod, -, hurl, hkeys⟩ :=
    (isValid_iff (by decide)).2 _ _ _ _ _ hrequest
  exact ⟨r, hparse, hvalid, hmethod, hurl, hkeys⟩

end Request

end Icee.Http
