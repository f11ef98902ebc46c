import Icee.Http.Grammar

set_option relaxedAutoImplicit false
set_option autoImplicit false

/-!
# The order of headers

The constructor of a request reads one header line after the other, and each of them may change the
decision about the connection. This file shows that the decision, like everything else that is read
in a request, depends neither on the order of the header lines nor on lines about other things.

## Main definitions

* `Icee.Http.requestText` — a request line and header lines as a string.
* `Icee.Http.Unrelated` — header lines that are not about the connection.
* `Icee.Http.Header.keepsAlive` — the headers that ask for the connection to be kept.

## Main results

* `Icee.Http.Request.parseHeaders_eq` — what a list of header lines makes of a request.
* `Icee.Http.Request.length_lt_of_isValid` — only strings of less than `2^31` bytes are accepted.
* `Icee.Http.Request.reordered_iff` — a request whose header lines have been permuted, and mixed
  with unrelated ones, means the same exactly if it is still shorter than that.
-/

namespace Icee.Http

/-- A request line and header lines, each of them ended by `CRLF`, and one more `CRLF`. -/
def requestText (line : Bytes) (headerLines : List Bytes) : Bytes :=
  (line :: headerLines).flatMap (· ++ crlf) ++ crlf

/-- The header asks for the connection to be kept. -/
def Header.keepsAlive (h : Header) : Bool :=
  format h.key = bytes "CONNECTION" ∧ format h.value = bytes "KEEP-ALIVE"

/-- A header line of one line whose key, trimmed and in upper case, is not `CONNECTION`. -/
def Unrelated (line : Bytes) : Prop :=
  ¬ crlf <:+: line ∧ ∃ h, Header.ofLine line = .ok h ∧ h.valid = true ∧
    format h.key ≠ bytes "CONNECTION"

/-- The header of a line, if the line is one. -/
def headerOf (line : Bytes) : Header :=
  match Header.ofLine line with
  | .ok h => h
  | .error _ => { valid := false }

/-- The line is a header line for the parser. -/
def Parses (line : Bytes) : Prop :=
  Header.ofLine line = .ok (headerOf line) ∧ (headerOf line).valid = true

/-- A line that gives a valid header. -/
lemma parses_of_ofLine {line : Bytes} {h : Header} (hline : Header.ofLine line = .ok h)
    (hvalid : h.valid = true) : Parses line ∧ headerOf line = h := by
  have hof : headerOf line = h := by rw [headerOf, hline]
  exact ⟨⟨by rw [hof]; exact hline, by rw [hof]; exact hvalid⟩, hof⟩

/-- A line of the grammar. -/
lemma parses_of_isHeaderLine {line : Bytes} (hlen : line.length < 2 ^ 31)
    (h : IsHeaderLine line) : Parses line := by
  obtain ⟨header, hheader, hvalid, -⟩ := Request.ofLine_of_isHeaderLine hlen h
  exact (parses_of_ofLine hheader hvalid).1

/-- An unrelated line does not ask for the connection to be kept. -/
lemma Unrelated.keepsAlive {line : Bytes} (h : Unrelated line) :
    Parses line ∧ (headerOf line).keepsAlive = false := by
  obtain ⟨-, header, hheader, hvalid, hkey⟩ := h
  obtain ⟨hparses, hof⟩ := parses_of_ofLine hheader hvalid
  exact ⟨hparses, by simp [hof, Header.keepsAlive, hkey]⟩

namespace Request

/-- What a header does to the decision about the connection. -/
lemma checkConnectionState_keepsAlive (r : Request) (header : Header) :
    r.checkConnectionState header = { r with shouldClose := r.shouldClose && !header.keepsAlive } := by
  have hkey : format headerConnection = bytes "CONNECTION" := by decide
  have hvalue : format connectionKeepAlive = bytes "KEEP-ALIVE" := by decide
  unfold checkConnectionState Header.keepsAlive
  rw [hkey, hvalue]
  by_cases hk : format header.key = bytes "CONNECTION"
  · by_cases hv : format header.value = bytes "KEEP-ALIVE"
    · simp [hk, hv]
    · simp [hk, hv]
  · simp [hk]

/-- **What a list of header lines makes of a request**: the headers are appended, and one that asks
for the connection to be kept is enough for it. -/
lemma parseHeaders_eq (lines : List Bytes) : ∀ r : Request, (∀ l ∈ lines, Parses l) →
    r.parseHeaders lines = .ok { r with
      isValid := true
      headers := r.headers ++ lines.map fun l => (headerOf l).moved
      shouldClose := r.shouldClose && !lines.any fun l => (headerOf l).keepsAlive } := by
  induction lines with
  | nil => intro r _; simp [parseHeaders]
  | cons line lines ih =>
    intro r h
    obtain ⟨hheader, hvalid⟩ := h line (by simp)
    simp only [parseHeaders, hheader, bind, Except.bind, hvalid, not_true_eq_false, if_false,
      checkConnectionState_keepsAlive]
    rw [ih _ fun l hl => h l (by simp [hl])]
    simp [Bool.and_assoc]

/-- **Only strings of less than `2^31` bytes are accepted.** (Every `std::string` has less than
`2^63` bytes.) -/
lemma length_lt_of_isValid {str : Bytes} (hmem : str.length < 2 ^ 63) {r : Request}
    (hparse : ofString str = .ok r) (hvalid : r.isValid = true) : str.length < 2 ^ 31 := by
  obtain ⟨tokens, hsplit, hparse⟩ := exists_of_bind_eq_ok hparse
  split at hparse
  · cases hparse; cases hvalid
  · next hformat =>
    refine length_lt_of_split hmem hsplit ?_
    by_contra hlast
    exact hformat (.inr hlast)

/-- A request of a request line and header lines is accepted if it is not too long. -/
lemma ofString_requestText {line : Bytes} {lines : List Bytes} {m u v : Bytes}
    (hwords : IsRequestLine line m u v) (hfree : ∀ l ∈ line :: lines, ¬ crlf <:+: l)
    (hparses : ∀ l ∈ lines, Parses l) (hlen : (requestText line lines).length < 2 ^ 31) :
    ofString (requestText line lines) = .ok
      { method := some (methodOf m)
        version := some .http11
        url := urlOf u
        isValid := true
        headers := lines.map fun l => (headerOf l).moved
        shouldClose := !lines.any fun l => (headerOf l).keepsAlive } := by
  have hshort := length_lt_of_lines hlen line List.mem_cons_self
  rw [requestText, ofString_of_lines hfree hlen, parseRequestLine_of_isRequestLine hshort hwords]
  exact (parseHeaders_eq lines _ hparses).trans (by simp)

/-- A string has only one request line and only one list of header lines. -/
lemma requestText_inj {line line' : Bytes} {lines lines' : List Bytes}
    (hfree : ∀ l ∈ line :: lines, ¬ crlf <:+: l) (hfree' : ∀ l ∈ line' :: lines', ¬ crlf <:+: l)
    (h : requestText line lines = requestText line' lines') : line = line' ∧ lines = lines' := by
  have htokens := congrArg (Search.tokens crlf) h
  rw [requestText, requestText, tokens_of_lines hfree, tokens_of_lines hfree'] at htokens
  exact List.cons.inj (List.append_cancel_right htokens)

/-- The decision about the connection, read off the headers of a request. -/
lemma shouldClose_eq_false_iff (lines : List Bytes) :
    (!lines.any fun l => (headerOf l).keepsAlive) = false ↔
      ∃ h ∈ lines.map fun l => (headerOf l).moved,
        format h.key = bytes "CONNECTION" ∧ format h.value = bytes "KEEP-ALIVE" := by
  simp [Header.keepsAlive, Header.moved]

/-- **The order of the headers and unrelated headers do not matter.** A request that is accepted
keeps the connection exactly if one of its headers has a key that is, trimmed and in upper case,
`CONNECTION` and a value that is `KEEP-ALIVE`. It consists of a request line and header lines, and
if these are permuted and mixed with unrelated ones in any way, the string that results is accepted,
with the same method, version, url and decision about the connection, if and only if it is shorter
than `2^31` bytes. (Every `std::string` has less than `2^63` bytes.)

**Proof sketch.** An accepted string is a request line and header lines, each of which `Header`
accepts. This holds of the new lines as well, so that they parse if `Split` can take them apart,
which is where the bound comes from. The decision asks whether any of the lines keeps the
connection: the order has no say in that, nor have the unrelated lines. -/
theorem reordered_iff {str : Bytes} (hmem : str.length < 2 ^ 63) {r : Request}
    (hparse : ofString str = .ok r) (hvalid : r.isValid = true) :
    (r.shouldClose = false ↔ ∃ h ∈ r.headers,
      format h.key = bytes "CONNECTION" ∧ format h.value = bytes "KEEP-ALIVE") ∧
    (∃ line lines, str = requestText line lines ∧ ∀ l ∈ line :: lines, ¬ crlf <:+: l) ∧
    ∀ line lines, str = requestText line lines → (∀ l ∈ line :: lines, ¬ crlf <:+: l) →
      ∀ added lines', (∀ l ∈ added, Unrelated l) → lines'.Perm (lines ++ added) →
        (requestText line lines').length < 2 ^ 63 →
        ((∃ r', ofString (requestText line lines') = .ok r' ∧ r'.isValid = true ∧
            r'.method = r.method ∧ r'.version = r.version ∧ r'.url = r.url ∧
            r'.shouldClose = r.shouldClose) ↔
          (requestText line lines').length < 2 ^ 31) := by
  have hlen := length_lt_of_isValid hmem hparse hvalid
  obtain ⟨line, lines, m, u, v, rfl, hfree, hwords, hheaders⟩ :=
    isRequest_of_ofString hlen hparse hvalid
  have hparses : ∀ l ∈ lines, Parses l := fun l hl =>
    parses_of_isHeaderLine (length_lt_of_lines hlen l (List.mem_cons_of_mem line hl))
      (hheaders l hl)
  change ofString (requestText line lines) = _ at hparse
  rw [ofString_requestText hwords hfree hparses hlen] at hparse
  cases hparse
  refine ⟨shouldClose_eq_false_iff lines, ⟨line, lines, rfl, hfree⟩, ?_⟩
  intro line₁ lines₁ htext hfree₁ added lines' hadded hperm hmem'
  obtain ⟨rfl, rfl⟩ := requestText_inj hfree hfree₁ htext
  constructor
  · rintro ⟨r', hparse', hvalid', -⟩
    exact length_lt_of_isValid hmem' hparse' hvalid'
  · intro hlen'
    have hmember : ∀ l ∈ lines', l ∈ lines ∨ l ∈ added := fun l hl =>
      List.mem_append.mp (hperm.mem_iff.mp hl)
    have hfree' : ∀ l ∈ line :: lines', ¬ crlf <:+: l := by
      intro l hl
      rcases List.mem_cons.mp hl with rfl | hl
      · exact hfree l List.mem_cons_self
      · rcases hmember l hl with hl | hl
        · exact hfree l (List.mem_cons_of_mem line hl)
        · exact (hadded l hl).1
    have hparses' : ∀ l ∈ lines', Parses l := fun l hl =>
      (hmember l hl).elim (hparses l) fun hl => (hadded l hl).keepsAlive.1
    -- the unrelated lines have no say in the decision, and the order has none either
    have hsame : (lines'.any fun l => (headerOf l).keepsAlive) =
        lines.any fun l => (headerOf l).keepsAlive := by
      have hnone : (added.any fun l => (headerOf l).keepsAlive) = false :=
        List.any_eq_false.mpr fun l hl => by simp [(hadded l hl).keepsAlive.2]
      rw [hperm.any_eq, List.any_append, hnone, Bool.or_false]
    refine ⟨_, ofString_requestText hwords hfree' hparses' hlen', rfl, rfl, rfl, rfl, ?_⟩
    rw [hsame]

/-- A request with one header, in front of which another one is put. -/
theorem reordered_iff_sample :
    let str := requestText (bytes "GET / HTTP/1.1") [bytes " connection: Keep-Alive"]
    let str' := requestText (bytes "GET / HTTP/1.1")
      [bytes "Host:a:80", bytes " connection: Keep-Alive"]
    ∃ r, ofString str = .ok r ∧ r.shouldClose = false ∧
      ∃ r', ofString str' = .ok r' ∧ r'.isValid = true ∧ r'.method = r.method ∧
        r'.version = r.version ∧ r'.url = r.url ∧ r'.shouldClose = r.shouldClose := by
  intro str str'
  have hparse : ofString str = .ok
      { method := some .get
        version := some .http11
        url := bytes "/index.html"
        isValid := true
        headers := [{ key := bytes " connection", value := bytes " Keep-Alive" }]
        shouldClose := false } := by
    decide +kernel
  have hunrelated : Unrelated (bytes "Host:a:80") :=
    ⟨by decide, { key := bytes "Host", value := bytes ":a80" }, by decide +kernel, rfl, by decide⟩
  obtain ⟨hkeep, -, hall⟩ := reordered_iff (by decide) hparse rfl
  refine ⟨_, hparse, hkeep.mpr ⟨_, List.mem_cons_self, by decide, by decide⟩, ?_⟩
  refine (hall _ _ rfl ?_ [bytes "Host:a:80"] _ ?_ (List.Perm.swap _ _ []) (by decide)).mpr ?_
  · decide
  · simpa using hunrelated
  · decide

/-- A header line with a value of `n` letters. -/
def letterHeader (n : ℕ) : Bytes := bytes "X" ++ colon ++ List.replicate n 97

/-- Such a line is an acceptable header line that is not about the connection, however long it
is: only the position of its colon goes into an `int`. -/
lemma unrelated_letterHeader {n : ℕ} (hn : 0 < n) : Unrelated (letterHeader n) := by
  have hvalue : List.replicate n (97 : UInt8) ≠ [] := by
    rw [ne_eq, List.replicate_eq_nil_iff]
    omega
  have hcolon : ¬ colon <:+: List.replicate n (97 : UInt8) := fun h =>
    absurd (List.eq_of_mem_replicate (Search.singleton_infix_iff.mp h)) (by decide)
  have hfields := Search.fields_of_leftmost_none (Search.leftmost_eq_none_iff.mpr hcolon)
  refine ⟨fun h => ?_, _, Header.ofLine_of_value (by decide) hvalue ?_, rfl, ?_⟩
  · have hcr : (13 : UInt8) ∈ letterHeader n := h.subset List.mem_cons_self
    rcases List.mem_append.mp hcr with hcr | hcr
    · exact absurd hcr (by decide)
    · exact absurd (List.eq_of_mem_replicate hcr) (by decide)
  · simp only [hfields, List.length_append, show (bytes "X").length = 1 from rfl,
      show colon.length = 1 from rfl]
    omega
  · exact show format (bytes "X") ≠ bytes "CONNECTION" by decide

/-- With a header line of `2^31` letters a request is not accepted, because the cursor of `Split` is
an `int`: behind that line it is negative, `substr` throws `out_of_range`, and the constructor,
which is `noexcept`, terminates the process. -/
theorem long_header_matters :
    (∃ r, ofString (requestText (bytes "GET / HTTP/1.1") []) = .ok r ∧ r.isValid = true) ∧
    Unrelated (letterHeader (2 ^ 31)) ∧
    (requestText (bytes "GET / HTTP/1.1") [letterHeader (2 ^ 31)]).length < 2 ^ 63 ∧
    ¬ ∃ r, ofString (requestText (bytes "GET / HTTP/1.1") [letterHeader (2 ^ 31)]) = .ok r ∧
      r.isValid = true := by
  have hlen : ∀ n, (requestText (bytes "GET / HTTP/1.1") [letterHeader n]).length = n + 22 := by
    intro n
    have hline : (letterHeader n).length = 2 + n := by
      rw [letterHeader, List.length_append, List.length_replicate]
      rfl
    have hcrlf : crlf.length = 2 := rfl
    simp only [requestText, List.flatMap_cons, List.flatMap_nil, List.append_nil,
      List.length_append, hline, hcrlf, show (bytes "GET / HTTP/1.1").length = 14 from rfl]
    omega
  have h := hlen (2 ^ 31)
  refine ⟨?_, unrelated_letterHeader (by decide), by omega, ?_⟩
  · exact ⟨{ method := some .get, version := some .http11, url := bytes "/index.html",
             isValid := true }, by decide +kernel, rfl⟩
  · rintro ⟨r, hparse, hvalid⟩
    have := length_lt_of_isValid (by omega) hparse hvalid
    omega

end Request

end Icee.Http
