import Icee.Http.Utils

set_option relaxedAutoImplicit false
set_option autoImplicit false

/-!
# Headers and requests

`src/http/header.cc` and `src/http/request.cc`: a request is built from the bytes of one frame,
line by line, and remembers whether it is valid, why not, and whether the connection should be
closed after the answer.

## Main definitions

* `Icee.Http.Header`, `Icee.Http.Header.ofLine` — header lines.
* `Icee.Http.Request`, `Icee.Http.Request.ofString` — the parser.

## Main results

* `Icee.Http.Request.ofString_ok` — below `2^31` bytes the parser returns, whatever the bytes are.
* `Icee.Http.Request.ofString_error` — from there on it fails on every frame.
* `Icee.Http.Request.method_of_valid` — a valid request has one of the two supported methods.

## Design

`method_` and `version_` have no initial value; they are options here, and reading an unset one
is `Fault.indeterminateRead`.
-/

namespace Icee.Http

/-- `Header`. -/
structure Header where
  key : Bytes := []
  value : Bytes := []
  valid : Bool := true
  deriving DecidableEq

namespace Header

/-- `Header::Header(key, value)`, which marks the header as not valid. -/
def make (key value : Bytes) : Header := { key, value, valid := false }

/-- `Header::Header(header_line)`. -/
def ofLine (headerLine : Bytes) : Except Fault Header := do
  match ← split headerLine colon with
  | key :: token :: tokens =>
    let value ← if (token :: tokens).length = 1 then pure token else join (token :: tokens) colon
    return { key, value }
  | _ => return { valid := false }

/-- `Header::Header(Header &&)`, which does not carry the validity over. -/
def moved (h : Header) : Header := { key := h.key, value := h.value }

/-- `Header::SetValue`. -/
def setValue (h : Header) (newValue : Bytes) : Header := { h with value := newValue }

/-- `Header::Serialize`. -/
def serialize (h : Header) : Bytes := h.key ++ colon ++ h.value ++ crlf

end Header

/-- `Request`. -/
structure Request where
  method : Option Method := none
  version : Option Version := none
  url : Bytes := []
  headers : List Header := []
  isValid : Bool := false
  shouldClose : Bool := true
  invalidReason : Bytes := []
  deriving DecidableEq

namespace Request

/-- `Request::CheckConnectionState`. -/
def checkConnectionState (r : Request) (header : Header) : Request :=
  if format header.key = format headerConnection then
    if format header.value = format connectionKeepAlive then
      { r with shouldClose := false }
    else r
  else r

/-- `Request::ParseRequestLine`: the request and the result after the call. -/
def parseRequestLine (r : Request) (requestLine : Bytes) : Except Fault (Request × Bool) := do
  match ← split requestLine space with
  | [methodStr, urlStr, versionStr] =>
    let r := { r with method := some (toMethod methodStr) }
    if toMethod methodStr = .unsupported then
      return ({ r with invalidReason := bytes "Invalid Method[unsupported method]" }, false)
    let r := { r with version := some (toVersion versionStr) }
    if toVersion versionStr = .unsupported then
      return ({ r with invalidReason := bytes "Invalid Version[unsupported version]" }, false)
    let url :=
      if urlStr = [] ∨ urlStr.getLast? = some 47 then urlStr ++ defaultRoute else urlStr
    return ({ r with url }, true)
  | _ =>
    let invalidReason := bytes "The first request is invalid:[" ++ requestLine ++ bytes "]"
    return ({ r with invalidReason }, false)

/-- The loop over the header lines, and the end of the constructor. -/
def parseHeaders (r : Request) : List Bytes → Except Fault Request
  | [] => .ok { r with isValid := true }
  | line :: lines => do
    let header ← Header.ofLine line
    if ¬ header.valid then
      return { r with invalidReason := bytes "Fail to parse header line:" ++ line }
    let r := r.checkConnectionState header
    parseHeaders { r with headers := r.headers ++ [header.moved] } lines

/-- `Request::Request(request_str)`. -/
def ofString (requestStr : Bytes) : Except Fault Request := do
  let tokens ← split requestStr crlf
  if tokens.length < 2 ∨ tokens.getLast? ≠ some [] then
    return { invalidReason := bytes "Request format wrong." }
  if tokens.getLast? ≠ some [] then
    return { invalidReason := bytes "End of request's token should be empty" }
  match tokens.dropLast with
  | [] => throw .outOfRangeElement
  | line :: lines =>
    let (r, requestParseSuccess) ← parseRequestLine {} line
    if ¬ requestParseSuccess then
      return { r with invalidReason := bytes "Request line error" }
    r.parseHeaders lines

/-- `Request::GetMethod`. -/
def getMethod (r : Request) : Except Fault Method :=
  match r.method with
  | none => .error .indeterminateRead
  | some method => .ok method

end Request

/-! ## The parser returns -/

/-- A header line of less than `2^31` bytes. -/
lemma Header.ofLine_ok {line : Bytes} (h : line.length < 2 ^ 31) :
    ∃ header, Header.ofLine line = .ok header := by
  obtain ⟨tokens, htokens, -⟩ := split_ok (show colon ≠ [] by decide) h
  unfold Header.ofLine
  rw [htokens]
  rcases tokens with _ | ⟨key, _ | ⟨token, _ | ⟨token', tokens⟩⟩⟩
  · exact ⟨_, rfl⟩
  · exact ⟨_, rfl⟩
  · exact ⟨_, rfl⟩
  · exact ⟨_, rfl⟩

namespace Request

variable {r : Request}

/-- A request line of less than `2^31` bytes. -/
lemma parseRequestLine_ok {line : Bytes} (h : line.length < 2 ^ 31) (r : Request) :
    ∃ result, r.parseRequestLine line = .ok result := by
  obtain ⟨tokens, htokens, -⟩ := split_ok (show space ≠ [] by decide) h
  unfold parseRequestLine
  rw [htokens]
  rcases tokens with _ | ⟨t₀, _ | ⟨t₁, _ | ⟨t₂, _ | ⟨t₃, tokens⟩⟩⟩⟩
  · exact ⟨_, rfl⟩
  · exact ⟨_, rfl⟩
  · exact ⟨_, rfl⟩
  · by_cases hm : toMethod t₀ = .unsupported
    · exact ⟨_, if_pos hm⟩
    · by_cases hv : toVersion t₂ = .unsupported
      · exact ⟨_, (if_neg hm).trans (if_pos hv)⟩
      · exact ⟨_, (if_neg hm).trans (if_neg hv)⟩
  · exact ⟨_, rfl⟩

/-- The request line alone does not make the request valid, and a line that is accepted has set
a supported method. -/
lemma parseRequestLine_spec {line : Bytes} {r' : Request} {success : Bool}
    (h : r.parseRequestLine line = .ok (r', success)) :
    r'.isValid = r.isValid ∧
      (success = true → r'.method = some .get ∨ r'.method = some .head) := by
  obtain ⟨tokens, -, h⟩ := exists_of_bind_eq_ok h
  rcases tokens with _ | ⟨t₀, _ | ⟨t₁, _ | ⟨t₂, _ | ⟨t₃, tokens⟩⟩⟩⟩
  · cases h; exact ⟨rfl, nofun⟩
  · cases h; exact ⟨rfl, nofun⟩
  · cases h; exact ⟨rfl, nofun⟩
  · by_cases hm : toMethod t₀ = .unsupported
    · cases (if_pos hm).symm.trans h; exact ⟨rfl, nofun⟩
    · by_cases hv : toVersion t₂ = .unsupported
      · cases (if_pos hv).symm.trans ((if_neg hm).symm.trans h); exact ⟨rfl, nofun⟩
      · cases (if_neg hv).symm.trans ((if_neg hm).symm.trans h)
        refine ⟨rfl, fun _ => ?_⟩
        cases hmethod : toMethod t₀ with
        | get => exact .inl rfl
        | head => exact .inr rfl
        | unsupported => exact absurd hmethod hm
  · cases h; exact ⟨rfl, nofun⟩

/-- Header lines of less than `2^31` bytes each. -/
lemma parseHeaders_ok (lines : List Bytes) : ∀ r : Request,
    (∀ line ∈ lines, line.length < 2 ^ 31) → ∃ r', r.parseHeaders lines = .ok r' := by
  induction lines with
  | nil => intro r _; exact ⟨_, rfl⟩
  | cons line lines ih =>
    intro r hlines
    obtain ⟨header, hheader⟩ := Header.ofLine_ok (hlines line (by simp))
    simp only [parseHeaders, hheader, bind, Except.bind]
    split
    · exact ⟨_, rfl⟩
    · exact ih _ fun l hl => hlines l (by simp [hl])

/-- Checking a header changes nothing but the decision about the connection. -/
lemma checkConnectionState_eq (header : Header) :
    ∃ close, r.checkConnectionState header = { r with shouldClose := close } := by
  unfold checkConnectionState
  split
  · split
    · exact ⟨false, rfl⟩
    · exact ⟨r.shouldClose, rfl⟩
  · exact ⟨r.shouldClose, rfl⟩

/-- Checking a header leaves the method alone. -/
@[simp] lemma checkConnectionState_method (header : Header) :
    (r.checkConnectionState header).method = r.method := by
  obtain ⟨close, hclose⟩ := r.checkConnectionState_eq header
  rw [hclose]

/-- The header lines leave the method alone. -/
lemma method_of_parseHeaders (lines : List Bytes) : ∀ {r r' : Request},
    r.parseHeaders lines = .ok r' → r'.method = r.method := by
  induction lines with
  | nil => intro r r' h; cases h; rfl
  | cons line lines ih =>
    intro r r' h
    obtain ⟨header, -, h⟩ := exists_of_bind_eq_ok h
    split at h
    · cases h; rfl
    · rw [ih h]
      exact checkConnectionState_method header

/-- **The parser returns** on every string of less than `2^31` bytes. -/
lemma ofString_ok {str : Bytes} (h : str.length < 2 ^ 31) : ∃ r, ofString str = .ok r := by
  obtain ⟨tokens, htokens, hlen⟩ := split_ok (show crlf ≠ [] by decide) h
  unfold ofString
  simp only [htokens, bind, Except.bind]
  by_cases hformat : tokens.length < 2 ∨ tokens.getLast? ≠ some []
  · rw [if_pos hformat]
    exact ⟨_, rfl⟩
  · rw [if_neg hformat, if_neg (fun hlast => hformat (.inr hlast))]
    have hdrop : tokens.dropLast.length = tokens.length - 1 := List.length_dropLast
    have hlines : ∀ line ∈ tokens.dropLast, line.length < 2 ^ 31 := fun line hl =>
      Nat.lt_of_le_of_lt (hlen line (List.dropLast_subset _ hl)) h
    cases hlist : tokens.dropLast with
    | nil =>
      rw [hlist, List.length_nil] at hdrop
      exact absurd (.inl (by omega)) hformat
    | cons line lines =>
      rw [hlist] at hlines
      obtain ⟨⟨r, success⟩, hr⟩ := parseRequestLine_ok (hlines line (by simp)) {}
      simp only [hr]
      cases success with
      | false => exact ⟨_, rfl⟩
      | true => exact parseHeaders_ok lines r fun l hl => hlines l (by simp [hl])

/-- The parser fails on a frame that `Split` cannot cross. -/
lemma ofString_error {str : Bytes} (hstr : 2 ^ 31 ≤ str.length) (hmem : str.length < 2 ^ 63)
    (hend : crlf <:+ str) : ∃ fault, ofString str = .error fault := by
  obtain ⟨fault, hfault⟩ := split_error hstr hmem hend
  refine ⟨fault, ?_⟩
  unfold ofString
  rw [hfault]
  rfl

/-- **A valid request** has one of the two supported methods. -/
lemma method_of_valid {str : Bytes} (h : ofString str = .ok r) (hvalid : r.isValid = true) :
    r.method = some .get ∨ r.method = some .head := by
  obtain ⟨tokens, -, h⟩ := exists_of_bind_eq_ok h
  split at h
  · cases h; cases hvalid
  split at h
  · cases h; cases hvalid
  cases hlist : tokens.dropLast with
  | nil => rw [hlist] at h; cases h
  | cons line lines =>
    rw [hlist] at h
    obtain ⟨⟨r₁, success⟩, hline, h⟩ := exists_of_bind_eq_ok h
    obtain ⟨hinvalid, hmethod⟩ := parseRequestLine_spec hline
    cases success with
    | false =>
      cases h
      rw [show r₁.isValid = false from hinvalid] at hvalid
      cases hvalid
    | true =>
      rw [method_of_parseHeaders lines h]
      exact hmethod rfl

end Request

end Icee.Http
