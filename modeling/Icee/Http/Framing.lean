import Icee.Core.Connection
import Icee.Http.Grammar

set_option relaxedAutoImplicit false
set_option autoImplicit false

/-!
# Frames and requests

The handler cuts frames off the read buffer at the first `CRLFCRLF`, and the parser cuts each frame
again at every `CRLF`. This file shows that the two agree about where a request ends.

## Main results

* `Icee.Http.Request.parseHeaders_reason` — why header lines are not accepted.
* `Icee.Http.frame_is_request` — a frame is rejected only for one of its lines.
-/

namespace Icee.Http

/-- The reason for rejecting a request of a wrong format. -/
def requestFormatWrong : Bytes := bytes "Request format wrong."

/-- The reason for rejecting a request without a blank line at its end. -/
def endOfRequestNotEmpty : Bytes := bytes "End of request's token should be empty"

/-- The reason for rejecting a request with a wrong first line. -/
def requestLineError : Bytes := bytes "Request line error"

/-- The reason for rejecting a request with a wrong header line. -/
def failToParseHeaderLine (line : Bytes) : Bytes := bytes "Fail to parse header line:" ++ line

/-- A rejected header line is not taken for one of the reasons about the format. -/
lemma failToParseHeaderLine_ne (line : Bytes) :
    failToParseHeaderLine line ≠ requestFormatWrong ∧
      failToParseHeaderLine line ≠ endOfRequestNotEmpty :=
  ⟨fun h => absurd (List.cons.inj h).1 (by decide), fun h => absurd (List.cons.inj h).1 (by decide)⟩

namespace Request

/-- **Why header lines are not accepted**: either they are all accepted, or the first one that is
not a header line is given as the reason. -/
lemma parseHeaders_reason (lines : List Bytes) : ∀ {r r' : Request},
    (∀ l ∈ lines, l.length < 2 ^ 31) → r.isValid = false → r.parseHeaders lines = .ok r' →
      (r'.isValid = true ∧ r'.invalidReason = r.invalidReason ∧ ∀ l ∈ lines, IsHeaderLine l) ∨
      (r'.isValid = false ∧
        ∃ l ∈ lines, ¬ IsHeaderLine l ∧ r'.invalidReason = failToParseHeaderLine l) := by
  induction lines with
  | nil =>
    intro r r' _ _ hparse
    cases hparse
    exact .inl ⟨rfl, rfl, by simp⟩
  | cons line lines ih =>
    intro r r' hlen hinvalid hparse
    by_cases hline : IsHeaderLine line
    · obtain ⟨header, close, -, hcons⟩ := parseHeaders_cons (hlen line (by simp)) hline r lines
      rw [hcons] at hparse
      rcases ih (fun l hl => hlen l (by simp [hl])) (by exact hinvalid) hparse with
        ⟨hvalid', hreason, hlines⟩ | ⟨hinvalid', l, hl, hno, hreason⟩
      · exact .inl ⟨hvalid', hreason, by simpa using ⟨hline, hlines⟩⟩
      · exact .inr ⟨hinvalid', l, List.mem_cons_of_mem line hl, hno, hreason⟩
    · rw [parseHeaders_cons_of_not (hlen line (by simp)) hline] at hparse
      cases hparse
      exact .inr ⟨hinvalid, line, by simp, hline, rfl⟩

/-- **Why a list of lines and a blank line is not accepted.** -/
lemma ofString_reason {line : Bytes} {lines : List Bytes}
    (hfree : ∀ l ∈ line :: lines, ¬ crlf <:+: l)
    (hlen : ((line :: lines).flatMap (· ++ crlf) ++ crlf).length < 2 ^ 31) :
    ∃ r, ofString ((line :: lines).flatMap (· ++ crlf) ++ crlf) = .ok r ∧
      ((r.isValid = true ∧ r.invalidReason = [] ∧
          (∃ m u v, IsRequestLine line m u v) ∧ ∀ l ∈ lines, IsHeaderLine l) ∨
        (r.isValid = false ∧ r.invalidReason = requestLineError ∧
          ¬ ∃ m u v, IsRequestLine line m u v) ∨
        (r.isValid = false ∧
          ∃ l ∈ lines, ¬ IsHeaderLine l ∧ r.invalidReason = failToParseHeaderLine l)) := by
  have hshort := length_lt_of_lines hlen
  have hline := hshort line List.mem_cons_self
  have hlines : ∀ l ∈ lines, l.length < 2 ^ 31 := fun l hl =>
    hshort l (List.mem_cons_of_mem line hl)
  rw [ofString_of_lines hfree hlen]
  by_cases hwords : ∃ m u v, IsRequestLine line m u v
  · obtain ⟨m, u, v, hwords⟩ := hwords
    rw [parseRequestLine_of_isRequestLine hline hwords]
    obtain ⟨r, hr⟩ := parseHeaders_ok lines { ({} : Request) with
      method := some (methodOf m), version := some .http11, url := urlOf u } hlines
    refine ⟨r, hr, ?_⟩
    rcases parseHeaders_reason lines hlines rfl hr with ⟨hvalid, hreason, hheaders⟩ | hno
    · exact .inl ⟨hvalid, hreason, ⟨m, u, v, hwords⟩, hheaders⟩
    · exact .inr (.inr hno)
  · obtain ⟨⟨r, success⟩, hr⟩ := parseRequestLine_ok hline {}
    rw [hr]
    cases success with
    | false => exact ⟨_, rfl, .inr (.inl ⟨(parseRequestLine_spec hr).1, rfl, hwords⟩)⟩
    | true => exact absurd (isRequestLine_of_parseRequestLine hline hr) hwords

end Request

/-- **Framing and parsing agree.** A frame that is popped from a read buffer, shorter than `2^31`
bytes, is split into a request line, header lines none of which is empty, and one empty token.
The parser returns on it and does not find fault with its format; and it rejects the frame exactly
if its first line is not a request line or one of the others is not a header line, which is what it
says.

**Proof sketch.** The frame is the part of the buffer up to the first delimiter, so its fields end
with one that is empty and no other behind the first is (`fields_of_cut`). Written out as a line,
header lines and a delimiter, it has a reason of rejection that says which line is at fault
(`ofString_reason`), and this reason is neither of the two that are about the format. -/
theorem frame_is_request {readBuffer frame rest : Bytes}
    (hpop : Buffer.findAndPopTill readBuffer crlfCrlf = (some frame, rest))
    (hlen : frame.length < 2 ^ 31) :
    ∃ line lines, split frame crlf = .ok (line :: lines ++ [[]]) ∧ (∀ l ∈ lines, l ≠ []) ∧
      ∃ r, Request.ofString frame = .ok r ∧
        r.invalidReason ≠ requestFormatWrong ∧ r.invalidReason ≠ endOfRequestNotEmpty ∧
        (r.isValid = false ↔
          (¬ ∃ m u v, IsRequestLine line m u v) ∨ ∃ l ∈ lines, ¬ IsHeaderLine l) ∧
        (r.isValid = false → r.invalidReason = requestLineError ∨
          ∃ l ∈ lines, ¬ IsHeaderLine l ∧ r.invalidReason = failToParseHeaderLine l) := by
  have ht : crlf ≠ [] := by decide
  have hcut : Search.cut (crlf ++ crlf) readBuffer = some (frame, rest) :=
    Buffer.cut_of_findAndPopTill hpop
  obtain ⟨line, lines, hfields, hne⟩ :=
    Search.fields_of_cut ht (Search.unbordered_pair (by decide)) hcut
  obtain ⟨htext, hfree, -⟩ := Search.fields_spec ht frame
  rw [hfields] at htext hfree
  refine ⟨line, lines, ?_, hne, ?_⟩
  · rw [split_eq ht (by omega), Search.tokens, hfields, if_pos rfl, List.append_nil]
  · have hframe : (line :: lines).flatMap (· ++ crlf) ++ crlf = frame := by
      rw [← htext, List.append_nil, List.flatMap_append]
      rfl
    rw [← hframe] at hlen ⊢
    obtain ⟨r, hr, hreason⟩ :=
      Request.ofString_reason (fun l hl => hfree l (List.mem_append_left _ hl)) hlen
    refine ⟨r, hr, ?_⟩
    rcases hreason with ⟨hvalid, hreason, hline, hlines⟩ | ⟨hvalid, hreason, hline⟩ |
      ⟨hvalid, l, hl, hno, hreason⟩
    · rw [hvalid, hreason]
      refine ⟨by decide, by decide, iff_of_false (by decide) ?_, by simp⟩
      rintro (hbad | ⟨l, hl, hbad⟩)
      · exact hbad hline
      · exact hbad (hlines l hl)
    · rw [hreason]
      exact ⟨by decide, by decide, iff_of_true hvalid (.inl hline), fun _ => .inl rfl⟩
    · rw [hreason]
      exact ⟨(failToParseHeaderLine_ne l).1, (failToParseHeaderLine_ne l).2,
        iff_of_true hvalid (.inr ⟨l, hl, hno⟩), fun _ => .inr ⟨l, hl, hno, rfl⟩⟩

/-- A frame with stray line feeds and carriage returns around its delimiters. -/
def strayFrame : Bytes := bytes "\r\nGET / HTTP/1.1\r\n\n\r\r\n\r\n"

/-- It is cut off and parsed like any other frame. -/
theorem frame_is_request_stray :
    Buffer.findAndPopTill (strayFrame ++ bytes "\n") crlfCrlf = (some strayFrame, bytes "\n") ∧
    ∃ line lines, split strayFrame crlf = .ok (line :: lines ++ [[]]) ∧ (∀ l ∈ lines, l ≠ []) ∧
      ∃ r, Request.ofString strayFrame = .ok r ∧ r.invalidReason ≠ requestFormatWrong := by
  have hpop : Buffer.findAndPopTill (strayFrame ++ bytes "\n") crlfCrlf =
      (some strayFrame, bytes "\n") := by decide +kernel
  obtain ⟨line, lines, hsplit, hne, r, hr, hreason, -⟩ := frame_is_request hpop (by decide)
  exact ⟨hpop, line, lines, hsplit, hne, r, hr, hreason⟩

end Icee.Http
