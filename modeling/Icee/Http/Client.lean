import Icee.Http.Response

set_option relaxedAutoImplicit false
set_option autoImplicit false

/-!
# What a client reads in an answer

A client that follows the protocol takes the bytes up to the first blank line as the head, reads
its lines, and finds in them what the server announces. This file says what such a client finds
in the answers of the server.

## Main definitions

* `Icee.Http.Client.head`, `Icee.Http.Client.body` — an answer, cut at its first blank line.
* `Icee.Http.Client.lines`, `Icee.Http.Client.statusLine`, `Icee.Http.Client.field` — the head.
* `Icee.Http.Client.decimal` — the value of a decimal number.

## Main results

* `Icee.Http.Client.head_answer`, `Icee.Http.Client.body_answer`, `Icee.Http.Client.lines_answer`
  — an answer of the server falls apart where it was put together.
* `Icee.Http.Client.connection_answer`, `Icee.Http.Client.contentLength_answer` — what it says.
-/

namespace Icee.Http.Client

/-- The answer up to and including its first blank line. -/
def head (answer : Bytes) : Bytes := ((Search.cut crlfCrlf answer).map Prod.fst).getD []

/-- The answer behind its first blank line. -/
def body (answer : Bytes) : Bytes := ((Search.cut crlfCrlf answer).map Prod.snd).getD []

/-- The lines of the head, without their ends. -/
def lines (answer : Bytes) : List Bytes :=
  (Search.frames crlf (head answer)).map fun line => line.take (line.length - crlf.length)

/-- The status line. -/
def statusLine (answer : Bytes) : Option Bytes := (lines answer).head?

/-- The value of the first header with the given name. -/
def field (name answer : Bytes) : Option Bytes :=
  (lines answer).findSome? fun line =>
    if name ++ colon <+: line then some (line.drop (name ++ colon).length) else none

/-- The value of a decimal number. -/
def decimal (value : Bytes) : Option ℕ :=
  if value ≠ [] ∧ ∀ c ∈ value, 48 ≤ c ∧ c ≤ 57 then
    some (Nat.ofDigits 10 (value.reverse.map fun c => c.toNat - 48))
  else none

/-! ## Numbers -/

/-- A decimal digit as a byte. -/
lemma digit_byte : ∀ d < 10, 48 ≤ 48 + d.toUInt8 ∧ 48 + d.toUInt8 ≤ 57 ∧
    (48 + d.toUInt8).toNat - 48 = d := by
  decide

/-- The bytes of a number are decimal digits. -/
lemma digits_toDecimal {n : ℕ} {c : UInt8} (h : c ∈ toDecimal n) : 48 ≤ c ∧ c ≤ 57 := by
  unfold toDecimal at h
  split at h
  · rw [List.mem_singleton.mp h]
    decide
  · obtain ⟨d, hd, rfl⟩ := List.mem_map.mp h
    have := digit_byte d (Nat.digits_lt_base (by decide) (List.mem_reverse.mp hd))
    exact ⟨this.1, this.2.1⟩

/-- **Numbers are read as they are written.** -/
lemma decimal_toDecimal (n : ℕ) : decimal (toDecimal n) = some n := by
  have hne : toDecimal n ≠ [] := by
    unfold toDecimal
    split
    · exact List.cons_ne_nil _ _
    · next h => simpa [Nat.digits_eq_nil_iff_eq_zero] using h
  rw [decimal, if_pos ⟨hne, fun c => digits_toDecimal⟩]
  unfold toDecimal
  split
  · next h => rw [h]; rfl
  · have hback : ((Nat.digits 10 n).map fun d => (48 + d.toUInt8).toNat - 48) =
        Nat.digits 10 n := by
      conv_rhs => rw [← List.map_id (Nat.digits 10 n)]
      exact List.map_congr_left fun d hd => (digit_byte d (Nat.digits_lt_base (by decide) hd)).2.2
    rw [← List.map_reverse, List.reverse_reverse, List.map_map]
    exact congrArg some ((congrArg (Nat.ofDigits 10) hback).trans (Nat.ofDigits_digits 10 n))

/-! ## The answers of the server -/

variable {statusCode : Bytes} {mime : Option Bytes}

/-- The file types do not contain line ends. -/
lemma cr_notMem_mimeOf (path : Bytes) : ∀ m ∈ mimeOf path, 13 ∉ m := by
  intro m hm
  obtain ⟨index, -, rfl⟩ := Option.map_eq_some_iff.mp hm
  cases toExtension (path.drop (index + 1)) <;> decide

section Answer

variable (hcode : 13 ∉ statusCode) (hmime : ∀ m ∈ mime, 13 ∉ m)

include hcode hmime in
/-- The lines of a head are not empty and do not contain line ends. -/
lemma answerLines_clean (close : Bool) (size : ℕ) :
    ∀ l ∈ answerLines statusCode close size mime, l ≠ [] ∧ 13 ∉ l := by
  have hdecimal : (13 : UInt8) ∉ toDecimal size := fun h =>
    absurd (digits_toDecimal h).1 (by decide)
  have hconnection : (13 : UInt8) ∉ (if close then connectionClose else connectionKeepAlive) := by
    cases close <;> decide
  have happend : ∀ {u v : Bytes}, u ≠ [] → 13 ∉ u → 13 ∉ v → u ++ v ≠ [] ∧ 13 ∉ u ++ v := by
    intro u v hne hu hv
    exact ⟨by simp [hne], by simp [hu, hv]⟩
  intro l hl
  simp only [answerLines, List.cons_append, List.nil_append, List.mem_cons, Option.mem_toList,
    Option.map_eq_some_iff] at hl
  rcases hl with rfl | rfl | rfl | rfl | ⟨m, hm, rfl⟩
  · exact happend (by decide) (by decide) hcode
  · decide
  · exact happend (by decide) (by decide) hconnection
  · exact happend (by decide) (by decide) hdecimal
  · exact happend (by decide) (by decide) (hmime m hm)

include hcode hmime in
/-- An answer of the server is cut behind its head. -/
lemma cut_answer (close : Bool) (size : ℕ) (content : Bytes) :
    Search.cut crlfCrlf (answerHead statusCode close size mime ++ content) =
      some (answerHead statusCode close size mime, content) :=
  Search.cut_head (by decide) (List.cons_ne_nil _ _) (answerLines_clean hcode hmime close size)
    content

include hcode hmime in
/-- The head of an answer. -/
lemma head_answer (close : Bool) (size : ℕ) (content : Bytes) :
    head (answerHead statusCode close size mime ++ content) =
      answerHead statusCode close size mime := by
  rw [head, cut_answer hcode hmime]
  rfl

include hcode hmime in
/-- The body of an answer. -/
lemma body_answer (close : Bool) (size : ℕ) (content : Bytes) :
    body (answerHead statusCode close size mime ++ content) = content := by
  rw [body, cut_answer hcode hmime]
  rfl

include hcode hmime in
/-- The lines of an answer. -/
lemma lines_answer (close : Bool) (size : ℕ) (content : Bytes) :
    lines (answerHead statusCode close size mime ++ content) =
      answerLines statusCode close size mime ++ [[]] := by
  have hframes : Search.frames crlf (answerHead statusCode close size mime) =
      (answerLines statusCode close size mime).map (· ++ [13, 10]) ++ [[13, 10]] :=
    Search.frames_head fun l hl => (answerLines_clean hcode hmime close size l hl).2
  have hstrip : ∀ l : Bytes, (l ++ [13, 10]).take ((l ++ [13, 10]).length - crlf.length) = l := by
    intro l
    simp [show crlf.length = 2 from rfl]
  rw [lines, head_answer hcode hmime, hframes, List.map_append, List.map_map]
  refine congrArg₂ (· ++ ·) ?_ rfl
  conv_rhs => rw [← List.map_id (answerLines statusCode close size mime)]
  exact List.map_congr_left fun l _ => hstrip l

include hcode hmime in
/-- **The status** an answer gives. -/
lemma statusLine_answer (close : Bool) (size : ℕ) (content : Bytes) :
    statusLine (answerHead statusCode close size mime ++ content) =
      some (httpVersion ++ space ++ statusCode) := by
  rw [statusLine, lines_answer hcode hmime]
  rfl

include hcode hmime in
/-- **What an answer announces** about the connection. -/
lemma connection_answer (close : Bool) (size : ℕ) (content : Bytes) :
    field headerConnection (answerHead statusCode close size mime ++ content) =
      some (if close then connectionClose else connectionKeepAlive) := by
  rw [field, lines_answer hcode hmime]
  rfl

include hcode hmime in
/-- **What an answer announces** about the length of its body. -/
lemma contentLength_answer (close : Bool) (size : ℕ) (content : Bytes) :
    field headerContentLength (answerHead statusCode close size mime ++ content) =
      some (toDecimal size) := by
  rw [field, lines_answer hcode hmime]
  rfl

end Answer

end Icee.Http.Client
