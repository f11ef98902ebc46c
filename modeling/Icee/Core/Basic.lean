import Mathlib

set_option relaxedAutoImplicit false
set_option autoImplicit false

/-!
# Bytes, machine integers and the ways a call can go wrong

The C++ of the server works on byte strings (`std::string`, `std::vector<unsigned char>`), on
`int` and `size_t`, and may leave a function by a failing `assert`, by an exception nobody
catches, or by touching memory that is not there. This file fixes the types that the rest of the
development uses for these.

## Main definitions

* `Icee.Bytes` — byte strings; `Icee.bytes` turns a source literal into one.
* `Icee.sizeOfInt` — the conversion of an `int` to `size_t`.
* `Icee.Fault` — what stops a call before it returns.

## Design

`int` is Lean's `Int32`, whose arithmetic wraps modulo `2^32`; `size_t` values are natural
numbers, since every one that occurs is the length of something in memory. A narrowing
`int x = n` of a `size_t` is `Int32.ofNat n`.
-/

namespace Icee

/-- A byte string, `std::string` or `std::vector<unsigned char>`. -/
abbrev Bytes := List UInt8

/-- The bytes of a source literal (all literals of the source are ASCII). -/
def bytes (s : String) : Bytes := s.toList.map fun c => c.toNat.toUInt8

/-- `static_cast<size_t>(i)`: sign extension to 64 bits, read as unsigned. -/
def sizeOfInt (i : Int32) : ℕ := (i.toInt % 2 ^ 64).toNat

/-- A count below `2^31` survives being stored in an `int`. -/
lemma sizeOfInt_ofNat {n : ℕ} (h : n < 2 ^ 31) : sizeOfInt (Int32.ofNat n) = n := by
  unfold sizeOfInt
  rw [Int32.toInt_ofNat_of_lt h]
  omega

/-- An `int` read as a `size_t` is below `2^31` or, if it is negative, out of all proportion. -/
lemma sizeOfInt_lt_or_le (i : Int32) : sizeOfInt i < 2 ^ 31 ∨ 2 ^ 63 ≤ sizeOfInt i := by
  have hlt := i.toInt_lt
  have hle := i.le_toInt
  unfold sizeOfInt
  omega

/-- The assertions of the modelled functions, named after the function that makes them. -/
inductive Assertion
  /-- `assert(dummy_header_->next_ != dummy_tailer_.get())` in `Cache::EvitOne`. -/
  | evitOneListNotEmpty
  /-- `assert(iter != mapping_.end())` in `Cache::EvitOne`. -/
  | evitOneMapped
  /-- `assert(!tokens.empty())` in `Join`. -/
  | joinTokensNotEmpty
  /-- `assert(IsFileExist(file_path))` in `FileSize`. -/
  | fileSizeFileExists
  /-- `assert(i_stream.is_open())` in `LoadFile`. -/
  | loadFileIsOpen
  /-- `assert(url.has_value())` in `Response::Make200Response`. -/
  | make200ResponseHasUrl
  deriving DecidableEq, Repr

/-- What stops a call before it returns. -/
inductive Fault
  /-- A failing `assert` aborts the process. -/
  | assertFailed (which : Assertion)
  /-- A null or dangling pointer is dereferenced. -/
  | invalidPointer
  /-- `tokens[i]` with `i` outside the vector. -/
  | outOfRangeElement
  /-- An object is read that was never given a value. -/
  | indeterminateRead
  /-- `std::out_of_range`, thrown by `std::string::substr`. -/
  | outOfRangeException
  /-- `std::filesystem::filesystem_error`, thrown by `std::filesystem::file_size`. -/
  | filesystemError
  /-- A loop of the source has not stopped within the iterations it can need. -/
  | endless
  deriving DecidableEq, Repr

/-- A computation that returns something returns. -/
lemma eq_ok_of_toOption {ε α : Type} {x : Except ε α} {a : α} (h : x.toOption = some a) :
    x = .ok a := by
  cases x with
  | error e => cases h
  | ok b => rw [Option.some.inj h]

/-- If two computations in turn return, each of them does. -/
lemma exists_of_bind_eq_ok {ε α β : Type} {x : Except ε α} {f : α → Except ε β} {r : β}
    (h : x >>= f = .ok r) : ∃ y, x = .ok y ∧ f y = .ok r := by
  cases x with
  | error e => cases h
  | ok y => exact ⟨y, rfl, h⟩

end Icee
