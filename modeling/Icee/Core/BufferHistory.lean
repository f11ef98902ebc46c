import Icee.Core.Connection

set_option relaxedAutoImplicit false
set_option autoImplicit false

/-!
# The history of a buffer

A buffer is filled by any of the overloads of `Buffer::Append` and emptied by
`Buffer::FindAndPopTill`, always with the same target. This file is about what comes out of it,
however the calls are interleaved.

## Main definitions

* `Icee.Buffer.Call` — the calls; `Icee.Buffer.run` performs some of them on a fresh buffer.
* `Icee.Buffer.Exhausted` — a further `FindAndPopTill` would find nothing.

## Main results

* `Icee.Buffer.Inv.call` — the invariant of a call.
* `Icee.Buffer.run_spec` — no byte is lost, and the frames do not depend on when they are popped.
-/

namespace Icee.Buffer

/-- `Append(const unsigned char *, size_t)`. -/
def appendRaw (buf newCharData : Bytes) (dataSize : ℕ) : Bytes :=
  append buf (newCharData.take dataSize)

/-- `Append(const std::string &)`. -/
def appendString (buf newStrData : Bytes) : Bytes := appendRaw buf newStrData newStrData.length

/-- `Append(std::vector<unsigned char> &&)`. -/
def appendVector (buf otherBuffer : Bytes) : Bytes := append buf otherBuffer

/-- A call of a method of the buffer. -/
inductive Call
  | appendRaw (newCharData : Bytes) (dataSize : ℕ) (size : dataSize ≤ newCharData.length)
  | appendString (newStrData : Bytes)
  | appendVector (otherBuffer : Bytes)
  | findAndPopTill

/-- The bytes that a call hands to the buffer. -/
def Call.data : Call → Bytes
  | .appendRaw newCharData dataSize _ => newCharData.take dataSize
  | .appendString newStrData => newStrData
  | .appendVector otherBuffer => otherBuffer
  | .findAndPopTill => []

/-- A buffer and everything that has been popped from it. -/
structure History where
  popped : List Bytes
  buf : Bytes
  deriving DecidableEq

variable (target : Bytes)

/-- One call. -/
def History.call (h : History) : Call → History
  | .appendRaw newCharData dataSize _ => { h with buf := appendRaw h.buf newCharData dataSize }
  | .appendString newStrData => { h with buf := appendString h.buf newStrData }
  | .appendVector otherBuffer => { h with buf := appendVector h.buf otherBuffer }
  | .findAndPopTill => match findAndPopTill h.buf target with
    | (none, buf) => { h with buf }
    | (some frame, buf) => { popped := h.popped ++ [frame], buf }

/-- Some calls on a fresh buffer. -/
def run (calls : List Call) : History := calls.foldl (History.call target) { popped := [], buf := [] }

/-- Everything that the calls hand to the buffer. -/
def appended (calls : List Call) : Bytes := calls.flatMap Call.data

/-- `FindAndPopTill` returns `nullopt`. -/
def Exhausted (h : History) : Prop := (findAndPopTill h.buf target).1 = none

/-- The frame contains the target only at its end. -/
def EndsFirst (frame : Bytes) : Prop :=
  target <:+ frame ∧ ∀ front, front <+: frame → target <:+ front → front = frame

variable {target}

/-- What holds after calls that have handed over the bytes `total`: nothing is lost, every string
that has been popped ends with the first target in it, and whatever is still to come, the frames of
the whole are those that have been popped and those of what is left. -/
structure Inv (target total : Bytes) (h : History) : Prop where
  flatten : h.popped.flatten ++ h.buf = total
  ends : ∀ frame ∈ h.popped, EndsFirst target frame
  frames : ∀ more, Search.frames target (total ++ more) =
    h.popped ++ Search.frames target (h.buf ++ more)

/-- An overload of `Append` hands its data to the buffer. -/
lemma Inv.append {total : Bytes} {h : History} (hinv : Inv target total h) (data : Bytes) :
    Inv target (total ++ data) { h with buf := append h.buf data } := by
  refine ⟨?_, hinv.ends, fun more => ?_⟩
  · rw [← hinv.flatten, List.append_assoc, Buffer.append]
  · rw [List.append_assoc, hinv.frames, Buffer.append, List.append_assoc]

/-- **One call** keeps the invariant.

**Proof sketch.** The frame that is popped is the first frame of the buffer, and it is still the
first frame when more bytes have come (`Search.cut_append`). -/
lemma Inv.call (ht : target ≠ []) {total : Bytes} {h : History} (hinv : Inv target total h)
    (c : Call) : Inv target (total ++ c.data) (h.call target c) := by
  cases c with
  | appendRaw newCharData dataSize size => exact hinv.append _
  | appendString newStrData =>
    have h := hinv.append newStrData
    simpa only [History.call, Call.data, appendString, appendRaw, List.take_length] using h
  | appendVector otherBuffer => exact hinv.append otherBuffer
  | findAndPopTill =>
    simp only [History.call, findAndPopTill_eq, Call.data, List.append_nil]
    cases hcut : Search.cut target h.buf with
    | none => exact hinv
    | some p =>
      obtain ⟨frame, rest⟩ := p
      have hrest := Search.append_of_cut hcut
      refine ⟨?_, fun frame' hframe' => ?_, fun more => ?_⟩
      · rw [← hinv.flatten, ← hrest, List.flatten_append, List.flatten_singleton,
          List.append_assoc]
      · rcases List.mem_append.mp hframe' with hframe' | hframe'
        · exact hinv.ends frame' hframe'
        · rw [List.mem_singleton.mp hframe']
          exact ⟨Search.suffix_of_cut hcut, fun front => Search.eq_of_cut hcut⟩
      · rw [hinv.frames, Search.frames_of_cut ht (Search.cut_append hcut more),
          List.append_assoc, List.singleton_append]

/-- The invariant after some calls. -/
lemma Inv.run (ht : target ≠ []) (calls : List Call) :
    Inv target (appended calls) (run target calls) := by
  induction calls using List.reverseRecOn with
  | nil => exact ⟨rfl, by simp [Buffer.run], fun more => rfl⟩
  | append_singleton calls c ih =>
    have hall : appended (calls ++ [c]) = appended calls ++ c.data := by simp [appended]
    rw [hall, Buffer.run, List.foldl_append]
    exact ih.call ht c

/-- A buffer is exhausted if the target cannot be cut off. -/
lemma exhausted_iff {h : History} : Exhausted target h ↔ Search.cut target h.buf = none := by
  rw [Exhausted, findAndPopTill_eq]
  cases Search.cut target h.buf with
  | none => simp
  | some p => simp

/-- An exhausted buffer has no frame. -/
lemma frames_of_exhausted {h : History} (hex : Exhausted target h) :
    Search.frames target h.buf = [] := Search.frames_of_cut_none (exhausted_iff.mp hex)

/-- As many calls of `FindAndPopTill` as there are bytes exhaust the buffer. -/
lemma exhausted_pops (ht : target ≠ []) (n : ℕ) : ∀ h : History, h.buf.length ≤ n →
    Exhausted target ((List.replicate n Call.findAndPopTill).foldl (History.call target) h) := by
  induction n with
  | zero =>
    intro h hlen
    have hbuf : h.buf = [] := List.length_eq_zero_iff.mp (by omega)
    rw [List.replicate_zero, List.foldl_nil, exhausted_iff, hbuf, Search.cut_eq_none_iff]
    simpa using ht
  | succ n ih =>
    intro h hlen
    rw [List.replicate_succ, List.foldl_cons]
    simp only [History.call, findAndPopTill_eq]
    cases hcut : Search.cut target h.buf with
    | none =>
      -- nothing is found any more, however often one asks
      have hsame : ∀ n, (List.replicate n Call.findAndPopTill).foldl (History.call target) h = h := by
        intro n
        induction n with
        | zero => rfl
        | succ n ih' =>
          rw [List.replicate_succ, List.foldl_cons]
          simpa [History.call, findAndPopTill_eq, hcut] using ih'
      simp only [hsame]
      exact exhausted_iff.mpr hcut
    | some p =>
      obtain ⟨frame, rest⟩ := p
      have hrest := Search.length_rest_lt_of_cut ht hcut
      exact ih _ (by simp only; omega)

/-- **What comes out of a buffer.** After any calls, what has been popped and what is left are what
has been appended, in order, and every string that has been popped contains the target at its end
and nowhere before. Finitely many calls of `FindAndPopTill` exhaust the buffer, and once it is
exhausted, the same has been popped as after any other calls that append the same bytes in all and
exhaust the buffer. -/
theorem run_spec (ht : target ≠ []) (calls : List Call) :
    (run target calls).popped.flatten ++ (run target calls).buf = appended calls ∧
    (∀ frame ∈ (run target calls).popped, target <:+ frame ∧
      ∀ front, front <+: frame → target <:+ front → front = frame) ∧
    (∃ n, Exhausted target (run target (calls ++ List.replicate n .findAndPopTill))) ∧
    (Exhausted target (run target calls) → ∀ calls', appended calls' = appended calls →
      Exhausted target (run target calls') →
        (run target calls').popped = (run target calls).popped) := by
  have hinv := Inv.run ht calls
  have hpopped : ∀ calls, Exhausted target (run target calls) →
      (run target calls).popped = Search.frames target (appended calls) := by
    intro calls hex
    have hframes := (Inv.run ht calls).frames []
    rw [List.append_nil, List.append_nil, frames_of_exhausted hex, List.append_nil] at hframes
    exact hframes.symm
  refine ⟨hinv.flatten, hinv.ends, ⟨(run target calls).buf.length, ?_⟩, ?_⟩
  · rw [run, List.foldl_append]
    exact exhausted_pops ht _ _ le_rfl
  · intro hex calls' hsame hex'
    rw [hpopped calls hex, hpopped calls' hex', hsame]

/-- A target that overlaps itself, appended in three pieces. -/
theorem run_spec_overlap :
    let calls : List Call := [.appendString (bytes "xab"), .findAndPopTill,
      .appendRaw (bytes "abaz") 2 (by decide), .findAndPopTill, .appendVector (bytes "b"),
      .findAndPopTill]
    (run (bytes "abab") calls).popped = [bytes "xabab"] ∧
      (run (bytes "abab") calls).popped.flatten ++ (run (bytes "abab") calls).buf =
        bytes "xababb" :=
  ⟨by decide, (run_spec (by decide) _).1⟩

end Icee.Buffer
