import Icee.Core.Connection

set_option relaxedAutoImplicit false
set_option autoImplicit false

/-!
# Sending

`Connection::Send` in `src/core/connection.cc`: the loop that hands the write buffer to the socket,
over partial writes, retries and errors.

## Main definitions

* `Icee.SendResult`, `Icee.SendCall` — one call of `send`.
* `Icee.Connection.send` — the loop, over the results of its calls.
* `Icee.Delivers` — calls each of which is offered what the calls before it have left.

## Main results

* `Icee.Connection.sendFrom_delivers` — the loop invariant.
* `Icee.Connection.send_returned` — what has happened when `Send` returns.

## Design

The results of the successive calls of `send` are given as a list. When the list has come to its
end in the middle of the loop, the call is still going on; so a list stands for all that has
happened up to some moment.
-/

namespace Icee

/-- What one call of `send` gives back: the number of bytes it has accepted, or an error. -/
inductive SendResult
  | accepted (count : ℕ) (pos : 0 < count)
  | error (errno : Errno)
  deriving DecidableEq

/-- One call of `send`: the bytes from `buf + cur_write` on, and the result. -/
structure SendCall where
  offered : Bytes
  result : SendResult
  deriving DecidableEq

namespace SendCall

/-- The bytes that the socket has accepted. -/
def taken (call : SendCall) : Bytes :=
  match call.result with
  | .accepted count _ => call.offered.take count
  | .error _ => []

/-- No more bytes are accepted than have been offered. -/
def Possible (call : SendCall) : Prop :=
  match call.result with
  | .accepted count _ => count ≤ call.offered.length
  | .error _ => True

instance (call : SendCall) : Decidable call.Possible :=
  match h : call.result with
  | .accepted count _ => decidable_of_iff (count ≤ call.offered.length) (by simp [Possible, h])
  | .error _ => .isTrue (by simp [Possible, h])

/-- The call has failed with an error after which `Send` gives up. -/
def Fatal (call : SendCall) : Prop := call.result = .error .other

instance (call : SendCall) : Decidable call.Fatal :=
  inferInstanceAs (Decidable (call.result = .error .other))

end SendCall

/-- A call of `Connection::Send` as far as it has come: the calls of `send`, the write buffer,
whether it has returned, and the results that its calls have not used. -/
structure Sending where
  calls : List SendCall
  writeBuffer : Bytes
  returned : Bool
  results : List SendResult
  deriving DecidableEq

namespace Connection

/-- The loop of `Connection::Send`, at the offset `curWrite`. -/
def sendFrom (buf : Bytes) : ℕ → List SendResult → Sending
  | curWrite, results =>
    if curWrite < buf.length then
      match results with
      | [] => { calls := [], writeBuffer := buf, returned := false, results := [] }
      | result :: results =>
        let call : SendCall := { offered := buf.drop curWrite, result }
        match result with
        | .error .other =>
          -- `ClearWriteBuffer` and an early return
          { calls := [call], writeBuffer := [], returned := true, results }
        | .error .eintr | .error .eagain | .error .ewouldblock =>
          -- `write` is set to 0, so the offset does not move
          let sending := sendFrom buf curWrite results
          { sending with calls := call :: sending.calls }
        | .accepted write _ =>
          let sending := sendFrom buf (curWrite + write) results
          { sending with calls := call :: sending.calls }
    else { calls := [], writeBuffer := [], returned := true, results }

/-- `Connection::Send`. -/
def send (writeBuffer : Bytes) (results : List SendResult) : Sending :=
  sendFrom writeBuffer 0 results

end Connection

/-! ## The unsent remainder -/

/-- Each call is offered exactly what the calls before it have left of `unsent`, and `left` is what
all of them have left. -/
inductive Delivers : Bytes → List SendCall → Bytes → Prop
  | nil (unsent : Bytes) : Delivers unsent [] unsent
  | cons {unsent rest left : Bytes} {call : SendCall} {calls : List SendCall} :
    call.offered = unsent → call.taken ++ rest = unsent → Delivers rest calls left →
      Delivers unsent (call :: calls) left

namespace Delivers

variable {unsent left : Bytes} {calls : List SendCall}

/-- Nothing is sent twice and nothing is skipped. -/
lemma taken_append (h : Delivers unsent calls left) :
    calls.flatMap SendCall.taken ++ left = unsent := by
  induction h with
  | nil unsent => rfl
  | cons _ hrest _ ih => rw [List.flatMap_cons, List.append_assoc, ih, hrest]

/-- A call is offered what the calls before it have left. -/
lemma taken_append_offered (h : Delivers unsent calls left) {done todo : List SendCall}
    {call : SendCall} (hsplit : calls = done ++ call :: todo) :
    done.flatMap SendCall.taken ++ call.offered = unsent := by
  induction h generalizing done with
  | nil unsent => simp at hsplit
  | cons hoffered hrest _ ih =>
    cases done with
    | nil =>
      obtain ⟨rfl, -⟩ := List.cons.inj hsplit
      simpa using hoffered
    | cons call' done =>
      obtain ⟨rfl, htail⟩ := List.cons.inj hsplit
      rw [List.flatMap_cons, List.append_assoc, ih htail, hrest]

end Delivers

namespace Connection

/-- How a call of `Send` that has used the given calls of `send` stands. -/
inductive Stands (buf : Bytes) : Sending → Bytes → Prop
  /-- The whole buffer has been sent. -/
  | sent {calls : List SendCall} (results : List SendResult) (hope : ∀ c ∈ calls, ¬ c.Fatal) :
    Stands buf { calls, writeBuffer := [], returned := true, results } []
  /-- The last call has failed for good while there was something left. -/
  | failed (calls : List SendCall) {last : SendCall} {left : Bytes} (results : List SendResult)
    (hope : ∀ c ∈ calls, ¬ c.Fatal) (fatal : last.Fatal) (unsent : left ≠ []) :
    Stands buf { calls := calls ++ [last], writeBuffer := [], returned := true, results } left
  /-- The loop goes on. -/
  | waits {calls : List SendCall} {left : Bytes} (hope : ∀ c ∈ calls, ¬ c.Fatal)
    (unsent : left ≠ []) :
    Stands buf { calls, writeBuffer := buf, returned := false, results := [] } left

/-- A call that has not failed for good in front of the others. -/
lemma Stands.cons {buf left : Bytes} {sending : Sending} {call : SendCall} (hcall : ¬ call.Fatal)
    (h : Stands buf sending left) :
    Stands buf { sending with calls := call :: sending.calls } left := by
  have hcons : ∀ {calls : List SendCall}, (∀ c ∈ calls, ¬ c.Fatal) →
      ∀ c ∈ call :: calls, ¬ c.Fatal := by
    intro calls hope c hc
    rcases List.mem_cons.mp hc with rfl | hc
    · exact hcall
    · exact hope c hc
  cases h with
  | sent results hope => exact .sent results (hcons hope)
  | failed calls results hope fatal unsent =>
    exact .failed (call :: calls) results (hcons hope) fatal unsent
  | waits hope unsent => exact .waits (hcons hope) unsent

/-- The results are used by the calls in order. -/
lemma sendFrom_results (buf : Bytes) (results : List SendResult) : ∀ curWrite : ℕ,
    (sendFrom buf curWrite results).calls.map SendCall.result ++
      (sendFrom buf curWrite results).results = results := by
  induction results with
  | nil => intro curWrite; unfold sendFrom; split <;> rfl
  | cons result results ih =>
    intro curWrite
    unfold sendFrom
    split
    · rcases result with ⟨write, pos⟩ | _ | _ | _ | _
      · exact congrArg (_ :: ·) (ih (curWrite + write))
      · exact congrArg (_ :: ·) (ih curWrite)
      · exact congrArg (_ :: ·) (ih curWrite)
      · exact congrArg (_ :: ·) (ih curWrite)
      · rfl
    · rfl

/-- **The loop invariant** of `Send`: at the offset `curWrite` the rest of the buffer from there on
is delivered, until nothing is left of it or a call fails for good.

**Proof sketch.** Induction on the results. A call is offered the buffer from the offset on. If it
accepts some of it, the offset moves just behind these bytes, and if it fails with an error that is
retried, the offset stays. -/
theorem sendFrom_delivers (buf : Bytes) (results : List SendResult) : ∀ curWrite : ℕ,
    (∀ c ∈ (sendFrom buf curWrite results).calls, c.Possible) →
    ∃ left, Delivers (buf.drop curWrite) (sendFrom buf curWrite results).calls left ∧
      Stands buf (sendFrom buf curWrite results) left := by
  have hall : ∀ {results : List SendResult} {curWrite : ℕ}, ¬ curWrite < buf.length →
      ∃ left, Delivers (buf.drop curWrite) (sendFrom buf curWrite results).calls left ∧
        Stands buf (sendFrom buf curWrite results) left := by
    intro results curWrite hlt
    rw [List.drop_eq_nil_of_le (by omega)]
    unfold sendFrom
    simp only [hlt, if_false]
    exact ⟨[], .nil _, .sent results (by simp)⟩
  induction results with
  | nil =>
    intro curWrite _
    by_cases hlt : curWrite < buf.length
    · have hleft : buf.drop curWrite ≠ [] := by simpa using hlt
      unfold sendFrom
      simp only [hlt, if_true]
      exact ⟨_, .nil _, .waits (by simp) hleft⟩
    · exact hall hlt
  | cons result results ih =>
    intro curWrite hpossible
    by_cases hlt : curWrite < buf.length
    · have hleft : buf.drop curWrite ≠ [] := by simpa using hlt
      unfold sendFrom at hpossible ⊢
      simp only [hlt, if_true] at hpossible ⊢
      -- an error that is retried leaves the offset where it is
      have hretry : ∀ errno, errno ≠ .other →
          (∀ c ∈ (sendFrom buf curWrite results).calls, c.Possible) →
          ∃ left, Delivers (buf.drop curWrite)
            (⟨buf.drop curWrite, .error errno⟩ :: (sendFrom buf curWrite results).calls) left ∧
            Stands buf { sendFrom buf curWrite results with
              calls := ⟨buf.drop curWrite, .error errno⟩ ::
                (sendFrom buf curWrite results).calls } left := by
        intro errno herrno hrest
        obtain ⟨left, hdelivers, hstands⟩ := ih curWrite hrest
        have hcall : ¬ SendCall.Fatal ⟨buf.drop curWrite, .error errno⟩ := by
          simpa [SendCall.Fatal] using herrno
        exact ⟨left, .cons rfl rfl hdelivers, hstands.cons hcall⟩
      rcases result with ⟨write, pos⟩ | _ | _ | _ | _
      · simp only [List.forall_mem_cons] at hpossible
        obtain ⟨hwrite, hrest⟩ := hpossible
        obtain ⟨left, hdelivers, hstands⟩ := ih (curWrite + write) hrest
        refine ⟨left, .cons rfl ?_ hdelivers, hstands.cons (by simp [SendCall.Fatal])⟩
        rw [← List.drop_drop]
        exact List.take_append_drop write (buf.drop curWrite)
      · exact hretry .eintr (by decide) fun c hc => hpossible c (List.mem_cons_of_mem _ hc)
      · exact hretry .eagain (by decide) fun c hc => hpossible c (List.mem_cons_of_mem _ hc)
      · exact hretry .ewouldblock (by decide) fun c hc => hpossible c (List.mem_cons_of_mem _ hc)
      · refine ⟨buf.drop curWrite, .cons rfl rfl (.nil _), ?_⟩
        exact Stands.failed [] results (by simp) rfl hleft
    · exact hall hlt

/-- When `Send` returns, the write buffer is empty, whatever has been accepted of it. -/
lemma writeBuffer_of_returned (buf : Bytes) (results : List SendResult) : ∀ curWrite : ℕ,
    (sendFrom buf curWrite results).returned = true →
      (sendFrom buf curWrite results).writeBuffer = [] := by
  induction results with
  | nil =>
    intro curWrite
    unfold sendFrom
    split
    · rintro ⟨⟩
    · exact fun _ => rfl
  | cons result results ih =>
    intro curWrite
    unfold sendFrom
    split
    · rcases result with ⟨write, pos⟩ | _ | _ | _ | _
      · exact ih (curWrite + write)
      · exact ih curWrite
      · exact ih curWrite
      · exact ih curWrite
      · exact fun _ => rfl
    · exact fun _ => rfl

/-- **What `Send` has done when it returns.** Whatever its calls of `send` give back: they use the
results in order; the bytes accepted are a prefix of the buffer, and each call is offered exactly
what the calls before it have left of the buffer; the whole buffer has been accepted exactly if the
last call has not failed for good; and the buffer is empty. -/
theorem send_returned (writeBuffer : Bytes) (results : List SendResult)
    (hpossible : ∀ c ∈ (send writeBuffer results).calls, c.Possible)
    (hreturned : (send writeBuffer results).returned = true) :
    let sending := send writeBuffer results
    sending.calls.map SendCall.result ++ sending.results = results ∧
    sending.calls.flatMap SendCall.taken <+: writeBuffer ∧
    (∀ done call todo, sending.calls = done ++ call :: todo →
      done.flatMap SendCall.taken ++ call.offered = writeBuffer) ∧
    (sending.calls.flatMap SendCall.taken = writeBuffer ↔
      ∀ last, sending.calls.getLast? = some last → ¬ last.Fatal) ∧
    sending.writeBuffer = [] := by
  intro sending
  obtain ⟨left, hdelivers, hstands⟩ := sendFrom_delivers writeBuffer results 0 hpossible
  rw [List.drop_zero] at hdelivers
  have htaken := hdelivers.taken_append
  refine ⟨sendFrom_results writeBuffer results 0, ⟨left, htaken⟩,
    fun done call todo hsplit => hdelivers.taken_append_offered hsplit, ?_⟩
  have hwhole : sending.calls.flatMap SendCall.taken = writeBuffer ↔ left = [] := by
    constructor
    · intro h
      rw [← htaken] at h
      exact List.self_eq_append_right.mp h
    · intro h
      rw [← htaken, h, List.append_nil]
      rfl
  rw [hwhole]
  change Stands writeBuffer sending left at hstands
  have hsending : sending.returned = true := hreturned
  generalize sending = sending at hstands hsending
  cases hstands with
  | sent results hope =>
    refine ⟨iff_of_true rfl fun last hlast => hope last (List.mem_of_getLast? hlast), rfl⟩
  | failed calls results hope fatal unsent =>
    refine ⟨iff_of_false unsent fun h => ?_, rfl⟩
    exact h _ List.getLast?_concat fatal
  | waits hope unsent => cases hsending

/-- Five bytes in two parts, with an interruption and a full socket buffer in between. -/
theorem send_returned_partial :
    let sending := send (bytes "hello")
      [.accepted 2 (by decide), .error .eintr, .error .eagain, .accepted 3 (by decide)]
    sending.calls.length = 4 ∧ sending.calls.flatMap SendCall.taken = bytes "hello" ∧
      sending.writeBuffer = [] := by
  obtain ⟨-, -, -, hwhole, hempty⟩ := send_returned (bytes "hello")
    [.accepted 2 (by decide), .error .eintr, .error .eagain, .accepted 3 (by decide)]
    (by decide) (by decide)
  exact ⟨by decide, hwhole.mpr (by decide), hempty⟩

/-- **Until `Send` returns** it has kept the buffer, and a proper part of it has been accepted: with
as many successful calls as there are bytes, or with an error that is not retried, it returns. -/
theorem send_waits (writeBuffer : Bytes) (results : List SendResult)
    (hpossible : ∀ c ∈ (send writeBuffer results).calls, c.Possible)
    (hwaits : (send writeBuffer results).returned = false) :
    let sending := send writeBuffer results
    sending.writeBuffer = writeBuffer ∧ (∀ c ∈ sending.calls, ¬ c.Fatal) ∧
      (sending.calls.flatMap SendCall.taken).length < writeBuffer.length := by
  intro sending
  obtain ⟨left, hdelivers, hstands⟩ := sendFrom_delivers writeBuffer results 0 hpossible
  rw [List.drop_zero] at hdelivers
  have htaken : (sending.calls.flatMap SendCall.taken).length + left.length =
      writeBuffer.length := by
    rw [← List.length_append]
    exact congrArg List.length hdelivers.taken_append
  change Stands writeBuffer sending left at hstands
  have hsending : sending.returned = false := hwaits
  generalize sending = sending at hstands hsending htaken
  cases hstands with
  | sent results hope => cases hsending
  | failed calls results hope fatal unsent => cases hsending
  | waits hope unsent =>
    have := List.length_pos_of_ne_nil unsent
    exact ⟨rfl, hope, by simp only at htaken ⊢; omega⟩

end Connection

end Icee
