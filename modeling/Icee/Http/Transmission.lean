import Icee.Core.Sending
import Icee.Http.Lifecycle

set_option relaxedAutoImplicit false
set_option autoImplicit false

/-!
# What the client receives

The handler writes a response into the write buffer, calls `Send`, and goes on with the next
request, whatever has become of the bytes. This file follows the write buffer of one connection
through its history and compares what has been written with what the socket has accepted.

## Main definitions

* `Icee.Http.Wire` — the write buffer and the calls of `send` of a connection.
* `Icee.Http.transmit` — what the history of a connection does to them.
* `Icee.Http.SilentAfterFailure` — no call accepts bytes after one that has failed for good.

## Main results

* `Icee.Http.transmit_prefix` — if so, the client sees a prefix of what has been written.
* `Icee.Http.response_is_spliced` — else it may miss a part in the middle.
-/

namespace Icee.Http

open Pipeline

/-- The sending side of a connection: the write buffer, everything that has been written into it,
the calls of `send` so far, the results that further calls will have, and whether a call of `Send`
is still going on. -/
structure Wire where
  writeBuffer : Bytes
  written : Bytes
  calls : List SendCall
  results : List SendResult
  sending : Bool
  deriving DecidableEq

namespace Wire

/-- Everything that the socket has accepted. -/
def received (wire : Wire) : Bytes := wire.calls.flatMap SendCall.taken

/-- What an event of the history does: `WriteToWriteBuffer` appends, and `Send` sends. As long as
a call of `Send` has not returned, nothing else happens. -/
def act (wire : Wire) (event : Event UInt8 Bytes) : Wire :=
  if wire.sending then wire
  else match event with
    | .written responseBuf => { wire with
        writeBuffer := Buffer.append wire.writeBuffer responseBuf
        written := wire.written ++ responseBuf }
    | .sent =>
      let sending := Connection.send wire.writeBuffer wire.results
      { wire with
        writeBuffer := sending.writeBuffer
        calls := wire.calls ++ sending.calls
        results := sending.results
        sending := !sending.returned }
    | .popped _ | .peerClosed | .deleted => wire

end Wire

/-- The sending side after a history, if the calls of `send` have the given results. -/
def transmit (results : List SendResult) (history : List (Event UInt8 Bytes)) : Wire :=
  history.foldl Wire.act
    { writeBuffer := [], written := [], calls := [], results, sending := false }

/-- No call of `send` accepts bytes after one that has failed with an error other than `EINTR`,
`EAGAIN` and `EWOULDBLOCK`. -/
def SilentAfterFailure (calls : List SendCall) : Prop :=
  calls.Pairwise fun call later => call.Fatal → later.taken = []

instance (calls : List SendCall) : Decidable (SilentAfterFailure calls) :=
  inferInstanceAs (Decidable (calls.Pairwise _))

namespace Wire

/-- The calls so far are possible, and nothing is accepted after a failure. -/
def Fair (wire : Wire) : Prop := (∀ c ∈ wire.calls, c.Possible) ∧ SilentAfterFailure wire.calls

/-- What holds at any time, as long as the calls are as they should be: the bytes received are a
prefix of the bytes written, and before the first failure the write buffer holds the others. -/
structure Inv (wire : Wire) : Prop where
  unspliced : wire.received <+: wire.written
  pending : wire.sending = false → (∀ c ∈ wire.calls, ¬ c.Fatal) →
    wire.received ++ wire.writeBuffer = wire.written

/-- The calls only grow. -/
lemma calls_act (wire : Wire) (event : Event UInt8 Bytes) :
    ∃ calls, (wire.act event).calls = wire.calls ++ calls := by
  unfold act
  split
  · exact ⟨[], by simp⟩
  · cases event with
    | sent => exact ⟨_, rfl⟩
    | popped frame => exact ⟨[], by simp⟩
    | written responseBuf => exact ⟨[], by simp⟩
    | peerClosed => exact ⟨[], by simp⟩
    | deleted => exact ⟨[], by simp⟩

/-- Calls that are as they should be were so before. -/
lemma Fair.of_act {wire : Wire} {event : Event UInt8 Bytes} (h : (wire.act event).Fair) :
    wire.Fair := by
  obtain ⟨calls, hcalls⟩ := calls_act wire event
  obtain ⟨hpossible, hsilent⟩ := h
  rw [hcalls] at hpossible hsilent
  exact ⟨fun c hc => hpossible c (List.mem_append_left calls hc), (List.pairwise_append.mp hsilent).1⟩

/-- **A call of `Send`**: before the first failure it goes on where the last one has stopped, and
after it nothing more is accepted. -/
lemma Inv.send {wire : Wire} (h : wire.Inv) (hidle : wire.sending = false)
    (hfair : (wire.act .sent).Fair) : (wire.act .sent).Inv := by
  obtain ⟨hpossible, hsilent⟩ := hfair
  unfold act at hpossible hsilent ⊢
  simp only [hidle, Bool.false_eq_true, if_false] at hpossible hsilent ⊢
  obtain ⟨left, hdelivers, hstands⟩ := Connection.sendFrom_delivers wire.writeBuffer wire.results 0
    fun c hc => hpossible c (List.mem_append_right wire.calls hc)
  rw [List.drop_zero] at hdelivers
  have htaken := hdelivers.taken_append
  generalize hnow : Connection.send wire.writeBuffer wire.results = now at *
  change Connection.sendFrom wire.writeBuffer 0 wire.results = now at hnow
  rw [hnow] at hdelivers hstands htaken
  by_cases hfatal : ∃ c ∈ wire.calls, c.Fatal
  · obtain ⟨c, hc, hcfatal⟩ := hfatal
    have hnothing : now.calls.flatMap SendCall.taken = [] := by
      rw [List.flatMap_eq_nil_iff]
      exact fun later hlater => (List.pairwise_append.mp hsilent).2.2 c hc later hlater hcfatal
    refine ⟨?_, fun _ hhope => absurd hcfatal (hhope c (List.mem_append_left _ hc))⟩
    change (wire.calls ++ now.calls).flatMap SendCall.taken <+: wire.written
    rw [List.flatMap_append, hnothing, List.append_nil]
    exact h.unspliced
  · push Not at hfatal
    have hwritten : (wire.calls ++ now.calls).flatMap SendCall.taken ++ left = wire.written := by
      rw [List.flatMap_append, List.append_assoc, htaken]
      exact h.pending hidle hfatal
    refine ⟨⟨left, hwritten⟩, fun hreturned hhope => ?_⟩
    change (wire.calls ++ now.calls).flatMap SendCall.taken ++ now.writeBuffer = wire.written
    rw [← hwritten]
    cases hstands with
    | sent results hope => rfl
    | failed calls results hope fatal unsent =>
      exact absurd fatal (hhope _ (by simp))
    | waits hope unsent => cases hreturned

/-- One event of the history. -/
lemma Inv.act {wire : Wire} (h : wire.Inv) (event : Event UInt8 Bytes)
    (hfair : (wire.act event).Fair) : (wire.act event).Inv := by
  cases hidle : wire.sending with
  | true => simpa [Wire.act, hidle] using h
  | false =>
    cases event with
    | written responseBuf =>
      simp only [Wire.act, hidle, Bool.false_eq_true, if_false]
      refine ⟨h.unspliced.trans (List.prefix_append _ _), fun _ hhope => ?_⟩
      change wire.received ++ (wire.writeBuffer ++ responseBuf) = wire.written ++ responseBuf
      rw [← List.append_assoc, h.pending hidle hhope]
    | sent => exact h.send hidle hfair
    | popped frame => simpa [Wire.act, hidle] using h
    | peerClosed => simpa [Wire.act, hidle] using h
    | deleted => simpa [Wire.act, hidle] using h

/-- A whole history. -/
lemma Inv.foldl {wire : Wire} (h : wire.Inv) (history : List (Event UInt8 Bytes)) :
    (history.foldl Wire.act wire).Fair → (history.foldl Wire.act wire).Inv := by
  induction history using List.reverseRecOn with
  | nil => intro _; exact h
  | append_singleton history event ih =>
    intro hfair
    rw [List.foldl_append, List.foldl_cons, List.foldl_nil] at hfair ⊢
    exact (ih hfair.of_act).act event hfair

end Wire

/-- **The client sees a prefix of the response stream**, whatever requests it sends, whatever other
connections do in between, and at any time in the life of the connection, as long as no call of
`send` accepts bytes after one that has failed with an error other than `EINTR`, `EAGAIN` and
`EWOULDBLOCK`. -/
theorem transmit_prefix (site : Site) (w : World Cache)
    (events : List (World Cache × List RecvResult)) (n : ℕ) (results : List SendResult) :
    let wire := transmit results ((runAmongOthers site events (accepted w)).events.take n)
    (∀ c ∈ wire.calls, c.Possible) → SilentAfterFailure wire.calls →
      wire.received <+: wire.written := by
  intro wire hpossible hsilent
  have hinit : Wire.Inv
      { writeBuffer := [], written := [], calls := [], results, sending := false } :=
    ⟨List.prefix_rfl, fun _ _ => rfl⟩
  exact (hinit.foldl _ ⟨hpossible, hsilent⟩).unspliced

/-- Two pipelined requests; the second response fails for good in the middle. -/
theorem transmit_prefix_two :
    let conn := runAmongOthers sampleSite
      [(sampleWorld, [.data (sampleGet ++ sampleGet) (by decide), .error .eagain])]
      (accepted sampleWorld)
    let wire := transmit [.accepted 9 (by decide), .error .eintr, .accepted 97 (by decide),
      .accepted 10 (by decide), .error .other] (conn.events.take 6)
    (responses conn.events).length = 2 ∧ wire.calls.length = 5 ∧
      wire.received <+: wire.written :=
  ⟨by decide +kernel, by decide +kernel,
    transmit_prefix sampleSite sampleWorld _ 6 _ (by decide +kernel) (by decide +kernel)⟩

/-- A connection that is kept open, on which the first response fails for good after five bytes. The
client receives the beginning of the second response right behind them. -/
theorem response_is_spliced :
    let conn := runAmongOthers sampleSite
      [(sampleWorld, [.data (sampleGet ++ sampleGet) (by decide), .error .eagain])]
      (accepted sampleWorld)
    let wire := transmit [.accepted 5 (by decide), .error .other, .accepted 4 (by decide)]
      conn.events
    (∀ c ∈ wire.calls, c.Possible) ∧ wire.received = bytes "Http/Http" ∧
      ¬ wire.received <+: wire.written := by
  decide +kernel

end Icee.Http
