import Icee.Http.Reactor
import Icee.Http.Transmission

set_option relaxedAutoImplicit false
set_option autoImplicit false

/-!
# The echo server

`simple_demo/echo_server.cc`: the other server that is built on the same connections. Its handler
receives all that there is, and sends it back.

## Main definitions

* `Icee.EchoServer.Session`, `Icee.EchoServer.Label`, `Icee.EchoServer.step` — one connection, with
  its socket, its poller and its handler.
* `Icee.EchoServer.Inv` — the invariant of all runs.

## Main results

* `Icee.EchoServer.echoes` — what comes back is what has been sent, in order, and all of it when the
  connection is at rest, but not what is received together with the end of the stream.

## Design

The handlers of two connections share nothing, so one connection is enough. Its receiving side, with
all its steps, is that of the reactors; the stage `parsing` is the time after `Recv`. Its sending
side is a `Wire`, whose calls of `send` have results that are given from the start; if they have
come to their end in the middle of `Send`, the handler is still in there. What arrives during `Send`
waits in the socket, so that a call of `Send` can be one step.
-/

namespace Icee

namespace EchoServer

open Http (Wire SilentAfterFailure transmit)
open Http.Reactor (Intake)

/-! ## The system -/

/-- A connection: its receiving side, `read` of the current call of the handler, and its sending
side. -/
structure Session where
  conn : Http.Reactor.Conn
  read : ℕ
  wire : Wire

/-- The steps: of the network, of the poller, and of the handler. -/
inductive Label
  | intake (e : Intake)
  /-- What the handler does after `Recv`. -/
  | reply

/-- A connection that has just been accepted, if its calls of `send` will have these results. -/
def start (results : List SendResult) : Session where
  conn := .new
  read := 0
  wire := transmit results []

/-- How many bytes a call of `recv` has read. -/
def curRead : RecvResult → ℕ
  | .data chunk _ => chunk.length
  | _ => 0

/-- What the handler has read after a step: nothing when it is called, and then what the calls of
`recv` bring. -/
def readAfter (read : ℕ) : Intake → ℕ
  | .callback => 0
  | .recv result => read + curRead result
  | _ => read

/-- `WriteToWriteBuffer`, `Send` and `ClearReadBuffer`. -/
def Session.echo (s : Session) : Session :=
  let wire := (s.wire.act (.written s.conn.readBuffer)).act .sent
  if wire.sending then { s with wire }
  else { s with wire, conn := { s.conn with readBuffer := [], stage := .polled } }

/-- One step. -/
def step (s : Session) : Label → Option Session
  | .intake e => (s.conn.intake e).map fun conn => { s with conn, read := readAfter s.read e }
  | .reply => match s.conn.stage, s.wire.sending with
    | .parsing, false =>
      if s.read ≠ 0 then some s.echo
      else some { s with conn := { s.conn with stage := .polled } }
    | _, _ => none

/-! ## The invariant -/

/-- The bytes that have been received and are yet to be written into the write buffer. -/
def Session.unwritten (s : Session) : Bytes :=
  if s.wire.sending then [] else s.conn.readBuffer

/-- No call of the handler is going on, and there may be another one. -/
def between : Http.Reactor.Stage → Bool
  | .unregistered | .polled | .reported => true
  | _ => false

/-- **The invariant**: the stream is what has been written, what is about to be, and what is in the
socket; between two calls of the handler nothing is about to be written, and else `read` counts it;
and the poller reports what is left. -/
structure Inv (s : Session) : Prop where
  stream : s.wire.written ++ s.unwritten ++ s.conn.pending = s.conn.arrived
  cleared : between s.conn.stage = true → s.conn.readBuffer = []
  counted : between s.conn.stage = false → s.wire.sending = false →
    s.read = s.conn.readBuffer.length
  sending : s.wire.sending = true → s.conn.stage = .parsing
  sent : s.wire.sending = false → s.wire.writeBuffer = []
  heard : s.conn.Heard

/-- What is known of the sending side holds as long as the calls of `send` are as they should be. -/
def Sound (s : Session) : Prop := s.wire.Fair → s.wire.Inv

/-- At the start nothing has been written. -/
lemma Sound.start (results : List SendResult) : Sound (start results) :=
  fun _ => ⟨List.prefix_rfl, fun _ _ => rfl⟩

section Steps

variable {s s' : Session}

/-- What happens outside the handler: bytes may arrive, and the handler is neither called nor
left. -/
lemma Inv.outside (h : Inv s) {conn : Http.Reactor.Conn} (m : Bytes)
    (harrived : conn.arrived = s.conn.arrived ++ m) (hpending : conn.pending = s.conn.pending ++ m)
    (hbuffer : conn.readBuffer = s.conn.readBuffer)
    (hstage : conn.stage = s.conn.stage ∨ between s.conn.stage = true ∧ between conn.stage = true)
    (heard : conn.Heard) : Inv { s with conn } := by
  have hbetween : between conn.stage = between s.conn.stage := by
    rcases hstage with hstage | ⟨hold, hnew⟩
    · rw [hstage]
    · rw [hold, hnew]
  refine ⟨?_, fun hb => hbuffer.trans (h.cleared (hbetween ▸ hb)), fun hb hidle => ?_, fun hs => ?_,
    h.sent, heard⟩
  · have hunwritten : Session.unwritten { s with conn } = s.unwritten := by
      simp only [Session.unwritten, hbuffer]
    rw [hunwritten, hpending, harrived, ← h.stream, ← List.append_assoc]
  · exact (h.counted (hbetween ▸ hb) hidle).trans (congrArg List.length hbuffer.symm)
  · have hparsing := h.sending hs
    rcases hstage with hstage | ⟨hold, -⟩
    · exact hstage.trans hparsing
    · rw [hparsing] at hold
      cases hold

/-- `Send` is not going on unless the handler is behind `Recv`. -/
lemma Inv.idle (h : Inv s) (hstage : s.conn.stage ≠ .parsing) : s.wire.sending = false :=
  Bool.eq_false_iff.mpr fun hs => hstage (h.sending hs)

/-- The handler is called. -/
lemma Inv.callback (h : Inv s) (hstage : s.conn.stage = .reported) :
    Inv { s with conn := { s.conn with stage := .receiving }, read := 0 } := by
  have hidle := h.idle (by rw [hstage]; rintro ⟨⟩)
  have hempty := h.cleared (by rw [hstage]; rfl)
  refine ⟨h.stream, by rintro ⟨⟩, fun _ _ => ?_, fun hs => ?_, h.sent, by rintro ⟨⟩⟩
  · change 0 = s.conn.readBuffer.length
    rw [hempty]
    rfl
  · rw [hidle] at hs
    cases hs

/-- One turn of the loop of `Recv`. -/
lemma Inv.recv (h : Inv s) {result : RecvResult} (hstage : s.conn.stage = .receiving)
    (hgives : s.conn.Gives result) :
    Inv { s with conn := s.conn.recv result, read := s.read + curRead result } := by
  have hidle := h.idle (by rw [hstage]; rintro ⟨⟩)
  have hcount := h.counted (by rw [hstage]; rfl) hidle
  have hbusy : s.wire.sending ≠ true := by simp [hidle]
  have takes : s.conn.Takes (.recv result) (s.conn.recv result) := .recv hstage hgives
  have hstream := h.stream
  rw [Session.unwritten, hidle] at hstream
  refine ⟨?_, fun hb => ?_, fun _ _ => ?_, fun hs => absurd hs hbusy, h.sent, takes.heard⟩
  · rw [Session.unwritten, hidle, ← show s.conn.arrived = (s.conn.recv result).arrived by
      rcases result with chunk | _ | (_ | _ | _ | _) <;> rfl, ← hstream]
    rcases result with chunk | _ | (_ | _ | _ | _)
    · -- the bytes go from the socket to the read buffer
      obtain ⟨rest, hrest⟩ := hgives
      simp only [Http.Reactor.Conn.recv, Buffer.append, Bool.false_eq_true, if_false, ← hrest,
        List.drop_left, List.append_assoc]
    all_goals rfl
  · rcases result with chunk | _ | (_ | _ | _ | _) <;>
      simp [Http.Reactor.Conn.recv, Http.Reactor.Conn.leave, between, hstage] at hb
  · rcases result with chunk | _ | (_ | _ | _ | _) <;>
      simp [Http.Reactor.Conn.recv, Http.Reactor.Conn.leave, curRead, Buffer.append, hcount]

/-- What `WriteToWriteBuffer` and `Send` do to the sending side. -/
lemma written_act (wire : Wire) (b : Bytes) (hidle : wire.sending = false) :
    ((wire.act (.written b)).act .sent).written = wire.written ++ b ∧
      (((wire.act (.written b)).act .sent).sending = false →
        ((wire.act (.written b)).act .sent).writeBuffer = []) := by
  simp only [Wire.act, hidle, Bool.false_eq_true, if_false, true_and]
  intro hreturned
  have hsend :
      (Connection.send (Buffer.append wire.writeBuffer b) wire.results).returned = true := by
    simpa using hreturned
  exact Connection.writeBuffer_of_returned _ _ 0 hsend

/-- **The reply**: what has been received is written, and the read buffer is cleared. -/
lemma Inv.echo (h : Inv s) (hstage : s.conn.stage = .parsing) (hidle : s.wire.sending = false) :
    Inv s.echo := by
  obtain ⟨hwritten, hsent⟩ := written_act s.wire s.conn.readBuffer hidle
  have hstream := h.stream
  rw [Session.unwritten, hidle] at hstream
  simp only [Session.echo]
  split
  · next hs =>
    refine ⟨?_, fun hb => ?_, fun _ hnot => ?_, fun _ => hstage, fun hnot => ?_, h.heard⟩
    · simp only [Session.unwritten, hs, if_true, hwritten, List.append_nil]
      exact hstream
    · rw [hstage] at hb
      cases hb
    · cases hs.symm.trans hnot
    · cases hs.symm.trans hnot
  · next hs =>
    have hreturned := Bool.eq_false_iff.mpr hs
    refine ⟨?_, fun _ => rfl, by rintro ⟨⟩, fun hnot => absurd hnot hs, hsent,
      h.heard.congr (by rw [hstage]; rfl) rfl rfl rfl⟩
    simp only [Session.unwritten, hreturned, Bool.false_eq_true, if_false, hwritten,
      List.append_nil]
    exact hstream

/-- The handler returns, for it has received nothing. -/
lemma Inv.silent (h : Inv s) (hstage : s.conn.stage = .parsing) (hidle : s.wire.sending = false)
    (hread : s.read = 0) : Inv { s with conn := { s.conn with stage := .polled } } := by
  have hempty : s.conn.readBuffer = [] :=
    List.eq_nil_of_length_eq_zero ((h.counted (by rw [hstage]; rfl) hidle).symm.trans hread)
  refine ⟨h.stream, fun _ => hempty, by rintro ⟨⟩, fun hs => ?_, h.sent,
    h.heard.congr (by rw [hstage]; rfl) rfl rfl rfl⟩
  cases hidle.symm.trans hs

/-- A step of the receiving side. -/
lemma Inv.intake (h : Inv s) {e : Intake} {conn : Http.Reactor.Conn} (takes : s.conn.Takes e conn) :
    Inv { s with conn, read := readAfter s.read e } := by
  have heard := takes.heard
  cases takes with
  | arrive m closing => exact h.outside m rfl rfl rfl (.inl rfl) heard
  | close how closing =>
    exact h.outside [] (by simp [Http.Reactor.Conn.close]) (by simp [Http.Reactor.Conn.close]) rfl
      (.inl rfl) heard
  | register stage =>
    exact h.outside [] (by simp [Http.Reactor.Conn.register])
      (by simp [Http.Reactor.Conn.register]) rfl (.inr ⟨by rw [stage]; rfl, rfl⟩) heard
  | spurious => exact h.outside [] (by simp) (by simp) rfl (.inl rfl) heard
  | poll stage edge =>
    exact h.outside [] (by simp) (by simp) rfl (.inr ⟨by rw [stage]; rfl, rfl⟩) heard
  | callback stage => exact h.callback stage
  | recv stage gives => exact h.recv stage gives

/-- **The step lemma.** -/
lemma Inv.step {l : Label} (h : Inv s) (hstep : step s l = some s') : Inv s' := by
  cases l with
  | intake e =>
    obtain ⟨conn, hintake, rfl⟩ := Option.map_eq_some_iff.mp hstep
    exact h.intake (Http.Reactor.Conn.takes_of_intake hintake)
  | reply =>
    simp only [EchoServer.step] at hstep
    split at hstep
    · next hstage hidle =>
      split at hstep
      · cases hstep
        exact h.echo hstage hidle
      · next hread =>
        cases hstep
        exact h.silent hstage hidle (not_not.mp hread)
    · cases hstep

/-- A step leaves the sending side as it is, or is the reply. -/
lemma wire_of_step {l : Label} (hstep : step s l = some s') :
    s'.wire = s.wire ∨ s'.wire = (s.wire.act (.written s.conn.readBuffer)).act .sent := by
  cases l with
  | reply =>
    simp only [EchoServer.step] at hstep
    split at hstep
    · split at hstep
      · cases hstep
        simp only [Session.echo]
        split
        · exact .inr rfl
        · exact .inr rfl
      · cases hstep
        exact .inl rfl
    · cases hstep
  | intake e =>
    obtain ⟨conn, -, rfl⟩ := Option.map_eq_some_iff.mp hstep
    exact .inl rfl

/-- The invariant of the sending side is kept by every step. -/
lemma Sound.step {l : Label} (h : Sound s) (hstep : EchoServer.step s l = some s') : Sound s' := by
  unfold Sound at h ⊢
  rcases wire_of_step hstep with heq | heq
  · rw [heq]
    exact h
  · rw [heq]
    intro hfair
    exact ((h hfair.of_act.of_act).act _ hfair.of_act).act _ hfair

end Steps

/-- **What comes back is what has been sent.** Take any run of a connection of the echo server, in
which no call of `send` accepts bytes after one that has failed for good. The peer has been sent a
beginning of its own stream. Unless a call has failed for good, it is all that has arrived when the
connection is with the poller and the poller has nothing to report; and when the connection has been
deleted, it is all that had been received before the last call of the handler: the bytes that were
received in that call are in the read buffer, and they are lost. -/
theorem echoes {results : List SendResult} {ls : List Label} {s : Session}
    (hrun : Transition.exec step (start results) ls = some s)
    (hpossible : ∀ c ∈ s.wire.calls, c.Possible) (hsilent : SilentAfterFailure s.wire.calls) :
    s.wire.received <+: s.conn.arrived ∧
    ((∀ c ∈ s.wire.calls, ¬ c.Fatal) →
      (s.conn.stage = .polled → s.conn.edge = false → s.wire.received = s.conn.arrived) ∧
      (s.conn.stage = .deleted → s.read = s.conn.readBuffer.length ∧
        s.wire.received ++ s.conn.readBuffer ++ s.conn.pending = s.conn.arrived)) := by
  have hinit : Inv (start results) := by
    refine ⟨rfl, fun _ => rfl, by rintro ⟨⟩, by rintro ⟨⟩, fun _ => rfl, by rintro ⟨⟩⟩
  have h := Transition.invariant_of_exec (fun _ _ _ => Inv.step) ls hinit hrun
  have hwire := Transition.invariant_of_exec (fun _ _ _ => Sound.step) ls (Sound.start results) hrun
    ⟨hpossible, hsilent⟩
  refine ⟨hwire.unspliced.trans ?_, fun hhope => ⟨fun hpolled hedge => ?_, fun hdeleted => ?_⟩⟩
  · rw [← h.stream, List.append_assoc]
    exact List.prefix_append _ _
  · have hidle := h.idle (by rw [hpolled]; rintro ⟨⟩)
    have hwritten := hwire.pending hidle hhope
    obtain ⟨hpending, -⟩ := h.heard (by rw [hpolled]; rfl) hedge
    have hstream := h.stream
    rw [Session.unwritten, h.cleared (by rw [hpolled]; rfl), hpending] at hstream
    rw [h.sent hidle, List.append_nil] at hwritten
    rw [hwritten, ← hstream, ite_self, List.append_nil, List.append_nil]
  · have hidle := h.idle (by rw [hdeleted]; rintro ⟨⟩)
    have hwritten := hwire.pending hidle hhope
    have hstream := h.stream
    rw [Session.unwritten, hidle] at hstream
    rw [h.sent hidle, List.append_nil] at hwritten
    exact ⟨h.counted (by rw [hdeleted]; rfl) hidle, by rw [hwritten]; exact hstream⟩

/-- A peer sends two words, and shuts its end down behind the second one. -/
def sampleRun : List Label :=
  [.intake (.arrive (bytes "one")), .intake .register, .intake .poll, .intake .callback,
    .intake (.recv (.data (bytes "one") (by decide))), .intake (.recv (.error .eagain)), .reply,
    .intake (.arrive (bytes "two")), .intake (.close .shutdown), .intake .poll, .intake .callback,
    .intake (.recv (.data (bytes "two") (by decide))), .intake (.recv .eof)]

/-- Only the first of them comes back. -/
theorem echoes_not_last :
    ∃ s, Transition.exec step (start [.accepted 1 (by decide), .accepted 2 (by decide)]) sampleRun =
        some s ∧
      s.conn.stage = .deleted ∧ s.conn.readBuffer = bytes "two" ∧
      s.wire.received <+: s.conn.arrived ∧
      ((∀ c ∈ s.wire.calls, ¬ c.Fatal) →
        (s.conn.stage = .polled → s.conn.edge = false → s.wire.received = s.conn.arrived) ∧
        (s.conn.stage = .deleted → s.read = s.conn.readBuffer.length ∧
          s.wire.received ++ s.conn.readBuffer ++ s.conn.pending = s.conn.arrived)) := by
  have hseen : (Transition.exec step
      (start [.accepted 1 (by decide), .accepted 2 (by decide)]) sampleRun).map
      (fun s => (s.wire.calls.length, s.conn.stage, s.conn.readBuffer,
        decide (∀ c ∈ s.wire.calls, c.Possible), decide (SilentAfterFailure s.wire.calls))) =
      some (2, .deleted, bytes "two", true, true) := by
    decide +kernel
  obtain ⟨s, hrun, hs⟩ := Option.map_eq_some_iff.mp hseen
  simp only [Prod.mk.injEq, decide_eq_true_eq] at hs
  obtain ⟨-, hdeleted, hlost, hpossible, hsilent⟩ := hs
  exact ⟨s, hrun, hdeleted, hlost, echoes hrun hpossible hsilent⟩

end EchoServer

end Icee
