import Icee.Http.Reactor

set_option relaxedAutoImplicit false
set_option autoImplicit false

/-!
# Connections do not notice each other

All connections of the reactors share one cache, and their steps are interleaved in any way. Here is
what a connection can tell of that: nothing, as long as its requests ask neither for scripts nor for
mere heads.

## Main definitions

* `Icee.Http.Reactor.Plain` — no request of the stream asks for a script or for a mere head.
* `Icee.Http.Reactor.Conn.Alone` — the connection is where a session that shares nothing would be.
* `Icee.Http.Reactor.Inv` — the invariant of all interleavings.
* `Icee.Http.Reactor.solo` — the connection of a server of its own.

## Main results

* `Icee.Http.Reactor.stream_conserved` — the bytes of every stream are where they should be.
* `Icee.Http.Reactor.history_alone` — a connection gets the answers that it would get if the server
  had no other connection and its whole stream had been there from the start.
* `Icee.Http.Reactor.history_complete` — and it gets all of them.
-/

namespace Icee.Http

namespace Reactor

open Pipeline (Event)

variable {ι : Type} [DecidableEq ι] {servingDirectory : Bytes} {fs : FileSystem}

/-! ## Plain streams -/

/-- No request of the stream asks for a path that contains `cgi_bin`, or for no more than a head. -/
def Plain (servingDirectory stream : Bytes) : Prop :=
  ∀ frame ∈ Search.frames crlfCrlf stream,
    asksForCgi servingDirectory frame = false ∧ asksForHead frame = false

instance (servingDirectory stream : Bytes) : Decidable (Plain servingDirectory stream) :=
  inferInstanceAs (Decidable (∀ frame ∈ Search.frames crlfCrlf stream,
    asksForCgi servingDirectory frame = false ∧ asksForHead frame = false))

/-- The beginning of a plain stream is plain. -/
lemma Plain.front {stream m : Bytes} (h : Plain servingDirectory (stream ++ m)) :
    Plain servingDirectory stream :=
  fun frame hframe => h frame ((Search.frames_prefix_append (by decide) stream m).subset hframe)

/-- The handler that nothing is cached for is silent on no request of a plain stream. -/
lemma Plain.neverSilent {stream : Bytes} (h : Plain servingDirectory stream) :
    Pipeline.NeverSilent crlfCrlf (Pipeline.stateless (replyTo servingDirectory fs)) stream := by
  intro frame hframe g g' hsilent
  obtain ⟨hcgi, hhead⟩ := h frame hframe
  obtain ⟨outcome, hcases⟩ :
      ∃ outcome, Spec.Begins servingDirectory fs frame (Store.make 0) outcome :=
    ⟨_, Spec.beginRequest_cases servingDirectory fs frame (Store.make 0)⟩
  have hreply := replyTo_of_begins (coherent_make fs 0) hhead hcases
  rw [Pipeline.stateless, hreply] at hsilent
  cases hcases with
  | cgi parse valid cgi => simp [asksForCgi, parse, valid, cgi] at hcgi
  | _ => cases hsilent

/-! ## Connections as sessions -/

/-- The status of the connection, as that of a session. -/
def Stage.status : Stage → Pipeline.Status Fault
  | .deleted => .deleted
  | .crashed fault => .crashed fault
  | _ => .serving

/-- The stage of the connection, as that of a session. -/
def Stage.Sees : Stage → Pipeline.Stage Bytes → Prop
  | .receiving, p => p = .receiving
  | .parsing, p => p = .looping
  | .inserting m noMoreParse, p => p = .answering m.responseBuf noMoreParse
  | .deleted, p => p = .resting ∨ p = .gone
  | _, p => p = .resting

namespace Conn

/-- The connection as a session that shares nothing. -/
def session (c : Conn) : Pipeline.Session UInt8 Bytes Fault Unit where
  unread := c.readBuffer
  shared := ()
  events := c.events
  status := c.stage.status

/-- The connection is at some stage of the work of a session that has received all that has
arrived, but for what is still in the socket. -/
def Alone (servingDirectory : Bytes) (fs : FileSystem) (c : Conn) : Prop :=
  ∃ input p, c.arrived = input ++ c.pending ∧ c.stage.Sees p ∧
    Pipeline.Follows crlfCrlf (replyTo servingDirectory fs) input p c.session

variable {c c' : Conn}

/-- The session after an answer. -/
lemma session_answer (responseBuf : Bytes) (noMoreParse : Bool)
    (hserving : c.stage.status = .serving) :
    (c.answer responseBuf noMoreParse).session = c.session.answer responseBuf noMoreParse := by
  cases noMoreParse with
  | true => rfl
  | false =>
    simp only [session, answer, Pipeline.Session.answer, Bool.false_eq_true, if_false, hserving]
    rfl

/-- The stage after an answer. -/
lemma sees_answer (responseBuf : Bytes) (noMoreParse : Bool) (c : Conn) :
    (c.answer responseBuf noMoreParse).stage.Sees
      (if noMoreParse then .resting else .looping) := by
  cases noMoreParse with
  | true => exact .inl rfl
  | false => rfl

/-- An answer moves no bytes. -/
lemma stream_answer (responseBuf : Bytes) (noMoreParse : Bool) (c : Conn) :
    (c.answer responseBuf noMoreParse).arrived = c.arrived ∧
      (c.answer responseBuf noMoreParse).pending = c.pending := by
  cases noMoreParse <;> exact ⟨rfl, rfl⟩

/-- Every step of the receiving side leaves what has arrived, or adds to it. -/
lemma Takes.arrived_isPrefix {e : Intake} (takes : c.Takes e c') : c.arrived <+: c'.arrived := by
  cases takes with
  | arrive m closing => exact List.prefix_append _ _
  | @recv result stage gives =>
    rcases result with chunk | _ | (_ | _ | _ | _) <;> exact List.prefix_rfl
  | _ => exact List.prefix_rfl

/-- Every move does. -/
lemma Moves.arrived_isPrefix {act : Act} {fault : Option Fault}
    (hmove : c.Moves servingDirectory fs act c' fault) : c.arrived <+: c'.arrived := by
  cases hmove with
  | intake takes => exact takes.arrived_isPrefix
  | answer stage cut reply => rw [(stream_answer ..).1]; exact List.prefix_rfl
  | finish stage => rw [(stream_answer ..).1]
  | _ => exact List.prefix_rfl

/-- A turn of the loop of `Recv`. -/
lemma Alone.recv (h : c.Alone servingDirectory fs) (hplain : Plain servingDirectory c.arrived)
    {result : RecvResult} (stage : c.stage = .receiving) (gives : c.Gives result) :
    (c.recv result).Alone servingDirectory fs := by
  obtain ⟨input, p, hstream, hsees, hfollows⟩ := h
  rw [stage] at hsees
  obtain rfl : p = .receiving := hsees
  have hsilent : Pipeline.NeverSilent crlfCrlf
      (Pipeline.stateless (replyTo servingDirectory fs)) input :=
    (hstream ▸ hplain).front.neverSilent
  have hserving : c.session.status = .serving := by rw [session, stage]; rfl
  have hloop : Pipeline.Follows crlfCrlf (replyTo servingDirectory fs) input .looping
      ({ c with stage := .parsing } : Conn).session := by
    have := hfollows.loop (by decide) hsilent
    rwa [show c.session = ({ c with stage := .parsing } : Conn).session by
      simp [session, stage, Stage.status]] at this
  rcases result with ⟨chunk, size⟩ | _ | (_ | _ | _ | _)
  · obtain ⟨rest, hrest⟩ : chunk <+: c.pending := gives
    refine ⟨input ++ chunk, .receiving, ?_, stage ▸ rfl, hfollows.receive chunk⟩
    rw [show (c.recv (.data chunk size)).arrived = c.arrived from rfl, hstream]
    simp [Conn.recv, ← hrest]
  · exact ⟨input, .gone, hstream, .inr rfl, hfollows.hangUp⟩
  · exact ⟨input, .receiving, hstream, stage ▸ rfl, hfollows⟩
  · exact ⟨input, .looping, hstream, rfl, hloop⟩
  · exact ⟨input, .looping, hstream, rfl, hloop⟩
  · exact ⟨input, .gone, hstream, .inr rfl, hfollows.hangUp⟩

/-- **Isolation.** Every step of the receiving side keeps the connection on the way of the session
that shares nothing. -/
lemma Alone.takes {e : Intake} (h : c.Alone servingDirectory fs)
    (hplain : Plain servingDirectory c.arrived) (takes : c.Takes e c') :
    c'.Alone servingDirectory fs := by
  obtain ⟨input, p, hstream, hsees, hfollows⟩ := id h
  cases takes with
  | arrive m closing =>
    refine ⟨input, p, ?_, hsees, hfollows⟩
    rw [Conn.arrive, hstream, List.append_assoc]
  | close how closing => exact ⟨input, p, hstream, hsees, hfollows⟩
  | register stage =>
    rw [stage] at hsees
    rw [session, stage] at hfollows
    exact ⟨input, p, hstream, hsees, hfollows⟩
  | spurious => exact ⟨input, p, hstream, hsees, hfollows⟩
  | poll stage edge =>
    rw [stage] at hsees
    rw [session, stage] at hfollows
    exact ⟨input, p, hstream, hsees, hfollows⟩
  | callback stage =>
    rw [stage] at hsees
    rw [session, stage] at hfollows
    obtain rfl : p = .resting := hsees
    exact ⟨input, .receiving, hstream, rfl, hfollows.listen rfl⟩
  | recv stage gives => exact h.recv hplain stage gives

/-- Every move keeps it there.

**Proof sketch.** A request that is popped is a frame of the stream, so it asks neither for a script
nor for a head, and the reply to it does not depend on what is cached. So each move is one of the
session that shares nothing (`Pipeline.Follows`), from the stage that the connection is seen at. -/
lemma Alone.moves {act : Act} {fault : Option Fault}
    (h : Plain servingDirectory c.arrived → c.Alone servingDirectory fs)
    (hconserved : c.Conserved) (hmove : c.Moves servingDirectory fs act c' fault)
    (hplain : Plain servingDirectory c'.arrived) : c'.Alone servingDirectory fs := by
  obtain ⟨m, hm⟩ := hmove.arrived_isPrefix
  have hplain₀ : Plain servingDirectory c.arrived := (hm ▸ hplain).front
  have hframe := fun {request readBuffer}
      (cut : Search.cut crlfCrlf c.readBuffer = some (request, readBuffer)) =>
    hplain₀ request (hconserved.mem_frames cut)
  have halone := h hplain₀
  obtain ⟨input, p, hstream, hsees, hfollows⟩ := h hplain₀
  have ht : crlfCrlf ≠ [] := by decide
  cases hmove with
  | intake takes => exact halone.takes hplain₀ takes
  | rest stage cut =>
    rw [stage] at hsees
    rw [session, stage] at hfollows
    obtain rfl : p = .looping := hsees
    exact ⟨input, .resting, hstream, rfl, hfollows.rest cut⟩
  | fail stage cut reply =>
    rw [stage] at hsees
    obtain rfl : p = .looping := hsees
    exact ⟨input, .resting, hstream, rfl, hfollows.fail ht cut (reply (hframe cut).2)⟩
  | silent stage cut cgi =>
    rw [(hframe cut).1] at cgi
    cases cgi
  | @answer now request readBuffer responseBuf noMoreParse stage cut reply =>
    rw [stage] at hsees
    obtain rfl : p = .looping := hsees
    obtain ⟨harrived, hpending⟩ :=
      stream_answer responseBuf noMoreParse (c.pop request readBuffer)
    refine ⟨input, _, ?_, sees_answer responseBuf noMoreParse (c.pop request readBuffer), ?_⟩
    · rw [harrived, hpending]
      exact hstream
    · rw [session_answer responseBuf noMoreParse (by rw [Conn.pop, stage]; rfl)]
      exact (hfollows.take ht cut (reply (hframe cut).2)).answer
  | @miss now request readBuffer m noMoreParse stage cut reply =>
    rw [stage] at hsees
    obtain rfl : p = .looping := hsees
    have htake := hfollows.take ht cut (reply (hframe cut).2)
    rw [session, stage] at htake
    exact ⟨input, _, hstream, rfl, htake⟩
  | @finish now m noMoreParse stage =>
    rw [stage] at hsees
    obtain rfl : p = .answering m.responseBuf noMoreParse := hsees
    obtain ⟨harrived, hpending⟩ := stream_answer m.responseBuf noMoreParse c
    refine ⟨input, _, ?_, sees_answer m.responseBuf noMoreParse c, ?_⟩
    · rw [harrived, hpending]
      exact hstream
    · rw [session_answer m.responseBuf noMoreParse (by rw [stage]; rfl)]
      exact hfollows.answer

end Conn

/-! ## All interleavings -/

/-- What holds between the steps. -/
structure Inv (servingDirectory : Bytes) (fs : FileSystem) (s : State ι) : Prop where
  sound : Sound fs s
  heard : ∀ i, (s.conns i).Heard
  conserved : ∀ i, (s.conns i).Conserved
  alone : ∀ i, Plain servingDirectory (s.conns i).arrived →
    (s.conns i).Alone servingDirectory fs

omit [DecidableEq ι] in
/-- The server when it starts. -/
lemma Inv.start (servingDirectory : Bytes) (fs : FileSystem) (A : Allocator) (capacity : Int32)
    (now₁ now₂ : UInt64) : Inv servingDirectory fs (State.start ι A capacity now₁ now₂) where
  sound := ⟨⟨_, Cache.refines_make A capacity now₁ now₂, coherent_make fs capacity⟩,
    by rintro _ _ _ ⟨⟩⟩
  heard _ := by rintro ⟨⟩
  conserved _ := ⟨rfl, fun _ => rfl⟩
  alone _ _ := ⟨[], .resting, rfl, rfl, Pipeline.Follows.opened (by decide)⟩

/-- **Every step** preserves the invariant. -/
lemma Inv.step {A : Allocator} {s s' : State ι} {l : Label ι} (hs : Inv servingDirectory fs s)
    (hstep : step servingDirectory fs A s l = some s') : Inv servingDirectory fs s' := by
  obtain ⟨hsound, c', hconns, hmove⟩ := hs.sound.step hstep
  refine ⟨hsound, ?_, ?_, ?_⟩ <;> rw [hconns]
  · rw [Function.forall_update_iff s.conns fun _ c => c.Heard]
    exact ⟨(hs.heard l.conn).moves hmove, fun j _ => hs.heard j⟩
  · rw [Function.forall_update_iff s.conns fun _ c => c.Conserved]
    exact ⟨(hs.conserved l.conn).moves hmove, fun j _ => hs.conserved j⟩
  · rw [Function.forall_update_iff s.conns fun _ c =>
      Plain servingDirectory c.arrived → c.Alone servingDirectory fs]
    exact ⟨Conn.Alone.moves (hs.alone l.conn) (hs.conserved l.conn) hmove, fun j _ => hs.alone j⟩

/-- **Every run** preserves the invariant. -/
lemma Inv.of_run {A : Allocator} {capacity : Int32} {now₁ now₂ : UInt64} {ls : List (Label ι)}
    {s : State ι} (hrun : Transition.exec (Reactor.step servingDirectory fs A)
      (State.start ι A capacity now₁ now₂) ls = some s) : Inv servingDirectory fs s :=
  Transition.invariant_of_exec (fun _ _ _ hs hstep => hs.step hstep) ls
    (.start servingDirectory fs A capacity now₁ now₂) hrun

/-- **No byte is lost, doubled, moved or forgotten.** Whatever the network, the pollers and the
handlers of all connections do and in whatever order: the bytes that have arrived at a connection
are the requests taken off its read buffer, what is in the read buffer, and what is in the socket,
in this order; the requests are the first frames of the stream; and if the connection is with its
poller and the poller has nothing to report, nothing is left in the socket and the peer has not left
either. -/
theorem stream_conserved {A : Allocator} {capacity : Int32} {now₁ now₂ : UInt64}
    {ls : List (Label ι)} {s : State ι}
    (hrun : Transition.exec (step servingDirectory fs A) (State.start ι A capacity now₁ now₂) ls =
      some s) (i : ι) :
    (s.conns i).arrived = (Pipeline.taken (s.conns i).events).flatten ++ (s.conns i).readBuffer ++
        (s.conns i).pending ∧
      Search.frames crlfCrlf (s.conns i).arrived = Pipeline.taken (s.conns i).events ++
        Search.frames crlfCrlf ((s.conns i).readBuffer ++ (s.conns i).pending) ∧
      ((s.conns i).stage = .polled → (s.conns i).edge = false →
        (s.conns i).pending = [] ∧ (s.conns i).closing = .open) := by
  have hinv := Inv.of_run hrun
  refine ⟨(hinv.conserved i).stream, ?_, fun hpolled => hinv.heard i (by rw [hpolled]; rfl)⟩
  rw [(hinv.conserved i).stream, List.append_assoc, (hinv.conserved i).frames]

/-- Bytes that arrive before the connection is registered are received afterwards. -/
theorem stream_conserved_early :
    ∃ s, Transition.exec (step (bytes "www") sampleFiles Allocator.bump)
        (State.start Unit Allocator.bump initCacheSize 0 0)
        [.arrive () sampleGet, .register (), .poll (), .callback (),
          .recv () (.data (sampleGet.take 20) (by decide))] = some s ∧
      (s.conns ()).arrived = (Pipeline.taken (s.conns ()).events).flatten ++
        (s.conns ()).readBuffer ++ (s.conns ()).pending ∧
      Search.frames crlfCrlf (s.conns ()).arrived = Pipeline.taken (s.conns ()).events ++
        Search.frames crlfCrlf ((s.conns ()).readBuffer ++ (s.conns ()).pending) ∧
      ((s.conns ()).stage = .polled → (s.conns ()).edge = false →
        (s.conns ()).pending = [] ∧ (s.conns ()).closing = .open) := by
  obtain ⟨s, hrun⟩ := Option.isSome_iff_exists.mp
    (show (Transition.exec (step (bytes "www") sampleFiles Allocator.bump)
      (State.start Unit Allocator.bump initCacheSize 0 0)
      [.arrive () sampleGet, .register (), .poll (), .callback (),
        .recv () (.data (sampleGet.take 20) (by decide))]).isSome by decide +kernel)
  exact ⟨s, hrun, stream_conserved hrun ()⟩

/-! ## A server of its own -/

/-- A connection of another server, which finds the whole stream in its read buffer when its
handler is called for the first time. -/
def solo (site : Site) (w : World Cache) (stream : Bytes) : ClientConn Cache :=
  serveFrames site stream.length { accepted w with unread := stream }

/-- Over a store that is coherent with the files, the handler replies as if nothing were cached. -/
lemma matches_stateless (servingDirectory : Bytes) {fileSystem : ℕ → FileSystem}
    (hfiles : ∀ n, fileSystem n = fs)
    {frame : Bytes} (hhead : asksForHead frame = false) {v : World Store}
    (hcoherent : Coherent fs v.cache) (u : Unit) :
    Pipeline.Matches (fun (v : World Store) (_ : Unit) => Coherent fs v.cache)
      (Spec.handleRequest servingDirectory fileSystem frame v)
      (Pipeline.stateless (replyTo servingDirectory fs) frame u) := by
  have hcases := Spec.beginRequest_cases servingDirectory fs frame v.cache
  have hreply := replyTo_of_begins hcoherent hhead hcases
  unfold Spec.handleRequest Pipeline.stateless
  rw [hfiles, hreply]
  cases hresult : Spec.beginRequest servingDirectory fs frame v.cache with
  | error fault => exact .error fault
  | ok outcome =>
    rw [hresult] at hcases
    exact .ok _ (hcoherent.of_begins hcases rfl)

/-- The connection of the other server is the session that shares nothing. -/
lemma solo_eq_alone {site : Site} (hfiles : ∀ n, site.fileSystem n = fs) {w : World Cache}
    (hw : Served site w) {stream : Bytes} (hplain : Plain site.servingDirectory stream) :
    (solo site w stream).events =
        (Pipeline.alone crlfCrlf (replyTo site.servingDirectory fs) stream).events ∧
      (solo site w stream).status =
        (Pipeline.alone crlfCrlf (replyTo site.servingDirectory fs) stream).status ∧
      (solo site w stream).unread =
        (Pipeline.alone crlfCrlf (replyTo site.servingDirectory fs) stream).unread := by
  obtain ⟨store, hstore, hcoherent⟩ := hw.coherent hfiles
  let v : World Store := ⟨store, w.handled, w.pastTheEnd⟩
  have ht : crlfCrlf ≠ [] := by decide
  have hrel := Pipeline.serve_rel ht (handleRequest_spec site)
    { accepted w with unread := stream }
    { unread := stream, shared := v, events := [], status := .serving }
    ⟨rfl, ⟨hstore, rfl, rfl⟩, rfl, rfl⟩
  have hrel' := Pipeline.serve_rel_of_frames
    (R := fun (v : World Store) (_ : Unit) => Coherent fs v.cache) ht
    { unread := stream, shared := v, events := [], status := .serving }
    (Pipeline.Session.opened.feed stream)
    (fun frame hframe v u hv => matches_stateless site.servingDirectory hfiles
      (hplain frame hframe).2 hv u)
    ⟨rfl, hcoherent, rfl, rfl⟩
  have hsolo : solo site w stream = Pipeline.serve crlfCrlf (handleRequest site)
      { accepted w with unread := stream } := serveFrames_eq site _ _
  rw [hsolo]
  exact ⟨hrel.events.trans hrel'.events, hrel.status.trans hrel'.status,
    hrel.unread.trans hrel'.unread⟩

section History

variable {s : State ι} (i : ι) (hplain : Plain servingDirectory (s.conns i).arrived) {site : Site}
  (hsite : site.servingDirectory = servingDirectory) (hfiles : ∀ n, site.fileSystem n = fs)
  {w : World Cache} (hw : Served site w)

omit [DecidableEq ι] in
include hplain hsite hfiles hw in
/-- The history of a connection, wherever the invariant holds.

**Proof sketch.** The connection is at some stage of the work of the session that shares nothing,
for the part of its stream that has been received (`Conn.Alone`). Unless the peer has been seen to
leave, its history is the beginning of that of the session, which is the beginning of that for the
whole stream; and a session that has ended takes no notice of what is still in the socket. If the
peer has been seen to leave, the connection was given up behind the session for a part of the
stream. That session is the connection of the other server (`solo_eq_alone`). -/
lemma Inv.history (hinv : Inv servingDirectory fs s) :
    (.peerClosed ∉ (s.conns i).events →
      (s.conns i).events <+: (solo site w (s.conns i).arrived).events ∧
      ((s.conns i).stage = .deleted →
        (s.conns i).events = (solo site w (s.conns i).arrived).events)) ∧
    (.peerClosed ∈ (s.conns i).events →
      ∃ front, front <+: (s.conns i).arrived ∧ (solo site w front).status = .serving ∧
        (s.conns i).events = (solo site w front).events ++ [.peerClosed, .deleted]) := by
  subst hsite
  have ht : crlfCrlf ≠ [] := by decide
  obtain ⟨input, p, hstream, hsees, hfollows⟩ := hinv.alone i hplain
  rw [hstream] at hplain ⊢
  have hsilent : Pipeline.NeverSilent crlfCrlf
      (Pipeline.stateless (replyTo site.servingDirectory fs)) (input ++ (s.conns i).pending) :=
    hplain.neverSilent
  have hfront := hfollows.events_isPrefix ht
  constructor
  · intro hpeer
    have hgone : p ≠ .gone := by
      rintro rfl
      obtain ⟨front, m, -, -, hevents⟩ := hfollows
      exact hpeer (show Event.peerClosed ∈ (s.conns i).session.events by simp [hevents])
    rw [(solo_eq_alone hfiles hw hplain).1]
    refine ⟨(hfront hgone hplain.front.neverSilent).trans
      (Pipeline.alone_events_isPrefix ht hsilent), fun hdeleted => ?_⟩
    rw [hdeleted] at hsees
    obtain rfl : p = .resting := hsees.resolve_right hgone
    have hagree : Pipeline.Agree (s.conns i).session
      (Pipeline.alone crlfCrlf (replyTo site.servingDirectory fs) input) := hfollows
    -- a session that has ended takes no notice of what is still in the socket
    have hended : (Pipeline.alone crlfCrlf (replyTo site.servingDirectory fs) input).status ≠
        .serving := by
      rw [← hagree.status, Conn.session, hdeleted]
      rintro ⟨⟩
    have hrest := Pipeline.deliver_alone_agree ht hsilent
    rw [Pipeline.deliver_of_ended crlfCrlf _ hended] at hrest
    exact hagree.events.trans hrest.events
  · intro hpeer
    obtain rfl : p = .gone := by
      by_contra hgone
      exact Pipeline.peerClosed_notMem_alone ht input
        ((hfront hgone hplain.front.neverSilent).subset hpeer)
    obtain ⟨front, m, rfl, hserving, hevents⟩ := hfollows
    obtain ⟨hsolo, hstatus, -⟩ := solo_eq_alone hfiles hw hplain.front.front
    refine ⟨front, ⟨m ++ (s.conns i).pending, by simp⟩, hstatus.trans hserving, ?_⟩
    rw [hsolo]
    exact hevents

omit [DecidableEq ι] in
include hplain hsite hfiles hw in
/-- The history of a connection that is with its poller, wherever the invariant holds. -/
lemma Inv.complete (hinv : Inv servingDirectory fs s) (hpolled : (s.conns i).stage = .polled)
    (hedge : (s.conns i).edge = false) :
    (s.conns i).pending = [] ∧
      (s.conns i).events = (solo site w (s.conns i).arrived).events ∧
      (s.conns i).readBuffer = (solo site w (s.conns i).arrived).unread ∧
      (solo site w (s.conns i).arrived).status = .serving ∧
      ¬ crlfCrlf <:+: (s.conns i).readBuffer := by
  subst hsite
  obtain ⟨input, p, hstream, hsees, hfollows⟩ := hinv.alone i hplain
  obtain ⟨hpending, -⟩ := hinv.heard i (by rw [hpolled]; rfl) hedge
  rw [hpending, List.append_nil] at hstream
  rw [hpolled] at hsees
  obtain rfl : p = .resting := hsees
  have hagree : Pipeline.Agree (s.conns i).session
      (Pipeline.alone crlfCrlf (replyTo site.servingDirectory fs) input) := hfollows
  have hserving : (s.conns i).session.status = .serving := by rw [Conn.session, hpolled]; rfl
  rw [hstream] at hplain ⊢
  obtain ⟨hevents, hstatus, hunread⟩ := solo_eq_alone hfiles hw hplain
  have hbuffer : (s.conns i).readBuffer =
      (Pipeline.alone crlfCrlf (replyTo site.servingDirectory fs) input).unread :=
    hagree.unread hserving
  refine ⟨hpending, hagree.events.trans hevents.symm, hbuffer.trans hunread.symm,
    hstatus.trans (hagree.status.symm.trans hserving), ?_⟩
  rw [← Search.cut_eq_none_iff, hbuffer]
  exact Pipeline.cut_serve_eq_none (by decide) rfl hplain.neverSilent
    (hagree.status.symm.trans hserving)

variable {A : Allocator} {capacity : Int32} {now₁ now₂ : UInt64} {ls : List (Label ι)}
  (hrun : Transition.exec (step servingDirectory fs A) (State.start ι A capacity now₁ now₂) ls =
    some s)

include hrun hplain hsite hfiles hw in
/-- **Connections do not notice each other.** Let the stream of a connection ask neither for scripts
nor for mere heads. After any interleaving of the network, the pollers and the handlers of all
connections, its history is the beginning of what it would be in any other server for the same
files, whatever that server has done before, if the whole stream had been there from the start; and
if the server itself has ended the connection, it is all of that. If the peer has left, it is what
it would be for the part of the stream that had been received before, and the departure of the
peer. -/
theorem history_alone :
    (.peerClosed ∉ (s.conns i).events →
      (s.conns i).events <+: (solo site w (s.conns i).arrived).events ∧
      ((s.conns i).stage = .deleted →
        (s.conns i).events = (solo site w (s.conns i).arrived).events)) ∧
    (.peerClosed ∈ (s.conns i).events →
      ∃ front, front <+: (s.conns i).arrived ∧ (solo site w front).status = .serving ∧
        (s.conns i).events = (solo site w front).events ++ [.peerClosed, .deleted]) :=
  (Inv.of_run hrun).history i hplain hsite hfiles hw

/-- Two connections for the same page: the request of the first one arrives in two pieces, the
second of them while the first is being looked at, and both miss the cache before either has
inserted the page. -/
def sampleRun : List (Label Bool) :=
  [.arrive false sampleGet, .register true, .register false, .arrive true (sampleGet.take 20),
    .poll true, .callback true, .recv true (.data (sampleGet.take 20) (by decide)),
    .recv true (.error .eagain), .arrive true (sampleGet.drop 20), .begin true 0, .poll false,
    .callback false, .recv false (.data sampleGet (by decide)), .poll true, .callback true,
    .recv true (.error .eintr), .recv true (.data (sampleGet.drop 20) (by decide)),
    .recv false (.error .eagain), .recv true (.error .eagain), .begin false 1, .begin true 2,
    .finish true 3, .finish false 4, .begin true 5, .begin false 6]

/-- The first of them has a request and its answer behind it, as it would have alone. -/
theorem history_alone_interleaved :
    ∃ s, Transition.exec (step (bytes "www") sampleFiles Allocator.bump)
        (State.start Bool Allocator.bump initCacheSize 0 0) sampleRun = some s ∧
      (s.conns true).events.length = 3 ∧
      (.peerClosed ∉ (s.conns true).events →
        (s.conns true).events <+: (solo sampleSite sampleWorld (s.conns true).arrived).events ∧
        ((s.conns true).stage = .deleted →
          (s.conns true).events = (solo sampleSite sampleWorld (s.conns true).arrived).events)) ∧
      (.peerClosed ∈ (s.conns true).events →
        ∃ front, front <+: (s.conns true).arrived ∧
          (solo sampleSite sampleWorld front).status = .serving ∧
          (s.conns true).events =
            (solo sampleSite sampleWorld front).events ++ [.peerClosed, .deleted]) := by
  have hseen : (Transition.exec (step (bytes "www") sampleFiles Allocator.bump)
      (State.start Bool Allocator.bump initCacheSize 0 0) sampleRun).map
      (fun s => ((s.conns true).events.length, (s.conns true).arrived)) = some (3, sampleGet) := by
    decide +kernel
  obtain ⟨s, hrun, hs⟩ := Option.map_eq_some_iff.mp hseen
  obtain ⟨hevents, harrived⟩ := Prod.mk.inj hs
  have hplain : Plain (bytes "www") (s.conns true).arrived := by
    rw [harrived]
    decide +kernel
  exact ⟨s, hrun, hevents,
    history_alone true hplain rfl (fun _ => rfl) (.start initCacheSize 0 0) hrun⟩

include hrun hplain hsite hfiles hw in
/-- **Every request is answered.** When such a connection is with its poller and the poller has
nothing to report, all that has arrived has been received, every request in it has been answered as
it would be in any other server for the same files, and the read buffer holds the beginning of the
next request and nothing more. -/
theorem history_complete (hpolled : (s.conns i).stage = .polled)
    (hedge : (s.conns i).edge = false) :
    (s.conns i).pending = [] ∧
      (s.conns i).events = (solo site w (s.conns i).arrived).events ∧
      (s.conns i).readBuffer = (solo site w (s.conns i).arrived).unread ∧
      (solo site w (s.conns i).arrived).status = .serving ∧
      ¬ crlfCrlf <:+: (s.conns i).readBuffer :=
  (Inv.of_run hrun).complete i hplain hsite hfiles hw hpolled hedge

/-- At the end both connections are with their pollers again, and nothing is left to be said about
them. -/
theorem history_complete_interleaved :
    ∃ s, Transition.exec (step (bytes "www") sampleFiles Allocator.bump)
        (State.start Bool Allocator.bump initCacheSize 0 0) sampleRun = some s ∧
      (s.conns false).pending = [] ∧
      (s.conns false).events = (solo sampleSite sampleWorld (s.conns false).arrived).events ∧
      (s.conns false).readBuffer = (solo sampleSite sampleWorld (s.conns false).arrived).unread ∧
      (solo sampleSite sampleWorld (s.conns false).arrived).status = .serving ∧
      ¬ crlfCrlf <:+: (s.conns false).readBuffer := by
  have hseen : (Transition.exec (step (bytes "www") sampleFiles Allocator.bump)
      (State.start Bool Allocator.bump initCacheSize 0 0) sampleRun).map
      (fun s => ((s.conns false).arrived, (s.conns false).edge, (s.conns false).stage)) =
        some (sampleGet, false, .polled) := by
    decide +kernel
  obtain ⟨s, hrun, hs⟩ := Option.map_eq_some_iff.mp hseen
  simp only [Prod.mk.injEq] at hs
  obtain ⟨harrived, hedge, hpolled⟩ := hs
  have hplain : Plain (bytes "www") (s.conns false).arrived := by
    rw [harrived]
    decide +kernel
  exact ⟨s, hrun, history_complete false hplain rfl (fun _ => rfl) (.start initCacheSize 0 0)
    hrun hpolled hedge⟩

end History

end Reactor

end Icee.Http
