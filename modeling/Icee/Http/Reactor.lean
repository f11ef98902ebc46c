import Icee.Http.Delivery
import Icee.Http.Concurrent
import Icee.Lib.PipelineStages

set_option relaxedAutoImplicit false
set_option autoImplicit false

/-!
# The reactors at work

Any number of connections, served side by side: bytes arrive at their sockets, the edge-triggered
pollers report them, `Connection::Recv` reads them piece by piece, and the loop of
`ParseHttpRequest` answers the requests among them from the cache that all connections share. Every
call of `recv`, `TryLoad` and `TryInsert` is a step of its own, and between two steps of one
connection anything may happen to the others, to the cache, and to its own socket.

## Main definitions

* `Icee.Http.Reactor.Conn` — a connection, with the socket and what the poller knows of it.
* `Icee.Http.Reactor.Conn.intake`, `Icee.Http.Reactor.Conn.act` — one step of a connection: of its
  receiving side alone, and together with the cache.
* `Icee.Http.Reactor.State`, `Icee.Http.Reactor.Label`, `Icee.Http.Reactor.step` — the system.
* `Icee.Http.Reactor.Conn.Moves` — what a step does to the connection that it is about.
* `Icee.Http.Reactor.Conn.Heard` — no bytes are left behind that the poller will not report.
* `Icee.Http.Reactor.Conn.Conserved` — the bytes of the stream are where they should be.

## Main results

* `Icee.Http.Reactor.Sound.step` — what the handlers share stays right, and one connection makes a
  move.
* `Icee.Http.Reactor.Conn.Heard.moves`, `Icee.Http.Reactor.Conn.Conserved.moves` — what every move
  preserves.

## Design

An edge-triggered poller reports a connection once for everything that has happened since its last
report, and when it is added it looks at what is there. It may also report a connection of which
nothing is new. A handler runs for one connection at a time, and for a connection only after it has
been reported; which thread runs it does not matter here, so that the steps of two connections of
one event looper may be interleaved as well. A peer that has shut its end down may still reset the
connection. The files do not change.
-/

namespace Icee.Http

namespace Reactor

open Pipeline (Event)

/-! ## Connections -/

/-- What the peer has done to its end of the connection. -/
inductive Closing
  | open
  /-- The peer has shut its end down. -/
  | shutdown
  /-- The connection has been reset. -/
  | reset
  deriving DecidableEq, Repr

deriving instance DecidableEq for Missed

/-- How far a connection has come. -/
inductive Stage
  /-- No poller has it yet. -/
  | unregistered
  /-- The poller has it, and no handler runs for it. -/
  | polled
  /-- It has been reported, and its handler is yet to be called. -/
  | reported
  /-- In `Recv`. -/
  | receiving
  /-- In the loop of `ParseHttpRequest`. -/
  | parsing
  /-- After a miss, before `TryInsert`. -/
  | inserting (m : Missed) (noMoreParse : Bool)
  /-- `DeleteConnection` has been called for it. -/
  | deleted
  /-- Its handler has brought the process down. -/
  | crashed (fault : Fault)
  deriving DecidableEq

/-- A connection: for the record all bytes that have arrived; the socket, with the bytes that have
not been received, and what the peer has done; whether the poller has something to report; how far
the connection has come, its read buffer, and its history. -/
structure Conn where
  arrived : Bytes
  pending : Bytes
  closing : Closing
  edge : Bool
  stage : Stage
  readBuffer : Bytes
  events : List (Event UInt8 Bytes)

namespace Conn

/-- A new connection. -/
def new : Conn where
  arrived := []
  pending := []
  closing := .open
  edge := false
  stage := .unregistered
  readBuffer := []
  events := []

/-- Whether a poller has the connection. -/
def registered (c : Conn) : Bool :=
  match c.stage with
  | .unregistered | .deleted => false
  | _ => true

/-- Bytes arrive. -/
def arrive (m : Bytes) (c : Conn) : Conn :=
  { c with arrived := c.arrived ++ m, pending := c.pending ++ m, edge := c.edge || c.registered }

/-- The peer closes or resets the connection. -/
def close (how : Closing) (c : Conn) : Conn :=
  { c with closing := how, edge := c.edge || c.registered }

/-- `Poller::AddConnection`, for a new connection. -/
def register (c : Conn) : Conn :=
  { c with stage := .polled, edge := c.pending ≠ [] ∨ c.closing ≠ .open }

/-- `recv` can give back this result. -/
def Gives (c : Conn) : RecvResult → Prop
  | .data chunk _ => chunk <+: c.pending
  | .eof => c.pending = [] ∧ c.closing = .shutdown
  | .error .eintr => True
  | .error .eagain => c.pending = [] ∧ c.closing = .open
  | .error .ewouldblock => c.pending = [] ∧ c.closing = .open
  | .error .other => c.closing = .reset

instance (c : Conn) : DecidablePred c.Gives
  | .data chunk _ => inferInstanceAs (Decidable (chunk <+: c.pending))
  | .eof => inferInstanceAs (Decidable (c.pending = [] ∧ c.closing = .shutdown))
  | .error .eintr => .isTrue trivial
  | .error .eagain => inferInstanceAs (Decidable (c.pending = [] ∧ c.closing = .open))
  | .error .ewouldblock => inferInstanceAs (Decidable (c.pending = [] ∧ c.closing = .open))
  | .error .other => inferInstanceAs (Decidable (c.closing = .reset))

/-- `DeleteConnection`, after `Recv` has reported an exit. -/
def leave (c : Conn) : Conn :=
  { c with stage := .deleted, events := c.events ++ [.peerClosed, .deleted] }

/-- One turn of the loop of `Recv`. -/
def recv (c : Conn) : RecvResult → Conn
  | .data chunk _ =>
    { c with
      pending := c.pending.drop chunk.length
      readBuffer := Buffer.append c.readBuffer chunk }
  | .eof => c.leave
  | .error .eintr => c
  | .error .eagain => { c with stage := .parsing }
  | .error .ewouldblock => { c with stage := .parsing }
  | .error .other => c.leave

end Conn

/-- The steps of the receiving side of a connection: of the network, of the poller, and of `Recv`
when it has been called. -/
inductive Intake
  | arrive (m : Bytes)
  | close (how : Closing)
  | register
  /-- A poller reports the connection for no reason. -/
  | spurious
  | poll
  | callback
  | recv (result : RecvResult)

namespace Conn

/-- The peer can do this to its end of the connection. -/
def Closes (c : Conn) (how : Closing) : Prop :=
  c.closing = .open ∧ how ≠ .open ∨ c.closing = .shutdown ∧ how = .reset

instance (c : Conn) (how : Closing) : Decidable (c.Closes how) :=
  inferInstanceAs (Decidable (c.closing = .open ∧ how ≠ .open ∨
    c.closing = .shutdown ∧ how = .reset))

/-- One step of the receiving side. -/
def intake (c : Conn) : Intake → Option Conn
  | .arrive m => if c.closing = .open then some (c.arrive m) else none
  | .close how => if c.Closes how then some (c.close how) else none
  | .register => if c.stage = .unregistered then some c.register else none
  | .spurious => some { c with edge := true }
  | .poll =>
    if c.stage = .polled ∧ c.edge = true then some { c with stage := .reported, edge := false }
    else none
  | .callback => if c.stage = .reported then some { c with stage := .receiving } else none
  | .recv result =>
    if c.stage = .receiving ∧ c.Gives result then some (c.recv result) else none

/-- A request is taken off the read buffer. -/
def pop (request readBuffer : Bytes) (c : Conn) : Conn :=
  { c with readBuffer, events := c.events ++ [.popped request] }

/-- `WriteToWriteBuffer` and `Send`, and then `DeleteConnection` if there is no more to parse. -/
def answer (responseBuf : Bytes) (noMoreParse : Bool) (c : Conn) : Conn :=
  if noMoreParse then
    { c with events := c.events ++ [.written responseBuf, .sent, .deleted], stage := .deleted }
  else
    { c with events := c.events ++ [.written responseBuf, .sent], stage := .parsing }

end Conn

/-! ## The system -/

/-- What can happen to a connection. -/
inductive Act
  | intake (e : Intake)
  /-- The next request, up to the end of `TryLoad` or up to `TryInsert`. -/
  | begin (now : UInt64)
  /-- `TryInsert`, and the answer. -/
  | finish (now : UInt64)

/-- What a step leaves: the cache, the connection, and the fault that has stopped the process. -/
structure Outcome where
  cache : Cache
  conn : Conn
  fault : Option Fault

/-- The next request of a connection, after it has been taken off the read buffer. -/
def beginStep (servingDirectory : Bytes) (fs : FileSystem) (now : UInt64) (cache : Cache)
    (request : Bytes) (c : Conn) : Outcome :=
  match beginRequest servingDirectory fs now request cache with
  | .error fault => { cache, conn := { c with stage := .crashed fault }, fault := some fault }
  | .ok (cache, .cgi, _) => { cache, conn := { c with stage := .polled }, fault := none }
  | .ok (cache, .answered responseBuf noMoreParse, _) =>
    { cache, conn := c.answer responseBuf noMoreParse, fault := none }
  | .ok (cache, .missed resourceFullPath responseBuf cacheBuf noMoreParse, _) =>
    let m : Missed := { frame := request, resourceFullPath, responseBuf, cacheBuf }
    { cache, conn := { c with stage := .inserting m noMoreParse }, fault := none }

/-- One step of a connection, with the cache that all connections share. -/
def Conn.act (servingDirectory : Bytes) (fs : FileSystem) (A : Allocator) (cache : Cache)
    (c : Conn) : Act → Option Outcome
  | .intake e => (c.intake e).map fun conn => { cache, conn, fault := none }
  | .begin now => match c.stage with
    | .parsing => match Buffer.findAndPopTill c.readBuffer crlfCrlf with
      | (none, _) => some { cache, conn := { c with stage := .polled }, fault := none }
      | (some request, readBuffer) =>
        some (beginStep servingDirectory fs now cache request (c.pop request readBuffer))
    | _ => none
  | .finish now => match c.stage with
    | .inserting m noMoreParse =>
      match finishRequest A now m.resourceFullPath m.cacheBuf cache with
      | .error fault =>
        some { cache, conn := { c with stage := .crashed fault }, fault := some fault }
      | .ok cache => some { cache, conn := c.answer m.responseBuf noMoreParse, fault := none }
    | _ => none

/-- The server: the cache, the connections, and the fault that has stopped the process. -/
structure State (ι : Type) where
  cache : Cache
  conns : ι → Conn
  fault : Option Fault

/-- The steps of the system: something happens to one of the connections. -/
structure Label (ι : Type) where
  conn : ι
  act : Act

namespace Label

variable {ι : Type} (i : ι)

/-! The steps by their names. -/

abbrev arrive (m : Bytes) : Label ι := ⟨i, .intake (.arrive m)⟩
abbrev close (how : Closing) : Label ι := ⟨i, .intake (.close how)⟩
abbrev register : Label ι := ⟨i, .intake .register⟩
abbrev spurious : Label ι := ⟨i, .intake .spurious⟩
abbrev poll : Label ι := ⟨i, .intake .poll⟩
abbrev callback : Label ι := ⟨i, .intake .callback⟩
abbrev recv (result : RecvResult) : Label ι := ⟨i, .intake (.recv result)⟩
abbrev begin (now : UInt64) : Label ι := ⟨i, .begin now⟩
abbrev finish (now : UInt64) : Label ι := ⟨i, .finish now⟩

end Label

variable {ι : Type} [DecidableEq ι]

namespace State

/-- The server when it starts. -/
def start (ι : Type) (A : Allocator) (capacity : Int32) (now₁ now₂ : UInt64) : State ι where
  cache := Cache.make A capacity now₁ now₂
  conns _ := .new
  fault := none

/-- A connection changes. -/
def set (s : State ι) (i : ι) (c : Conn) : State ι :=
  { s with conns := Function.update s.conns i c }

/-- A step of a connection has been taken. -/
def put (s : State ι) (i : ι) (o : Outcome) : State ι where
  cache := o.cache
  conns := Function.update s.conns i o.conn
  fault := o.fault

end State

/-- One step of the system while the process runs. -/
def liveStep (servingDirectory : Bytes) (fs : FileSystem) (A : Allocator) (s : State ι)
    (l : Label ι) : Option (State ι) :=
  ((s.conns l.conn).act servingDirectory fs A s.cache l.act).map (s.put l.conn)

/-- One step of the system. -/
def step (servingDirectory : Bytes) (fs : FileSystem) (A : Allocator) (s : State ι)
    (l : Label ι) : Option (State ι) :=
  match s.fault with
  | none => liveStep servingDirectory fs A s l
  | some _ => none

/-! ## What a step does to a connection -/

/-- The frame is a request for no more than a head. -/
def asksForHead (frame : Bytes) : Bool :=
  match Request.ofString frame with
  | .error _ => false
  | .ok r => r.method = some .head

/-- The reply to a request if nothing is cached. -/
def replyTo (servingDirectory : Bytes) (fs : FileSystem) (frame : Bytes) :
    Except Fault (Pipeline.Reply Bytes) :=
  (Spec.beginRequest servingDirectory fs frame (Store.make 0)).map
    fun outcome => (Spec.finish outcome).2.1

variable {servingDirectory : Bytes} {fs : FileSystem}

/-- A store with nothing in it is coherent with any files. -/
lemma coherent_make (fs : FileSystem) (capacity : Int32) : Coherent fs (Store.make capacity) := by
  rintro _ _ ⟨⟩

/-- **What is cached does not matter** for the reply, unless it is to a request for a head. -/
lemma replyTo_of_begins {frame : Bytes} {store : Store}
    {outcome : Except Fault (Store × Begun × Bool)} (hcoherent : Coherent fs store)
    (hhead : asksForHead frame = false)
    (h : Spec.Begins servingDirectory fs frame store outcome) :
    replyTo servingDirectory fs frame = outcome.map fun outcome => (Spec.finish outcome).2.1 := by
  have hempty : ∀ path, (Store.make 0).lookup path = none := fun path => rfl
  unfold replyTo Spec.beginRequest
  cases h with
  | unparsed parse => simp [parse, Except.map]
  | badRequest parse valid => simp [parse, valid, Except.map, Spec.finish]
  | cgi parse valid cgi => simp [parse, valid, cgi, Except.map, Spec.finish]
  | notFound parse valid cgi entry => simp [parse, valid, cgi, entry, Except.map, Spec.finish]
  | directory parse valid cgi entry => simp [parse, valid, cgi, entry, Except.map]
  | @hit r content data parse valid cgi entry cached =>
    have hmethod : r.method ≠ some .head := by simpa [asksForHead, parse] using hhead
    have hdata := (hcoherent _ _ (Store.mem_of_lookup cached)).1
    rw [entry] at hdata
    cases hdata
    simp [parse, valid, cgi, entry, hempty, hmethod, Except.map, Spec.finish]
  | miss parse valid cgi entry cached =>
    simp [parse, valid, cgi, entry, hempty, Except.map, Spec.finish]

/-- What a step of the receiving side does to a connection. -/
inductive Conn.Takes (c : Conn) : Intake → Conn → Prop
  | arrive (m : Bytes) (closing : c.closing = .open) : Takes c (.arrive m) (c.arrive m)
  | close (how : Closing) (closing : c.Closes how) : Takes c (.close how) (c.close how)
  | register (stage : c.stage = .unregistered) : Takes c .register c.register
  | spurious : Takes c .spurious { c with edge := true }
  | poll (stage : c.stage = .polled) (edge : c.edge = true) :
    Takes c .poll { c with stage := .reported, edge := false }
  | callback (stage : c.stage = .reported) : Takes c .callback { c with stage := .receiving }
  | recv {result : RecvResult} (stage : c.stage = .receiving) (gives : c.Gives result) :
    Takes c (.recv result) (c.recv result)

/-- What a step does to the connection that it is about, and whether it stops the process. -/
inductive Conn.Moves (servingDirectory : Bytes) (fs : FileSystem) (c : Conn) :
    Act → Conn → Option Fault → Prop
  | intake {e : Intake} {c' : Conn} (takes : c.Takes e c') :
    Moves servingDirectory fs c (.intake e) c' none
  | rest {now : UInt64} (stage : c.stage = .parsing)
    (cut : Search.cut crlfCrlf c.readBuffer = none) :
    Moves servingDirectory fs c (.begin now) { c with stage := .polled } none
  | fail {now : UInt64} {request readBuffer : Bytes} {fault : Fault} (stage : c.stage = .parsing)
    (cut : Search.cut crlfCrlf c.readBuffer = some (request, readBuffer))
    (reply : asksForHead request = false →
      replyTo servingDirectory fs request = .error fault) :
    Moves servingDirectory fs c (.begin now)
      { c.pop request readBuffer with stage := .crashed fault } (some fault)
  | silent {now : UInt64} {request readBuffer : Bytes} (stage : c.stage = .parsing)
    (cut : Search.cut crlfCrlf c.readBuffer = some (request, readBuffer))
    (cgi : asksForCgi servingDirectory request = true) :
    Moves servingDirectory fs c (.begin now) { c.pop request readBuffer with stage := .polled } none
  | answer {now : UInt64} {request readBuffer responseBuf : Bytes} {noMoreParse : Bool}
    (stage : c.stage = .parsing)
    (cut : Search.cut crlfCrlf c.readBuffer = some (request, readBuffer))
    (reply : asksForHead request = false →
      replyTo servingDirectory fs request = .ok (.answer responseBuf noMoreParse)) :
    Moves servingDirectory fs c (.begin now)
      ((c.pop request readBuffer).answer responseBuf noMoreParse) none
  | miss {now : UInt64} {request readBuffer : Bytes} {m : Missed} {noMoreParse : Bool}
    (stage : c.stage = .parsing)
    (cut : Search.cut crlfCrlf c.readBuffer = some (request, readBuffer))
    (reply : asksForHead request = false →
      replyTo servingDirectory fs request = .ok (.answer m.responseBuf noMoreParse)) :
    Moves servingDirectory fs c (.begin now)
      { c.pop request readBuffer with stage := .inserting m noMoreParse } none
  | finish {now : UInt64} {m : Missed} {noMoreParse : Bool}
    (stage : c.stage = .inserting m noMoreParse) :
    Moves servingDirectory fs c (.finish now) (c.answer m.responseBuf noMoreParse) none

/-- **The inversion of a step** of the receiving side. -/
lemma Conn.takes_of_intake {c c' : Conn} {e : Intake} (h : c.intake e = some c') :
    c.Takes e c' := by
  cases e with
  | spurious =>
    cases h
    exact .spurious
  | arrive m =>
    obtain ⟨closing, ⟨⟩⟩ := Option.ite_none_right_eq_some.mp h
    exact .arrive m closing
  | close how =>
    obtain ⟨closing, ⟨⟩⟩ := Option.ite_none_right_eq_some.mp h
    exact .close how closing
  | register =>
    obtain ⟨stage, ⟨⟩⟩ := Option.ite_none_right_eq_some.mp h
    exact .register stage
  | poll =>
    obtain ⟨⟨stage, edge⟩, ⟨⟩⟩ := Option.ite_none_right_eq_some.mp h
    exact .poll stage edge
  | callback =>
    obtain ⟨stage, ⟨⟩⟩ := Option.ite_none_right_eq_some.mp h
    exact .callback stage
  | recv result =>
    obtain ⟨⟨stage, gives⟩, ⟨⟩⟩ := Option.ite_none_right_eq_some.mp h
    exact .recv stage gives

/-- The cache holds nothing but what is in the files. -/
def FromFiles (fs : FileSystem) (cache : Cache) : Prop :=
  ∃ store, cache.Refines store ∧ Coherent fs store

/-- What the handler is about to insert is what is in the files. -/
def Conn.Loaded (fs : FileSystem) (c : Conn) : Prop :=
  ∀ m noMoreParse, c.stage = .inserting m noMoreParse →
    fs m.resourceFullPath = .regular m.cacheBuf ∧ isCgiRequest m.resourceFullPath = false

section Inversion

variable {cache : Cache} {c c' : Conn}

/-- A connection that is about to insert nothing. -/
lemma Conn.loaded_of_ne (h : ∀ m noMoreParse, c.stage ≠ .inserting m noMoreParse) : c.Loaded fs :=
  fun m last hstage => absurd hstage (h m last)

/-- After an answer a connection is not about to insert anything. -/
lemma Conn.loaded_answer (responseBuf : Bytes) (noMoreParse : Bool) (c : Conn) :
    (c.answer responseBuf noMoreParse).Loaded fs :=
  loaded_of_ne fun m last => by cases noMoreParse <;> simp [Conn.answer]

/-- The receiving side inserts nothing. -/
lemma Conn.Loaded.takes {e : Intake} (h : c.Loaded fs) (takes : c.Takes e c') : c'.Loaded fs := by
  cases takes with
  | arrive | close | spurious => exact h
  | register | poll | callback => exact loaded_of_ne (by rintro _ _ ⟨⟩)
  | @recv result stage gives =>
    refine loaded_of_ne fun m last hstage => ?_
    rcases result with chunk | _ | (_ | _ | _ | _) <;>
      simp [Conn.recv, Conn.leave, stage] at hstage

/-- **The step of a request** up to `TryInsert`.

**Proof sketch.** The step has on the cache the outcome that it has on the store
(`beginRequest_spec`). The cases are these outcomes. In each of them the reply is the one that there
would be if nothing were cached (`replyTo_of_begins`), and a page that is about to be inserted has
been read from the files. -/
lemma moves_beginStep (hcache : FromFiles fs cache) {request readBuffer : Bytes}
    (stage : c.stage = .parsing)
    (cut : Search.cut crlfCrlf c.readBuffer = some (request, readBuffer)) (now : UInt64)
    {o : Outcome}
    (ho : beginStep servingDirectory fs now cache request (c.pop request readBuffer) = o) :
    FromFiles fs o.cache ∧ o.conn.Loaded fs ∧
      c.Moves servingDirectory fs (.begin now) o.conn o.fault := by
  obtain ⟨store, hstore, hcoherent⟩ := hcache
  have hcases := Spec.beginRequest_cases servingDirectory fs request store
  have hspec := beginRequest_spec hstore servingDirectory fs now request
  -- the reply to the request, as far as it is known after this step
  have hreply := fun hhead => replyTo_of_begins hcoherent hhead hcases
  unfold beginStep at ho
  cases hresult : Spec.beginRequest servingDirectory fs request store with
  | error fault =>
    rw [hresult] at hspec hreply
    rw [show beginRequest servingDirectory fs now request cache = .error fault from hspec] at ho
    subst ho
    exact ⟨⟨store, hstore, hcoherent⟩, Conn.loaded_of_ne (by rintro _ _ ⟨⟩), .fail stage cut hreply⟩
  | ok result =>
    obtain ⟨store', begun, past⟩ := result
    rw [hresult] at hspec hcases hreply
    obtain ⟨cache', hstore', hbegin⟩ := hspec
    rw [hbegin] at ho
    subst ho
    cases begun with
    | cgi =>
      cases hcases with
      | cgi parse valid cgi =>
        refine ⟨⟨store, hstore', hcoherent⟩, Conn.loaded_of_ne (by rintro _ _ ⟨⟩),
          .silent stage cut ?_⟩
        simp [asksForCgi, parse, valid, cgi]
    | answered responseBuf noMoreParse =>
      obtain ⟨hcoherent', -⟩ := Handlers.rightAnswer_of_answered hcoherent hcases
      exact ⟨⟨store', hstore', hcoherent'⟩, Conn.loaded_answer responseBuf noMoreParse _,
        .answer stage cut hreply⟩
    | missed path responseBuf cacheBuf noMoreParse =>
      obtain ⟨rfl, hfile, hcgi, -⟩ := Handlers.rightAnswer_of_missed hcases
      refine ⟨⟨store', hstore', hcoherent⟩, fun m last h => ?_, .miss stage cut hreply⟩
      cases h
      exact ⟨hfile, hcgi⟩

/-- **The inversion of a step**: the connection makes a move, and the cache and what is about to be
inserted stay what is in the files. -/
lemma Conn.moves_of_act {A : Allocator} {act : Act} {o : Outcome} (hcache : FromFiles fs cache)
    (hloaded : c.Loaded fs) (h : c.act servingDirectory fs A cache act = some o) :
    FromFiles fs o.cache ∧ o.conn.Loaded fs ∧ c.Moves servingDirectory fs act o.conn o.fault := by
  cases act with
  | intake e =>
    obtain ⟨c', hintake, rfl⟩ := Option.map_eq_some_iff.mp h
    have takes := takes_of_intake hintake
    exact ⟨hcache, hloaded.takes takes, .intake takes⟩
  | begin now =>
    cases stage : c.stage <;> simp only [Conn.act, stage, reduceCtorEq] at h
    rw [Buffer.findAndPopTill_eq] at h
    cases cut : Search.cut crlfCrlf c.readBuffer with
    | none =>
      rw [cut] at h
      cases h
      exact ⟨hcache, loaded_of_ne (by rintro _ _ ⟨⟩), .rest stage cut⟩
    | some p =>
      obtain ⟨request, readBuffer⟩ := p
      rw [cut] at h
      exact moves_beginStep hcache stage cut now (Option.some.inj h)
  | finish now =>
    cases stage : c.stage <;> simp only [Conn.act, stage, reduceCtorEq] at h
    rename_i m noMoreParse
    obtain ⟨store, hstore, hcoherent⟩ := hcache
    obtain ⟨hfile, hcgi⟩ := hloaded m noMoreParse stage
    obtain ⟨cache', hinsert, hstore'⟩ := hstore.tryInsert A m.resourceFullPath m.cacheBuf now
    have hfinish : finishRequest A now m.resourceFullPath m.cacheBuf cache = .ok cache' := by
      simp only [finishRequest, hinsert, bind, Except.bind]
      rfl
    rw [hfinish] at h
    cases h
    exact ⟨⟨_, hstore', hcoherent.insert hfile hcgi⟩, loaded_answer m.responseBuf noMoreParse c,
      .finish stage⟩

end Inversion

/-- What the handlers share is right: the cache is coherent with the files, and so is what is about
to be inserted. -/
structure Sound (fs : FileSystem) (s : State ι) : Prop where
  cache : FromFiles fs s.cache
  inserting : ∀ i, (s.conns i).Loaded fs

/-- **What a step does to the system**: what the handlers share stays right, and the connection that
the step is about makes a move, which may stop the process. -/
lemma Sound.step {A : Allocator} {s s' : State ι} {l : Label ι} (hs : Sound fs s)
    (hstep : step servingDirectory fs A s l = some s') :
    Sound fs s' ∧ ∃ c', s'.conns = Function.update s.conns l.conn c' ∧
      (s.conns l.conn).Moves servingDirectory fs l.act c' s'.fault := by
  unfold Reactor.step at hstep
  split at hstep
  case h_2 => cases hstep
  obtain ⟨o, hact, rfl⟩ := Option.map_eq_some_iff.mp hstep
  obtain ⟨hcache, hloaded, hmoves⟩ := Conn.moves_of_act hs.cache (hs.inserting l.conn) hact
  refine ⟨⟨hcache, ?_⟩, o.conn, rfl, hmoves⟩
  exact (Function.forall_update_iff s.conns fun _ c => c.Loaded fs).mpr
    ⟨hloaded, fun i _ => hs.inserting i⟩

section Intake

variable (servingDirectory fs) (A : Allocator) {s : State ι} (hfault : s.fault = none) (i : ι)
  (e : Intake)
include hfault

/-- A step of the receiving side of a connection changes the connection alone. -/
lemma liveStep_intake : liveStep servingDirectory fs A s ⟨i, .intake e⟩ =
    ((s.conns i).intake e).map (s.set i) := by
  have hset : s.set i = fun c => s.put i { cache := s.cache, conn := c, fault := none } := by
    funext c
    simp only [State.set, State.put, hfault]
  simp only [liveStep, Conn.act, Option.map_map, hset, Function.comp_def]

/-- The same, as a step of the system. -/
lemma step_intake : step servingDirectory fs A s ⟨i, .intake e⟩ =
    ((s.conns i).intake e).map (s.set i) := by
  rw [step, hfault]
  exact liveStep_intake servingDirectory fs A hfault i e

end Intake

/-- What happens to a connection depends on it and on the cache alone, and changes nothing else,
whatever connections there are. -/
lemma liveStep_congr (κ : Type) [DecidableEq κ] {A : Allocator} {s s' : State ι} {i : ι} {act : Act}
    (h : liveStep servingDirectory fs A s ⟨i, act⟩ = some s') :
    ∃ o, s' = s.put i o ∧ ∀ (t : State κ) (k : κ), t.cache = s.cache → t.conns k = s.conns i →
      liveStep servingDirectory fs A t ⟨k, act⟩ = some (t.put k o) := by
  obtain ⟨o, hact, rfl⟩ := Option.map_eq_some_iff.mp h
  refine ⟨o, rfl, fun t k hcache hconn => ?_⟩
  rw [liveStep, hcache, hconn, hact]
  rfl

/-! ## What holds of a connection -/

/-- The handler has emptied the socket since the connection was last reported. -/
def Stage.drained : Stage → Bool
  | .polled | .parsing | .inserting _ _ => true
  | _ => false

namespace Conn

variable {c c' : Conn}

/-- Nothing is left in the socket, and nothing has happened to it, that the poller will not
report. -/
def Heard (c : Conn) : Prop :=
  c.stage.drained = true → c.edge = false → c.pending = [] ∧ c.closing = .open

/-- What the handler does after `Recv` leaves the socket and its edge as they are. -/
lemma Heard.congr (h : c.Heard) (hdrained : c.stage.drained = true) (hedge : c'.edge = c.edge)
    (hpending : c'.pending = c.pending) (hclosing : c'.closing = c.closing) : c'.Heard := by
  intro _ hedge'
  rw [hpending, hclosing]
  exact h hdrained (hedge ▸ hedge')

/-- **Edges.** Every step of the receiving side leaves the connection such that the poller reports
what is left. -/
lemma Takes.heard {e : Intake} (takes : c.Takes e c') : c'.Heard := by
  intro hdrained hedge
  have hregistered : c.stage.drained = true → c.registered = true := by
    unfold Stage.drained registered
    cases c.stage <;> simp
  cases takes with
  | arrive m closing =>
    rw [Conn.arrive, hregistered hdrained, Bool.or_true] at hedge
    cases hedge
  | close how closing =>
    rw [Conn.close, hregistered hdrained, Bool.or_true] at hedge
    cases hedge
  | register stage => simpa [Conn.register] using hedge
  | spurious => cases hedge
  | poll stage edge => cases hdrained
  | callback stage => cases hdrained
  | @recv result stage gives =>
    rcases result with chunk | _ | (_ | _ | _ | _)
    · rw [show (c.recv (.data chunk _)).stage = c.stage from rfl, stage] at hdrained
      cases hdrained
    · cases hdrained
    · rw [show (c.recv (.error .eintr)).stage = c.stage from rfl, stage] at hdrained
      cases hdrained
    · exact gives
    · exact gives
    · cases hdrained

/-- Every move leaves it so. -/
lemma Heard.moves {act : Act} {fault : Option Fault} (h : c.Heard)
    (hmove : c.Moves servingDirectory fs act c' fault) : c'.Heard := by
  cases hmove with
  | intake takes => exact takes.heard
  | rest stage cut => exact h.congr (by rw [stage]; rfl) rfl rfl rfl
  | fail stage cut reply => rintro ⟨⟩
  | silent stage cut cgi => exact h.congr (by rw [stage]; rfl) rfl rfl rfl
  | @answer now request readBuffer responseBuf noMoreParse stage cut reply =>
    cases noMoreParse <;> exact h.congr (by rw [stage]; rfl) rfl rfl rfl
  | miss stage cut reply => exact h.congr (by rw [stage]; rfl) rfl rfl rfl
  | @finish now m noMoreParse stage =>
    cases noMoreParse <;> exact h.congr (by rw [stage]; rfl) rfl rfl rfl

/-- The stream is made up of the requests taken, the read buffer and what is in the socket, and the
requests taken are its first frames. -/
structure Conserved (c : Conn) : Prop where
  stream : c.arrived = (Pipeline.taken c.events).flatten ++ c.readBuffer ++ c.pending
  frames : ∀ rest, Search.frames crlfCrlf ((Pipeline.taken c.events).flatten ++ rest) =
    Pipeline.taken c.events ++ Search.frames crlfCrlf rest

/-- A request is taken. -/
lemma Conserved.pop (h : c.Conserved) {request readBuffer : Bytes}
    (cut : Search.cut crlfCrlf c.readBuffer = some (request, readBuffer)) :
    (c.pop request readBuffer).Conserved := by
  have htaken : Pipeline.taken (c.pop request readBuffer).events =
      Pipeline.taken c.events ++ [request] := Pipeline.taken_append _ _
  constructor
  · rw [htaken, show (c.pop request readBuffer).arrived = c.arrived from rfl, h.stream,
      ← Search.append_of_cut cut]
    simp [Conn.pop]
  · intro rest
    rw [htaken, List.flatten_append, List.append_assoc, h.frames]
    simp [Search.frames_of_cut (show crlfCrlf ≠ [] by decide) (Search.cut_append_of_cut cut rest)]

/-- The connection changes in a way that has nothing to do with its stream. -/
lemma Conserved.congr (h : c.Conserved) (harrived : c'.arrived = c.arrived)
    (hpending : c'.pending = c.pending) (hreadBuffer : c'.readBuffer = c.readBuffer)
    (htaken : Pipeline.taken c'.events = Pipeline.taken c.events) : c'.Conserved :=
  ⟨by rw [harrived, htaken, hreadBuffer, hpending]; exact h.stream,
    by rw [htaken]; exact h.frames⟩

/-- An answer is given. -/
lemma Conserved.answer (h : c.Conserved) (responseBuf : Bytes) (noMoreParse : Bool) :
    (c.answer responseBuf noMoreParse).Conserved := by
  cases noMoreParse <;> exact h.congr rfl rfl rfl (by simp [Conn.answer, Pipeline.taken])

/-- The connection is given up. -/
lemma Conserved.leave (h : c.Conserved) : c.leave.Conserved :=
  h.congr rfl rfl rfl (by simp [Conn.leave, Pipeline.taken])

/-- **Bytes.** Every step of the receiving side keeps all bytes, in their order. -/
lemma Conserved.takes {e : Intake} (h : c.Conserved) (takes : c.Takes e c') : c'.Conserved := by
  cases takes with
  | arrive m closing =>
    refine ⟨?_, h.frames⟩
    rw [Conn.arrive, h.stream]
    simp
  | close how closing => exact h.congr rfl rfl rfl rfl
  | register stage => exact h.congr rfl rfl rfl rfl
  | spurious => exact h.congr rfl rfl rfl rfl
  | poll stage edge => exact h.congr rfl rfl rfl rfl
  | callback stage => exact h.congr rfl rfl rfl rfl
  | @recv result stage gives =>
    rcases result with ⟨chunk, size⟩ | _ | (_ | _ | _ | _)
    · refine ⟨?_, h.frames⟩
      obtain ⟨rest, hrest⟩ : chunk <+: c.pending := gives
      rw [show (c.recv (.data chunk size)).arrived = c.arrived from rfl, h.stream]
      simp [Conn.recv, Buffer.append, ← hrest]
    · exact h.leave
    · exact h
    · exact h.congr rfl rfl rfl rfl
    · exact h.congr rfl rfl rfl rfl
    · exact h.leave

/-- Every move keeps them. -/
lemma Conserved.moves {act : Act} {fault : Option Fault} (h : c.Conserved)
    (hmove : c.Moves servingDirectory fs act c' fault) : c'.Conserved := by
  cases hmove with
  | intake takes => exact h.takes takes
  | rest stage cut => exact h.congr rfl rfl rfl rfl
  | fail stage cut reply => exact (h.pop cut).congr rfl rfl rfl rfl
  | silent stage cut cgi => exact (h.pop cut).congr rfl rfl rfl rfl
  | answer stage cut reply => exact (h.pop cut).answer _ _
  | miss stage cut reply => exact (h.pop cut).congr rfl rfl rfl rfl
  | finish stage => exact h.answer _ _

/-- A request that can be taken is one of the frames of the stream. -/
lemma Conserved.mem_frames (h : c.Conserved) {request readBuffer : Bytes}
    (cut : Search.cut crlfCrlf c.readBuffer = some (request, readBuffer)) :
    request ∈ Search.frames crlfCrlf c.arrived := by
  rw [h.stream, List.append_assoc, h.frames,
    Search.frames_of_cut (by decide) (Search.cut_append cut c.pending)]
  simp

end Conn

end Reactor

end Icee.Http
