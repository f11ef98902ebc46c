import Icee.Http.Isolation

set_option relaxedAutoImplicit false
set_option autoImplicit false

/-!
# A handler that is not interrupted

In `Icee.Http.Reactor` the handler of a connection is taken apart into the calls that it makes.
Here the calls are put together again: if nothing comes in between, they are what
`ParseHttpRequest` does to the connection, its results and the cache.

## Main definitions

* `Icee.Http.Reactor.Own` — the steps of the loop of `ParseHttpRequest` for a connection.
* `Icee.Http.Reactor.Mirrors` — the connection of the system is that of the handler.
* `Icee.Http.Reactor.Received` — what `Connection::Recv` leaves of the system.
* `Icee.Http.Reactor.Runs` — the handler can come to some place by itself.

## Main results

* `Icee.Http.Reactor.recv_run` — the turns of the loop of `Recv` are `Connection::Recv`.
* `Icee.Http.Reactor.parseHttpRequest_run` — the handler is a run of the system.
-/

namespace Icee.Http

namespace Reactor

variable {ι : Type} [DecidableEq ι] {servingDirectory : Bytes} {fs : FileSystem} {A : Allocator}

/-- A step of the loop of `ParseHttpRequest` for the connection. -/
def Own (i : ι) (l : Label ι) : Prop :=
  l.conn = i ∧ ∃ now, l.act = .begin now ∨ l.act = .finish now

/-- The connection of the system, as the handler has left it; the other connections are as they
were, and the process runs unless the handler has brought it down. -/
structure Mirrors (base s : State ι) (i : ι) (conn : ClientConn Cache) : Prop where
  cache : s.cache = conn.shared.cache
  readBuffer : (s.conns i).readBuffer = conn.unread
  events : (s.conns i).events = conn.events
  status : (s.conns i).stage.status = conn.status
  fault : s.fault = none ∨ ∃ fault, s.fault = some fault ∧ conn.status = .crashed fault
  others : ∀ j, j ≠ i → s.conns j = base.conns j

/-- The handler of the connection has returned. -/
def Stage.returned : Stage → Bool
  | .polled | .deleted | .crashed _ => true
  | _ => false

/-- What `Connection::Recv` leaves of the system if it is called in the first state: the connection
has been given up, or it is about to be parsed. -/
structure Received (s s' : State ι) (i : ι) (readBuffer : Bytes) (exit : Bool) : Prop where
  cache : s'.cache = s.cache
  fault : s'.fault = none
  others : ∀ j, j ≠ i → s'.conns j = s.conns j
  readBuffer : (s'.conns i).readBuffer = readBuffer
  stage : (s'.conns i).stage = if exit then .deleted else .parsing
  events : (s'.conns i).events = (s.conns i).events ++ if exit then [.peerClosed, .deleted] else []

/-- `Recv` returns with this turn of its loop. -/
lemma received_set {s : State ι} (hfault : s.fault = none) (i : ι) {c : Conn} {exit : Bool}
    (hstage : c.stage = if exit then .deleted else .parsing)
    (hevents : c.events = (s.conns i).events ++ if exit then [.peerClosed, .deleted] else []) :
    Received s (s.set i c) i c.readBuffer exit := by
  have hself : (s.set i c).conns i = c := Function.update_self i _ _
  refine ⟨rfl, hfault, fun j hj => Function.update_of_ne hj _ _, ?_, ?_, ?_⟩ <;> rw [hself]
  · exact hstage
  · exact hevents

/-- `Recv` goes on behind this turn of its loop. -/
lemma Received.of_set {s s' : State ι} {i : ι} {c : Conn} {readBuffer : Bytes} {exit : Bool}
    (h : Received (s.set i c) s' i readBuffer exit) (hevents : c.events = (s.conns i).events) :
    Received s s' i readBuffer exit where
  cache := h.cache
  fault := h.fault
  others j hj := (h.others j hj).trans (Function.update_of_ne hj _ _)
  readBuffer := h.readBuffer
  stage := h.stage
  events := by
    rw [h.events, show (s.set i c).conns i = c from Function.update_self i _ _, hevents]

/-- **The loop of `Recv`**: a run of `recv` calls that comes to its end leaves the connection as
`Connection::Recv` does, given up or about to be parsed.

**Proof sketch.** Induction on the results. After a piece of data or an interruption the connection
is still receiving, and the rest of the run is left to the induction hypothesis. Any other result
ends `Recv`, after which the connection takes no further call of `recv`, so that the run has come to
its end as well. -/
lemma recv_run (i : ι) (event : List RecvResult) : ∀ {s s' : State ι} (recvBytes : ℕ),
    s.fault = none → (s.conns i).stage = .receiving →
    Transition.exec (step servingDirectory fs A) s (event.map (.recv i)) = some s' →
    (s'.conns i).stage ≠ .receiving →
    ∃ readBuffer n exit, Connection.recv event (s.conns i).readBuffer recvBytes =
      (readBuffer, n, exit) ∧ Received s s' i readBuffer exit := by
  induction event with
  | nil =>
    intro s s' recvBytes _ hstage hrun hend
    rw [← Option.some.inj hrun] at hend
    exact absurd hstage hend
  | cons result event ih =>
    intro s s' recvBytes hfault hstage hrun hend
    have hstep := step_intake servingDirectory fs A hfault i (.recv result)
    by_cases hgives : (s.conns i).Gives result
    case neg =>
      simp only [Conn.intake, hgives, and_false, if_false, Option.map_none] at hstep
      simp only [List.map_cons, Transition.exec, hstep, reduceCtorEq] at hrun
    rw [Conn.intake, if_pos ⟨hstage, hgives⟩, Option.map_some] at hstep
    rw [List.map_cons, Transition.exec_cons hstep] at hrun
    have hself : (s.set i ((s.conns i).recv result)).conns i = (s.conns i).recv result :=
      Function.update_self i _ _
    -- as long as `Recv` goes on, the rest of the event is left to it
    have hgoOn : ((s.conns i).recv result).stage = .receiving →
        ((s.conns i).recv result).events = (s.conns i).events → ∀ m, ∃ readBuffer n exit,
          Connection.recv event ((s.conns i).recv result).readBuffer m = (readBuffer, n, exit) ∧
          Received s s' i readBuffer exit := by
      intro hstage' hevents' m
      obtain ⟨readBuffer, n, exit, hrecv, hreceived⟩ :=
        ih m (s := s.set i ((s.conns i).recv result)) hfault (by rw [hself]; exact hstage') hrun
          hend
      rw [hself] at hrecv
      exact ⟨readBuffer, n, exit, hrecv, hreceived.of_set hevents'⟩
    -- otherwise no more calls of `recv` are possible
    have hstop : ((s.conns i).recv result).stage ≠ .receiving →
        s' = s.set i ((s.conns i).recv result) := by
      intro hstage'
      cases event with
      | nil => exact (Option.some.inj hrun).symm
      | cons result' event =>
        have hfault' : (s.set i ((s.conns i).recv result)).fault = none := hfault
        have hstep' := step_intake servingDirectory fs A hfault' i (.recv result')
        rw [hself, Conn.intake, if_neg fun h => hstage' h.1, Option.map_none] at hstep'
        simp only [List.map_cons, Transition.exec, hstep', reduceCtorEq] at hrun
    rcases result with ⟨chunk, size⟩ | _ | (_ | _ | _ | _)
    · exact hgoOn hstage rfl _
    · obtain rfl := hstop (by rintro ⟨⟩)
      exact ⟨_, _, true, rfl, received_set hfault i rfl rfl⟩
    · exact hgoOn hstage rfl _
    · obtain rfl := hstop (by rintro ⟨⟩)
      exact ⟨_, _, false, rfl, received_set hfault i rfl (List.append_nil _).symm⟩
    · obtain rfl := hstop (by rintro ⟨⟩)
      exact ⟨_, _, false, rfl, received_set hfault i rfl (List.append_nil _).symm⟩
    · obtain rfl := hstop (by rintro ⟨⟩)
      exact ⟨_, _, true, rfl, received_set hfault i rfl rfl⟩

/-- What a turn of the loop leaves of the connection, when the handler has an answer. -/
lemma mirrors_answer (base : State ι) (i : ι) (responseBuf : Bytes) (noMoreParse : Bool)
    (w : World Cache) {conn : ClientConn Cache} {c : Conn} {request readBuffer : Bytes}
    (hevents : c.events = conn.events ++ [.popped request])
    (hreadBuffer : c.readBuffer = readBuffer) (hserving : conn.status = .serving) :
    Mirrors base (base.put i ⟨w.cache, c.answer responseBuf noMoreParse, none⟩) i
        (conn.turn request readBuffer (.ok (w, .answer responseBuf noMoreParse))).1 ∧
      ((base.put i ⟨w.cache, c.answer responseBuf noMoreParse, none⟩).conns i).stage =
        if noMoreParse then .deleted else .parsing := by
  have hself : (base.put i ⟨w.cache, c.answer responseBuf noMoreParse, none⟩).conns i =
      c.answer responseBuf noMoreParse := Function.update_self i _ _
  cases noMoreParse with
  | true =>
    refine ⟨⟨rfl, ?_, ?_, ?_, .inl rfl, fun j hj => Function.update_of_ne hj _ _⟩, ?_⟩ <;>
      rw [hself]
    · exact hreadBuffer
    · simp [Conn.answer, hevents, Pipeline.Session.turn]
    · rfl
    · rfl
  | false =>
    refine ⟨⟨rfl, ?_, ?_, ?_, .inl rfl, fun j hj => Function.update_of_ne hj _ _⟩, ?_⟩ <;>
      rw [hself]
    · exact hreadBuffer
    · simp [Conn.answer, hevents, Pipeline.Session.turn]
    · exact hserving.symm
    · rfl

/-- The frame of a request that has not been answered. -/
lemma mirrors_stop (base : State ι) (i : ι) (conn conn' : ClientConn Cache) {o : Outcome}
    {request readBuffer : Bytes} (hevents : o.conn.events = conn.events ++ [.popped request])
    (hreadBuffer : o.conn.readBuffer = readBuffer)
    (hevents' : conn'.events = conn.events ++ [.popped request])
    (hunread : conn'.unread = readBuffer) (hstatus : o.conn.stage.status = conn'.status)
    (hcache : o.cache = conn'.shared.cache)
    (hfault : o.fault = none ∨ ∃ fault, o.fault = some fault ∧ conn'.status = .crashed fault) :
    Mirrors base (base.put i o) i conn' ∧ ((base.put i o).conns i).stage = o.conn.stage := by
  have hself : (base.put i o).conns i = o.conn := Function.update_self i _ _
  refine ⟨⟨hcache, ?_, ?_, ?_, hfault, fun j hj => Function.update_of_ne hj _ _⟩, by rw [hself]⟩
  · rw [hself, hreadBuffer, hunread]
  · rw [hself, hevents, hevents']
  · rw [hself, hstatus]

omit [DecidableEq ι] in
/-- The same, seen from an earlier state. -/
lemma Mirrors.rebase {base s s' : State ι} {i : ι} {conn : ClientConn Cache}
    (h : Mirrors s s' i conn) (hothers : ∀ j, j ≠ i → s.conns j = base.conns j) :
    Mirrors base s' i conn :=
  ⟨h.cache, h.readBuffer, h.events, h.status, h.fault,
    fun j hj => (h.others j hj).trans (hothers j hj)⟩

omit [DecidableEq ι] in
/-- The process runs as long as the handler does. -/
lemma Mirrors.fault_of_serving {base s : State ι} {i : ι} {conn : ClientConn Cache}
    (h : Mirrors base s i conn) (hserving : conn.status = .serving) : s.fault = none := by
  rcases h.fault with hfault | ⟨fault, -, hcrashed⟩
  · exact hfault
  · rw [hserving] at hcrashed
    cases hcrashed

/-- With steps of its own the handler comes to where its connection is this one; there it goes on
with the loop, or it has returned. -/
def Runs (site : Site) (fs : FileSystem) (s : State ι) (i : ι) (conn : ClientConn Cache)
    (goOn : Bool) : Prop :=
  ∃ ls s', (∀ l ∈ ls, Own i l) ∧
    Transition.exec (step site.servingDirectory fs site.allocator) s ls = some s' ∧
    Mirrors s s' i conn ∧ (s'.conns i).stage.returned = !goOn ∧
    (goOn = true → (s'.conns i).stage = .parsing)

section Turn

variable {site : Site} {s : State ι} {i : ι} {conn : ClientConn Cache} {frame rest : Bytes}

/-- A turn of the loop that ends with an answer. -/
lemma runs_answer (base : State ι) (ls : List (Label ι)) {responseBuf : Bytes}
    {noMoreParse : Bool} {w : World Cache} {c : Conn} (hown : ∀ l ∈ ls, Own i l)
    (hrun : Transition.exec (step site.servingDirectory fs site.allocator) s ls =
      some (base.put i ⟨w.cache, c.answer responseBuf noMoreParse, none⟩))
    (hbase : ∀ j, j ≠ i → base.conns j = s.conns j)
    (hevents : c.events = conn.events ++ [.popped frame]) (hreadBuffer : c.readBuffer = rest)
    (hserving : conn.status = .serving) :
    Runs site fs s i (conn.turn frame rest (.ok (w, .answer responseBuf noMoreParse))).1
      (conn.turn frame rest (.ok (w, .answer responseBuf noMoreParse))).2 := by
  obtain ⟨hmirrors, hstage⟩ :=
    mirrors_answer base i responseBuf noMoreParse w hevents hreadBuffer hserving
  refine ⟨ls, _, hown, hrun, hmirrors.rebase hbase, ?_, fun hgoOn => ?_⟩
  · rw [hstage]
    cases noMoreParse <;> rfl
  · cases noMoreParse with
    | true => cases hgoOn
    | false => exact hstage

/-- A turn of the loop after which the handler is about to insert a page. -/
lemma runs_missed (hfiles : ∀ n, site.fileSystem n = fs) (hsound : conn.shared.Sound)
    (hserving : conn.status = .serving) {cache : Cache} {path responseBuf cacheBuf : Bytes}
    {noMoreParse past : Bool}
    (hevents : ((s.conns i).pop frame rest).events = conn.events ++ [.popped frame])
    (hbegin : beginRequest site.servingDirectory fs (site.clock conn.shared.handled) frame
      conn.shared.cache = .ok (cache, .missed path responseBuf cacheBuf noMoreParse, past))
    (hstep : step site.servingDirectory fs site.allocator s
      (.begin i (site.clock conn.shared.handled)) = some (s.put i
        ⟨cache, { (s.conns i).pop frame rest with
          stage := .inserting ⟨frame, path, responseBuf, cacheBuf⟩ noMoreParse }, none⟩)) :
    Runs site fs s i (conn.turn frame rest (handleRequest site frame conn.shared)).1
      (conn.turn frame rest (handleRequest site frame conn.shared)).2 := by
  -- the second step is taken from the state that the first one has left
  let c₁ : Conn := { (s.conns i).pop frame rest with
    stage := .inserting ⟨frame, path, responseBuf, cacheBuf⟩ noMoreParse }
  let s₁ : State ι := s.put i ⟨cache, c₁, none⟩
  have hself : s₁.conns i = c₁ := Function.update_self i _ _
  obtain ⟨store, hstore⟩ := hsound
  obtain ⟨store', hstore', -⟩ := beginRequest_ok hstore hbegin
  obtain ⟨cache', hinsert, -⟩ :=
    hstore'.tryInsert site.allocator path cacheBuf (site.clock conn.shared.handled)
  have hfinish : finishRequest site.allocator (site.clock conn.shared.handled) path cacheBuf
      cache = .ok cache' := by
    simp only [finishRequest, hinsert, bind, Except.bind]
    rfl
  have hhandle : handleRequest site frame conn.shared = .ok
      (⟨cache', conn.shared.handled + 1, conn.shared.pastTheEnd || past⟩,
        .answer responseBuf noMoreParse) := by
    simp only [handleRequest, hfiles, hbegin, hfinish, bind, Except.bind]
    rfl
  have hstep' : step site.servingDirectory fs site.allocator s₁
      (.finish i (site.clock conn.shared.handled)) =
        some (s₁.put i ⟨cache', c₁.answer responseBuf noMoreParse, none⟩) := by
    simp only [step, show s₁.fault = none from rfl, liveStep, hself, Conn.act]
    simp only [c₁, s₁, State.put, hfinish, Option.map_some]
  rw [hhandle]
  exact runs_answer s₁ [.begin i (site.clock conn.shared.handled),
    .finish i (site.clock conn.shared.handled)] (c := c₁) (by simp [Own])
    ((Transition.exec_cons hstep _).trans (Transition.exec_cons hstep' []))
    (fun j hj => Function.update_of_ne hj _ _) hevents rfl hserving

/-- **One turn** of the loop of `ParseHttpRequest` is one step, or a step and a `TryInsert`.

**Proof sketch.** The first step pops the frame and looks for its page, as `handleRequest` does. The
cases are what it can find: a fault, a script and an answer leave the connection as the turn does,
and a page that is not in the cache is inserted by the second step. -/
lemma turn_run (hfiles : ∀ n, site.fileSystem n = fs) (hsound : conn.shared.Sound)
    (h : Mirrors s s i conn) (hstage : (s.conns i).stage = .parsing)
    (cut : Search.cut crlfCrlf conn.unread = some (frame, rest)) :
    Runs site fs s i (conn.turn frame rest (handleRequest site frame conn.shared)).1
      (conn.turn frame rest (handleRequest site frame conn.shared)).2 := by
  have hserving : conn.status = .serving := by rw [← h.status, hstage]; rfl
  have hfault : s.fault = none := h.fault_of_serving hserving
  have hevents : ((s.conns i).pop frame rest).events = conn.events ++ [.popped frame] :=
    congrArg (· ++ [Pipeline.Event.popped frame]) h.events
  have hstep : step site.servingDirectory fs site.allocator s
      (.begin i (site.clock conn.shared.handled)) =
        some (s.put i (beginStep site.servingDirectory fs (site.clock conn.shared.handled)
          conn.shared.cache frame ((s.conns i).pop frame rest))) := by
    simp only [step, hfault, liveStep, Conn.act, hstage, Buffer.findAndPopTill_eq, h.readBuffer,
      cut, h.cache, Option.map_some]
  have hown : ∀ l ∈ [Label.begin i (site.clock conn.shared.handled)], Own i l := by simp [Own]
  unfold beginStep at hstep
  cases hbegin : beginRequest site.servingDirectory fs (site.clock conn.shared.handled) frame
      conn.shared.cache with
  | error fault =>
    have hhandle : handleRequest site frame conn.shared = .error fault := by
      simp only [handleRequest, hfiles, hbegin, bind, Except.bind]
    rw [hbegin] at hstep
    rw [hhandle]
    obtain ⟨hmirrors, hreturned⟩ := mirrors_stop s i conn
      (conn.turn frame rest (.error fault)).1
      (o := ⟨conn.shared.cache, { (s.conns i).pop frame rest with stage := .crashed fault },
        some fault⟩) hevents rfl rfl rfl rfl rfl (.inr ⟨fault, rfl, rfl⟩)
    exact ⟨_, _, hown, Transition.exec_cons hstep [], hmirrors, by rw [hreturned]; rfl,
      by rintro ⟨⟩⟩
  | ok result =>
    obtain ⟨cache, begun, past⟩ := result
    rw [hbegin] at hstep
    cases begun with
    | cgi =>
      have hhandle : handleRequest site frame conn.shared = .ok
          (⟨cache, conn.shared.handled + 1, conn.shared.pastTheEnd || past⟩, .silent) := by
        simp only [handleRequest, hfiles, hbegin, bind, Except.bind]
        rfl
      rw [hhandle]
      obtain ⟨hmirrors, hreturned⟩ := mirrors_stop s i conn
        (conn.turn frame rest (.ok
          (⟨cache, conn.shared.handled + 1, conn.shared.pastTheEnd || past⟩, .silent))).1
        (o := ⟨cache, { (s.conns i).pop frame rest with stage := .polled }, none⟩) hevents rfl rfl
        rfl hserving.symm rfl (.inl rfl)
      exact ⟨_, _, hown, Transition.exec_cons hstep [], hmirrors, by rw [hreturned]; rfl,
        by rintro ⟨⟩⟩
    | answered responseBuf noMoreParse =>
      have hhandle : handleRequest site frame conn.shared = .ok
          (⟨cache, conn.shared.handled + 1, conn.shared.pastTheEnd || past⟩,
            .answer responseBuf noMoreParse) := by
        simp only [handleRequest, hfiles, hbegin, bind, Except.bind]
        rfl
      rw [hhandle]
      exact runs_answer s _ hown (Transition.exec_cons hstep []) (fun _ _ => rfl) hevents rfl
        hserving
    | missed path responseBuf cacheBuf noMoreParse =>
      exact runs_missed hfiles hsound hserving hevents hbegin hstep

/-- **The loop** of `ParseHttpRequest` is a run of the system.

**Proof sketch.** Induction on the turns of the loop (`Pipeline.serve_induct`). If there is no frame
to pop, one step takes the connection back to its poller. Otherwise a turn is a run, and the run of
the turns after it begins where it ends. -/
lemma serve_run (hfiles : ∀ n, site.fileSystem n = fs) (i : ι) (conn : ClientConn Cache) :
    ∀ {s : State ι}, conn.shared.Sound → Mirrors s s i conn → (s.conns i).stage = .parsing →
      Runs site fs s i (Pipeline.serve crlfCrlf (handleRequest site) conn) false := by
  refine Pipeline.serve_induct (handleRequest site) (t := crlfCrlf)
    (motive := fun conn conn' => ∀ {s : State ι}, conn.shared.Sound → Mirrors s s i conn →
      (s.conns i).stage = .parsing → Runs site fs s i conn' false) (by decide) ?_ ?_ ?_ conn
  · intro conn cut s hsound h hstage
    have hserving : conn.status = .serving := by rw [← h.status, hstage]; rfl
    have hfault : s.fault = none := h.fault_of_serving hserving
    have hself : (s.put i ⟨s.cache, { s.conns i with stage := .polled }, none⟩).conns i =
        { s.conns i with stage := .polled } := Function.update_self i _ _
    have hstep : step site.servingDirectory fs site.allocator s (.begin i 0) =
        some (s.put i ⟨s.cache, { s.conns i with stage := .polled }, none⟩) := by
      simp only [step, hfault, liveStep, Conn.act, hstage, Buffer.findAndPopTill_eq, h.readBuffer,
        cut, Option.map_some]
    refine ⟨[.begin i 0], _, by simp [Own], Transition.exec_cons hstep [],
      ⟨h.cache, ?_, ?_, ?_, .inl rfl, fun j hj => Function.update_of_ne hj _ _⟩, ?_, by rintro ⟨⟩⟩
      <;> rw [hself]
    · exact h.readBuffer
    · exact h.events
    · exact hserving.symm
    · rfl
  · intro conn frame rest conn' cut hturn s hsound h hstage
    have hruns := turn_run hfiles hsound h hstage cut
    rwa [hturn] at hruns
  · intro conn frame rest conn' cut hturn ih s hsound h hstage
    have hruns := turn_run hfiles hsound h hstage cut
    rw [hturn] at hruns
    obtain ⟨ls, s', hown, hrun, hmirrors, -, hgoOn⟩ := hruns
    obtain ⟨g, r, hout, rfl⟩ := Pipeline.Session.turn_eq_true hturn
    obtain ⟨ls', s'', hown', hrun', hmirrors', hreturned⟩ := ih (hsound.handleRequest hout)
      (⟨hmirrors.cache, hmirrors.readBuffer, hmirrors.events, hmirrors.status, hmirrors.fault,
        fun _ _ => rfl⟩ : Mirrors s' s' i _) (hgoOn rfl)
    refine ⟨ls ++ ls', s'', fun l hl => ?_, (Transition.exec_append ls' hrun).trans hrun',
      hmirrors'.rebase hmirrors.others, hreturned⟩
    rcases List.mem_append.mp hl with hl | hl
    · exact hown l hl
    · exact hown' l hl

end Turn

/-- **The handler is a run of the system.** Let a connection of a running server be called back, and
let its calls of `recv` give the results of a readiness event, up to the one with which
`Connection::Recv` returns. Then there is a way to go on with the steps of its own handler alone,
after which the handler has returned, and the read buffer, the history and the status of the
connection, the cache and the process are as `ParseHttpRequest` leaves them for this event.

**Proof sketch.** The first step calls the handler. The calls of `recv` are `Connection::Recv`
(`recv_run`); if it reports an exit, the handler has returned. Otherwise the loop of
`ParseHttpRequest` is a run from there (`serve_run`). -/
theorem parseHttpRequest_run {site : Site} (hfiles : ∀ n, site.fileSystem n = fs)
    {capacity : Int32} {now₁ now₂ : UInt64} {ls : List (Label ι)} {s s₁ : State ι}
    (hrun : Transition.exec (step site.servingDirectory fs site.allocator)
      (State.start ι site.allocator capacity now₁ now₂) ls = some s)
    (i : ι) {event : List RecvResult}
    (hrecv : Transition.exec (step site.servingDirectory fs site.allocator) s
      (.callback i :: event.map (.recv i)) = some s₁)
    (hend : (s₁.conns i).stage ≠ .receiving) (handled : ℕ) (pastTheEnd : Bool) :
    ∃ ls' s', (∀ l ∈ ls', Own i l) ∧
      Transition.exec (step site.servingDirectory fs site.allocator) s₁ ls' = some s' ∧
      (s'.conns i).stage.returned = true ∧
      Mirrors s s' i (parseHttpRequest site event
        { unread := (s.conns i).readBuffer
          shared := ⟨s.cache, handled, pastTheEnd⟩
          events := (s.conns i).events
          status := .serving }) := by
  obtain ⟨store, hstore, -⟩ := (Inv.of_run hrun).sound.cache
  cases hcallback : step site.servingDirectory fs site.allocator s (.callback i) with
  | none => simp only [Transition.exec, hcallback, reduceCtorEq] at hrecv
  | some s₀ =>
    rw [Transition.exec_cons hcallback] at hrecv
    -- the handler is called
    have hfault : s.fault = none := by
      cases h : s.fault with
      | none => rfl
      | some fault => simp only [step, h, reduceCtorEq] at hcallback
    obtain rfl : s.set i { s.conns i with stage := .receiving } = s₀ := by
      rw [step_intake _ _ _ hfault] at hcallback
      obtain ⟨c, hintake, hs₀⟩ := Option.map_eq_some_iff.mp hcallback
      obtain ⟨-, hc⟩ := Option.ite_none_right_eq_some.mp hintake
      rw [← hs₀, ← Option.some.inj hc]
    have hself : (s.set i { s.conns i with stage := .receiving }).conns i =
        { s.conns i with stage := .receiving } := Function.update_self i _ _
    obtain ⟨readBuffer, n, exit, hresult, hset⟩ :=
      recv_run i event (s := s.set i { s.conns i with stage := .receiving }) 0 hfault
        (by rw [hself]) hrecv hend
    rw [hself] at hresult
    have hreceived : Received s s₁ i readBuffer exit := hset.of_set rfl
    have hstage := hreceived.stage
    have hevents := hreceived.events
    have hhandler : ∀ conn : ClientConn Cache, conn.status = .serving →
        Connection.recv event conn.unread 0 = (readBuffer, n, exit) →
        parseHttpRequest site event conn =
          if exit then Pipeline.Session.hangUp { conn with unread := readBuffer }
          else Pipeline.serve crlfCrlf (handleRequest site) { conn with unread := readBuffer } := by
      intro conn hserving hconn
      unfold parseHttpRequest
      simp only [hserving, hconn]
      cases exit with
      | true => rfl
      | false => exact serveFrames_eq site _ _
    rw [hhandler _ rfl hresult]
    cases exit with
    | true =>
      refine ⟨[], s₁, by simp, rfl, by rw [hstage]; rfl, hreceived.cache, hreceived.readBuffer, ?_,
        by rw [hstage]; rfl, .inl hreceived.fault, hreceived.others⟩
      rw [hevents]
      rfl
    | false =>
      obtain ⟨ls', s', hown, hserve, hmirrors, hreturned, -⟩ := serve_run hfiles i
        { unread := readBuffer
          shared := ⟨s.cache, handled, pastTheEnd⟩
          events := (s.conns i).events
          status := .serving } (s := s₁) ⟨store, hstore⟩
        ⟨hreceived.cache, hreceived.readBuffer, by rw [hevents]; exact List.append_nil _,
          by rw [hstage]; rfl, .inl hreceived.fault, fun _ _ => rfl⟩ (by rw [hstage]; rfl)
      exact ⟨ls', s', hown, hserve, hreturned, hmirrors.rebase hreceived.others⟩

/-- A request that arrives as a whole is answered by a run. -/
theorem parseHttpRequest_run_sample :
    ∃ s s₁ : State Unit, Transition.exec (step (bytes "www") sampleFiles Allocator.bump) s
        [.callback (), .recv () (.data sampleGet (by decide)), .recv () (.error .eagain)] =
          some s₁ ∧
      ∃ ls' s', (∀ l ∈ ls', Own () l) ∧
        Transition.exec (step (bytes "www") sampleFiles Allocator.bump) s₁ ls' = some s' ∧
        (s'.conns ()).stage.returned = true ∧
        Mirrors s s' () (parseHttpRequest sampleSite [.data sampleGet (by decide), .error .eagain]
          { unread := (s.conns ()).readBuffer
            shared := ⟨s.cache, 0, false⟩
            events := (s.conns ()).events
            status := .serving }) := by
  have hseen : (Transition.exec (step (bytes "www") sampleFiles Allocator.bump)
      (State.start Unit Allocator.bump initCacheSize 0 0)
      [.register (), .arrive () sampleGet, .poll ()]).bind (fun s =>
        (Transition.exec (step (bytes "www") sampleFiles Allocator.bump) s
          [.callback (), .recv () (.data sampleGet (by decide)), .recv () (.error .eagain)]).map
        fun s₁ => (s₁.conns ()).stage) = some .parsing := by
    decide +kernel
  obtain ⟨s, hrun, hs⟩ := Option.bind_eq_some_iff.mp hseen
  obtain ⟨s₁, hrecv, hstage⟩ := Option.map_eq_some_iff.mp hs
  refine ⟨s, s₁, hrecv, ?_⟩
  have hfiles : ∀ n, sampleSite.fileSystem n = sampleFiles := fun _ => rfl
  have hevent : Transition.exec (step (bytes "www") sampleFiles Allocator.bump) s
      (.callback () :: [.data sampleGet (by decide), .error .eagain].map (.recv ())) =
        some s₁ := hrecv
  exact parseHttpRequest_run hfiles hrun () hevent
    (fun hreceiving => by rw [hreceiving] at hstage; cases hstage) 0 false

end Reactor

end Icee.Http
