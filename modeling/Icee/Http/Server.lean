import Icee.Core.Cache
import Icee.Core.Connection
import Icee.Http.Response
import Icee.Lib.Pipeline

set_option relaxedAutoImplicit false
set_option autoImplicit false

/-!
# The request handler

`ParseHttpRequest` in `src/http/http_server.cc`: receive what is there, then take one request
after the other off the read buffer and answer it, from the cache if it can.

## Main definitions

* `Icee.Http.Site`, `Icee.Http.World` — what a handler is given and what it shares with others.
* `Icee.Http.beginRequest`, `Icee.Http.finishRequest`, `Icee.Http.handleRequest` — one request,
  up to the answer of `TryLoad`, from there on, and as a whole.
* `Icee.Http.serveFrames`, `Icee.Http.parseHttpRequest`, `Icee.Http.runEvents` — the loop, the
  handler, and a connection over many readiness events.

## Main results

* `Icee.Http.serveFrames_eq` — the loop is the loop of `Pipeline`.
* `Icee.Http.parseHttpRequest_of_drains`, `Icee.Http.runEvents_of_drains` — the handler on events
  that drain the socket delivers their bytes.

## Design

A connection is a `Pipeline.Session`: its `unread` input is the read buffer. `WriteToWriteBuffer`
and `Send` are recorded in its history; `Send` empties the write buffer whenever it returns, so
nothing else of the write buffer is left to be said. A fault ends the process.

The file system and the clock may change from one request to the next: `World.handled` counts
the requests, and a `Site` has a file system and a clock reading for each of them. The handler
reads the clock at most once for a request, in `TryLoad` if the resource is cached and else in
`TryInsert`.
-/

namespace Icee.Http

/-! ## One request -/

/-- What the handler is given: the directory it serves, and, for each request, the file system
and the clock that the request meets. -/
structure Site where
  servingDirectory : Bytes
  fileSystem : ℕ → FileSystem
  allocator : Allocator
  clock : ℕ → UInt64

/-- What the connections share: the cache, and for the record the number of requests so far and
whether an element past the end of a vector has been referred to. -/
structure World (κ : Type) where
  cache : κ
  handled : ℕ
  pastTheEnd : Bool

/-- How far the handler gets with a request before it has to wait for the latch again. -/
inductive Begun
  /-- The unimplemented branch: the handler returns. -/
  | cgi
  /-- The answer, and `no_more_parse`. -/
  | answered (responseBuf : Bytes) (noMoreParse : Bool)
  /-- The answer, after a miss: the resource is yet to be offered to the cache. -/
  | missed (resourceFullPath responseBuf cacheBuf : Bytes) (noMoreParse : Bool)
  deriving DecidableEq

/-- The body of the loop up to `TryInsert`: the cache, what has been achieved, and whether an
element past the end was referred to. -/
def beginRequest (servingDirectory : Bytes) (fs : FileSystem) (now : UInt64) (frame : Bytes)
    (cache : Cache) : Except Fault (Cache × Begun × Bool) := do
  let request ← Request.ofString frame
  if ¬ request.isValid then
    let response ← Response.make400Response fs
    let (responseBuf, past) ← response.serialize fs []
    return (cache, .answered responseBuf true, past)
  let resourceFullPath := servingDirectory ++ request.url
  if isCgiRequest resourceFullPath then
    return (cache, .cgi, false)
  if ¬ isFileExist fs resourceFullPath then
    let response ← Response.make404Response fs
    let (responseBuf, past) ← response.serialize fs []
    return (cache, .answered responseBuf true, past)
  let response ← Response.make200Response fs request.shouldClose (some resourceFullPath)
  let (cache, cacheBuf, resourceCached) ← cache.tryLoad resourceFullPath [] now
  let method ← request.getMethod
  let response := response.setShouldTransferContent (method ≠ .head && !resourceCached)
  let (responseBuf, past) ← response.serialize fs []
  if resourceCached then
    return (cache, .answered (responseBuf ++ cacheBuf) request.shouldClose, past)
  let (cacheBuf, past') ← loadFile fs resourceFullPath cacheBuf
  return (cache, .missed resourceFullPath responseBuf cacheBuf request.shouldClose, past || past')

/-- The call of `TryInsert` after a miss. -/
def finishRequest (A : Allocator) (now : UInt64) (resourceFullPath cacheBuf : Bytes)
    (cache : Cache) : Except Fault Cache := do
  let (cache, _) ← cache.tryInsert A resourceFullPath cacheBuf now
  return cache

/-- The body of the loop, without the calls that write and send. -/
def handleRequest (site : Site) :
    Pipeline.Handler UInt8 Bytes Fault (World Cache) := fun frame w => do
  let fs := site.fileSystem w.handled
  let now := site.clock w.handled
  let (cache, begun, past) ← beginRequest site.servingDirectory fs now frame w.cache
  let handled := w.handled + 1
  let pastTheEnd := w.pastTheEnd || past
  match begun with
  | .cgi => return ({ cache, handled, pastTheEnd }, .silent)
  | .answered responseBuf noMoreParse =>
    return ({ cache, handled, pastTheEnd }, .answer responseBuf noMoreParse)
  | .missed resourceFullPath responseBuf cacheBuf noMoreParse =>
    let cache ← finishRequest site.allocator now resourceFullPath cacheBuf cache
    return ({ cache, handled, pastTheEnd }, .answer responseBuf noMoreParse)

/-! ## The loop and the handler -/

/-- A connection, with the world it shares with the others. -/
abbrev ClientConn (κ : Type) := Pipeline.Session UInt8 Bytes Fault (World κ)

/-- The `while` loop of `ParseHttpRequest` and what follows it, for at most the given number of
requests. -/
def serveFrames (site : Site) : ℕ → ClientConn Cache → ClientConn Cache
  | 0, conn => conn
  | fuel + 1, conn =>
    match Buffer.findAndPopTill conn.unread crlfCrlf with
    | (none, _) => conn
    | (some request, readBuffer) =>
      let conn : ClientConn Cache := { conn with
        unread := readBuffer
        events := conn.events ++ [.popped request] }
      match handleRequest site request conn.shared with
      | .error fault => { conn with status := .crashed fault }
      | .ok (world, .silent) => { conn with shared := world }
      | .ok (world, .answer responseBuf noMoreParse) =>
        let conn : ClientConn Cache := { conn with
          shared := world
          events := conn.events ++ [.written responseBuf, .sent] }
        if noMoreParse then
          { conn with events := conn.events ++ [.deleted], status := .deleted }
        else
          serveFrames site fuel conn

/-- `ParseHttpRequest`, called for a readiness event of a connection. Every turn of the loop takes
at least the four bytes of the delimiter, so there are no more turns than bytes. -/
def parseHttpRequest (site : Site) (event : List RecvResult) (conn : ClientConn Cache) :
    ClientConn Cache :=
  match conn.status with
  | .serving =>
    match Connection.recv event conn.unread 0 with
    | (readBuffer, _, true) => Pipeline.Session.hangUp { conn with unread := readBuffer }
    | (readBuffer, _, false) =>
      serveFrames site readBuffer.length { conn with unread := readBuffer }
  | _ => conn

/-- A connection that has just been accepted. -/
def accepted (w : World Cache) : ClientConn Cache :=
  { unread := [], shared := w, events := [], status := .serving }

/-- A connection over several readiness events. -/
def runEvents (site : Site) (events : List (List RecvResult)) (conn : ClientConn Cache) :
    ClientConn Cache :=
  events.foldl (fun conn event => parseHttpRequest site event conn) conn

/-- The loop is the loop of `Pipeline`. -/
lemma serveFrames_eq (site : Site) (n : ℕ) (conn : ClientConn Cache) :
    serveFrames site n conn = Pipeline.serveUpTo crlfCrlf (handleRequest site) n conn := by
  induction n generalizing conn with
  | zero => rfl
  | succ n ih =>
    unfold serveFrames Pipeline.serveUpTo
    rw [Buffer.findAndPopTill_eq]
    cases Search.cut crlfCrlf conn.unread with
    | none => rfl
    | some p =>
      obtain ⟨frame, rest⟩ := p
      simp only
      rcases handleRequest site frame conn.shared with fault | ⟨w, _ | ⟨buf, _ | _⟩⟩
      · rfl
      · rfl
      · simp only [Bool.false_eq_true, if_false, ih, Pipeline.Session.turn, List.append_assoc,
          List.cons_append, List.nil_append]
      · simp only [if_true, Pipeline.Session.turn, List.append_assoc, List.cons_append,
          List.nil_append]

/-- The handler on any event: it gives the connection up, or it serves what it has received. -/
lemma parseHttpRequest_cases (site : Site) (event : List RecvResult) {conn : ClientConn Cache}
    (hstatus : conn.status = .serving) : ∃ readBuffer,
      parseHttpRequest site event conn =
        Pipeline.Session.hangUp { conn with unread := readBuffer } ∨
      parseHttpRequest site event conn =
        Pipeline.serve crlfCrlf (handleRequest site) { conn with unread := readBuffer } := by
  unfold parseHttpRequest
  simp only [hstatus]
  cases hrecv : Connection.recv event conn.unread 0 with
  | mk readBuffer result =>
    obtain ⟨recvBytes, exit⟩ := result
    refine ⟨readBuffer, ?_⟩
    cases exit with
    | true => exact .inl rfl
    | false => exact .inr (serveFrames_eq site _ _)

/-- The handler on a connection that has ended. -/
lemma parseHttpRequest_of_ended (site : Site) (event : List RecvResult) {conn : ClientConn Cache}
    (hstatus : conn.status ≠ .serving) : parseHttpRequest site event conn = conn := by
  unfold parseHttpRequest
  split
  · next h => exact absurd h hstatus
  · rfl

/-- The handler on an event that drains the socket. -/
lemma parseHttpRequest_of_drains (site : Site) {event : List RecvResult} {m : Bytes}
    (h : Drains event m) (conn : ClientConn Cache) :
    parseHttpRequest site event conn = Pipeline.deliver crlfCrlf (handleRequest site) m conn := by
  cases hstatus : conn.status with
  | serving =>
    simp only [parseHttpRequest, Pipeline.deliver, hstatus, h.recv, serveFrames_eq,
      Pipeline.serve, Pipeline.Session.feed]
  | deleted => simp only [parseHttpRequest, Pipeline.deliver, hstatus]
  | crashed fault => simp only [parseHttpRequest, Pipeline.deliver, hstatus]

/-- A connection over several readiness events that drain the socket. -/
lemma runEvents_of_drains (site : Site) {events : List (List RecvResult)} {ms : List Bytes}
    (h : List.Forall₂ Drains events ms) (conn : ClientConn Cache) :
    runEvents site events conn =
      Pipeline.deliverAll crlfCrlf (handleRequest site) ms conn := by
  unfold runEvents Pipeline.deliverAll
  induction h generalizing conn with
  | nil => rfl
  | cons hevent _ ih =>
    simp only [List.foldl_cons, parseHttpRequest_of_drains site hevent]
    exact ih _

end Icee.Http
