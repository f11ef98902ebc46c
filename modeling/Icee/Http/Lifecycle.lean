import Icee.Http.Client
import Icee.Http.ServerStore
import Icee.Lib.PipelineHistory

set_option relaxedAutoImplicit false
set_option autoImplicit false

/-!
# The life of a connection

What a client may rely on from the first byte it sends to the end of its connection: that the
server does what it announces about the connection, that it answers what it takes off the wire,
and that it survives.

## Main definitions

* `Icee.Http.runAmongOthers` — a connection over many events, among other connections.
* `Icee.Http.reached`, `Icee.Http.answerable` — the frames a run gets to, those with an answer.
* `Icee.Http.Survived`, `Icee.Http.harmless` — a run without a crash, a frame without harm.

## Main results

* `Icee.Http.announced_is_done` — the `Connection` header says what happens next.
* `Icee.Http.answered_iff` — every frame taken is answered exactly when no frame that is reached
  asks for `cgi_bin` or is too long for the parser.
* `Icee.Http.survives_iff` — the handler survives exactly when every frame it reaches is harmless.
-/

namespace Icee.Http

open Pipeline

/-! ## What is announced is done -/

/-- The answer announces that the connection will be kept. -/
def Keeps (answer : Bytes) : Prop :=
  Client.field headerConnection answer = some connectionKeepAlive

/-- The answer announces that the connection will be closed. -/
def Closes (answer : Bytes) : Prop := Client.field headerConnection answer = some connectionClose

/-- No answer announces both. -/
lemma not_closes_of_keeps (answer : Bytes) (h : Keeps answer) : ¬ Closes answer := by
  intro hclose
  rw [Closes, show Client.field headerConnection answer = _ from h] at hclose
  exact absurd (Option.some.inj hclose) (by decide)

/-- **The `Connection` header** of an answer agrees with the decision to go on. -/
lemma connection_of_begins {servingDirectory : Bytes} {fs : FileSystem} {frame : Bytes}
    {s s' : Store} {outcome : Store × Begun × Bool} {answer : Bytes} {last past : Bool}
    (h : Spec.Begins servingDirectory fs frame s (.ok outcome))
    (hfinish : Spec.finish outcome = (s', .answer answer last, past)) :
    Client.field headerConnection answer =
      some (if last then connectionClose else connectionKeepAlive) := by
  have hnone : ∀ m ∈ (none : Option Bytes), 13 ∉ m := by simp
  cases h with
  | badRequest parse valid =>
    cases hfinish
    simpa using Client.connection_answer (show 13 ∉ responseBadRequest by decide) hnone true 0 []
  | cgi parse valid cgi => cases hfinish
  | notFound parse valid cgi entry =>
    cases hfinish
    simpa using Client.connection_answer (show 13 ∉ responseNotFound by decide) hnone true 0 []
  | hit parse valid cgi entry cached =>
    cases hfinish
    exact Client.connection_answer (by decide) (Client.cr_notMem_mimeOf _) _ _ _
  | miss parse valid cgi entry cached =>
    cases hfinish
    exact Client.connection_answer (by decide) (Client.cr_notMem_mimeOf _) _ _ _

/-- The same for the handler over the nodes. -/
lemma connection_of_handleRequest {site : Site} {frame : Bytes} {w w' : World Cache}
    {answer : Bytes} {last : Bool} (h : w.Sound)
    (heq : handleRequest site frame w = .ok (w', .answer answer last)) :
    Client.field headerConnection answer =
      some (if last then connectionClose else connectionKeepAlive) := by
  obtain ⟨s, hs⟩ := h
  obtain ⟨_, _, _, hbegins, hfinish, -, -⟩ := handleRequest_ok hs heq
  exact connection_of_begins hbegins hfinish

/-- One event keeps the history of a connection orderly. -/
lemma orderly_parseHttpRequest (site : Site) (event : List RecvResult) {conn : ClientConn Cache}
    (hshared : conn.shared.Sound) (h : Orderly Keeps Closes conn) :
    Orderly Keeps Closes (parseHttpRequest site event conn) := by
  by_cases hstatus : conn.status = .serving
  · obtain ⟨readBuffer, hcases⟩ := parseHttpRequest_cases site event hstatus
    have h' : Orderly Keeps Closes { conn with unread := readBuffer } := h
    rcases hcases with heq | heq
    · rw [heq]
      exact h'.hangUp hstatus
    · rw [heq]
      exact h'.serve (show crlfCrlf ≠ [] by decide) (fun _ _ _ _ => World.Sound.handleRequest)
        (fun _ _ _ _ => connection_of_handleRequest) (fun _ _ _ _ => connection_of_handleRequest)
        hstatus hshared
  · rw [parseHttpRequest_of_ended site event hstatus]
    exact h

/-- A connection over several readiness events, among other connections: each event finds the
shared world as the others have left it. -/
def runAmongOthers (site : Site) (events : List (World Cache × List RecvResult))
    (conn : ClientConn Cache) : ClientConn Cache :=
  events.foldl (fun conn event => parseHttpRequest site event.2 { conn with shared := event.1 })
    conn

/-- Every run of a connection keeps its history orderly. -/
lemma orderly_runAmongOthers (site : Site) (events : List (World Cache × List RecvResult)) :
    ∀ {conn : ClientConn Cache}, (∀ event ∈ events, event.1.Sound) →
      Orderly Keeps Closes conn → Orderly Keeps Closes (runAmongOthers site events conn) := by
  unfold runAmongOthers
  induction events with
  | nil => intro conn _ h; exact h
  | cons event events ih =>
    intro conn hsound h
    have h' : Orderly Keeps Closes { conn with shared := event.1 } := h
    exact ih (fun event' hevent' => hsound event' (by simp [hevent']))
      (orderly_parseHttpRequest site event.2 (hsound event (by simp)) h')

/-- **What the server announces about the connection is what it does.** Whatever arrives on a
connection, in whatever events, and whatever other connections do in between: its responses are
some that announce `Keep-Alive` and then at most one that announces `Close`; the connection is
deleted only as the last event, right after the peer has left or right after the closing response
has been sent; and a closing response is followed by nothing but sending it and deleting the
connection, so that no further frame is taken. -/
theorem announced_is_done (site : Site) (w : World Cache)
    (events : List (World Cache × List RecvResult))
    (hevents : ∀ event ∈ events, ∃ A, event.1.cache.Reachable A) :
    let conn := runAmongOthers site events (accepted w)
    (∃ kept last, responses conn.events = kept ++ last ∧
      (∀ r ∈ kept, Client.field headerConnection r = some connectionKeepAlive) ∧
      last.length ≤ 1 ∧ ∀ r ∈ last, Client.field headerConnection r = some connectionClose) ∧
    (∀ pre post, conn.events = pre ++ .deleted :: post → post = [] ∧
      ((∃ m, pre = m ++ [.peerClosed]) ∨
        ∃ m r, pre = m ++ [.written r, .sent] ∧
          Client.field headerConnection r = some connectionClose)) ∧
    (∀ pre post r, conn.events = pre ++ .written r :: post →
      Client.field headerConnection r = some connectionClose → post = [.sent, .deleted]) := by
  intro conn
  have hstart : Orderly Keeps Closes (accepted w) := ⟨[], [], rfl, by simp, .ongoing (nofun)⟩
  have hsound : ∀ event ∈ events, event.1.Sound := fun event hevent =>
    let ⟨_, hreach⟩ := hevents event hevent
    hreach.exists_refines
  have horderly : Orderly Keeps Closes conn := orderly_runAmongOthers site events hsound hstart
  refine ⟨horderly.responses, fun pre post he => horderly.of_deleted he, ?_⟩
  intro pre post r he hr
  exact horderly.of_closing not_closes_of_keeps hr he

/-- Two requests in two events, the second of which ends the connection. -/
theorem announced_is_done_two :
    let conn := runAmongOthers sampleSite
      [(sampleWorld, [.data sampleGet (by decide), .error .eagain]),
        (sampleWorld, [.data sampleGetClose (by decide), .error .eagain])] (accepted sampleWorld)
    conn.events.length = 7 ∧ conn.status = .deleted ∧
      ∃ kept last, responses conn.events = kept ++ last ∧
        (∀ r ∈ kept, Client.field headerConnection r = some connectionKeepAlive) ∧
        last.length ≤ 1 ∧ ∀ r ∈ last, Client.field headerConnection r = some connectionClose :=
  ⟨by decide +kernel, by decide +kernel,
    (announced_is_done sampleSite sampleWorld _ (by
      intro event hevent
      refine ⟨Allocator.bump, ?_⟩
      rcases List.mem_cons.mp hevent with rfl | hevent
      · exact sampleWorld_reachable
      · rw [List.mem_singleton.mp hevent]
        exact sampleWorld_reachable)).1⟩

/-! ## What is taken is answered -/

/-- No request of the stream leads to a directory. -/
def RequestsFiles (site : Site) (stream : Bytes) : Prop :=
  ∀ frame ∈ Search.frames crlfCrlf stream, ∀ r, Request.ofString frame = .ok r →
    ∀ n, site.fileSystem n (site.servingDirectory ++ r.url) ≠ .directory

/-- The request is the last one of its connection: it is malformed, it asks for a file that does
not exist, or it does not ask to keep the connection. -/
def isLast (servingDirectory : Bytes) (fs : FileSystem) (frame : Bytes) : Bool :=
  match Request.ofString frame with
  | .error _ => true
  | .ok r => !r.isValid || !isFileExist fs (servingDirectory ++ r.url) || r.shouldClose

/-- The frames up to the last one of the connection, if `n` requests have been handled before. -/
def reached (site : Site) : ℕ → List Bytes → List Bytes
  | _, [] => []
  | n, frame :: frames =>
    frame :: if isLast site.servingDirectory (site.fileSystem n) frame then []
      else reached site (n + 1) frames

/-- A frame the handler has an answer to: the parser gets through it, and it does not ask for
`cgi_bin`. -/
def answerable (servingDirectory frame : Bytes) : Prop :=
  frame.length < 2 ^ 31 ∧ asksForCgi servingDirectory frame = false

section Answered

variable {site : Site} {w : World Cache} {frame : Bytes}

/-- The parser gets through a frame only if it is shorter than `2^31` bytes. -/
lemma length_lt_of_parse (hend : crlf <:+ frame) (hmem : frame.length < 2 ^ 63) {r : Request}
    (h : Request.ofString frame = .ok r) : frame.length < 2 ^ 31 := by
  by_contra hlen
  obtain ⟨fault, hfault⟩ := Request.ofString_error (Nat.le_of_not_lt hlen) hmem hend
  rw [hfault] at h
  cases h

/-- **A frame that can be answered** is answered, and the answer is the last one if the frame
says so. -/
lemma handleRequest_of_answerable (hw : w.Sound)
    (hfile : ∀ r, Request.ofString frame = .ok r →
      site.fileSystem w.handled (site.servingDirectory ++ r.url) ≠ .directory)
    (h : answerable site.servingDirectory frame) :
    ∃ w' r, w'.Sound ∧ w'.handled = w.handled + 1 ∧ handleRequest site frame w = .ok (w', .answer r
      (isLast site.servingDirectory (site.fileSystem w.handled) frame)) := by
  obtain ⟨hlen, hcgi⟩ := h
  obtain ⟨s, hs⟩ := hw
  obtain ⟨outcome, hcases, hout⟩ := handleRequest_cases site frame hs
  have hanswer : ∀ {s' : Store} {r : Bytes} {last past : Bool},
      (∃ c', Cache.Refines c' s' ∧ handleRequest site frame w =
        .ok (⟨c', w.handled + 1, w.pastTheEnd || past⟩, .answer r last)) →
      isLast site.servingDirectory (site.fileSystem w.handled) frame = last →
      ∃ w' r, w'.Sound ∧ w'.handled = w.handled + 1 ∧ handleRequest site frame w =
        .ok (w', .answer r
          (isLast site.servingDirectory (site.fileSystem w.handled) frame)) := by
    rintro s' r last past ⟨c', hc', heq⟩ rfl
    exact ⟨_, r, ⟨s', hc'⟩, rfl, heq⟩
  cases hcases with
  | unparsed parse =>
    obtain ⟨r, hr⟩ := Request.ofString_ok hlen
    rw [parse] at hr
    cases hr
  | badRequest parse valid => exact hanswer hout (by simp [isLast, parse, valid])
  | cgi parse valid cgi => simp [asksForCgi, parse, valid, cgi] at hcgi
  | notFound parse valid cgi entry =>
    exact hanswer hout (by simp [isLast, parse, isFileExist, entry])
  | directory parse valid cgi entry => exact absurd entry (hfile _ parse)
  | hit parse valid cgi entry cached =>
    exact hanswer hout (by simp [isLast, parse, valid, isFileExist, entry])
  | miss parse valid cgi entry cached =>
    exact hanswer hout (by simp [isLast, parse, valid, isFileExist, entry])

/-- Only a frame that can be answered is answered. -/
lemma answerable_of_answers (hw : w.Sound) (hend : crlf <:+ frame) (hmem : frame.length < 2 ^ 63)
    (h : Answers (handleRequest site) w frame) : answerable site.servingDirectory frame := by
  obtain ⟨w', r, last, heq⟩ := h
  obtain ⟨s, hs⟩ := hw
  obtain ⟨outcome, hcases, hout⟩ := handleRequest_cases site frame hs
  cases hcases with
  | unparsed parse =>
    rw [show handleRequest site frame w = _ from hout] at heq
    cases heq
  | badRequest parse valid =>
    exact ⟨length_lt_of_parse hend hmem parse, by simp [asksForCgi, parse, valid]⟩
  | cgi parse valid cgi =>
    obtain ⟨c', hc', hsilent⟩ := hout
    rw [hsilent] at heq
    cases heq
  | notFound parse valid cgi entry =>
    exact ⟨length_lt_of_parse hend hmem parse, by simp [asksForCgi, parse, cgi]⟩
  | directory parse valid cgi entry =>
    rw [show handleRequest site frame w = _ from hout] at heq
    cases heq
  | hit parse valid cgi entry cached =>
    exact ⟨length_lt_of_parse hend hmem parse, by simp [asksForCgi, parse, cgi]⟩
  | miss parse valid cgi entry cached =>
    exact ⟨length_lt_of_parse hend hmem parse, by simp [asksForCgi, parse, cgi]⟩

/-- The frames that the loop reaches while it answers are those that the requests themselves
leave to be reached. -/
lemma along_answers_iff (frames : List Bytes) : ∀ {w : World Cache}, w.Sound →
    (∀ frame ∈ frames, crlf <:+ frame ∧ frame.length < 2 ^ 63 ∧
      ∀ r, Request.ofString frame = .ok r →
        ∀ n, site.fileSystem n (site.servingDirectory ++ r.url) ≠ .directory) →
    (Transition.Along (next (handleRequest site)) (Answers (handleRequest site)) w frames ↔
      ∀ frame ∈ reached site w.handled frames, answerable site.servingDirectory frame) := by
  induction frames with
  | nil => intro w _ _; simp [Transition.Along, reached]
  | cons frame frames ih =>
    intro w hw hframes
    obtain ⟨hend, hmem, hfile⟩ := hframes frame (by simp)
    by_cases h : answerable site.servingDirectory frame
    · obtain ⟨w', r, hw', hhandled, heq⟩ :=
        handleRequest_of_answerable hw (fun r hr => hfile r hr w.handled) h
      have hanswers : Answers (handleRequest site) w frame := ⟨w', r, _, heq⟩
      cases hlast : isLast site.servingDirectory (site.fileSystem w.handled) frame with
      | true =>
        have hnext : next (handleRequest site) w frame = none := by simp [next, heq, hlast]
        simp [Transition.Along, reached, hlast, h, hanswers, hnext]
      | false =>
        have hnext : next (handleRequest site) w frame = some w' := by simp [next, heq, hlast]
        have ih' := ih hw' fun frame' hframe' => hframes frame' (by simp [hframe'])
        rw [hhandled] at ih'
        simp [Transition.Along, reached, hlast, h, hanswers, hnext, ih']
    · refine iff_of_false (fun ha => h (answerable_of_answers hw hend hmem ha.1)) fun ha => ?_
      exact h (ha frame (by simp [reached]))

end Answered

/-- **What is taken off the wire is answered**, exactly as long as no frame that is reached asks
for `cgi_bin` and none is too long for the cursor of `Split`: then every frame taken is answered
by one response, which is written and sent before the next frame is taken, and when the handler
returns with the connection still open, no complete frame is left. (A read buffer holds less than
`2^63` bytes, as every `std::vector` does.) -/
theorem answered_iff (site : Site) {A : Allocator} (conn : ClientConn Cache)
    (hcache : conn.shared.cache.Reachable A) (hserving : conn.status = .serving)
    {event : List RecvResult} {m : Bytes} (hevent : Drains event m)
    (hfiles : RequestsFiles site (conn.unread ++ m))
    (hmem : (conn.unread ++ m).length < 2 ^ 63) :
    Complete crlfCrlf conn (parseHttpRequest site event conn) ↔
      ∀ frame ∈ reached site conn.shared.handled (Search.frames crlfCrlf (conn.unread ++ m)),
        frame.length < 2 ^ 31 ∧ asksForCgi site.servingDirectory frame = false := by
  have ht : crlfCrlf ≠ [] := by decide
  have hframes : ∀ frame ∈ Search.frames crlfCrlf (conn.unread ++ m),
      crlf <:+ frame ∧ frame.length < 2 ^ 63 ∧ ∀ r, Request.ofString frame = .ok r →
        ∀ n, site.fileSystem n (site.servingDirectory ++ r.url) ≠ .directory := by
    intro frame hframe
    obtain ⟨hsuffix, hlen⟩ := Search.of_mem_frames ht _ hframe
    have hcrlf : crlf <:+ crlfCrlf := by decide
    exact ⟨hcrlf.trans hsuffix, by omega, hfiles frame hframe⟩
  have hdeliver : parseHttpRequest site event conn =
      serve crlfCrlf (handleRequest site) (conn.feed m) := by
    rw [parseHttpRequest_of_drains site hevent]
    simp only [deliver, hserving]
  rw [hdeliver]
  exact (serve_answered_iff (handleRequest site) ht (s := conn.feed m) hserving).trans
    (along_answers_iff _ hcache.exists_refines hframes)

/-- A request for a script. -/
def sampleCgi : Bytes := bytes "GET /cgi_bin/x HTTP/1.1\r\nConnection:keep-alive\r\n\r\n"

/-- The requests of the samples lead to no directory. -/
lemma sample_requestsFiles {stream : Bytes}
    (h : ∀ frame ∈ Search.frames crlfCrlf stream,
      frame = sampleGet ∨ frame = sampleGetClose ∨ frame = sampleCgi) :
    RequestsFiles sampleSite stream := by
  have hurl : ∀ frame, frame = sampleGet ∨ frame = sampleGetClose ∨ frame = sampleCgi →
      (Request.ofString frame).toOption.map (sampleFiles <| bytes "www" ++ ·.url) ≠
        some .directory := by
    rintro frame (rfl | rfl | rfl) <;> decide +kernel
  intro frame hframe r hr n hdir
  refine hurl frame (h frame hframe) ?_
  rw [hr]
  exact congrArg some hdir

/-- Two pipelined requests. -/
theorem answered_pipelined :
    let conn := { accepted sampleWorld with unread := sampleGet ++ sampleGetClose }
    Complete crlfCrlf conn (parseHttpRequest sampleSite [.error .eagain] conn) := by
  intro conn
  refine (answered_iff sampleSite conn sampleWorld_reachable rfl .eagain
    (sample_requestsFiles (by decide +kernel)) (by decide +kernel)).mpr ?_
  decide +kernel

/-- A request for a script, with another request behind it: nothing is answered, and the second
request stays in the read buffer. -/
theorem cgi_request_not_answered :
    let conn := { accepted sampleWorld with unread := sampleCgi ++ sampleGet }
    RequestsFiles sampleSite conn.unread ∧
      ¬ Complete crlfCrlf conn (parseHttpRequest sampleSite [.error .eagain] conn) := by
  refine ⟨sample_requestsFiles (by decide +kernel), fun h => ?_⟩
  have hserving : (parseHttpRequest sampleSite [.error .eagain]
      { accepted sampleWorld with unread := sampleCgi ++ sampleGet }).status = .serving := by
    decide +kernel
  exact h.2 hserving (by decide +kernel)

/-! ## The handler survives -/

/-- A frame that the handler survives in the given state: it is malformed or asks for `cgi_bin`,
or it leads to no directory, and if it leads to an empty file, that file is in the cache. -/
def harmless (servingDirectory : Bytes) (fs : FileSystem) (cache : Cache) (frame : Bytes) : Bool :=
  match Request.ofString frame with
  | .error _ => true
  | .ok r =>
    let path := servingDirectory ++ r.url
    !r.isValid || isCgiRequest path ||
      match fs path with
      | .absent => true
      | .directory => false
      | .regular content => content ≠ [] || (cache.mapping.lookup path).isSome

/-- **One frame**: it does no harm exactly if the handler returns without having referred past the
end of a vector.

**Proof sketch.** By the outcome of the handler. A directory throws and nothing else does, since a
frame of this length is parsed. The one reference past the end is that to the first byte of an empty
file, and it is made on a miss only. -/
lemma harmless_iff {site : Site} {w : World Cache} (hw : w.Sound) (hclean : w.pastTheEnd = false)
    {frame : Bytes} (hlen : frame.length < 2 ^ 31) :
    (∃ w' r, handleRequest site frame w = .ok (w', r) ∧ w'.pastTheEnd = false) ↔
      harmless site.servingDirectory (site.fileSystem w.handled) w.cache frame = true := by
  obtain ⟨s, hs⟩ := hw
  obtain ⟨outcome, hcases, hout⟩ := handleRequest_cases site frame hs
  cases hcases with
  | unparsed parse =>
    obtain ⟨r, hr⟩ := Request.ofString_ok hlen
    rw [parse] at hr
    cases hr
  | badRequest parse valid =>
    obtain ⟨c', -, heq⟩ := hout
    exact iff_of_true ⟨_, _, heq, by simp [hclean]⟩ (by simp [harmless, parse, valid])
  | cgi parse valid cgi =>
    obtain ⟨c', -, heq⟩ := hout
    exact iff_of_true ⟨_, _, heq, by simp [hclean]⟩ (by simp [harmless, parse, cgi])
  | notFound parse valid cgi entry =>
    obtain ⟨c', -, heq⟩ := hout
    exact iff_of_true ⟨_, _, heq, by simp [hclean]⟩ (by simp [harmless, parse, entry])
  | directory parse valid cgi entry =>
    refine iff_of_false ?_ (by simp [harmless, parse, valid, cgi, entry])
    rintro ⟨w', r, heq, -⟩
    rw [show handleRequest site frame w = _ from hout] at heq
    cases heq
  | @hit r content data parse valid cgi entry cached =>
    obtain ⟨c', -, heq⟩ := hout
    have hmapped : w.cache.mapping.lookup (site.servingDirectory ++ r.url) ≠ none := by
      rw [Ne, hs.lookup_eq_none, cached]
      exact (nofun)
    exact iff_of_true ⟨_, _, heq, by simp [hclean]⟩
      (by simp [harmless, parse, valid, cgi, entry, Option.isSome_iff_ne_none, hmapped])
  | @miss r content parse valid cgi entry cached =>
    obtain ⟨c', -, heq⟩ := hout
    have hmapped : w.cache.mapping.lookup (site.servingDirectory ++ r.url) = none :=
      hs.lookup_eq_none.mpr cached
    rw [heq]
    simp [harmless, parse, valid, cgi, entry, hmapped, hclean]

/-- The handler has come back: no exception was left uncaught, no assertion failed, and no element
was accessed out of range. -/
def Survived (conn : ClientConn Cache) : Prop :=
  (∀ fault, conn.status ≠ .crashed fault) ∧ conn.shared.pastTheEnd = false

/-- What has been referred to past the end stays on record. -/
lemma pastTheEnd_of_handleRequest {site : Site} {frame : Bytes} {w w' : World Cache}
    {reply : Reply Bytes} (h : handleRequest site frame w = .ok (w', reply))
    (hclean : w'.pastTheEnd = false) : w.pastTheEnd = false := by
  obtain ⟨⟨c, begun, past⟩, -, h⟩ := exists_of_bind_eq_ok h
  cases begun with
  | cgi => cases h; exact (Bool.or_eq_false_iff.mp hclean).1
  | answered buf last => cases h; exact (Bool.or_eq_false_iff.mp hclean).1
  | missed path buf cacheBuf last =>
    obtain ⟨c', -, h⟩ := exists_of_bind_eq_ok h
    cases h
    exact (Bool.or_eq_false_iff.mp hclean).1

/-- **The handler survives** a read buffer of less than `2^31` bytes, without an uncaught
exception, a failing assertion or an element access out of range, exactly if every frame that it
reaches is harmless in the state in which it is reached. -/
theorem survives_iff (site : Site) {A : Allocator} (conn : ClientConn Cache)
    (hcache : conn.shared.cache.Reachable A) (hserving : conn.status = .serving)
    (hclean : conn.shared.pastTheEnd = false) {event : List RecvResult} {m : Bytes}
    (hevent : Drains event m) (hlen : (conn.unread ++ m).length < 2 ^ 31) :
    Survived (parseHttpRequest site event conn) ↔
      Transition.Along (next (handleRequest site))
        (fun w frame =>
          harmless site.servingDirectory (site.fileSystem w.handled) w.cache frame = true)
        conn.shared (Search.frames crlfCrlf (conn.unread ++ m)) := by
  have ht : crlfCrlf ≠ [] := by decide
  have hdeliver : parseHttpRequest site event conn =
      serve crlfCrlf (handleRequest site) (conn.feed m) := by
    rw [parseHttpRequest_of_drains site hevent]
    simp only [deliver, hserving]
  have hloop := serve_clean_iff (handleRequest site) ht (fun w => w.pastTheEnd = false)
    (fun _ _ _ _ => pastTheEnd_of_handleRequest) (s := conn.feed m) hserving
  rw [hdeliver, Survived, hloop,
    and_iff_right (show (conn.feed m).shared.pastTheEnd = false from hclean)]
  refine Transition.along_congr (fun w => w.Sound ∧ w.pastTheEnd = false) _ ?_ ?_ _
    ⟨hcache.exists_refines, hclean⟩
  · rintro w frame w' ⟨hw, -⟩ ⟨w'', r, heq, hclean''⟩ hnext
    rw [next, heq] at hnext
    rcases r with _ | ⟨r, _ | _⟩
    · cases hnext
    · cases hnext
      exact ⟨hw.handleRequest heq, hclean''⟩
    · cases hnext
  · rintro w frame hframe ⟨hw, hclean⟩
    have := (Search.of_mem_frames ht _ hframe).2
    exact harmless_iff hw hclean (by simp only [Session.feed] at this; omega)

/-- Two pipelined requests for a page. -/
theorem survives_pipelined :
    let conn := { accepted sampleWorld with unread := sampleGet ++ sampleGetClose }
    Survived (parseHttpRequest sampleSite [.error .eagain] conn) := by
  intro conn
  refine (survives_iff sampleSite conn sampleWorld_reachable rfl rfl .eagain
    (by decide +kernel)).mpr ?_
  decide +kernel

/-- A request for a directory. -/
def sampleSub : Bytes := bytes "GET /sub HTTP/1.1\r\n\r\n"

/-- A request for an empty page. -/
def sampleEmpty : Bytes := bytes "GET /empty.html HTTP/1.1\r\n\r\n"

/-- A request for a directory ends the process by an uncaught exception, and the first request for
an empty file makes `LoadFile` refer to the element past the end of its buffer. -/
theorem directory_and_empty_file_do_harm :
    ¬ Survived (parseHttpRequest sampleSite [.error .eagain]
        { accepted sampleWorld with unread := sampleSub }) ∧
      ¬ Survived (parseHttpRequest sampleSite [.error .eagain]
        { accepted sampleWorld with unread := sampleEmpty }) := by
  have hcrash : (parseHttpRequest sampleSite [.error .eagain]
      { accepted sampleWorld with unread := sampleSub }).status = .crashed .filesystemError := by
    decide +kernel
  have hpast : (parseHttpRequest sampleSite [.error .eagain]
      { accepted sampleWorld with unread := sampleEmpty }).shared.pastTheEnd = true := by
    decide +kernel
  refine ⟨fun h => h.1 _ hcrash, fun h => ?_⟩
  rw [h.2] at hpast
  cases hpast

end Icee.Http
