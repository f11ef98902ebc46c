import Icee.Http.HeaderOrder
import Icee.Http.Isolation
import Icee.Http.Transmission
import Icee.Lib.Messages

set_option relaxedAutoImplicit false
set_option autoImplicit false

/-!
# From the files to the client

A client sends requests one behind the other and reads the answers in the bytes that it gets back.
This file says which pages the client is to be shown, in terms of the grammar of requests and of the
files alone, and that it is shown them, whatever happens in between: however its bytes are cut into
pieces, whatever the other connections do, and whatever is cached.

## Main definitions

* `Icee.Http.Client.read`, `Icee.Http.Client.pages` — how a client reads.
* `Icee.Http.Shows`, `Icee.Http.Shown` — what a client is to be shown.

## Main results

* `Icee.Http.replyTo_of_shows` — a client reads what it is to be shown in the reply to a request.
* `Icee.Http.Reactor.pages_shown` — a client reads the pages it is to be shown, and when the server
  is done with the connection, all of them.
-/

namespace Icee.Http

/-- What a client is shown: the status line, the type of the file, and its content. -/
structure Page where
  statusLine : Bytes
  contentType : Option Bytes
  body : Bytes
  deriving DecidableEq

/-! ## How a client reads -/

namespace Client

/-- The front of what has been received, if it is complete: a head, and as many bytes behind it as
the head announces. -/
def read (received : Bytes) : Option (Page × Bytes) :=
  match Search.cut crlfCrlf received with
  | none => none
  | some (answerHead, rest) =>
    match statusLine answerHead, (field headerContentLength answerHead).bind decimal with
    | some statusLine, some size =>
      let contentType := field headerContentType answerHead
      if size ≤ rest.length then
        some ({ statusLine, contentType, body := rest.take size }, rest.drop size)
      else none
    | _, _ => none

/-- The pages in what has been received. -/
def pages (received : Bytes) : List Page := (Messages.readAll read received).1

/-- What a client has read stays read when more is received. -/
lemma stable_read : Messages.Stable read where
  nil := by
    have hcut : Search.cut crlfCrlf [] = none := Search.cut_eq_none_iff.mpr (by decide)
    rw [read, hcut]
  append := by
    intro s rest r hread m
    unfold read at hread ⊢
    cases hcut : Search.cut crlfCrlf s with
    | none => simp [hcut] at hread
    | some p =>
      obtain ⟨answerHead, behind⟩ := p
      simp only [hcut] at hread
      simp only [Search.cut_append hcut m]
      cases hstatus : statusLine answerHead with
      | none => simp [hstatus] at hread
      | some line =>
        cases hsize : (field headerContentLength answerHead).bind decimal with
        | none => simp [hstatus, hsize] at hread
        | some size =>
          simp only [hstatus, hsize, Option.ite_none_right_eq_some, Option.some.injEq] at hread ⊢
          obtain ⟨hle, heq⟩ := hread
          obtain ⟨rfl, rfl⟩ := Prod.mk.inj heq
          refine ⟨by rw [List.length_append]; omega, ?_⟩
          rw [List.take_append_of_le_length hle, List.drop_append_of_le_length hle]

section Answer

variable {statusCode : Bytes} {mime : Option Bytes} (hcode : 13 ∉ statusCode)
  (hmime : ∀ m ∈ mime, 13 ∉ m)

include hcode hmime in
/-- The type of the file that an answer announces. -/
lemma contentType_answer (close : Bool) (size : ℕ) (content : Bytes) :
    field headerContentType (answerHead statusCode close size mime ++ content) = mime := by
  rw [field, lines_answer hcode hmime]
  cases mime <;> rfl

include hcode hmime in
/-- **A client reads an answer** as it was put together. -/
lemma reads_answer (close : Bool) (content : Bytes) :
    Messages.Reads read (answerHead statusCode close content.length mime ++ content)
      ⟨httpVersion ++ space ++ statusCode, mime, content⟩ := by
  intro s
  have hstatus := statusLine_answer hcode hmime close content.length []
  have hsize := contentLength_answer hcode hmime close content.length []
  have htype := contentType_answer hcode hmime close content.length []
  rw [List.append_nil] at hstatus hsize htype
  rw [read, List.append_assoc, cut_answer hcode hmime]
  simp [hstatus, hsize, htype, decimal_toDecimal]

end Answer

end Client

/-! ## What a client is to be shown -/

/-- What a client is to be shown for a request, and whether this is the last page of its
connection. -/
inductive Shows (servingDirectory : Bytes) (fs : FileSystem) (frame : Bytes) : Page → Bool → Prop
  | file {line : Bytes} {lines : List Bytes} {m u v content : Bytes}
    (request : IsRequest frame line lines m u v) (get : SameUpToCase m (bytes "GET"))
    (cgi : isCgiRequest (servingDirectory ++ urlOf u) = false)
    (entry : fs (servingDirectory ++ urlOf u) = .regular content) :
    Shows servingDirectory fs frame
      { statusLine := bytes "Http/1.1 200 OK"
        contentType := mimeOf (servingDirectory ++ urlOf u)
        body := content } (!lines.any fun l => (headerOf l).keepsAlive)
  | notFound {line : Bytes} {lines : List Bytes} {m u v : Bytes}
    (request : IsRequest frame line lines m u v)
    (cgi : isCgiRequest (servingDirectory ++ urlOf u) = false)
    (entry : fs (servingDirectory ++ urlOf u) = .absent) :
    Shows servingDirectory fs frame
      { statusLine := bytes "Http/1.1 404 Not Found", contentType := none, body := [] } true
  | badRequest (request : ∀ line lines m u v, ¬ IsRequest frame line lines m u v) :
    Shows servingDirectory fs frame
      { statusLine := bytes "Http/1.1 400 Bad Request", contentType := none, body := [] } true

/-- What a client is to be shown for the requests of a stream: nothing more after the last page of
its connection, and nothing for a request that asks for a directory, at which the server ends. -/
inductive Shown (servingDirectory : Bytes) (fs : FileSystem) : List Bytes → List Page → Prop
  | nil : Shown servingDirectory fs [] []
  | next {frame : Bytes} {frames : List Bytes} {page : Page} {pages : List Page}
    (shows : Shows servingDirectory fs frame page false)
    (rest : Shown servingDirectory fs frames pages) :
    Shown servingDirectory fs (frame :: frames) (page :: pages)
  | last {frame : Bytes} {page : Page} (shows : Shows servingDirectory fs frame page true)
    (frames : List Bytes) : Shown servingDirectory fs (frame :: frames) [page]
  | directory {frame line : Bytes} {lines : List Bytes} {m u v : Bytes}
    (request : IsRequest frame line lines m u v)
    (cgi : isCgiRequest (servingDirectory ++ urlOf u) = false)
    (entry : fs (servingDirectory ++ urlOf u) = .directory) (frames : List Bytes) :
    Shown servingDirectory fs (frame :: frames) []

section Requests

variable {servingDirectory : Bytes} {fs : FileSystem} {frame : Bytes}
  (hlen : frame.length < 2 ^ 31)

include hlen in
/-- What the parser makes of a request of the grammar. -/
lemma ofString_of_request {line : Bytes} {lines : List Bytes} {m u v : Bytes}
    (request : IsRequest frame line lines m u v) : Request.ofString frame = .ok
      { method := some (methodOf m)
        version := some .http11
        url := urlOf u
        isValid := true
        headers := lines.map fun l => (headerOf l).moved
        shouldClose := !lines.any fun l => (headerOf l).keepsAlive } := by
  obtain ⟨htext, hfree, hwords, hheaders⟩ := request
  have hrequest : frame = requestText line lines := htext
  rw [hrequest] at hlen ⊢
  refine Request.ofString_requestText hwords hfree (fun l hl => ?_) hlen
  exact parses_of_isHeaderLine
    (Request.length_lt_of_lines hlen l (List.mem_cons_of_mem line hl)) (hheaders l hl)

include hlen in
/-- What the parser makes of a string that is no request. -/
lemma ofString_of_not_request (request : ∀ line lines m u v, ¬ IsRequest frame line lines m u v) :
    ∃ r, Request.ofString frame = .ok r ∧ r.isValid = false := by
  obtain ⟨r, hparse⟩ := Request.ofString_ok hlen
  refine ⟨r, hparse, Bool.eq_false_iff.mpr fun hvalid => ?_⟩
  obtain ⟨line, lines, m, u, v, h⟩ := Request.isRequest_of_ofString hlen hparse hvalid
  exact request line lines m u v h

namespace Reactor

include hlen in
/-- **A client reads what it is to be shown** in the reply to a request. -/
lemma replyTo_of_shows {page : Page} {last : Bool}
    (shows : Shows servingDirectory fs frame page last) :
    ∃ answer, replyTo servingDirectory fs frame = .ok (.answer answer last) ∧
      Messages.Reads Client.read answer page := by
  have hnone : ∀ m ∈ (none : Option Bytes), 13 ∉ m := by simp
  cases shows with
  | @file line lines m u v content request get cgi entry =>
    have hempty : (Store.make 0).lookup (servingDirectory ++ urlOf u) = none := rfl
    have hget : methodOf m = .get := if_pos get
    refine ⟨_, ?_, Client.reads_answer (show 13 ∉ responseOk by decide)
      (Client.cr_notMem_mimeOf (servingDirectory ++ urlOf u))
      (!lines.any fun l => (headerOf l).keepsAlive) content⟩
    simp [replyTo, Spec.beginRequest, ofString_of_request hlen request, cgi, entry, hempty, hget,
      Except.map, Spec.finish]
  | notFound request cgi entry =>
    refine ⟨_, ?_, Client.reads_answer (show 13 ∉ responseNotFound by decide) hnone true []⟩
    simp [replyTo, Spec.beginRequest, ofString_of_request hlen request, cgi, entry, Except.map,
      Spec.finish]
  | badRequest request =>
    obtain ⟨r, hparse, hvalid⟩ := ofString_of_not_request hlen request
    refine ⟨_, ?_, Client.reads_answer (show 13 ∉ responseBadRequest by decide) hnone true []⟩
    simp [replyTo, Spec.beginRequest, hparse, hvalid, Except.map, Spec.finish]

include hlen in
/-- There is no reply to a request for a directory. -/
lemma replyTo_of_directory {line : Bytes} {lines : List Bytes} {m u v : Bytes}
    (request : IsRequest frame line lines m u v)
    (cgi : isCgiRequest (servingDirectory ++ urlOf u) = false)
    (entry : fs (servingDirectory ++ urlOf u) = .directory) :
    replyTo servingDirectory fs frame = .error .filesystemError := by
  simp [replyTo, Spec.beginRequest, ofString_of_request hlen request, cgi, entry, Except.map]

end Reactor

variable {frames : List Bytes} (hshort : ∀ frame ∈ frames, frame.length < 2 ^ 31)

include hshort in
/-- What a client is to be shown is always settled. -/
lemma exists_shown (hplain : ∀ frame ∈ frames, asksForCgi servingDirectory frame = false ∧
    Reactor.asksForHead frame = false) : ∃ pages, Shown servingDirectory fs frames pages := by
  induction frames with
  | nil => exact ⟨[], .nil⟩
  | cons frame frames ih =>
    have hlen := hshort frame List.mem_cons_self
    obtain ⟨hcgi, hhead⟩ := hplain frame List.mem_cons_self
    obtain ⟨pages, hpages⟩ := ih (fun f hf => hshort f (List.mem_cons_of_mem _ hf))
      fun f hf => hplain f (List.mem_cons_of_mem _ hf)
    by_cases hrequest : ∃ line lines m u v, IsRequest frame line lines m u v
    · obtain ⟨line, lines, m, u, v, request⟩ := hrequest
      have hparse := ofString_of_request hlen request
      have cgi : isCgiRequest (servingDirectory ++ urlOf u) = false := by
        simpa [asksForCgi, hparse] using hcgi
      have get : SameUpToCase m (bytes "GET") := by
        by_contra hno
        simp [Reactor.asksForHead, hparse, methodOf, hno] at hhead
      cases entry : fs (servingDirectory ++ urlOf u) with
      | absent => exact ⟨_, .last (.notFound request cgi entry) frames⟩
      | directory => exact ⟨_, .directory request cgi entry frames⟩
      | regular content =>
        have hshows := Shows.file request get cgi entry
        cases hclose : !lines.any fun l => (headerOf l).keepsAlive with
        | false => exact ⟨_, .next (hclose ▸ hshows) hpages⟩
        | true => exact ⟨_, .last (hclose ▸ hshows) frames⟩
    · exact ⟨_, .last (.badRequest fun line lines m u v h =>
        hrequest ⟨line, lines, m, u, v, h⟩) frames⟩

include hshort in
/-- **A client reads what it is to be shown** in the replies to the requests of a stream. -/
lemma reads_served {pages : List Page} (h : Shown servingDirectory fs frames pages) :
    List.Forall₂ (Messages.Reads Client.read) ((Pipeline.served (Pipeline.stateless
      (Reactor.replyTo servingDirectory fs)) () frames).map Prod.snd) pages := by
  induction h with
  | nil => exact .nil
  | next shows _ ih =>
    obtain ⟨answer, hreply, hreads⟩ :=
      Reactor.replyTo_of_shows (hshort _ List.mem_cons_self) shows
    have hrest := ih fun f hf => hshort f (List.mem_cons_of_mem _ hf)
    simp only [Pipeline.served, Pipeline.stateless, hreply, Except.map, List.map_cons,
      List.forall₂_cons]
    exact ⟨hreads, hrest⟩
  | last shows frames =>
    obtain ⟨answer, hreply, hreads⟩ :=
      Reactor.replyTo_of_shows (hshort _ List.mem_cons_self) shows
    simpa [Pipeline.served, Pipeline.stateless, hreply, Except.map] using hreads
  | directory request cgi entry frames =>
    have hreply := Reactor.replyTo_of_directory (hshort _ List.mem_cons_self) request cgi entry
    simp [Pipeline.served, Pipeline.stateless, hreply, Except.map]

end Requests

/-! ## On the wire -/

section Wire

open Pipeline

namespace Wire

/-- `Send` is still going on, or it has left nothing in the write buffer. -/
def Settled (wire : Wire) : Prop := wire.sending = true ∨ wire.writeBuffer = []

/-- A call of `Send` settles the write buffer. -/
lemma settled_sent (wire : Wire) : (wire.act .sent).Settled := by
  cases hidle : wire.sending with
  | true => exact .inl (by simp [act, hidle])
  | false =>
    cases hreturned : (Connection.send wire.writeBuffer wire.results).returned with
    | false => exact .inl (by simp [act, hidle, hreturned])
    | true =>
      have hempty : (Connection.send wire.writeBuffer wire.results).writeBuffer = [] :=
        Connection.writeBuffer_of_returned wire.writeBuffer wire.results 0 hreturned
      exact .inr (by simpa [act, hidle] using hempty)

/-- Nothing but `WriteToWriteBuffer` unsettles it. -/
lemma Settled.foldl {tail : List (Event UInt8 Bytes)} (htail : ∀ r, Event.written r ∉ tail) :
    ∀ {wire : Wire}, wire.Settled → (tail.foldl Wire.act wire).Settled := by
  induction tail with
  | nil => exact fun h => h
  | cons event tail ih =>
    intro wire h
    refine ih (fun r hr => htail r (List.mem_cons_of_mem _ hr)) ?_
    cases event with
    | written r => exact absurd List.mem_cons_self (htail r)
    | sent => exact settled_sent wire
    | popped frame => simpa [act] using h
    | peerClosed => simpa [act] using h
    | deleted => simpa [act] using h

end Wire

/-- One more event. -/
lemma transmit_concat (results : List SendResult) (history : List (Event UInt8 Bytes))
    (event : Event UInt8 Bytes) :
    transmit results (history ++ [event]) = (transmit results history).act event := by
  rw [transmit, List.foldl_append]
  rfl

/-- After answers that have all been sent, nothing is left in the write buffer. -/
lemma settled_transmit (results : List SendResult) (xs : List (Bytes × Bytes))
    {tail : List (Event UInt8 Bytes)} (htail : ∀ r, Event.written r ∉ tail) :
    (transmit results (xs.flatMap exchange ++ tail)).Settled := by
  rw [transmit, List.foldl_append]
  refine Wire.Settled.foldl htail ?_
  rcases List.eq_nil_or_concat xs with rfl | ⟨xs, x, rfl⟩
  · exact .inr rfl
  · have hlast : (xs.concat x).flatMap exchange =
        (xs.flatMap exchange ++ [.popped x.1, .written x.2]) ++ [.sent] := by
      simp [exchange]
    rw [hlast]
    change (transmit results _).Settled
    rw [transmit_concat]
    exact Wire.settled_sent _

/-- What has been written into the write buffer is the answers of the history, or the first of them
as long as `Send` is going on. -/
lemma written_transmit (results : List SendResult) (history : List (Event UInt8 Bytes)) :
    (transmit results history).written <+: (responses history).flatten ∧
      ((transmit results history).sending = false →
        (transmit results history).written = (responses history).flatten) := by
  induction history using List.reverseRecOn with
  | nil => exact ⟨List.prefix_rfl, fun _ => rfl⟩
  | append_singleton history event ih =>
    obtain ⟨hfront, hwhole⟩ := ih
    have hresponses : (responses (history ++ [event])).flatten =
        (responses history).flatten ++ (responses [event]).flatten := by
      rw [responses, List.filterMap_append, List.flatten_append]
      rfl
    rw [transmit_concat, hresponses]
    cases hidle : (transmit results history).sending with
    | true =>
      refine ⟨?_, fun h => ?_⟩
      · simpa [Wire.act, hidle] using hfront.trans (List.prefix_append _ _)
      · simp [Wire.act, hidle] at h
    | false =>
      suffices hact : ((transmit results history).act event).written =
          (responses history).flatten ++ (responses [event]).flatten from
        ⟨hact ▸ List.prefix_rfl, fun _ => hact⟩
      rw [← hwhole hidle]
      cases event <;> simp [Wire.act, hidle, responses]

end Wire

/-! ## From end to end -/

namespace Reactor

open Pipeline (Event)

variable {ι : Type} [DecidableEq ι] {servingDirectory : Bytes} {fs : FileSystem} {s : State ι}

/-- The server is done with the connection: its poller has it and nothing to report, or the server
itself has ended it. -/
def Conn.Done (c : Conn) : Prop :=
  c.stage = .polled ∧ c.edge = false ∨ c.stage = .deleted ∧ Event.peerClosed ∉ c.events

omit [DecidableEq ι] in
/-- The answers of a connection are the first of those that a server without a cache would give to
its whole stream, and all of them when the server is done with it. -/
lemma Inv.responses (hinv : Inv servingDirectory fs s) (i : ι)
    (hplain : Plain servingDirectory (s.conns i).arrived) :
    Pipeline.responses (s.conns i).events <+:
        Pipeline.responses (Pipeline.alone crlfCrlf (replyTo servingDirectory fs)
          (s.conns i).arrived).events ∧
      ((s.conns i).Done → (s.conns i).events = (Pipeline.alone crlfCrlf
        (replyTo servingDirectory fs) (s.conns i).arrived).events) := by
  -- any other server for the same files will do
  let site : Site := {
    servingDirectory
    fileSystem := fun _ => fs
    allocator := Allocator.bump
    clock := fun _ => 0 }
  have hw : Served site _ := .start initCacheSize 0 0
  have hsolo : ∀ {stream : Bytes}, Plain servingDirectory stream →
      (solo site _ stream).events = (Pipeline.alone crlfCrlf (replyTo servingDirectory fs)
        stream).events := fun h => (solo_eq_alone (fun _ => rfl) hw h).1
  obtain ⟨hstays, hleft⟩ := hinv.history i hplain rfl (fun _ => rfl) hw
  constructor
  · by_cases hpeer : Event.peerClosed ∈ (s.conns i).events
    · obtain ⟨front, ⟨m, hm⟩, -, hevents⟩ := hleft hpeer
      rw [← hm] at hplain ⊢
      rw [hevents, hsolo hplain.front]
      have hmore : (Pipeline.alone crlfCrlf (replyTo servingDirectory fs) front).events <+:
          (Pipeline.alone crlfCrlf (replyTo servingDirectory fs) (front ++ m)).events :=
        Pipeline.alone_events_isPrefix (by decide) hplain.neverSilent
      simpa [Pipeline.responses] using hmore.filterMap _
    · rw [← hsolo hplain]
      exact (hstays hpeer).1.filterMap _
  · rintro (⟨hpolled, hedge⟩ | ⟨hdeleted, hpeer⟩)
    · rw [← hsolo hplain]
      exact (hinv.complete i hplain rfl (fun _ => rfl) hw hpolled hedge).2.1
    · rw [← hsolo hplain]
      exact (hstays hpeer).2 hdeleted

/-- **From the files to the client.** Let the stream of a connection ask neither for scripts nor for
mere heads, and let its requests have less than `2^31` bytes. After any interleaving of the network,
the pollers and the handlers of all connections, and whatever the calls of `send` for this one have
given back, as long as none accepts bytes after one that has failed for good: the client has read
the first of the pages that the files and the grammar say it is to be shown; and if the server is
done with the connection and no call of `send` has failed for good, it has read all of them, and
there is nothing behind them.

**Proof sketch.** What is written for a connection is the beginning of what is written for a session
that shares nothing, and all of it when the server is done (`Inv.responses`). A client reads those
responses as the pages that it is to be shown (`reads_served`). What it receives is a beginning of
what has been written, and all of it if no call of `send` has failed for good; and a client that has
received less has read the first of the pages. -/
theorem pages_shown {A : Allocator} {capacity : Int32} {now₁ now₂ : UInt64} {ls : List (Label ι)}
    (hrun : Transition.exec (step servingDirectory fs A) (State.start ι A capacity now₁ now₂) ls =
      some s) (i : ι) (hplain : Plain servingDirectory (s.conns i).arrived)
    (hshort : ∀ frame ∈ Search.frames crlfCrlf (s.conns i).arrived, frame.length < 2 ^ 31) :
    (∃ pages, Shown servingDirectory fs (Search.frames crlfCrlf (s.conns i).arrived) pages) ∧
    ∀ pages, Shown servingDirectory fs (Search.frames crlfCrlf (s.conns i).arrived) pages →
      ∀ results, let wire := transmit results (s.conns i).events
        (∀ c ∈ wire.calls, c.Possible) → SilentAfterFailure wire.calls →
          Client.pages wire.received <+: pages ∧
          ((s.conns i).Done → wire.sending = false → (∀ c ∈ wire.calls, ¬ c.Fatal) →
            Messages.readAll Client.read wire.received = (pages, [])) := by
  refine ⟨exists_shown hshort hplain, fun pages hshown results => ?_⟩
  intro wire hpossible hsilent
  have hreads := reads_served hshort hshown
  obtain ⟨hfront, hdone⟩ := (Inv.of_run hrun).responses i hplain
  let xs := Pipeline.served (Pipeline.stateless (replyTo servingDirectory fs)) ()
    (Search.frames crlfCrlf (s.conns i).arrived)
  obtain ⟨tail, htail, hevents⟩ : ∃ tail, (∀ r, Event.written r ∉ tail) ∧
      (Pipeline.alone crlfCrlf (replyTo servingDirectory fs) (s.conns i).arrived).events =
        xs.flatMap Pipeline.exchange ++ tail :=
    Pipeline.events_alone (by decide) (s.conns i).arrived
  have hanswers := Pipeline.responses_exchanges htail xs
  rw [← hevents] at hanswers
  rw [← hanswers] at hreads
  obtain ⟨hunspliced, hpending⟩ := Wire.Inv.foldl ⟨List.prefix_rfl, fun _ _ => rfl⟩
    (s.conns i).events ⟨hpossible, hsilent⟩
  obtain ⟨hwritten, hall⟩ := written_transmit results (s.conns i).events
  refine ⟨Messages.readAll_of_prefix Client.stable_read hreads ?_, fun hend hreturned hhope => ?_⟩
  · exact hunspliced.trans (hwritten.trans hfront.flatten)
  · -- nothing is left in the write buffer
    have hsettled : wire.Settled := by
      have h := settled_transmit results xs htail
      rwa [← hevents, ← hdone hend] at h
    have hempty : wire.writeBuffer = [] := hsettled.resolve_left (by simp [hreturned])
    have hreceived : wire.received ++ wire.writeBuffer = wire.written := hpending hreturned hhope
    rw [hempty, List.append_nil, hall hreturned, hdone hend] at hreceived
    rw [hreceived]
    exact Messages.readAll_flatten Client.stable_read hreads

/-- The page that the sample requests ask for. -/
def samplePage : Page where
  statusLine := bytes "Http/1.1 200 OK"
  contentType := some (bytes "text/html")
  body := bytes "hello"

/-- The calls of `send` for two answers: the first is accepted in two pieces. -/
def sampleSends : List SendResult :=
  [.accepted 9 (by decide), .error .eintr, .accepted 97 (by decide), .accepted 101 (by decide)]

/-- The client is to be shown the page twice. -/
lemma shown_sample :
    Shown (bytes "www") sampleFiles [sampleGet, sampleGetClose] [samplePage, samplePage] := by
  have hkept : IsRequest sampleGet (bytes "GET /a.html HTTP/1.1") [bytes "Connection:keep-alive"]
      (bytes "GET") (bytes "/a.html") (bytes "HTTP/1.1") :=
    ⟨by decide, by decide, ⟨by decide, by decide, by decide, by decide, by decide, by decide⟩, by
      simpa using ⟨bytes "Connection", bytes "keep-alive", by decide, by decide, by decide⟩⟩
  have hlast : IsRequest sampleGetClose (bytes "GET /a.html HTTP/1.1") []
      (bytes "GET") (bytes "/a.html") (bytes "HTTP/1.1") :=
    ⟨by decide, by decide, ⟨by decide, by decide, by decide, by decide, by decide, by decide⟩,
      by simp⟩
  have hpage : ∀ {frame : Bytes} {lines : List Bytes},
      IsRequest frame (bytes "GET /a.html HTTP/1.1") lines (bytes "GET") (bytes "/a.html")
        (bytes "HTTP/1.1") → Shows (bytes "www") sampleFiles frame samplePage
          (!lines.any fun l => (headerOf l).keepsAlive) := fun request =>
    .file request rfl (by decide) (by decide)
  exact .next (hpage hkept) (.last (hpage hlast) [])

/-- Two pipelined requests, the second of which ends the connection. -/
theorem pages_shown_two :
    ∃ s, Transition.exec (step (bytes "www") sampleFiles Allocator.bump)
        (State.start Unit Allocator.bump initCacheSize 0 0)
        [.register (), .arrive () (sampleGet ++ sampleGetClose), .poll (), .callback (),
          .recv () (.data (sampleGet ++ sampleGetClose) (by decide)), .recv () (.error .eagain),
          .begin () 0, .finish () 1, .begin () 2] = some s ∧
      Messages.readAll Client.read (transmit sampleSends (s.conns ()).events).received =
        ([samplePage, samplePage], []) := by
  have hseen : (Transition.exec (step (bytes "www") sampleFiles Allocator.bump)
      (State.start Unit Allocator.bump initCacheSize 0 0)
      [.register (), .arrive () (sampleGet ++ sampleGetClose), .poll (), .callback (),
        .recv () (.data (sampleGet ++ sampleGetClose) (by decide)), .recv () (.error .eagain),
        .begin () 0, .finish () 1, .begin () 2]).map (fun s =>
          let wire := transmit sampleSends (s.conns ()).events
          ((s.conns ()).arrived, decide (∀ c ∈ wire.calls, c.Possible ∧ ¬ c.Fatal),
            wire.sending, decide (Event.peerClosed ∉ (s.conns ()).events), (s.conns ()).stage)) =
        some (sampleGet ++ sampleGetClose, true, false, true, .deleted) := by
    decide +kernel
  obtain ⟨s, hrun, hs⟩ := Option.map_eq_some_iff.mp hseen
  simp only [Prod.mk.injEq, decide_eq_true_eq] at hs
  obtain ⟨harrived, hcalls, hreturned, hpeer, hdeleted⟩ := hs
  have hplain : Plain (bytes "www") (s.conns ()).arrived := by
    rw [harrived]
    decide +kernel
  have hframes : Search.frames crlfCrlf (s.conns ()).arrived = [sampleGet, sampleGetClose] := by
    rw [harrived]
    decide +kernel
  have hsilent : SilentAfterFailure (transmit sampleSends (s.conns ()).events).calls :=
    List.pairwise_of_forall_mem_list fun c hc _ _ hfatal => absurd hfatal (hcalls c hc).2
  refine ⟨s, hrun, ((pages_shown hrun () hplain ?_).2 _ ?_ sampleSends
    (fun c hc => (hcalls c hc).1) hsilent).2 (.inr ⟨hdeleted, hpeer⟩) hreturned
    fun c hc => (hcalls c hc).2⟩
  · rw [hframes]
    decide +kernel
  · rw [hframes]
    exact shown_sample

end Reactor

end Icee.Http
