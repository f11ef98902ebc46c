import Icee.Http.Delivery
import Icee.Http.Lifecycle

set_option relaxedAutoImplicit false
set_option autoImplicit false

/-!
# The end of the stream

The peer may close its side right behind its last bytes. `Recv` then either finds the end of the
stream in the call in which it reads these bytes, or in a later call of its own. This file compares
the two.

## Main definitions

* `Icee.Leaves` — the readiness events that meet the end of the stream, with their bytes.

## Main results

* `Icee.Http.events_of_drains`, `Icee.Http.events_of_leaves` — the history of a connection before
  and after the peer has left.
* `Icee.Http.hangUp_iff` — every request is answered, however the end of the stream is observed,
  exactly if no request has come to its end in the call that observes it.
-/

namespace Icee

/-- The event hands over the given bytes and then meets the end of the stream. -/
inductive Leaves : List RecvResult → Bytes → Prop
  | eof (results : List RecvResult) : Leaves (.eof :: results) []
  | eintr {results : List RecvResult} {m : Bytes} :
    Leaves results m → Leaves (.error .eintr :: results) m
  | data {results : List RecvResult} {m chunk : Bytes}
    (size : 0 < chunk.length ∧ chunk.length ≤ tempBufSize) :
    Leaves results m → Leaves (.data chunk size :: results) (chunk ++ m)

/-- **Leaving** appends the bytes of the event to the read buffer and reports the exit. -/
lemma Leaves.recv {event : List RecvResult} {m : Bytes} (h : Leaves event m) :
    ∀ (readBuffer : Bytes) (recvBytes : ℕ),
      Connection.recv event readBuffer recvBytes =
        (readBuffer ++ m, recvBytes + m.length, true) := by
  induction h with
  | eof results => intro readBuffer recvBytes; simp [Connection.recv]
  | eintr _ ih => intro readBuffer recvBytes; exact ih readBuffer recvBytes
  | data size _ ih =>
    intro readBuffer recvBytes
    simp only [Connection.recv, Buffer.append, ih, List.length_append, List.append_assoc,
      Nat.add_assoc]

namespace Http

open Pipeline

section History

variable {site : Site} {w : World Cache} {events : List (List RecvResult)} {ms : List Bytes}

/-- **The history of a connection**: what the handler makes of the frames of the stream, and then
nothing that is written. -/
lemma events_of_drains (hw : w.Sound) (h : List.Forall₂ Drains events ms)
    (hcgi : NoCgi site.servingDirectory ms.flatten) :
    ∃ tail, (∀ r, Event.written r ∉ tail) ∧ (runEvents site events (accepted w)).events =
      (served (handleRequest site) w (Search.frames crlfCrlf ms.flatten)).flatMap exchange ++
        tail := by
  obtain ⟨s, hs⟩ := hw
  have hrel : w.Rel ⟨s, w.handled, w.pastTheEnd⟩ := ⟨hs, rfl, rfl⟩
  obtain ⟨t, ht, hagree⟩ := runEvents_store site hrel h hcgi
  obtain ⟨tail, htail, hserve⟩ := events_serve
    (Spec.handleRequest site.servingDirectory site.fileSystem) (show crlfCrlf ≠ [] by decide)
    { unread := ms.flatten, shared := ⟨s, w.handled, w.pastTheEnd⟩, events := [],
      status := .serving }
  refine ⟨tail, htail, ?_⟩
  rw [ht.events, hagree.events, hserve, served_rel (handleRequest_spec site) _ hrel]
  rfl

variable (site) in
/-- An event that meets the end of the stream: its bytes are received, and the connection is given
up without a look at them. -/
lemma events_parseHttpRequest_of_leaves {event : List RecvResult} {m : Bytes}
    (h : Leaves event m) (conn : ClientConn Cache) :
    ∃ tail, (∀ r, Event.written r ∉ tail) ∧
      (parseHttpRequest site event conn).events = conn.events ++ tail := by
  by_cases hstatus : conn.status = .serving
  · refine ⟨[.peerClosed, .deleted], by simp, ?_⟩
    simp only [parseHttpRequest, hstatus, h.recv, Session.hangUp]
  · rw [parseHttpRequest_of_ended site event hstatus]
    exact ⟨[], by simp, (List.append_nil _).symm⟩

variable (site) in
/-- **The history of a connection whose peer has left**: of the last event nothing is answered. -/
lemma events_of_leaves (hw : w.Sound) (h : List.Forall₂ Drains events ms)
    (hcgi : NoCgi site.servingDirectory ms.flatten) {event : List RecvResult} {m : Bytes}
    (hevent : Leaves event m) :
    ∃ tail, (∀ r, Event.written r ∉ tail) ∧
      (runEvents site (events ++ [event]) (accepted w)).events =
        (served (handleRequest site) w (Search.frames crlfCrlf ms.flatten)).flatMap exchange ++
          tail := by
  obtain ⟨tail, htail, hbefore⟩ := events_of_drains hw h hcgi
  obtain ⟨tail', htail', hafter⟩ := events_parseHttpRequest_of_leaves site hevent
    (runEvents site events (accepted w))
  refine ⟨tail ++ tail', fun r hr => (List.mem_append.mp hr).elim (htail r) (htail' r), ?_⟩
  rw [runEvents, List.foldl_append, List.foldl_cons, List.foldl_nil, ← runEvents, hafter, hbefore,
    List.append_assoc]

end History

/-! ## The frames that are answered -/

section Frames

variable {site : Site} {w : World Cache} {frame : Bytes}

/-- A frame that can be answered is answered, and the frames behind it are answered too unless it
is the last one. -/
lemma served_cons_of_answerable (hw : w.Sound)
    (hfile : ∀ r, Request.ofString frame = .ok r →
      site.fileSystem w.handled (site.servingDirectory ++ r.url) ≠ .directory)
    (h : answerable site.servingDirectory frame) (frames : List Bytes) :
    ∃ w' r, w'.Sound ∧ w'.handled = w.handled + 1 ∧
      served (handleRequest site) w (frame :: frames) = (frame, r) ::
        if isLast site.servingDirectory (site.fileSystem w.handled) frame then []
        else served (handleRequest site) w' frames := by
  obtain ⟨w', r, hw', hhandled, heq⟩ := handleRequest_of_answerable hw hfile h
  refine ⟨w', r, hw', hhandled, ?_⟩
  cases hlast : isLast site.servingDirectory (site.fileSystem w.handled) frame with
  | true => simp [served, heq, hlast]
  | false => simp [served, heq, hlast]

/-- Behind a frame that cannot be answered nothing is answered. -/
lemma served_cons_of_not_answerable (hw : w.Sound) (hend : crlf <:+ frame)
    (hmem : frame.length < 2 ^ 63) (h : ¬ answerable site.servingDirectory frame)
    (frames : List Bytes) : served (handleRequest site) w (frame :: frames) = [] := by
  have hno : ¬ Answers (handleRequest site) w frame := fun ha =>
    h (answerable_of_answers hw hend hmem ha)
  unfold served
  rcases hout : handleRequest site frame w with fault | ⟨w', _ | ⟨r, _ | _⟩⟩
  · rfl
  · rfl
  · exact absurd ⟨w', r, false, hout⟩ hno
  · exact absurd ⟨w', r, true, hout⟩ hno

/-- **The frames that are answered** are the first ones of those that the requests leave to be
reached, and all of them exactly if all of these can be answered. -/
lemma served_frames (frames : List Bytes) : ∀ {w : World Cache}, w.Sound →
    (∀ frame ∈ frames, crlf <:+ frame ∧ frame.length < 2 ^ 63 ∧
      ∀ r, Request.ofString frame = .ok r →
        ∀ n, site.fileSystem n (site.servingDirectory ++ r.url) ≠ .directory) →
    (served (handleRequest site) w frames).map Prod.fst <+: reached site w.handled frames ∧
      ((served (handleRequest site) w frames).map Prod.fst = reached site w.handled frames ↔
        ∀ frame ∈ reached site w.handled frames, answerable site.servingDirectory frame) := by
  induction frames with
  | nil => intro w _ _; simp [served, reached]
  | cons frame frames ih =>
    intro w hw hframes
    obtain ⟨hend, hmem, hfile⟩ := hframes frame (by simp)
    by_cases h : answerable site.servingDirectory frame
    · obtain ⟨w', r, hw', hhandled, heq⟩ :=
        served_cons_of_answerable hw (fun r hr => hfile r hr w.handled) h frames
      have ih' := ih hw' fun frame' hframe' => hframes frame' (by simp [hframe'])
      rw [hhandled] at ih'
      rw [heq]
      cases hlast : isLast site.servingDirectory (site.fileSystem w.handled) frame with
      | true => simp [reached, hlast, h]
      | false => simpa [reached, hlast, h] using ih'
    · rw [served_cons_of_not_answerable hw hend hmem h]
      refine ⟨List.nil_prefix, iff_of_false (by simp [reached]) fun ha => ?_⟩
      exact h (ha frame (by simp [reached]))

variable (site) in
/-- The first frames of a stream that are reached are known before the others. -/
lemma reached_prefix_append (frames frames' : List Bytes) : ∀ n : ℕ,
    reached site n frames <+: reached site n (frames ++ frames') := by
  induction frames with
  | nil => intro n; exact List.nil_prefix
  | cons frame frames ih =>
    intro n
    rw [List.cons_append]
    unfold reached
    split
    · exact List.prefix_rfl
    · exact (List.prefix_cons_inj frame).mpr (ih (n + 1))

variable (site) in
/-- Only frames of the stream are reached. -/
lemma reached_subset (frames : List Bytes) : ∀ n : ℕ, reached site n frames ⊆ frames := by
  induction frames with
  | nil => intro n; exact List.Subset.refl _
  | cons frame frames ih =>
    intro n
    unfold reached
    split
    · simp
    · exact List.cons_subset_cons frame (ih (n + 1))

/-- **The frames known before the peer leaves**: the same is answered with and without the frames
behind them, and it is everything that is reached, exactly if everything that is reached is among
them and shorter than `2^31` bytes. -/
lemma served_append_iff (hw : w.Sound) (frames rest : List Bytes)
    (hcgi : ∀ frame ∈ frames ++ rest, asksForCgi site.servingDirectory frame = false)
    (hframes : ∀ frame ∈ frames ++ rest, crlf <:+ frame ∧ frame.length < 2 ^ 63 ∧
      ∀ r, Request.ofString frame = .ok r →
        ∀ n, site.fileSystem n (site.servingDirectory ++ r.url) ≠ .directory) :
    ((served (handleRequest site) w frames).map Prod.snd =
        (served (handleRequest site) w (frames ++ rest)).map Prod.snd ∧
      (served (handleRequest site) w frames).map Prod.fst =
        reached site w.handled (frames ++ rest)) ↔
    (∀ frame ∈ reached site w.handled (frames ++ rest), frame.length < 2 ^ 31) ∧
      reached site w.handled (frames ++ rest) = reached site w.handled frames := by
  obtain ⟨hpart, hbefore⟩ := served_frames frames hw fun frame hframe =>
    hframes frame (List.mem_append_left rest hframe)
  obtain ⟨-, hwhole⟩ := served_frames (frames ++ rest) hw hframes
  have hreached := reached_prefix_append site frames rest w.handled
  constructor
  · rintro ⟨-, hall⟩
    rw [hall] at hpart hbefore
    have heq := hreached.eq_of_length_le hpart.length_le
    exact ⟨fun frame hframe => (hbefore.mp heq.symm frame (heq ▸ hframe)).1, heq.symm⟩
  · rintro ⟨hlen, heq⟩
    have hall : ∀ frame ∈ reached site w.handled (frames ++ rest),
        answerable site.servingDirectory frame := fun frame hframe =>
      ⟨hlen frame hframe, hcgi frame (reached_subset site _ _ hframe)⟩
    have hfirst := hbefore.mpr (heq ▸ hall)
    have hboth := hwhole.mpr hall
    have hlength : (served (handleRequest site) w (frames ++ rest)).length =
        (served (handleRequest site) w frames).length := by
      calc (served (handleRequest site) w (frames ++ rest)).length
          = (reached site w.handled (frames ++ rest)).length := by rw [← hboth, List.length_map]
        _ = (reached site w.handled frames).length := by rw [heq]
        _ = (served (handleRequest site) w frames).length := by rw [← hfirst, List.length_map]
    have hfront := served_prefix (handleRequest site) frames rest w
    have hsame := hfront.eq_of_length hlength.symm
    exact ⟨congrArg (List.map Prod.snd) hsame, hfirst.trans heq.symm⟩

end Frames

/-- **Requests behind which the peer leaves.** A stream is delivered in some readiness events, and
the end of the stream is observed either in the call of `Recv` that brings its last bytes or, after
any delivery of the whole stream, in a call of its own. Then the responses are the same in both
cases and every request that is reached is answered, if and only if every request that is reached is
shorter than `2^31` bytes and has come to its end before the call that brings the last bytes. (A
request is held in a `std::string`, which has less than `2^63` bytes.)

**Proof sketch.** Both sessions answer the frames of the part that they serve (`events_of_leaves`):
in the second case the whole stream, in the first case what has come before the last call. So the
question is when the frames of a stream and those of the longer one are answered alike
(`served_append_iff`). -/
theorem hangUp_iff (servingDirectory : Bytes) (fs : FileSystem) (A : Allocator)
    (clock : ℕ → UInt64) {A' : Allocator} {cache : Cache} (hcache : cache.Reachable A')
    {events events' : List (List RecvResult)} {ms ms' : List Bytes} {m : Bytes}
    {last last' : List RecvResult} (h : List.Forall₂ Drains events ms) (hlast : Leaves last m)
    (h' : List.Forall₂ Drains events' ms') (hlast' : Leaves last' [])
    (hstream : ms'.flatten = ms.flatten ++ m)
    (hcgi : NoCgi servingDirectory (ms.flatten ++ m))
    (hfiles : RequestsFiles ⟨servingDirectory, fun _ => fs, A, clock⟩ (ms.flatten ++ m))
    (hmem : ∀ frame ∈ Search.frames crlfCrlf (ms.flatten ++ m), frame.length < 2 ^ 63) :
    let site : Site := ⟨servingDirectory, fun _ => fs, A, clock⟩
    let together := runEvents site (events ++ [last]) (accepted ⟨cache, 0, false⟩)
    let apart := runEvents site (events' ++ [last']) (accepted ⟨cache, 0, false⟩)
    (responses together.events = responses apart.events ∧
      answeredFrames together.events =
        reached site 0 (Search.frames crlfCrlf (ms.flatten ++ m))) ↔
    (∀ frame ∈ reached site 0 (Search.frames crlfCrlf (ms.flatten ++ m)), frame.length < 2 ^ 31) ∧
      reached site 0 (Search.frames crlfCrlf (ms.flatten ++ m)) =
        reached site 0 (Search.frames crlfCrlf ms.flatten) := by
  intro site together apart
  have ht : crlfCrlf ≠ [] := by decide
  have hw : World.Sound ⟨cache, 0, false⟩ := hcache.exists_refines
  obtain ⟨rest, hrest⟩ := Search.frames_prefix_append ht ms.flatten m
  have hcgi' : NoCgi site.servingDirectory ms.flatten := fun frame hframe =>
    hcgi frame (hrest ▸ List.mem_append_left rest hframe)
  obtain ⟨tail, htail, htogether⟩ := events_of_leaves site hw h hcgi' hlast
  obtain ⟨tail', htail', hapart⟩ := events_of_leaves site hw h' (hstream ▸ hcgi) hlast'
  rw [hstream] at hapart
  rw [htogether, hapart, responses_exchanges htail, responses_exchanges htail',
    answeredFrames_exchanges htail]
  have hframes : ∀ frame ∈ Search.frames crlfCrlf (ms.flatten ++ m),
      crlf <:+ frame ∧ frame.length < 2 ^ 63 ∧ ∀ r, Request.ofString frame = .ok r →
        ∀ n, site.fileSystem n (site.servingDirectory ++ r.url) ≠ .directory := by
    intro frame hframe
    have hcrlf : crlf <:+ crlfCrlf := by decide
    exact ⟨hcrlf.trans (Search.of_mem_frames ht _ hframe).1, hmem frame hframe,
      hfiles frame hframe⟩
  rw [NoCgi] at hcgi
  rw [← hrest] at hcgi hframes ⊢
  exact served_append_iff hw _ rest hcgi hframes

/-- A request that has come to its end before the peer leaves. -/
theorem hangUp_later :
    let together := runEvents sampleSite
      [[.data sampleGet (by decide), .error .eagain], [.error .eintr, .eof]] (accepted sampleWorld)
    let apart := runEvents sampleSite
      [[.data sampleGet (by decide), .error .ewouldblock], [.eof]] (accepted sampleWorld)
    responses together.events = responses apart.events ∧
      answeredFrames together.events = reached sampleSite 0 (Search.frames crlfCrlf sampleGet) := by
  have hsize : 0 < sampleGet.length ∧ sampleGet.length ≤ tempBufSize := by decide
  have hstream : [sampleGet ++ []].flatten ++ [] = sampleGet := by simp
  have hagree := (hangUp_iff (bytes "www") sampleFiles Allocator.bump (fun _ => 0)
    sampleWorld_reachable (.cons (.data hsize .eagain) .nil) (.eintr (.eof []))
    (.cons (.data hsize .ewouldblock) .nil) (.eof []) (by simp)
    (show NoCgi (bytes "www") ([sampleGet ++ []].flatten ++ []) by decide +kernel)
    (sample_requestsFiles (by decide +kernel)) (by decide +kernel)).mpr (by decide +kernel)
  rw [hstream] at hagree
  exact hagree

/-- A request that comes to its end in the call that finds the end of the stream is not answered,
although it would be if the end of the stream came later. -/
theorem last_request_is_swallowed :
    let together := runEvents sampleSite [[.data sampleGet (by decide), .eof]]
      (accepted sampleWorld)
    let apart := runEvents sampleSite [[.data sampleGet (by decide), .error .eagain], [.eof]]
      (accepted sampleWorld)
    responses together.events = [] ∧ (responses apart.events).length = 1 ∧
      answeredFrames together.events ≠ reached sampleSite 0 (Search.frames crlfCrlf sampleGet) := by
  decide +kernel

end Http

end Icee
