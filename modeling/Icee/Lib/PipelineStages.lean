import Icee.Lib.PipelineHistory

set_option relaxedAutoImplicit false
set_option autoImplicit false

/-!
# Sessions that are interrupted

Among many sessions, one is never served in one go: its input comes in while others are served,
and between taking a frame and answering it other sessions do their own work. If the reply to a
frame depends on nothing but the frame, none of this can be seen in the end. This file says what a
session has in common, at every stage of its work, with the session that has received the same
input before it began to serve.

## Main definitions

* `Pipeline.stateless` — the handler that replies to a frame by a function of the frame.
* `Pipeline.alone` — the session that serves its whole input at once.
* `Pipeline.taken` — the frames that a history says have been taken.
* `Pipeline.Stage`, `Pipeline.Follows` — the stages of a session, and what holds at each of them.

## Main results

* `Pipeline.Follows.loop`, `Pipeline.Follows.take`, `Pipeline.Follows.answer` and the other rules —
  how a session gets from one stage to the next.
* `Pipeline.Follows.events_isPrefix` — at every stage the history is the beginning of that of the
  session that serves its whole input at once.
-/

namespace Pipeline

variable {α ρ φ : Type*}

/-- The handler that replies to a frame by a function of the frame. -/
def stateless (reply : List α → Except φ (Reply ρ)) : Handler α ρ φ Unit :=
  fun frame _ => (reply frame).map fun r => ((), r)

/-- The frames that have been taken. -/
def taken (events : List (Event α ρ)) : List (List α) :=
  events.filterMap fun
    | .popped frame => some frame
    | _ => none

@[simp] lemma taken_append (events events' : List (Event α ρ)) :
    taken (events ++ events') = taken events ++ taken events' :=
  List.filterMap_append

namespace Session

/-- A session that has received nothing yet. -/
def opened : Session α ρ φ Unit := { unread := [], shared := (), events := [], status := .serving }

variable {γ : Type*}

/-- A frame is taken. -/
def pop (frame rest : List α) (s : Session α ρ φ γ) : Session α ρ φ γ :=
  { s with unread := rest, events := s.events ++ [.popped frame] }

/-- An answer is written and sent, and if it is the last one, the session is given up. -/
def answer (r : ρ) (last : Bool) (s : Session α ρ φ γ) : Session α ρ φ γ :=
  if last then { s with events := s.events ++ [.written r, .sent, .deleted], status := .deleted }
  else { s with events := s.events ++ [.written r, .sent] }

/-- An answer adds to the history. -/
lemma events_prefix_answer (r : ρ) (last : Bool) (s : Session α ρ φ γ) :
    s.events <+: (s.answer r last).events := by
  cases last <;> exact List.prefix_append _ _

end Session

section Alone

variable [DecidableEq α] (t : List α) (reply : List α → Except φ (Reply ρ))

/-- The session that serves its whole input at once. -/
def alone (input : List α) : Session α ρ φ Unit :=
  serve t (stateless reply) (Session.opened.feed input)

variable {t reply} (ht : t ≠ [])

include ht in
/-- Nobody hangs up on a session that serves its input at once. -/
lemma peerClosed_notMem_alone (input : List α) :
    Event.peerClosed ∉ (alone t reply input).events := by
  refine serve_invariant ht (fun s => Event.peerClosed ∉ s.events) (fun s frame rest _ h => ?_)
    _ rfl (by simp [Session.opened, Session.feed])
  rcases hout : stateless reply frame s.shared with fault | ⟨g, _ | ⟨r, _ | _⟩⟩ <;>
    simpa [Session.turn] using h

include ht in
/-- The history of the session is the exchanges that it makes, and then nothing that is written. -/
lemma events_alone (input : List α) : ∃ tail, (∀ r, Event.written r ∉ tail) ∧
    (alone t reply input).events =
      (served (stateless reply) () (Search.frames t input)).flatMap exchange ++ tail := by
  obtain ⟨tail, htail, hevents⟩ :=
    events_serve (stateless reply) ht (Session.opened.feed input)
  exact ⟨tail, htail, hevents⟩

omit [DecidableEq α] in
/-- A turn for a stateless handler, when it answers. -/
lemma turn_stateless {s : Session α ρ φ Unit} {frame rest : List α} {r : ρ} {last : Bool}
    (hreply : reply frame = .ok (.answer r last)) :
    s.turn frame rest (stateless reply frame s.shared) =
      ((s.pop frame rest).answer r last, !last) := by
  have hout : stateless reply frame s.shared = .ok ((), .answer r last) := by
    simp [stateless, hreply, Except.map]
  rw [hout]
  cases last <;> simp [Session.turn, Session.pop, Session.answer]

include ht in
/-- Serving what is there first is as good as waiting for the rest. -/
lemma deliver_alone_agree {input m : List α}
    (hsilent : NeverSilent t (stateless reply) (input ++ m)) :
    Agree (deliver t (stateless reply) m (alone t reply input)) (alone t reply (input ++ m)) := by
  have h := deliver_serve_agree ht m (s := Session.opened.feed input) rfl
    (by simpa [Session.opened, Session.feed] using hsilent)
  have hfeed : (Session.opened.feed input).feed m =
      (Session.opened.feed (input ++ m) : Session α ρ φ Unit) := by
    simp [Session.opened, Session.feed]
  rw [hfeed] at h
  exact h

include ht in
/-- The same for a session that may still be served. -/
lemma serve_feed_alone_agree {input m : List α} (hserving : (alone t reply input).status = .serving)
    (hsilent : NeverSilent t (stateless reply) (input ++ m)) :
    Agree (serve t (stateless reply) ((alone t reply input).feed m))
      (alone t reply (input ++ m)) := by
  have h := deliver_alone_agree ht hsilent
  rwa [deliver, hserving] at h

include ht in
/-- **More input makes the history longer**, and leaves what it already says. -/
lemma alone_events_isPrefix {input m : List α}
    (hsilent : NeverSilent t (stateless reply) (input ++ m)) :
    (alone t reply input).events <+: (alone t reply (input ++ m)).events := by
  by_cases hserving : (alone t reply input).status = .serving
  · rw [← (serve_feed_alone_agree ht hserving hsilent).events]
    exact events_prefix_serve (stateless reply) ht ((alone t reply input).feed m)
  · have h := deliver_alone_agree ht hsilent
    rw [deliver_of_ended t (stateless reply) hserving] at h
    rw [h.events]

end Alone

/-! ## Stages -/

/-- Where a session stands. -/
inductive Stage (ρ : Type*)
  /-- All that it has received has been served, or it has ended. -/
  | resting
  /-- Input may have been received since it last looked. -/
  | receiving
  /-- In the loop, before a turn. -/
  | looping
  /-- In the loop, a frame has been taken, and its answer is ready. -/
  | answering (r : ρ) (last : Bool)
  /-- The peer has left. -/
  | gone

section Follows

variable [DecidableEq α] (t : List α) (reply : List α → Except φ (Reply ρ))

/-- What a session that has received `input` has in common, at a stage of its work, with the one
that serves the same input at once. -/
def Follows (input : List α) : Stage ρ → Session α ρ φ Unit → Prop
  | .resting, s => Agree s (alone t reply input)
  | .receiving, s => ∃ front m, input = front ++ m ∧ (alone t reply front).status = .serving ∧
      s = (alone t reply front).feed m
  | .looping, s => s.status = .serving ∧
      Agree (serve t (stateless reply) s) (alone t reply input)
  | .answering r true, s => Agree (s.answer r true) (alone t reply input)
  | .answering r false, s => s.status = .serving ∧
      Agree (serve t (stateless reply) (s.answer r false)) (alone t reply input)
  | .gone, s => ∃ front m, input = front ++ m ∧ (alone t reply front).status = .serving ∧
      s.events = (alone t reply front).events ++ [.peerClosed, .deleted]

variable {t reply} {input : List α} {s : Session α ρ φ Unit} (ht : t ≠ [])

include ht in
/-- Before any input. -/
lemma Follows.opened : Follows t reply [] .resting Session.opened := by
  have hcut : Search.cut t ((Session.opened : Session α ρ φ Unit).feed []).unread = none :=
    Search.cut_eq_none_iff.mpr (by simp [Session.opened, Session.feed, ht])
  have halone : alone t reply [] = Session.opened.feed [] := serve_of_cut_none hcut
  change Agree Session.opened (alone t reply [])
  rw [halone]
  exact Agree.refl _

/-- The session turns to its input. -/
lemma Follows.listen (h : Follows t reply input .resting s) (hs : s.status = .serving) :
    Follows t reply input .receiving s := by
  have hagree : Agree s (alone t reply input) := h
  refine ⟨input, [], by simp, hagree.status ▸ hs, ?_⟩
  obtain ⟨unread, shared, events, status⟩ := s
  obtain ⟨hshared, hevents, hstatus, hunread⟩ := hagree
  dsimp only at hshared hevents hstatus hunread hs
  simp [Session.feed, hevents, hstatus, ← hunread hs]

/-- Input comes in. -/
lemma Follows.receive (h : Follows t reply input .receiving s) (m : List α) :
    Follows t reply (input ++ m) .receiving (s.feed m) := by
  obtain ⟨front, m', rfl, hserving, rfl⟩ := h
  exact ⟨front, m' ++ m, by simp, hserving, by simp [Session.feed]⟩

include ht in
/-- **The loop begins.** -/
lemma Follows.loop (h : Follows t reply input .receiving s)
    (hsilent : NeverSilent t (stateless reply) input) : Follows t reply input .looping s := by
  obtain ⟨front, m, rfl, hserving, rfl⟩ := h
  exact ⟨hserving, serve_feed_alone_agree ht hserving hsilent⟩

/-- The loop ends for lack of a frame. -/
lemma Follows.rest (h : Follows t reply input .looping s) (hcut : Search.cut t s.unread = none) :
    Follows t reply input .resting s := by
  have hagree := h.2
  rwa [serve_of_cut_none hcut] at hagree

include ht in
/-- **A frame is taken**, and the handler has an answer to it. -/
lemma Follows.take {frame rest : List α} {r : ρ} {last : Bool}
    (h : Follows t reply input .looping s) (hcut : Search.cut t s.unread = some (frame, rest))
    (hreply : reply frame = .ok (.answer r last)) :
    Follows t reply input (.answering r last) (s.pop frame rest) := by
  obtain ⟨hserving, hagree⟩ := h
  have hturn : s.turn frame rest (stateless reply frame s.shared) =
      ((s.pop frame rest).answer r last, !last) := turn_stateless hreply
  cases last with
  | true => rwa [serve_of_turn_false ht hcut hturn] at hagree
  | false =>
    rw [serve_of_turn_true ht hcut hturn] at hagree
    exact ⟨hserving, hagree⟩

include ht in
/-- A frame is taken, and the handler fails on it. -/
lemma Follows.fail {frame rest : List α} {fault : φ} (h : Follows t reply input .looping s)
    (hcut : Search.cut t s.unread = some (frame, rest)) (hreply : reply frame = .error fault) :
    Follows t reply input .resting { s.pop frame rest with status := .crashed fault } := by
  have hturn : s.turn frame rest (stateless reply frame s.shared) =
      ({ s.pop frame rest with status := .crashed fault }, false) := by
    have hout : stateless reply frame s.shared = .error fault := by
      simp [stateless, hreply, Except.map]
    rw [hout]
    rfl
  have hagree := h.2
  rwa [serve_of_turn_false ht hcut hturn] at hagree

/-- **An answer takes effect**: after the last one the session has ended, and after any other the
loop goes on. -/
lemma Follows.answer {r : ρ} {last : Bool} (h : Follows t reply input (.answering r last) s) :
    Follows t reply input (if last then .resting else .looping) (s.answer r last) := by
  cases last with
  | true => exact h
  | false => exact h

/-- The peer has left. -/
lemma Follows.hangUp (h : Follows t reply input .receiving s) :
    Follows t reply input .gone s.hangUp := by
  obtain ⟨front, m, rfl, hserving, rfl⟩ := h
  exact ⟨front, m, rfl, hserving, rfl⟩

include ht in
/-- **At every stage** before the peer leaves, the history is the beginning of that of the session
that serves its whole input at once. -/
theorem Follows.events_isPrefix {stage : Stage ρ} (h : Follows t reply input stage s)
    (hstage : stage ≠ .gone) (hsilent : NeverSilent t (stateless reply) input) :
    s.events <+: (alone t reply input).events := by
  match stage, h with
  | .resting, h => exact h.events ▸ List.prefix_rfl
  | .receiving, ⟨front, m, hinput, _, hs⟩ =>
    subst hinput hs
    exact alone_events_isPrefix ht hsilent
  | .looping, ⟨_, hagree⟩ =>
    exact hagree.events ▸ events_prefix_serve (stateless reply) ht s
  | .answering r true, hagree => exact hagree.events ▸ s.events_prefix_answer r true
  | .answering r false, ⟨_, hagree⟩ =>
    exact hagree.events ▸ (s.events_prefix_answer r false).trans
      (events_prefix_serve (stateless reply) ht (s.answer r false))
  | .gone, _ => exact absurd rfl hstage

end Follows

end Pipeline
