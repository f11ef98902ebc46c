import Icee.Lib.Search
import Icee.Lib.Transition

set_option relaxedAutoImplicit false
set_option autoImplicit false

/-!
# Pipelined sessions over a delimited stream

A session reads a stream that arrives in pieces, cuts it into frames that end with a delimiter
`t`, and hands one frame after the other to a handler, which may answer, keep silent or fail, and
which works on a state shared with other sessions. This file has the loop and its theory for an
arbitrary alphabet, arbitrary answers, faults, shared states and handlers.

## Main definitions

* `Pipeline.Session` — unread input, shared state, what has been done so far, and a status.
* `Pipeline.Session.turn` — what the outcome for one frame does to the session.
* `Pipeline.serve` — the loop: turns, until one of them ends it or no frame is left.
* `Pipeline.deliver`, `Pipeline.deliverAll` — input arrives and is served.
* `Pipeline.next` — the shared state in which the following frame is handled, if it is.

## Main results

* `Pipeline.serve_induct`, `Pipeline.serve_invariant` — the induction and invariant rules.
* `Pipeline.deliverAll_agree` — how the input was cut into pieces does not matter.
* `Pipeline.serve_rel_of_frames` — handlers that simulate each other give sessions that do.
-/

namespace Pipeline

/-- What a session does, one event after the other. -/
inductive Event (α ρ : Type*)
  /-- A frame has been taken from the unread input. -/
  | popped (frame : List α)
  /-- An answer has been put into the output. -/
  | written (response : ρ)
  /-- The output has been handed over. -/
  | sent
  /-- The peer is gone. -/
  | peerClosed
  /-- The session has been given up. -/
  | deleted
  deriving DecidableEq

/-- Whether a session goes on. -/
inductive Status (φ : Type*)
  | serving
  | deleted
  | crashed (fault : φ)
  deriving DecidableEq

/-- What a handler makes of a frame when it does not fail. -/
inductive Reply (ρ : Type*)
  /-- No answer, and the rest of the input is left where it is. -/
  | silent
  /-- An answer, which may be the last one. -/
  | answer (response : ρ) (last : Bool)
  deriving DecidableEq

/-- A session: its unread input, the state it shares with others, its history, its status. -/
structure Session (α ρ φ γ : Type*) where
  unread : List α
  shared : γ
  events : List (Event α ρ)
  status : Status φ

/-- A handler: the shared state after a frame and the reply to it, or a fault. -/
abbrev Handler (α ρ φ γ : Type*) := List α → γ → Except φ (γ × Reply ρ)

variable {α ρ φ γ δ : Type*}

namespace Session

/-- The frame is taken and its outcome takes effect; the flag says whether the loop goes on. -/
def turn (s : Session α ρ φ γ) (frame rest : List α) :
    Except φ (γ × Reply ρ) → Session α ρ φ γ × Bool
  | .error fault =>
    ({ s with
        unread := rest
        events := s.events ++ [.popped frame]
        status := .crashed fault }, false)
  | .ok (g, .silent) =>
    ({ s with unread := rest, shared := g, events := s.events ++ [.popped frame] }, false)
  | .ok (g, .answer r true) =>
    ({ unread := rest
       shared := g
       events := s.events ++ [.popped frame, .written r, .sent, .deleted]
       status := .deleted }, false)
  | .ok (g, .answer r false) =>
    ({ s with
        unread := rest
        shared := g
        events := s.events ++ [.popped frame, .written r, .sent] }, true)

/-- More input has arrived. -/
def feed (m : List α) (s : Session α ρ φ γ) : Session α ρ φ γ := { s with unread := s.unread ++ m }

/-- The peer is gone, and the session is given up. -/
def hangUp (s : Session α ρ φ γ) : Session α ρ φ γ :=
  { s with events := s.events ++ [.peerClosed, .deleted], status := .deleted }

/-- A turn leaves the rest of the input, whatever its outcome is. -/
@[simp] lemma turn_unread (s : Session α ρ φ γ) (frame rest : List α)
    (outcome : Except φ (γ × Reply ρ)) : (s.turn frame rest outcome).1.unread = rest := by
  rcases outcome with fault | ⟨g, _ | ⟨r, _ | _⟩⟩ <;> rfl

/-- The loop goes on exactly after an answer that is not the last one. -/
lemma turn_eq_true {s s' : Session α ρ φ γ} {frame rest : List α}
    {outcome : Except φ (γ × Reply ρ)} (h : s.turn frame rest outcome = (s', true)) :
    ∃ g r, outcome = .ok (g, .answer r false) ∧ s' = { s with
      unread := rest
      shared := g
      events := s.events ++ [.popped frame, .written r, .sent] } := by
  rcases outcome with fault | ⟨g, _ | ⟨r, _ | _⟩⟩ <;> simp only [turn, Prod.mk.injEq] at h
  · exact absurd h.2 (by decide)
  · exact absurd h.2 (by decide)
  · exact ⟨g, r, rfl, h.1.symm⟩
  · exact absurd h.2 (by decide)

end Session

/-! ## The loop -/

section Loop

variable [DecidableEq α] (t : List α) (handle : Handler α ρ φ γ)

/-- The loop, for at most `n` turns. -/
def serveUpTo : ℕ → Session α ρ φ γ → Session α ρ φ γ
  | 0, s => s
  | n + 1, s => match Search.cut t s.unread with
    | none => s
    | some (frame, rest) => match s.turn frame rest (handle frame s.shared) with
      | (s', true) => serveUpTo n s'
      | (s', false) => s'

/-- The loop. Every turn takes a frame, so there are no more turns than letters. -/
def serve (s : Session α ρ φ γ) : Session α ρ φ γ := serveUpTo t handle s.unread.length s

/-- Input arrives and is served, unless the session has ended. -/
def deliver (m : List α) (s : Session α ρ φ γ) : Session α ρ φ γ :=
  match s.status with
  | .serving => serve t handle (s.feed m)
  | _ => s

/-- The pieces of the input arrive one after the other. -/
def deliverAll (ms : List (List α)) (s : Session α ρ φ γ) : Session α ρ φ γ :=
  ms.foldl (fun s m => deliver t handle m s) s

/-- The shared state in which the frame after this one is handled, if there is a next turn. -/
def next (g : γ) (frame : List α) : Option γ :=
  match handle frame g with
  | .ok (g', .answer _ false) => some g'
  | _ => none

variable {t handle} (ht : t ≠ [])

include ht in
/-- More turns than letters change nothing. -/
lemma serveUpTo_eq : ∀ (n m : ℕ) (s : Session α ρ φ γ), s.unread.length ≤ n →
    s.unread.length ≤ m → serveUpTo t handle n s = serveUpTo t handle m s := by
  have hempty : ∀ n (s : Session α ρ φ γ), s.unread.length = 0 → serveUpTo t handle n s = s := by
    intro n s hs
    cases n with
    | zero => rfl
    | succ n =>
      have hcut : Search.cut t s.unread = none :=
        Search.cut_eq_none_iff.mpr (by simp [List.length_eq_zero_iff.mp hs, ht])
      simp only [serveUpTo, hcut]
  intro n
  induction n with
  | zero => intro m s hn _; rw [hempty 0 s (by omega), hempty m s (by omega)]
  | succ n ih =>
    intro m s hn hm
    cases m with
    | zero => rw [hempty _ s (by omega), hempty _ s (by omega)]
    | succ m =>
      cases hcut : Search.cut t s.unread with
      | none => simp only [serveUpTo, hcut]
      | some p =>
        obtain ⟨frame, rest⟩ := p
        have hrest := Search.length_rest_lt_of_cut ht hcut
        cases hturn : s.turn frame rest (handle frame s.shared) with
        | mk s' goOn =>
          have hunread : s'.unread = rest := by
            rw [← s.turn_unread frame rest (handle frame s.shared), hturn]
          cases goOn with
          | false => simp only [serveUpTo, hcut, hturn]
          | true =>
            simp only [serveUpTo, hcut, hturn]
            exact ih m s' (by rw [hunread]; omega) (by rw [hunread]; omega)

/-- Without a complete frame nothing happens. -/
lemma serve_of_cut_none {s : Session α ρ φ γ} (h : Search.cut t s.unread = none) :
    serve t handle s = s := by
  unfold serve
  cases s.unread.length with
  | zero => rfl
  | succ n => simp only [serveUpTo, h]

include ht in
/-- A frame that ends the loop. -/
lemma serve_of_turn_false {s s' : Session α ρ φ γ} {frame rest : List α}
    (h : Search.cut t s.unread = some (frame, rest))
    (hturn : s.turn frame rest (handle frame s.shared) = (s', false)) :
    serve t handle s = s' := by
  have hrest := Search.length_rest_lt_of_cut ht h
  obtain ⟨n, hn⟩ : ∃ n, s.unread.length = n + 1 := ⟨s.unread.length - 1, by omega⟩
  unfold serve
  rw [hn]
  simp only [serveUpTo, h, hturn]

include ht in
/-- A frame after which the loop goes on. -/
lemma serve_of_turn_true {s s' : Session α ρ φ γ} {frame rest : List α}
    (h : Search.cut t s.unread = some (frame, rest))
    (hturn : s.turn frame rest (handle frame s.shared) = (s', true)) :
    serve t handle s = serve t handle s' := by
  have hrest := Search.length_rest_lt_of_cut ht h
  have hunread : s'.unread = rest := by
    rw [← s.turn_unread frame rest (handle frame s.shared), hturn]
  obtain ⟨n, hn⟩ : ∃ n, s.unread.length = n + 1 := ⟨s.unread.length - 1, by omega⟩
  unfold serve
  rw [hn]
  simp only [serveUpTo, h, hturn]
  exact serveUpTo_eq ht _ _ s' (by rw [hunread]; omega) le_rfl

variable (handle) in
include ht in
/-- **The induction rule** for the loop: what holds when nothing happens, when a turn ends the
loop, and across a turn after which it goes on. -/
theorem serve_induct {motive : Session α ρ φ γ → Session α ρ φ γ → Prop}
    (idle : ∀ s, Search.cut t s.unread = none → motive s s)
    (stop : ∀ s frame rest s', Search.cut t s.unread = some (frame, rest) →
      s.turn frame rest (handle frame s.shared) = (s', false) → motive s s')
    (go : ∀ s frame rest s', Search.cut t s.unread = some (frame, rest) →
      s.turn frame rest (handle frame s.shared) = (s', true) →
      motive s' (serve t handle s') → motive s (serve t handle s'))
    (s : Session α ρ φ γ) : motive s (serve t handle s) := by
  induction hn : s.unread.length using Nat.strong_induction_on generalizing s with
  | _ n ih =>
    cases hcut : Search.cut t s.unread with
    | none =>
      rw [serve_of_cut_none hcut]
      exact idle s hcut
    | some p =>
      obtain ⟨frame, rest⟩ := p
      have hrest := Search.length_rest_lt_of_cut ht hcut
      cases hturn : s.turn frame rest (handle frame s.shared) with
      | mk s' goOn =>
        cases goOn with
        | false =>
          rw [serve_of_turn_false ht hcut hturn]
          exact stop s frame rest s' hcut hturn
        | true =>
          have hunread : s'.unread = rest := by
            rw [← s.turn_unread frame rest (handle frame s.shared), hturn]
          rw [serve_of_turn_true ht hcut hturn]
          exact go s frame rest s' hcut hturn (ih rest.length (by omega) s' (by rw [hunread]))

include ht in
/-- **The invariant rule** for the loop: what every turn of a session that is still serving
preserves holds when the loop ends. -/
theorem serve_invariant (Inv : Session α ρ φ γ → Prop)
    (hturn : ∀ s frame rest, s.status = .serving → Inv s →
      Inv (s.turn frame rest (handle frame s.shared)).1)
    (s : Session α ρ φ γ) (hs : s.status = .serving) (hinv : Inv s) :
    Inv (serve t handle s) := by
  refine serve_induct handle (motive := fun s s' => s.status = .serving → Inv s → Inv s') ht ?_ ?_
    ?_ s hs hinv
  · intro s _ _ hinv
    exact hinv
  · intro s frame rest s' _ hs' hs hinv
    have := hturn s frame rest hs hinv
    rwa [hs'] at this
  · intro s frame rest s' _ hs' ih hs hinv
    have hinv' := hturn s frame rest hs hinv
    rw [hs'] at hinv'
    obtain ⟨g, r, -, rfl⟩ := Session.turn_eq_true hs'
    exact ih hs hinv'

include ht in
/-- What the handler preserves of the shared state, the loop preserves. -/
lemma serve_shared (Good : γ → Prop)
    (hgood : ∀ frame g g' r, Good g → handle frame g = .ok (g', r) → Good g')
    {s : Session α ρ φ γ} (hs : s.status = .serving) (h : Good s.shared) :
    Good (serve t handle s).shared := by
  refine serve_invariant ht (fun s => Good s.shared) (fun s frame rest _ hinv => ?_) s hs h
  rcases hout : handle frame s.shared with fault | ⟨g, _ | ⟨r, _ | _⟩⟩
  · exact hinv
  · exact hgood frame _ _ _ hinv hout
  · exact hgood frame _ _ _ hinv hout
  · exact hgood frame _ _ _ hinv hout

/-! ## Pieces of the input -/

/-- Two sessions that nobody can tell apart: they may differ only in the input that a session
which has ended will never read. -/
structure Agree (s₁ s₂ : Session α ρ φ γ) : Prop where
  shared : s₁.shared = s₂.shared
  events : s₁.events = s₂.events
  status : s₁.status = s₂.status
  unread : s₁.status = .serving → s₁.unread = s₂.unread

omit [DecidableEq α] in
lemma Agree.refl (s : Session α ρ φ γ) : Agree s s := ⟨rfl, rfl, rfl, fun _ => rfl⟩

omit [DecidableEq α] in
lemma Agree.trans {s₁ s₂ s₃ : Session α ρ φ γ} (h : Agree s₁ s₂) (h' : Agree s₂ s₃) :
    Agree s₁ s₃ :=
  ⟨h.shared.trans h'.shared, h.events.trans h'.events, h.status.trans h'.status,
    fun hs => (h.unread hs).trans (h'.unread (h.status ▸ hs))⟩

/-- The handler is silent on no frame of the stream, in whatever state it meets the frame. -/
def NeverSilent (t : List α) (handle : Handler α ρ φ γ) (stream : List α) : Prop :=
  ∀ frame ∈ Search.frames t stream, ∀ g g', handle frame g ≠ .ok (g', .silent)

omit [DecidableEq α] in
/-- Input that arrives behind a frame does not touch the turn for that frame. -/
lemma turn_feed (m : List α) (s : Session α ρ φ γ) (frame rest : List α)
    (outcome : Except φ (γ × Reply ρ)) :
    (s.feed m).turn frame (rest ++ m) outcome =
      ((s.turn frame rest outcome).1.feed m, (s.turn frame rest outcome).2) := by
  rcases outcome with fault | ⟨g, _ | ⟨r, _ | _⟩⟩ <;> rfl

include ht in
/-- The frames of a stream after its first one, when more has arrived. -/
lemma frames_append_of_cut {s frame rest : List α} (h : Search.cut t s = some (frame, rest))
    (m : List α) : Search.frames t (s ++ m) = frame :: Search.frames t (rest ++ m) :=
  Search.frames_of_cut ht (Search.cut_append h m)

include ht in
/-- The loop takes its frames from the front. -/
lemma frames_serve_suffix (m : List α) (s : Session α ρ φ γ) :
    Search.frames t ((serve t handle s).unread ++ m) <:+ Search.frames t (s.unread ++ m) := by
  refine serve_induct handle
    (motive := fun s s' => Search.frames t (s'.unread ++ m) <:+ Search.frames t (s.unread ++ m))
    ht ?_ ?_ ?_ s
  · intro s _
    exact List.suffix_rfl
  · intro s frame rest s' hcut hturn
    have hunread := s.turn_unread frame rest (handle frame s.shared)
    rw [hturn] at hunread
    rw [frames_append_of_cut ht hcut, hunread]
    exact List.suffix_cons _ _
  · intro s frame rest s' hcut hturn ih
    have hunread := s.turn_unread frame rest (handle frame s.shared)
    rw [hturn] at hunread
    rw [frames_append_of_cut ht hcut, ← hunread]
    exact ih.trans (List.suffix_cons _ _)

include ht in
/-- A session that is still serving when the loop ends has no complete frame left. -/
lemma cut_serve_eq_none {s : Session α ρ φ γ} (hs : s.status = .serving)
    (hsilent : NeverSilent t handle s.unread) (h : (serve t handle s).status = .serving) :
    Search.cut t (serve t handle s).unread = none := by
  refine serve_induct handle (motive := fun s s' => s.status = .serving →
    NeverSilent t handle s.unread → s'.status = .serving → Search.cut t s'.unread = none)
    ht ?_ ?_ ?_ s hs hsilent h
  · intro s hcut _ _ _
    exact hcut
  · intro s frame rest s' hcut hturn _ hsilent hs'
    -- a turn that ends the loop leaves the session serving only when the handler is silent
    rcases hout : handle frame s.shared with fault | ⟨g, _ | ⟨r, _ | _⟩⟩
    all_goals rw [hout] at hturn; obtain ⟨rfl, hflag⟩ := Prod.mk.inj hturn
    · cases hs'
    · exact absurd hout (hsilent frame (by simp [Search.frames_of_cut ht hcut]) _ _)
    · cases hflag
    · cases hs'
  · intro s frame rest s' hcut hturn ih hs hsilent hs''
    obtain ⟨g, r, -, rfl⟩ := Session.turn_eq_true hturn
    refine ih hs (fun f hf => hsilent f ?_) hs''
    rw [Search.frames_of_cut ht hcut]
    exact List.mem_cons_of_mem _ hf

variable (t handle) in
/-- An ended session takes no notice of further input. -/
lemma deliver_of_ended {s : Session α ρ φ γ} (hs : s.status ≠ .serving) (m : List α) :
    deliver t handle m s = s := by
  unfold deliver
  split
  · next h => exact absurd h hs
  · rfl

variable (t handle) in
lemma deliverAll_of_ended {s : Session α ρ φ γ} (hs : s.status ≠ .serving) (ms : List (List α)) :
    deliverAll t handle ms s = s := by
  induction ms with
  | nil => rfl
  | cons m ms ih =>
    unfold deliverAll at ih ⊢
    rw [List.foldl_cons, deliver_of_ended t handle hs, ih]

include ht in
/-- **Serving first and receiving later** is as good as receiving first. -/
lemma deliver_serve_agree (m : List α) {s : Session α ρ φ γ} (hs : s.status = .serving)
    (hsilent : NeverSilent t handle (s.unread ++ m)) :
    Agree (deliver t handle m (serve t handle s)) (serve t handle (s.feed m)) := by
  refine serve_induct handle (motive := fun s s' => s.status = .serving →
    NeverSilent t handle (s.unread ++ m) →
    Agree (deliver t handle m s') (serve t handle (s.feed m))) ht ?_ ?_ ?_ s hs hsilent
  · intro s _ hs _
    simp only [deliver, hs]
    exact Agree.refl _
  · intro s frame rest s' hcut hturn hs hsilent
    have hcut' : Search.cut t (s.feed m).unread = some (frame, rest ++ m) :=
      Search.cut_append hcut m
    have hturn' : (s.feed m).turn frame (rest ++ m) (handle frame (s.feed m).shared) =
        (s'.feed m, false) := by
      rw [turn_feed, show (s.feed m).shared = s.shared from rfl, hturn]
    rw [serve_of_turn_false ht hcut' hturn']
    have hended : s'.status ≠ .serving := by
      rcases hout : handle frame s.shared with fault | ⟨g, _ | ⟨r, _ | _⟩⟩
      all_goals rw [hout] at hturn; obtain ⟨rfl, hflag⟩ := Prod.mk.inj hturn
      · intro h; cases h
      · exact absurd hout (hsilent frame (by simp [frames_append_of_cut ht hcut]) _ _)
      · cases hflag
      · intro h; cases h
    rw [deliver_of_ended t handle hended]
    exact ⟨rfl, rfl, rfl, fun h => absurd h hended⟩
  · intro s frame rest s' hcut hturn ih hs hsilent
    have hcut' : Search.cut t (s.feed m).unread = some (frame, rest ++ m) :=
      Search.cut_append hcut m
    have hturn' : (s.feed m).turn frame (rest ++ m) (handle frame (s.feed m).shared) =
        (s'.feed m, true) := by
      rw [turn_feed, show (s.feed m).shared = s.shared from rfl, hturn]
    rw [serve_of_turn_true ht hcut' hturn']
    obtain ⟨g, r, -, rfl⟩ := Session.turn_eq_true hturn
    refine ih hs fun f hf => hsilent f ?_
    rw [frames_append_of_cut ht hcut]
    exact List.mem_cons_of_mem _ hf

include ht in
/-- **The pieces do not matter.** A session that has served all it has received, and whose
handler is never silent, ends up as if the whole input had arrived at once.

**Proof sketch.** Induction on the pieces. After the first piece the session has ended, and then
more input would have changed nothing, or it again has no complete frame left, and the induction
hypothesis applies; either way `deliver_serve_agree` moves the rest of the input to the front. -/
theorem deliverAll_agree (ms : List (List α)) : ∀ {s : Session α ρ φ γ}, s.status = .serving →
    Search.cut t s.unread = none → NeverSilent t handle (s.unread ++ ms.flatten) →
    Agree (deliverAll t handle ms s) (serve t handle (s.feed ms.flatten)) := by
  induction ms with
  | nil =>
    intro s hs hcut _
    have hfeed : s.feed ([] : List (List α)).flatten = s := by simp [Session.feed]
    rw [hfeed, serve_of_cut_none hcut]
    exact Agree.refl s
  | cons m ms ih =>
    intro s hs _ hsilent
    have hfirst : deliverAll t handle (m :: ms) s =
        deliverAll t handle ms (serve t handle (s.feed m)) := by
      simp [deliverAll, deliver, hs]
    have hfeed : s.feed (m :: ms).flatten = (s.feed m).feed ms.flatten := by
      simp [Session.feed]
    have hsilent' : NeverSilent t handle ((s.feed m).unread ++ ms.flatten) := by
      simpa [Session.feed] using hsilent
    rw [hfirst, hfeed]
    have hfront := deliver_serve_agree ht ms.flatten (s := s.feed m) hs hsilent'
    by_cases hend : (serve t handle (s.feed m)).status = .serving
    · have hsilent₁ : NeverSilent t handle (s.feed m).unread := by
        intro f hf
        refine hsilent' f ?_
        exact (Search.frames_prefix_append ht _ _).subset hf
      have hsilent₂ : NeverSilent t handle
          ((serve t handle (s.feed m)).unread ++ ms.flatten) := fun f hf =>
        hsilent' f ((frames_serve_suffix ht _ _).subset hf)
      refine (ih hend (cut_serve_eq_none ht hs hsilent₁ hend) hsilent₂).trans ?_
      simpa only [deliver, hend] using hfront
    · rw [deliverAll_of_ended t handle hend]
      rwa [deliver_of_ended t handle hend] at hfront

end Loop

/-! ## Simulation -/

section Simulation

/-- Two outcomes that differ only in the shared states, which are related. -/
inductive Matches (R : γ → δ → Prop) : Except φ (γ × Reply ρ) → Except φ (δ × Reply ρ) → Prop
  | error (fault : φ) : Matches R (.error fault) (.error fault)
  | ok {g : γ} {d : δ} (reply : Reply ρ) : R g d → Matches R (.ok (g, reply)) (.ok (d, reply))

/-- Two sessions that differ only in the shared states, which are related. -/
structure Session.Rel (R : γ → δ → Prop) (s₁ : Session α ρ φ γ) (s₂ : Session α ρ φ δ) :
    Prop where
  unread : s₁.unread = s₂.unread
  shared : R s₁.shared s₂.shared
  events : s₁.events = s₂.events
  status : s₁.status = s₂.status

variable {R : γ → δ → Prop} {s₁ : Session α ρ φ γ} {s₂ : Session α ρ φ δ}

/-- More input for both sessions. -/
lemma Session.Rel.feed (h : s₁.Rel R s₂) (m : List α) : (s₁.feed m).Rel R (s₂.feed m) :=
  ⟨congrArg (· ++ m) h.unread, h.shared, h.events, h.status⟩

/-- A turn of both sessions. -/
lemma Session.Rel.turn (h : s₁.Rel R s₂) (frame rest : List α)
    {outcome₁ : Except φ (γ × Reply ρ)} {outcome₂ : Except φ (δ × Reply ρ)}
    (ho : Matches R outcome₁ outcome₂) :
    (s₁.turn frame rest outcome₁).1.Rel R (s₂.turn frame rest outcome₂).1 ∧
      (s₁.turn frame rest outcome₁).2 = (s₂.turn frame rest outcome₂).2 := by
  cases ho with
  | error fault =>
    exact ⟨⟨rfl, h.shared, congrArg (· ++ [Event.popped frame]) h.events, rfl⟩, rfl⟩
  | ok reply hR =>
    rcases reply with _ | ⟨r, _ | _⟩
    · exact ⟨⟨rfl, hR, congrArg (· ++ [Event.popped frame]) h.events, h.status⟩, rfl⟩
    · exact ⟨⟨rfl, hR, congrArg (· ++ [Event.popped frame, .written r, .sent]) h.events,
        h.status⟩, rfl⟩
    · exact ⟨⟨rfl, hR, congrArg (· ++ [Event.popped frame, .written r, .sent, .deleted]) h.events,
        rfl⟩, rfl⟩

/-- **Simulation.** If one handler follows the other up to a relation of the shared states on every
frame of the unread input, so do the sessions they serve. -/
theorem serve_rel_of_frames [DecidableEq α] {t : List α} (ht : t ≠ []) {handle₁ : Handler α ρ φ γ}
    {handle₂ : Handler α ρ φ δ} (s₁ : Session α ρ φ γ) (s₂ : Session α ρ φ δ)
    (hsim : ∀ frame ∈ Search.frames t s₁.unread, ∀ g d, R g d →
      Matches R (handle₁ frame g) (handle₂ frame d))
    (h : s₁.Rel R s₂) : (serve t handle₁ s₁).Rel R (serve t handle₂ s₂) := by
  refine serve_induct handle₁
    (motive := fun s s' => (∀ frame ∈ Search.frames t s.unread, ∀ g d, R g d →
      Matches R (handle₁ frame g) (handle₂ frame d)) →
      ∀ s₂, s.Rel R s₂ → s'.Rel R (serve t handle₂ s₂)) ht ?_ ?_ ?_ s₁ hsim s₂ h
  · intro s hcut _ s₂ h
    rw [serve_of_cut_none (h.unread ▸ hcut)]
    exact h
  · intro s frame rest s' hcut hturn hsim s₂ h
    have hframe := hsim frame (by simp [Search.frames_of_cut ht hcut])
    have hboth := h.turn frame rest (hframe _ _ h.shared)
    rw [hturn] at hboth
    rw [serve_of_turn_false ht (h.unread ▸ hcut) (Prod.ext rfl hboth.2.symm)]
    exact hboth.1
  · intro s frame rest s' hcut hturn ih hsim s₂ h
    have hframe := hsim frame (by simp [Search.frames_of_cut ht hcut])
    have hboth := h.turn frame rest (hframe _ _ h.shared)
    have hunread := s.turn_unread frame rest (handle₁ frame s.shared)
    rw [hturn] at hboth hunread
    rw [serve_of_turn_true ht (h.unread ▸ hcut) (Prod.ext rfl hboth.2.symm)]
    refine ih (fun f hf => hsim f ?_) _ hboth.1
    rw [hunread] at hf
    rw [Search.frames_of_cut ht hcut]
    exact List.mem_cons_of_mem _ hf

/-- Simulation, if one handler follows the other on all frames. -/
theorem serve_rel [DecidableEq α] {t : List α} (ht : t ≠ []) {handle₁ : Handler α ρ φ γ}
    {handle₂ : Handler α ρ φ δ}
    (hsim : ∀ frame g d, R g d → Matches R (handle₁ frame g) (handle₂ frame d))
    (s₁ : Session α ρ φ γ) (s₂ : Session α ρ φ δ) (h : s₁.Rel R s₂) :
    (serve t handle₁ s₁).Rel R (serve t handle₂ s₂) :=
  serve_rel_of_frames ht s₁ s₂ (fun frame _ => hsim frame) h

/-- Simulation, when input arrives. -/
lemma deliver_rel [DecidableEq α] {t : List α} (ht : t ≠ []) {handle₁ : Handler α ρ φ γ}
    {handle₂ : Handler α ρ φ δ}
    (hsim : ∀ frame g d, R g d → Matches R (handle₁ frame g) (handle₂ frame d)) (m : List α)
    (h : s₁.Rel R s₂) : (deliver t handle₁ m s₁).Rel R (deliver t handle₂ m s₂) := by
  cases hs : s₁.status with
  | serving =>
    simp only [deliver, hs, h.status ▸ hs]
    exact serve_rel ht hsim _ _ (h.feed m)
  | deleted =>
    simp only [deliver, hs, h.status ▸ hs]
    exact h
  | crashed fault =>
    simp only [deliver, hs, h.status ▸ hs]
    exact h

/-- Simulation, for all pieces of the input. -/
lemma deliverAll_rel [DecidableEq α] {t : List α} (ht : t ≠ []) {handle₁ : Handler α ρ φ γ}
    {handle₂ : Handler α ρ φ δ}
    (hsim : ∀ frame g d, R g d → Matches R (handle₁ frame g) (handle₂ frame d))
    (ms : List (List α)) : ∀ {s₁ : Session α ρ φ γ} {s₂ : Session α ρ φ δ}, s₁.Rel R s₂ →
      (deliverAll t handle₁ ms s₁).Rel R (deliverAll t handle₂ ms s₂) := by
  induction ms with
  | nil => intro s₁ s₂ h; exact h
  | cons m ms ih => intro s₁ s₂ h; exact ih (deliver_rel ht hsim m h)

end Simulation

end Pipeline
