import Icee.Lib.Pipeline

set_option relaxedAutoImplicit false
set_option autoImplicit false

/-!
# The history of a pipelined session

What can be said about the events of a session from what its handler does to single frames.

## Main definitions

* `Pipeline.Complete` — every frame taken has been answered, and none is left.
* `Pipeline.served` — the frames that a handler answers, with their answers.
* `Pipeline.Orderly` — answers that keep the session, then at most one way to end it.

## Main results

* `Pipeline.serve_answered_iff` — every frame taken is answered exactly when the handler answers
  every frame it reaches.
* `Pipeline.serve_clean_iff` — the loop ends in a clean state exactly when no frame it reaches
  spoils it.
* `Pipeline.events_serve` — the loop adds to the history the exchanges that its handler makes.
* `Pipeline.Orderly.serve` — a handler whose last answers are recognisable keeps the history
  orderly; `Pipeline.Orderly.responses`, `Pipeline.Orderly.of_deleted` and
  `Pipeline.Orderly.of_closing` say what that means for the peer.
-/

namespace Pipeline

variable {α ρ φ γ : Type*}

/-! ## The frames the loop reaches -/

section Reached

variable [DecidableEq α] {t : List α} (handle : Handler α ρ φ γ) (ht : t ≠ [])

/-- Every frame taken is answered at once, and nothing else is written. -/
def Answered : List (Event α ρ) → Prop
  | [] => True
  | [.deleted] => True
  | .popped _ :: .written _ :: .sent :: events => Answered events
  | _ => False

/-- Between the two sessions every frame taken has been answered, and if the session still goes
on, no frame is left. -/
def Complete (t : List α) (s s' : Session α ρ φ γ) : Prop :=
  (∃ new, s'.events = s.events ++ new ∧ Answered new) ∧
    (s'.status = .serving → ¬ t <:+: s'.unread)

/-- The handler answers the frame. -/
def Answers (g : γ) (frame : List α) : Prop :=
  ∃ g' r last, handle frame g = .ok (g', .answer r last)

include ht in
/-- The history only grows. -/
lemma events_prefix_serve (s : Session α ρ φ γ) : s.events <+: (serve t handle s).events := by
  refine serve_induct handle (motive := fun s s' => s.events <+: s'.events) ht ?_ ?_ ?_ s
  · intro s _
    exact List.prefix_rfl
  · intro s frame rest s' _ hturn
    rcases hout : handle frame s.shared with fault | ⟨g, _ | ⟨r, _ | _⟩⟩
    all_goals
      rw [hout] at hturn
      obtain ⟨rfl, -⟩ := Prod.mk.inj hturn
      exact List.prefix_append _ _
  · intro s frame rest s' _ hturn ih
    obtain ⟨g, r, -, rfl⟩ := Session.turn_eq_true hturn
    exact (List.prefix_append _ _).trans ih

omit [DecidableEq α] in
/-- An answered frame before the rest of the history. -/
lemma complete_cons {t : List α} {s s' s'' : Session α ρ φ γ} {frame : List α} {r : ρ}
    (h : s'.events = s.events ++ [.popped frame, .written r, .sent])
    (hgrow : s'.events <+: s''.events) : Complete t s s'' ↔ Complete t s' s'' := by
  obtain ⟨new, hnew⟩ := hgrow
  have hs : s''.events = s.events ++ ([.popped frame, .written r, .sent] ++ new) := by
    rw [← hnew, h, List.append_assoc]
  refine and_congr ⟨?_, ?_⟩ Iff.rfl
  · rintro ⟨new', hnew', hanswered⟩
    rw [hs] at hnew'
    rw [← List.append_cancel_left hnew'] at hanswered
    exact ⟨new, hnew.symm, hanswered⟩
  · rintro ⟨new', hnew', hanswered⟩
    rw [← hnew] at hnew'
    rw [← List.append_cancel_left hnew'] at hanswered
    exact ⟨_, hs, hanswered⟩

include ht in
/-- **Every frame taken is answered**, and none is left, exactly when the handler answers each
frame in the state in which it reaches it.

**Proof sketch.** By induction on the turns of the loop. Without a frame there is nothing to answer.
A turn that ends the loop either answers the frame and is the last, or only takes it, and then the
condition fails at this frame. After any other turn the frame has been answered, and the frames
behind it are left. -/
theorem serve_answered_iff {s : Session α ρ φ γ} (hs : s.status = .serving) :
    Complete t s (serve t handle s) ↔
      Transition.Along (next handle) (Answers handle) s.shared (Search.frames t s.unread) := by
  refine serve_induct handle (motive := fun s s' => s.status = .serving →
    (Complete t s s' ↔
      Transition.Along (next handle) (Answers handle) s.shared (Search.frames t s.unread)))
    ht ?_ ?_ ?_ s hs
  · intro s hcut _
    rw [Search.frames_of_cut_none hcut]
    exact ⟨fun _ => trivial,
      fun _ => ⟨⟨[], by simp, trivial⟩, fun _ => Search.cut_eq_none_iff.mp hcut⟩⟩
  · intro s frame rest s' hcut hturn _
    rw [Search.frames_of_cut ht hcut]
    -- a frame that is only taken is not answered
    have hunanswered : ∀ s' : Session α ρ φ γ, s'.events = s.events ++ [.popped frame] →
        ¬ Complete t s s' := by
      rintro s' hs' ⟨⟨new, hnew, hanswered⟩, -⟩
      rw [← List.append_cancel_left (hs'.symm.trans hnew)] at hanswered
      exact hanswered
    rcases hout : handle frame s.shared with fault | ⟨g, _ | ⟨r, _ | _⟩⟩
    all_goals rw [hout] at hturn; obtain ⟨rfl, hflag⟩ := Prod.mk.inj hturn
    · refine iff_of_false (hunanswered _ rfl) fun h => ?_
      obtain ⟨g', r, last, ha⟩ := h.1
      rw [hout] at ha
      cases ha
    · refine iff_of_false (hunanswered _ rfl) fun h => ?_
      obtain ⟨g', r, last, ha⟩ := h.1
      rw [hout] at ha
      cases ha
    · cases hflag
    · refine iff_of_true ⟨⟨_, rfl, trivial⟩, fun h => by cases h⟩
        ⟨⟨g, r, true, hout⟩, fun g' hg' => ?_⟩
      simp [next, hout] at hg'
  · intro s frame rest s' hcut hturn ih hs
    obtain ⟨g, r, hout, rfl⟩ := Session.turn_eq_true hturn
    have hnext : next handle s.shared frame = some g := by simp [next, hout]
    rw [Search.frames_of_cut ht hcut, complete_cons rfl (events_prefix_serve handle ht _), ih hs,
      Transition.along_cons _ hnext]
    exact (and_iff_right ⟨g, r, false, hout⟩).symm

include ht in
/-- **No frame spoils the state**: for a property of shared states that the handler never
restores, the loop ends without a fault and with the property exactly when it holds at the
beginning and no frame that is reached fails or destroys it.

**Proof sketch.** By induction on the turns of the loop. A turn that ends it with a fault fails the
condition, and one that ends it otherwise leaves the state that the condition is about. If the state
is clean after a turn, then it was before, so a state that is spoilt at some frame is so to the
end. -/
theorem serve_clean_iff (clean : γ → Prop)
    (hlost : ∀ frame g g' r, handle frame g = .ok (g', r) → clean g' → clean g)
    {s : Session α ρ φ γ} (hs : s.status = .serving) :
    ((∀ fault, (serve t handle s).status ≠ .crashed fault) ∧ clean (serve t handle s).shared) ↔
      clean s.shared ∧ Transition.Along (next handle)
        (fun g frame => ∃ g' r, handle frame g = .ok (g', r) ∧ clean g') s.shared
        (Search.frames t s.unread) := by
  refine serve_induct handle (motive := fun s s' => s.status = .serving →
    (((∀ fault, s'.status ≠ .crashed fault) ∧ clean s'.shared) ↔
      clean s.shared ∧ Transition.Along (next handle)
        (fun g frame => ∃ g' r, handle frame g = .ok (g', r) ∧ clean g') s.shared
        (Search.frames t s.unread))) ht ?_ ?_ ?_ s hs
  · intro s hcut hs
    rw [Search.frames_of_cut_none hcut]
    have hfault : ∀ fault, s.status ≠ .crashed fault := by
      intro fault hf
      rw [hs] at hf
      cases hf
    exact ⟨fun h => ⟨h.2, trivial⟩, fun h => ⟨hfault, h.1⟩⟩
  · intro s frame rest s' hcut hturn hs
    rw [Search.frames_of_cut ht hcut]
    rcases hout : handle frame s.shared with fault | ⟨g, reply⟩
    · rw [hout] at hturn
      obtain ⟨rfl, -⟩ := Prod.mk.inj hturn
      refine iff_of_false (fun h => h.1 fault rfl) fun h => ?_
      obtain ⟨g', r, ha, -⟩ := h.2.1
      rw [hout] at ha
      cases ha
    · have hs' : s'.shared = g ∧ (∀ fault, s'.status ≠ .crashed fault) ∧
          next handle s.shared frame = none := by
        rw [hout] at hturn
        rcases reply with _ | ⟨r, _ | _⟩ <;> obtain ⟨rfl, hflag⟩ := Prod.mk.inj hturn
        · refine ⟨rfl, fun fault hf => ?_, by simp [next, hout]⟩
          rw [show s.status = .crashed fault from hf] at hs
          cases hs
        · cases hflag
        · exact ⟨rfl, (nofun), by simp [next, hout]⟩
      obtain ⟨rfl, hfault, hnext⟩ := hs'
      refine ⟨fun h => ⟨hlost _ _ _ _ hout h.2, ⟨_, _, hout, h.2⟩, fun g' hg' => ?_⟩,
        fun h => ⟨hfault, ?_⟩⟩
      · rw [hnext] at hg'
        cases hg'
      · obtain ⟨g', r, ha, hclean⟩ := h.2.1
        rw [hout] at ha
        obtain ⟨rfl, -⟩ := Prod.mk.inj (Except.ok.inj ha)
        exact hclean
  · intro s frame rest s' hcut hturn ih hs
    obtain ⟨g, r, hout, rfl⟩ := Session.turn_eq_true hturn
    have hnext : next handle s.shared frame = some g := by simp [next, hout]
    rw [Search.frames_of_cut ht hcut, ih hs, Transition.along_cons _ hnext]
    constructor
    · rintro ⟨hclean, halong⟩
      exact ⟨hlost _ _ _ _ hout hclean, ⟨g, _, hout, hclean⟩, halong⟩
    · rintro ⟨-, ⟨g', r', ha, hclean⟩, halong⟩
      rw [hout] at ha
      obtain ⟨rfl, -⟩ := Prod.mk.inj (Except.ok.inj ha)
      exact ⟨hclean, halong⟩

/-! ## The exchanges of a session -/

/-- The frames that the handler answers, with their answers, until it gives a last answer, or
none. -/
def served : γ → List (List α) → List (List α × ρ)
  | _, [] => []
  | g, frame :: frames => match handle frame g with
    | .ok (_, .answer r true) => [(frame, r)]
    | .ok (g', .answer r false) => (frame, r) :: served g' frames
    | _ => []

/-- A frame and its answer in the history of a session. -/
def exchange (p : List α × ρ) : List (Event α ρ) := [.popped p.1, .written p.2, .sent]

/-- The frames of a history that have been answered at once. -/
def answeredFrames : List (Event α ρ) → List (List α)
  | .popped frame :: .written _ :: events => frame :: answeredFrames events
  | _ :: events => answeredFrames events
  | [] => []

/-- The answers of a history, in order. -/
def responses (events : List (Event α ρ)) : List ρ :=
  events.filterMap fun
    | .written r => some r
    | _ => none

omit [DecidableEq α] in
/-- More frames may be answered when more frames come. -/
lemma served_prefix (frames frames' : List (List α)) : ∀ g : γ,
    served handle g frames <+: served handle g (frames ++ frames') := by
  induction frames with
  | nil => intro g; exact List.nil_prefix
  | cons frame frames ih =>
    intro g
    simp only [List.cons_append, served]
    rcases handle frame g with fault | ⟨g', _ | ⟨r, _ | _⟩⟩
    · exact List.prefix_rfl
    · exact List.prefix_rfl
    · exact (List.prefix_cons_inj _).mpr (ih g')
    · exact List.prefix_rfl

include ht in
/-- **The loop adds to the history the exchanges that its handler makes**, and then nothing that
is written. -/
theorem events_serve (s : Session α ρ φ γ) : ∃ tail, (∀ r, Event.written r ∉ tail) ∧
    (serve t handle s).events = s.events ++
      ((served handle s.shared (Search.frames t s.unread)).flatMap exchange ++ tail) := by
  refine serve_induct handle (motive := fun s s' => ∃ tail, (∀ r, Event.written r ∉ tail) ∧
    s'.events = s.events ++
      ((served handle s.shared (Search.frames t s.unread)).flatMap exchange ++ tail)) ht ?_ ?_ ?_ s
  · intro s hcut
    rw [Search.frames_of_cut_none hcut]
    exact ⟨[], by simp, by simp [served]⟩
  · intro s frame rest s' hcut hturn
    rw [Search.frames_of_cut ht hcut]
    unfold served
    rcases hout : handle frame s.shared with fault | ⟨g, _ | ⟨r, _ | _⟩⟩
    all_goals rw [hout] at hturn; obtain ⟨rfl, hflag⟩ := Prod.mk.inj hturn
    · exact ⟨[.popped frame], by simp, by simp⟩
    · exact ⟨[.popped frame], by simp, by simp⟩
    · cases hflag
    · exact ⟨[.deleted], by simp, by simp [exchange]⟩
  · intro s frame rest s' hcut hturn ih
    obtain ⟨g, r, hout, rfl⟩ := Session.turn_eq_true hturn
    obtain ⟨tail, htail, hevents⟩ := ih
    refine ⟨tail, htail, ?_⟩
    rw [Search.frames_of_cut ht hcut, hevents]
    simp [served, hout, exchange]

omit [DecidableEq α] in
/-- The answered frames of a history of exchanges. -/
lemma answeredFrames_exchanges {tail : List (Event α ρ)} (htail : ∀ r, Event.written r ∉ tail)
    (xs : List (List α × ρ)) :
    answeredFrames (xs.flatMap exchange ++ tail) = xs.map Prod.fst := by
  induction xs with
  | nil =>
    have hnone : ∀ tail : List (Event α ρ), (∀ r, Event.written r ∉ tail) →
        answeredFrames tail = [] := by
      intro tail
      fun_induction answeredFrames tail with
      | case1 frame r events ih => intro h; exact absurd (by simp) (h r)
      | case2 e events _ ih =>
        intro h
        exact ih fun r hr => h r (List.mem_cons_of_mem _ hr)
      | case3 => intro _; rfl
    exact hnone tail htail
  | cons x xs ih =>
    rw [List.map_cons, ← ih]
    simp [exchange, answeredFrames]

omit [DecidableEq α] in
/-- The answers of a history of exchanges. -/
lemma responses_exchanges {tail : List (Event α ρ)} (htail : ∀ r, Event.written r ∉ tail)
    (xs : List (List α × ρ)) : responses (xs.flatMap exchange ++ tail) = xs.map Prod.snd := by
  induction xs with
  | nil =>
    refine List.filterMap_eq_nil_iff.mpr fun e he => ?_
    cases e with
    | written r => exact absurd he (htail r)
    | _ => rfl
  | cons x xs ih =>
    rw [List.map_cons, ← ih]
    simp [exchange, responses]

omit [DecidableEq α] in
/-- Handlers that simulate each other make the same exchanges. -/
lemma served_rel {δ : Type*} {R : γ → δ → Prop} {handle₁ : Handler α ρ φ γ}
    {handle₂ : Handler α ρ φ δ}
    (hsim : ∀ frame g d, R g d → Matches R (handle₁ frame g) (handle₂ frame d))
    (frames : List (List α)) : ∀ {g : γ} {d : δ}, R g d →
      served handle₁ g frames = served handle₂ d frames := by
  induction frames with
  | nil => intro g d _; rfl
  | cons frame frames ih =>
    intro g d h
    have hmatch := hsim frame g d h
    unfold served
    generalize handle₁ frame g = outcome₁ at hmatch ⊢
    generalize handle₂ frame d = outcome₂ at hmatch ⊢
    cases hmatch with
    | error fault => rfl
    | ok reply hR =>
      rcases reply with _ | ⟨r, _ | _⟩
      · rfl
      · simp only [ih hR]
      · rfl

end Reached

/-! ## Orderly histories -/

section Orderly

variable (keeps closes : ρ → Prop)

/-- An event after which a session may go on. -/
def Ongoing : Event α ρ → Prop
  | .popped _ => True
  | .written r => keeps r
  | .sent => True
  | .peerClosed => False
  | .deleted => False

/-- How the history of a session ends, by its status. -/
inductive Ending : Status φ → List (Event α ρ) → Prop
  /-- It has not ended, or it has broken off. -/
  | ongoing {status : Status φ} : status ≠ .deleted → Ending status []
  /-- The peer was gone. -/
  | peerClosed : Ending .deleted [.peerClosed, .deleted]
  /-- A closing answer was given. -/
  | closed {r : ρ} : closes r → Ending .deleted [.written r, .sent, .deleted]

/-- The history of a session: events after which it goes on, then one way to end it. -/
def Orderly (s : Session α ρ φ γ) : Prop :=
  ∃ body tail, s.events = body ++ tail ∧ (∀ e ∈ body, Ongoing keeps e) ∧
    Ending closes s.status tail

variable {keeps closes} {s : Session α ρ φ γ}

/-- While a session is serving, its whole history is ongoing. -/
lemma Orderly.ongoing (h : Orderly keeps closes s) (hs : s.status = .serving) :
    ∀ e ∈ s.events, Ongoing keeps e := by
  obtain ⟨body, tail, he, hbody, hend⟩ := h
  rw [hs] at hend
  cases hend with
  | ongoing _ =>
    rw [he, List.append_nil]
    exact hbody

/-- Ongoing events before ongoing events. -/
lemma ongoing_append {new : List (Event α ρ)} (h : ∀ e ∈ s.events, Ongoing keeps e)
    (hnew : ∀ e ∈ new, Ongoing keeps e) : ∀ e ∈ s.events ++ new, Ongoing keeps e := by
  intro e he
  rcases List.mem_append.mp he with he | he
  · exact h e he
  · exact hnew e he

/-- A turn, if the answers of the handler say whether they are the last. -/
lemma Orderly.turn {outcome : Except φ (γ × Reply ρ)}
    (hkeep : ∀ g r, outcome = .ok (g, .answer r false) → keeps r)
    (hclose : ∀ g r, outcome = .ok (g, .answer r true) → closes r) (h : Orderly keeps closes s)
    (hs : s.status = .serving) (frame rest : List α) :
    Orderly keeps closes (s.turn frame rest outcome).1 := by
  have hongoing := h.ongoing hs
  have hpopped : ∀ e ∈ s.events ++ [.popped frame], Ongoing keeps e :=
    ongoing_append hongoing (by simp [Ongoing])
  rcases outcome with fault | ⟨g, _ | ⟨r, _ | _⟩⟩
  · exact ⟨_, [], (List.append_nil _).symm, hpopped, .ongoing (nofun)⟩
  · refine ⟨_, [], (List.append_nil _).symm, hpopped, .ongoing ?_⟩
    rw [show (s.turn frame rest (.ok (g, .silent))).1.status = .serving from hs]
    exact (nofun)
  · refine ⟨_, [], (List.append_nil _).symm, ongoing_append hongoing ?_, .ongoing ?_⟩
    · simp [Ongoing, hkeep g r rfl]
    · rw [show (s.turn frame rest (.ok (g, .answer r false))).1.status = .serving from hs]
      exact (nofun)
  · exact ⟨s.events ++ [.popped frame], [.written r, .sent, .deleted], by simp [Session.turn],
      hpopped, .closed (hclose g r rfl)⟩

/-- The loop, if the answers of the handler say whether they are the last. -/
theorem Orderly.serve [DecidableEq α] {t : List α} (ht : t ≠ []) {handle : Handler α ρ φ γ}
    {Good : γ → Prop}
    (hgood : ∀ frame g g' r, Good g → handle frame g = .ok (g', r) → Good g')
    (hkeep : ∀ frame g g' r, Good g → handle frame g = .ok (g', .answer r false) → keeps r)
    (hclose : ∀ frame g g' r, Good g → handle frame g = .ok (g', .answer r true) → closes r)
    (h : Orderly keeps closes s) (hs : s.status = .serving) (hshared : Good s.shared) :
    Orderly keeps closes (serve t handle s) := by
  refine (serve_invariant ht (fun s => Orderly keeps closes s ∧ Good s.shared)
    (fun s frame rest hs hinv => ⟨?_, ?_⟩) s hs ⟨h, hshared⟩).1
  · exact hinv.1.turn (fun g r => hkeep frame _ g r hinv.2) (fun g r => hclose frame _ g r hinv.2)
      hs frame rest
  · rcases hout : handle frame s.shared with fault | ⟨g, _ | ⟨r, _ | _⟩⟩
    · exact hinv.2
    · exact hgood frame _ _ _ hinv.2 hout
    · exact hgood frame _ _ _ hinv.2 hout
    · exact hgood frame _ _ _ hinv.2 hout

/-- The peer is gone. -/
lemma Orderly.hangUp (h : Orderly keeps closes s) (hs : s.status = .serving) :
    Orderly keeps closes s.hangUp :=
  ⟨s.events, [.peerClosed, .deleted], rfl, h.ongoing hs, .peerClosed⟩

/-- An event after which no session goes on stands in the last part of the history. -/
lemma exists_of_not_ongoing {body tail pre post : List (Event α ρ)} {e : Event α ρ}
    (hbody : ∀ e ∈ body, Ongoing keeps e) (he : ¬ Ongoing keeps e)
    (h : body ++ tail = pre ++ e :: post) : ∃ m, pre = body ++ m ∧ tail = m ++ e :: post := by
  rcases List.append_eq_append_iff.mp h with h | ⟨m, rfl, hm⟩
  · exact h
  · cases m with
    | nil => exact ⟨[], by simp, by simpa using hm.symm⟩
    | cons e' m =>
      obtain ⟨rfl, -⟩ := List.cons.inj hm
      exact absurd (hbody _ (by simp)) he

/-- **The answers** of an orderly session: some that keep it, then at most one that closes it. -/
theorem Orderly.responses (h : Orderly keeps closes s) :
    ∃ kept last, Pipeline.responses s.events = kept ++ last ∧ (∀ r ∈ kept, keeps r) ∧
      last.length ≤ 1 ∧ ∀ r ∈ last, closes r := by
  obtain ⟨body, tail, he, hbody, hend⟩ := h
  refine ⟨Pipeline.responses body, Pipeline.responses tail, ?_, ?_, ?_⟩
  · rw [he]
    exact List.filterMap_append
  · intro r hr
    obtain ⟨e, hmem, hr⟩ := List.mem_filterMap.mp hr
    cases e with
    | written r' =>
      obtain rfl := Option.some.inj hr
      exact hbody _ hmem
    | _ => cases hr
  · generalize s.status = status at hend
    cases hend with
    | ongoing _ => simp [Pipeline.responses]
    | peerClosed => simp [Pipeline.responses]
    | closed hr => simpa [Pipeline.responses] using hr

/-- **Giving up** an orderly session is its last event, and it comes right after the peer has
gone or right after a closing answer. -/
theorem Orderly.of_deleted (h : Orderly keeps closes s) {pre post : List (Event α ρ)}
    (he : s.events = pre ++ .deleted :: post) :
    post = [] ∧ ((∃ m, pre = m ++ [.peerClosed]) ∨
      ∃ m r, pre = m ++ [.written r, .sent] ∧ closes r) := by
  obtain ⟨body, tail, hsplit, hbody, hend⟩ := h
  rw [hsplit] at he
  obtain ⟨m, rfl, htail⟩ := exists_of_not_ongoing hbody (by simp [Ongoing]) he
  generalize s.status = status at hend
  cases hend with
  | ongoing _ => simp at htail
  | peerClosed =>
    rcases m with _ | ⟨e₁, _ | ⟨e₂, m⟩⟩ <;> simp at htail
    obtain ⟨rfl, rfl⟩ := htail
    exact ⟨rfl, .inl ⟨body, rfl⟩⟩
  | closed hr =>
    rcases m with _ | ⟨e₁, _ | ⟨e₂, _ | ⟨e₃, m⟩⟩⟩ <;> simp at htail
    obtain ⟨rfl, rfl, rfl⟩ := htail
    exact ⟨rfl, .inr ⟨body, _, rfl, hr⟩⟩

/-- **A closing answer** of an orderly session is sent, then the session is given up, and nothing
follows. -/
theorem Orderly.of_closing (hdisjoint : ∀ r, keeps r → ¬ closes r) (h : Orderly keeps closes s)
    {pre post : List (Event α ρ)} {r : ρ} (hr : closes r)
    (he : s.events = pre ++ .written r :: post) : post = [.sent, .deleted] := by
  obtain ⟨body, tail, hsplit, hbody, hend⟩ := h
  rw [hsplit] at he
  have hongoing : ¬ Ongoing keeps (Event.written r : Event α ρ) := fun hk => hdisjoint r hk hr
  obtain ⟨m, rfl, htail⟩ := exists_of_not_ongoing hbody hongoing he
  generalize s.status = status at hend
  cases hend with
  | ongoing _ => simp at htail
  | peerClosed => rcases m with _ | ⟨e₁, _ | ⟨e₂, m⟩⟩ <;> simp at htail
  | closed _ =>
    rcases m with _ | ⟨e₁, _ | ⟨e₂, _ | ⟨e₃, m⟩⟩⟩ <;> simp at htail
    exact htail.2.symm

end Orderly

end Pipeline
