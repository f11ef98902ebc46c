import Icee.Core.EventLooper

set_option relaxedAutoImplicit false
set_option autoImplicit false

/-!
# The threads of the event loopers

The acceptor and the threads of the event loopers meet at the latches. A connection is handled by
the thread of its own event looper and by no other, one handler at a time; and whoever holds a
latch gives it back without waiting for anyone.

## Main definitions

* `Icee.EventLoopers.State.Handles` — the thread of an event looper is at work on a connection.
* `Icee.EventLoopers.Label.thread` — the thread that takes a step.
* `Icee.EventLoopers.Latched` — the latches are held by threads that know.

## Main results

* `Icee.EventLoopers.one_handler` — one thread for each connection.
* `Icee.EventLoopers.latch_released` — no latch is held for long.
-/

namespace Icee

namespace EventLoopers

open Socket (noFd)

variable {L : Type}

/-- The thread of the event looper is at work on the connection. -/
def State.Handles (s : State L) (ℓ : L) (a : Addr) : Prop :=
  match s.looping ℓ with
  | .calling b => b = a
  | .finding fd _ => s.polled ℓ fd = some a
  | .erased b _ => b = a
  | .closed b _ => b = a
  | _ => False

/-! ## One handler for each connection -/

/-- A connection that is being handled belongs to the event looper, it is not left in its batch, and
if it is still alive it is polled.

**Proof sketch.** The cases are the places that the thread can be at. Up to the end of `erase` the
connection is polled, and so it lives and belongs to the event looper. Once its socket is closed it
has no descriptor, and does not live. -/
lemma Inv.handled {s : State L} (h : Inv s) {ℓ : L} {a : Addr} (ha : s.Handles ℓ a) :
    (∃ fd, s.heap a = some { fd, ownerLooper := ℓ }) ∧
      ∀ fd ℓ', s.Lives a fd ℓ' → ℓ' = ℓ ∧ a ∉ s.batch ℓ := by
  have hdeleting := h.deleting ℓ
  have hpolled : ∀ fd, s.polled ℓ fd = some a → a ∉ s.batch ℓ →
      (∃ fd, s.heap a = some { fd, ownerLooper := ℓ }) ∧
        ∀ fd ℓ', s.Lives a fd ℓ' → ℓ' = ℓ ∧ a ∉ s.batch ℓ := by
    intro fd hfd hout
    have hlive := (h.watched ℓ fd a hfd).1
    exact ⟨⟨fd, hlive.1⟩, fun fd' ℓ' hlive' => ⟨(lives_inj hlive' hlive).2, hout⟩⟩
  unfold State.Handles at ha
  unfold State.Deleting at hdeleting
  cases hphase : s.looping ℓ with
  | idle => rw [hphase] at ha; exact ha.elim
  | calling b =>
    rw [hphase] at ha hdeleting
    obtain rfl : b = a := ha
    obtain ⟨hout, fd, hfd⟩ := hdeleting
    exact hpolled fd hfd hout
  | finding fd ℓ' =>
    rw [hphase] at ha hdeleting
    obtain ⟨-, -, b, hout, hfd⟩ := hdeleting
    obtain rfl : b = a := Option.some.inj (hfd.symm.trans ha)
    exact hpolled fd hfd hout
  | erased b ℓ' =>
    rw [hphase] at ha hdeleting
    obtain rfl : b = a := ha
    obtain ⟨-, -, hout, fd, hfd, -⟩ := hdeleting
    exact hpolled fd hfd hout
  | closed b ℓ' =>
    rw [hphase] at ha hdeleting
    obtain rfl : b = a := ha
    obtain ⟨-, -, hdead⟩ := hdeleting
    refine ⟨⟨noFd, hdead⟩, fun fd ℓ' hlive => ?_⟩
    obtain ⟨hheap, hne⟩ := hlive
    rw [hdead] at hheap
    cases hheap
    exact absurd rfl hne
  | returning ℓ' => rw [hphase] at ha; exact ha.elim

variable [DecidableEq L]

/-- The thread that takes a step. -/
def Label.thread : Label L → Thread L
  | .accept _ _ _ | .latchAdd | .register | .insert | .unlatchAdd => .acceptor
  | .poll ℓ _ | .callback ℓ | .finish ℓ | .latchDelete ℓ | .erase ℓ | .close ℓ | .free ℓ
  | .unlatchDelete ℓ => .looper ℓ

/-- The latch that the acceptor holds. -/
def Accepting.owns : Accepting L → Option L
  | .latched _ ℓ | .registered _ ℓ | .inserted ℓ => some ℓ
  | _ => none

/-- The latch that the thread of an event looper holds. -/
def Looping.owns : Looping L → Option L
  | .finding _ ℓ | .erased _ ℓ | .closed _ ℓ | .returning ℓ => some ℓ
  | _ => none

/-- The latch that a thread holds, as far as the thread knows. -/
def State.owns (s : State L) : Thread L → Option L
  | .acceptor => s.accepting.owns
  | .looper ℓ => (s.looping ℓ).owns

/-- The latches are held by threads that know. -/
def Latched (s : State L) : Prop := ∀ ℓ t, s.latch ℓ = some t → s.owns t = some ℓ

section Steps

variable {s s' : State L}

omit [DecidableEq L] in
/-- A step after which every thread holds what it held. -/
lemma Latched.stays (h : Latched s) (hlatch : s'.latch = s.latch)
    (howns : ∀ t, s'.owns t = s.owns t) : Latched s' := by
  intro ℓ t ht
  rw [howns, h ℓ t (hlatch ▸ ht)]

/-- A step with which a thread takes a latch. -/
lemma Latched.take (h : Latched s) {t : Thread L} {ℓ : L}
    (hlatch : s'.latch = Function.update s.latch ℓ (some t)) (hnow : s'.owns t = some ℓ)
    (hbefore : s.owns t = none) (howns : ∀ t', t' ≠ t → s'.owns t' = s.owns t') : Latched s' := by
  intro ℓ' t' ht'
  rw [hlatch] at ht'
  by_cases hℓ : ℓ' = ℓ
  · subst hℓ
    rw [Function.update_self] at ht'
    rw [← Option.some.inj ht', hnow]
  · rw [Function.update_of_ne hℓ] at ht'
    have hold := h ℓ' t' ht'
    have ht : t' ≠ t := by
      rintro rfl
      rw [hbefore] at hold
      cases hold
    rw [howns t' ht, hold]

/-- A step with which a thread gives a latch back. -/
lemma Latched.give (h : Latched s) {t : Thread L} {ℓ : L}
    (hlatch : s'.latch = Function.update s.latch ℓ none) (hbefore : s.owns t = some ℓ)
    (howns : ∀ t', t' ≠ t → s'.owns t' = s.owns t') : Latched s' := by
  intro ℓ' t' ht'
  rw [hlatch] at ht'
  have hℓ : ℓ' ≠ ℓ := by
    rintro rfl
    rw [Function.update_self] at ht'
    cases ht'
  rw [Function.update_of_ne hℓ] at ht'
  have hold := h ℓ' t' ht'
  have ht : t' ≠ t := by
    rintro rfl
    exact hℓ (Option.some.inj (hold.symm.trans hbefore))
  rw [howns t' ht, hold]

/-- What the threads hold when the thread of one event looper moves on. -/
lemma owns_looper {ℓ : L} {phase : Looping L}
    (hlooping : s'.looping = Function.update s.looping ℓ phase)
    (haccepting : s'.accepting = s.accepting) :
    s'.owns (.looper ℓ) = phase.owns ∧ ∀ t, t ≠ .looper ℓ → s'.owns t = s.owns t := by
  refine ⟨?_, fun t ht => ?_⟩
  · simp only [State.owns, hlooping, Function.update_self]
  · cases t with
    | acceptor => simp only [State.owns, haccepting]
    | looper ℓ' =>
      have hℓ : ℓ' ≠ ℓ := fun heq => ht (by rw [heq])
      simp only [State.owns, hlooping, Function.update_of_ne hℓ]

/-- The thread of an event looper moves on and holds what it held. -/
lemma Latched.goto (h : Latched s) {ℓ : L} {phase : Looping L} (hlatch : s'.latch = s.latch)
    (hlooping : s'.looping = Function.update s.looping ℓ phase)
    (haccepting : s'.accepting = s.accepting) (hsame : phase.owns = (s.looping ℓ).owns) :
    Latched s' := by
  obtain ⟨hself, hothers⟩ := owns_looper hlooping haccepting
  refine h.stays hlatch fun t => ?_
  by_cases ht : t = .looper ℓ
  · rw [ht, hself, hsame]
    rfl
  · exact hothers t ht

/-- The thread of an event looper moves on and takes a latch. -/
lemma Latched.goto_take (h : Latched s) {ℓ m : L} {phase : Looping L}
    (hlatch : s'.latch = Function.update s.latch m (some (.looper ℓ)))
    (hlooping : s'.looping = Function.update s.looping ℓ phase)
    (haccepting : s'.accepting = s.accepting) (hnow : phase.owns = some m)
    (hbefore : (s.looping ℓ).owns = none) : Latched s' := by
  obtain ⟨hself, hothers⟩ := owns_looper hlooping haccepting
  exact h.take (t := .looper ℓ) hlatch (hself.trans hnow) hbefore hothers

/-- The thread of an event looper moves on and gives a latch back. -/
lemma Latched.goto_give (h : Latched s) {ℓ m : L} {phase : Looping L}
    (hlatch : s'.latch = Function.update s.latch m none)
    (hlooping : s'.looping = Function.update s.looping ℓ phase)
    (haccepting : s'.accepting = s.accepting) (hbefore : (s.looping ℓ).owns = some m) :
    Latched s' := by
  obtain ⟨-, hothers⟩ := owns_looper hlooping haccepting
  exact h.give (t := .looper ℓ) hlatch hbefore hothers

omit [DecidableEq L] in
/-- What the threads hold when the acceptor moves on. -/
lemma owns_acceptor (hlooping : s'.looping = s.looping) :
    ∀ t, t ≠ .acceptor → s'.owns t = s.owns t := by
  intro t ht
  cases t with
  | acceptor => exact absurd rfl ht
  | looper ℓ => simp only [State.owns, hlooping]

omit [DecidableEq L] in
/-- The acceptor moves on and holds what it held. -/
lemma Latched.accepting (h : Latched s) (hlatch : s'.latch = s.latch)
    (hlooping : s'.looping = s.looping) (hsame : s'.accepting.owns = s.accepting.owns) :
    Latched s' := by
  refine h.stays hlatch fun t => ?_
  cases t with
  | acceptor => exact hsame
  | looper ℓ => simp only [State.owns, hlooping]

omit [DecidableEq L] in
/-- Closing a socket has nothing to do with the threads. -/
lemma closeConn_threads (s : State L) (a : Addr) (conn : Conn L) :
    (s.closeConn a conn).latch = s.latch ∧ (s.closeConn a conn).looping = s.looping ∧
      (s.closeConn a conn).accepting = s.accepting := by
  unfold State.closeConn
  split <;> exact ⟨rfl, rfl, rfl⟩

/-- **Every step** leaves the latches to threads that know.

**Proof sketch.** A step moves one thread. Four of them take a latch or give it back, and then the
place that the thread comes to says so; after all others the thread owns what it owned before. The
latches of the other threads are as they were. -/
lemma Latched.step {l : Label L} (h : Latched s) (hstep : EventLoopers.step s l = some s') :
    Latched s' := by
  cases l <;> simp only [EventLoopers.step] at hstep
  case accept fd a ℓ =>
    split at hstep
    · next hguard =>
      cases hstep
      exact h.accepting rfl rfl (by rw [hguard.1]; rfl)
    · cases hstep
  case latchAdd =>
    split at hstep
    · next a ℓ hmade =>
      split at hstep
      · cases hstep
        exact h.take rfl rfl (by rw [State.owns, hmade]; rfl) (owns_acceptor rfl)
      · cases hstep
    · cases hstep
  case register =>
    split at hstep
    · next a ℓ hlatched =>
      split at hstep
      · cases hstep
      · split at hstep
        · cases hstep
          exact h.accepting rfl rfl (by rw [hlatched]; rfl)
        · cases hstep
    · cases hstep
  case insert =>
    split at hstep
    · next a ℓ hregistered =>
      split at hstep
      · cases hstep
      · next conn hconn =>
        split at hstep
        · cases hstep
          exact h.accepting rfl rfl (by rw [hregistered]; rfl)
        · cases hstep
          obtain ⟨hlatch, hlooping, -⟩ := closeConn_threads s a conn
          exact h.accepting hlatch hlooping (by rw [hregistered]; rfl)
    · cases hstep
  case unlatchAdd =>
    split at hstep
    · next ℓ hinserted =>
      cases hstep
      exact h.give (t := .acceptor) rfl (by rw [State.owns, hinserted]; rfl) (owns_acceptor rfl)
    · cases hstep
  case poll ℓ ready =>
    split at hstep
    · cases hstep
      exact h.stays rfl fun t => by cases t <;> rfl
    · cases hstep
  case callback ℓ =>
    split at hstep
    · next a rest hidle hbatch =>
      cases hstep
      exact h.goto rfl rfl rfl (by rw [hidle]; rfl)
    · cases hstep
  case finish ℓ =>
    split at hstep
    · next a hcalling =>
      cases hstep
      exact h.goto rfl rfl rfl (by rw [hcalling]; rfl)
    · cases hstep
  case latchDelete ℓ =>
    split at hstep
    · next a hcalling =>
      split at hstep
      · cases hstep
      · split at hstep
        · cases hstep
          exact h.goto_take rfl rfl rfl rfl (by rw [hcalling]; rfl)
        · cases hstep
    · cases hstep
  case erase ℓ =>
    split at hstep
    · next fd ℓ' hfinding =>
      split at hstep
      · cases hstep
        exact h.goto rfl rfl rfl (by rw [hfinding]; rfl)
      · cases hstep
        exact h.goto rfl rfl rfl (by rw [hfinding]; rfl)
    · cases hstep
  case close ℓ =>
    split at hstep
    · next a ℓ' herased =>
      split at hstep
      · cases hstep
      · next conn hconn =>
        cases hstep
        obtain ⟨hlatch, hlooping, haccepting⟩ := closeConn_threads s a conn
        have hphase : (Looping.closed a ℓ').owns = (s.looping ℓ).owns := by rw [herased]; rfl
        refine h.goto hlatch ?_ haccepting hphase
        rw [State.goto, hlooping]
    · cases hstep
  case free ℓ =>
    split at hstep
    · next a ℓ' hclosed =>
      cases hstep
      exact h.goto rfl rfl rfl (by rw [hclosed]; rfl)
    · cases hstep
  case unlatchDelete ℓ =>
    split at hstep
    · next ℓ' hreturning =>
      cases hstep
      exact h.goto_give rfl rfl rfl (by rw [hreturning]; rfl)
    · cases hstep

end Steps

/-! ## Giving latches back -/

/-- The step takes a latch. -/
def Label.locks : Label L → Bool
  | .latchAdd | .latchDelete _ => true
  | _ => false

/-- The thread can go on until the latch is free, on its own, in so many steps, and without taking a
latch. -/
def Released (s : State L) (t : Thread L) (ℓ : L) (n : ℕ) : Prop :=
  ∃ ls s', ls.length ≤ n ∧ (∀ l ∈ ls, Label.thread l = t ∧ l.locks = false) ∧
    Transition.exec EventLoopers.step s ls = some s' ∧ s'.latch ℓ = none

variable {s s' : State L} {ℓ ℓ' : L}

/-- One step more. -/
lemma Released.cons {t : Thread L} {n : ℕ} {l : Label L} (h : Released s' t ℓ n)
    (hstep : EventLoopers.step s l = some s') (hthread : l.thread = t ∧ l.locks = false) :
    Released s t ℓ (n + 1) := by
  obtain ⟨ls, s'', hlength, hthreads, hrun, hfree⟩ := h
  refine ⟨l :: ls, s'', Nat.succ_le_succ hlength, fun l' hl' => ?_,
    (Transition.exec_cons hstep ls).trans hrun, hfree⟩
  rcases List.mem_cons.mp hl' with rfl | hl'
  · exact hthread
  · exact hthreads l' hl'

/-- A latch that has just been given back. -/
lemma Released.zero {t : Thread L} (hfree : s.latch ℓ = none) : Released s t ℓ 0 :=
  ⟨[], s, le_rfl, by simp, rfl, hfree⟩

/-- The last step of `DeleteConnection`. -/
lemma released_returning (h : s.looping ℓ' = .returning ℓ) : Released s (.looper ℓ') ℓ 1 := by
  have hstep : EventLoopers.step s (.unlatchDelete ℓ') = some
      { s.goto ℓ' .idle with latch := Function.update s.latch ℓ none } := by
    simp only [EventLoopers.step, h]
  exact (Released.zero (Function.update_self ℓ _ _)).cons hstep ⟨rfl, rfl⟩

/-- The memory is given back before. -/
lemma released_closed {a : Addr} (h : s.looping ℓ' = .closed a ℓ) :
    Released s (.looper ℓ') ℓ 2 := by
  have hstep : EventLoopers.step s (.free ℓ') = some ((s.freeConn a).goto ℓ' (.returning ℓ)) := by
    simp only [EventLoopers.step, h]
  exact (released_returning (Function.update_self ℓ' _ _)).cons hstep ⟨rfl, rfl⟩

/-- The socket is closed before. -/
lemma Inv.released_erased (hinv : Inv s) {a : Addr} (h : s.looping ℓ' = .erased a ℓ) :
    Released s (.looper ℓ') ℓ 3 := by
  have hdeleting := hinv.deleting ℓ'
  rw [State.Deleting, h] at hdeleting
  obtain ⟨-, -, -, fd, hpolled, -⟩ := hdeleting
  have hheap := (hinv.watched ℓ' fd a hpolled).1.1
  have hstep : EventLoopers.step s (.close ℓ') = some
      ((s.closeConn a { fd, ownerLooper := ℓ' }).goto ℓ' (.closed a ℓ)) := by
    simp only [EventLoopers.step, h, hheap]
  exact (released_closed (Function.update_self ℓ' _ _)).cons hstep ⟨rfl, rfl⟩

/-- The entry is found before. -/
lemma Inv.released_finding (hinv : Inv s) {fd : Fd} (h : s.looping ℓ' = .finding fd ℓ) :
    Released s (.looper ℓ') ℓ 4 := by
  obtain ⟨rfl, -, a, -, -, hconn⟩ := hinv.connections_of_finding h
  have hstep : EventLoopers.step s (.erase ℓ) = some
      { s.goto ℓ (.erased a ℓ) with connections := setAt s.connections ℓ fd none } := by
    simp only [EventLoopers.step, h, hconn]
  exact ((Inv.step hinv hstep).released_erased (Function.update_self ℓ _ _)).cons hstep ⟨rfl, rfl⟩

/-- The last step of `AddConnection`. -/
lemma released_inserted (h : s.accepting = .inserted ℓ) : Released s .acceptor ℓ 1 := by
  have hstep : EventLoopers.step s .unlatchAdd = some
      { s with latch := Function.update s.latch ℓ none, accepting := .waiting } := by
    simp only [EventLoopers.step, h]
  exact (Released.zero (Function.update_self ℓ _ _)).cons hstep ⟨rfl, rfl⟩

/-- The connection is put into the map before. -/
lemma Inv.released_registered (hinv : Inv s) {a : Addr} (h : s.accepting = .registered a ℓ) :
    Released s .acceptor ℓ 2 := by
  have hadding := hinv.adding
  rw [State.Adding, h] at hadding
  obtain ⟨-, fd, hlive, hconn⟩ := hadding
  have hstep : EventLoopers.step s .insert = some { s with
      connections := setAt s.connections ℓ fd (some a), accepting := .inserted ℓ } := by
    simp only [EventLoopers.step, h, hlive.1, hconn]
  exact (released_inserted rfl).cons hstep ⟨rfl, rfl⟩

/-- The poller gets the connection before. -/
lemma Inv.released_latched (hinv : Inv s) {a : Addr} (h : s.accepting = .latched a ℓ) :
    Released s .acceptor ℓ 3 := by
  have hadding := hinv.adding
  rw [State.Adding, h] at hadding
  obtain ⟨-, fd, hlive, -⟩ := hadding
  have hstep : EventLoopers.step s .register = some { s with
      polled := setAt s.polled ℓ fd (some a), accepting := .registered a ℓ } := by
    simp only [EventLoopers.step, h, hlive.1, if_pos hlive.2]
  exact ((Inv.step hinv hstep).released_registered rfl).cons hstep ⟨rfl, rfl⟩

/-- More steps are allowed. -/
lemma Released.mono {t : Thread L} {n m : ℕ} (h : Released s t ℓ n) (hnm : n ≤ m) :
    Released s t ℓ m := by
  obtain ⟨ls, s', hlength, hrest⟩ := h
  exact ⟨ls, s', hlength.trans hnm, hrest⟩

/-- A thread that holds a latch gives it back. -/
lemma Inv.released (hinv : Inv s) {t : Thread L} (ht : s.owns t = some ℓ) : Released s t ℓ 4 := by
  cases t with
  | acceptor =>
    change s.accepting.owns = some ℓ at ht
    cases hphase : s.accepting <;> rw [hphase] at ht <;> cases ht
    · exact (hinv.released_latched hphase).mono (by decide)
    · exact (hinv.released_registered hphase).mono (by decide)
    · exact (released_inserted hphase).mono (by decide)
  | looper ℓ' =>
    change (s.looping ℓ').owns = some ℓ at ht
    cases hphase : s.looping ℓ' <;> rw [hphase] at ht <;> cases ht
    · exact hinv.released_finding hphase
    · exact (hinv.released_erased hphase).mono (by decide)
    · exact (released_closed hphase).mono (by decide)
    · exact (released_returning hphase).mono (by decide)

/-- **No latch is held for long.** Whatever the acceptor and the event loopers have done: if a
thread holds a latch, it can go on by itself, without taking another one, and has given it back
after at most four steps. So no two threads ever wait for each other's latches. -/
theorem latch_released (opened : Finset Fd) {run : List (Label L)}
    (hrun : Transition.exec EventLoopers.step (State.start opened) run = some s) {t : Thread L}
    (ht : s.latch ℓ = some t) :
    ∃ ls s', ls.length ≤ 4 ∧ (∀ l ∈ ls, Label.thread l = t ∧ l.locks = false) ∧
      Transition.exec EventLoopers.step s ls = some s' ∧ s'.latch ℓ = none := by
  have h : Inv s := Transition.invariant_of_exec (fun _ _ _ => Inv.step) run (Inv.start opened) hrun
  have hlatched : Latched s := Transition.invariant_of_exec (fun _ _ _ => Latched.step) run
    (show Latched (State.start opened) by rintro _ _ ⟨⟩) hrun
  exact h.released (hlatched ℓ t ht)

/-- The thread of an event looper that is about to look for its connection in the map. -/
theorem latch_released_finding : ∃ s : State (Fin 2),
    Transition.exec EventLoopers.step (State.start {0, 1, 2}) [.accept 3 100 0, .latchAdd,
      .register, .insert, .unlatchAdd, .poll 0 [3], .callback 0, .latchDelete 0] = some s ∧
    ∃ ls s', ls.length ≤ 4 ∧
      (∀ l ∈ ls, Label.thread l = .looper (0 : Fin 2) ∧ l.locks = false) ∧
      Transition.exec EventLoopers.step s ls = some s' ∧ s'.latch 0 = none := by
  have hseen : (Transition.exec EventLoopers.step (State.start (L := Fin 2) {0, 1, 2})
      [.accept 3 100 0, .latchAdd, .register, .insert, .unlatchAdd, .poll 0 [3], .callback 0,
        .latchDelete 0]).map (fun s => s.latch 0) = some (some (.looper 0)) := by
    decide +kernel
  obtain ⟨s, hrun, hlatch⟩ := Option.map_eq_some_iff.mp hseen
  exact ⟨s, hrun, latch_released {0, 1, 2} hrun hlatch⟩

end EventLoopers

end Icee
