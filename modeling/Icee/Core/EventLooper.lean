import Icee.Core.Cache
import Icee.Core.Socket

set_option relaxedAutoImplicit false
set_option autoImplicit false

/-!
# The connections of the event loopers

`src/core/eventLooper.cc` and `src/core/acceptor.cc`: one thread accepts connections and hands each
of them to an event looper, whose own thread polls them, calls their handlers and deletes the ones
the handlers are done with. Every event looper keeps its connections in `connections_`, by their
descriptors, under a latch.

## Main definitions

* `Icee.EventLoopers.State` — the connections, the event loopers and the acceptor.
* `Icee.EventLoopers.Label`, `Icee.EventLoopers.step` — the steps of all threads.
* `Icee.EventLoopers.Inv` — the invariant of all interleavings.

## Main results

* `Icee.EventLoopers.Inv.step` — one step of any thread.
* `Icee.EventLoopers.bookkeeping` — what holds after any interleaving.

## Design

The operating system and the heap are guards: `accept` gives out a descriptor that is not open, and
a new connection gets an address that is not in use. Both may be given out again as soon as they
are free. `connections_.erase` takes the entry out of the map before it destroys the connection; the
destructor of the socket closes the descriptor, which takes it out of every poller, and the memory
is given back after that. The handlers are those of `ParseHttpRequest`: they delete their own
connection or none, and they return after that.
-/

namespace Icee

namespace EventLoopers

open Socket (noFd)

/-! ## The system -/

/-- The threads that take a latch. -/
inductive Thread (L : Type)
  | acceptor
  | looper (ℓ : L)
  deriving DecidableEq

/-- `Connection`: the `fd_` of its socket, and `owner_looper_`. -/
structure Conn (L : Type) where
  fd : Fd
  ownerLooper : L
  deriving DecidableEq

/-- How far the acceptor has come with a new connection. -/
inductive Accepting (L : Type)
  | waiting
  /-- In `BaseAcceptCallback`, the connection has been made and an event looper chosen. -/
  | made (conn : Addr) (looper : L)
  /-- In `AddConnection`, the latch is held. -/
  | latched (conn : Addr) (looper : L)
  /-- In `AddConnection`, the poller has the connection. -/
  | registered (conn : Addr) (looper : L)
  /-- In `AddConnection`, after `insert`. -/
  | inserted (looper : L)
  deriving DecidableEq

/-- How far an event looper has come with its batch. -/
inductive Looping (L : Type)
  | idle
  /-- In the handler of a connection. -/
  | calling (conn : Addr)
  /-- In `DeleteConnection` of an event looper, whose latch is held. -/
  | finding (fd : Fd) (looper : L)
  /-- In `erase`, the entry is out of the map. -/
  | erased (conn : Addr) (looper : L)
  /-- In `erase`, the socket is closed. -/
  | closed (conn : Addr) (looper : L)
  /-- At the end of `DeleteConnection`. -/
  | returning (looper : L)
  deriving DecidableEq

/-- The open descriptors, the connections on the heap, `connections_` and the poller of every event
looper, its latch, what its thread does and what is left of its batch, what the acceptor does, and
for the record whether an accepted connection has been dropped by `insert` and whether
`DeleteConnection` has returned `false`. -/
structure State (L : Type) where
  opened : Finset Fd
  heap : Addr → Option (Conn L)
  connections : L → Fd → Option Addr
  polled : L → Fd → Option Addr
  latch : L → Option (Thread L)
  looping : L → Looping L
  batch : L → List Addr
  accepting : Accepting L
  dropped : Bool
  missed : Bool

/-- The steps: of the acceptor, and of the thread of an event looper. -/
inductive Label (L : Type)
  /-- `accept`, and the new connection for the event looper that has been drawn. -/
  | accept (fd : Fd) (conn : Addr) (looper : L)
  | latchAdd
  | register
  | insert
  | unlatchAdd
  /-- `Poll`, with the descriptors on which something has happened. -/
  | poll (ℓ : L) (ready : List Fd)
  /-- The handler of the next connection of the batch is called. -/
  | callback (ℓ : L)
  /-- The handler returns without deleting its connection. -/
  | finish (ℓ : L)
  /-- The handler calls `DeleteConnection`, which takes the latch. -/
  | latchDelete (ℓ : L)
  | erase (ℓ : L)
  | close (ℓ : L)
  | free (ℓ : L)
  | unlatchDelete (ℓ : L)
  deriving DecidableEq

variable {L : Type} [DecidableEq L]

/-- An entry of the map or the poller of an event looper is set. -/
def setAt (f : L → Fd → Option Addr) (ℓ : L) (fd : Fd) (x : Option Addr) : L → Fd → Option Addr :=
  fun ℓ' fd' => if ℓ' = ℓ ∧ fd' = fd then x else f ℓ' fd'

namespace State

/-- No connection has been accepted yet. -/
def start (opened : Finset Fd) : State L where
  opened := opened
  heap := fun _ => none
  connections := fun _ _ => none
  polled := fun _ _ => none
  latch := fun _ => none
  looping := fun _ => .idle
  batch := fun _ => []
  accepting := .waiting
  dropped := false
  missed := false

/-- The destructor of the socket of a connection. -/
def closeConn (s : State L) (a : Addr) (conn : Conn L) : State L :=
  if conn.fd ≠ noFd then
    { s with
      opened := s.opened.erase conn.fd
      heap := Function.update s.heap a (some { conn with fd := noFd })
      polled := fun ℓ fd => if fd = conn.fd then none else s.polled ℓ fd }
  else s

/-- The memory of a connection is given back. -/
def freeConn (s : State L) (a : Addr) : State L :=
  { s with heap := Function.update s.heap a none }

/-- What the thread of an event looper does next. -/
def goto (s : State L) (ℓ : L) (phase : Looping L) : State L :=
  { s with looping := Function.update s.looping ℓ phase }

end State

/-- One step. -/
def step (s : State L) : Label L → Option (State L)
  | .accept fd a ℓ =>
    if s.accepting = .waiting ∧ 0 ≤ fd ∧ fd ∉ s.opened ∧ s.heap a = none then
      some { s with
        opened := insert fd s.opened
        heap := Function.update s.heap a (some { fd, ownerLooper := ℓ })
        accepting := .made a ℓ }
    else none
  | .latchAdd => match s.accepting with
    | .made a ℓ =>
      if s.latch ℓ = none then
        some { s with
          latch := Function.update s.latch ℓ (some .acceptor)
          accepting := .latched a ℓ }
      else none
    | _ => none
  | .register => match s.accepting with
    | .latched a ℓ => match s.heap a with
      | none => none
      | some conn =>
        -- the assertion that the descriptor is valid; adding it a second time replaces what it had
        if conn.fd ≠ noFd then
          some { s with
            polled := setAt s.polled ℓ conn.fd (some a)
            accepting := .registered a ℓ }
        else none
    | _ => none
  | .insert => match s.accepting with
    | .registered a ℓ => match s.heap a with
      | none => none
      | some conn => match s.connections ℓ conn.fd with
        | none => some { s with
            connections := setAt s.connections ℓ conn.fd (some a)
            accepting := .inserted ℓ }
        | some _ =>
          -- the new connection is destroyed with the pair that was not inserted
          some { (s.closeConn a conn).freeConn a with accepting := .inserted ℓ, dropped := true }
    | _ => none
  | .unlatchAdd => match s.accepting with
    | .inserted ℓ =>
      some { s with latch := Function.update s.latch ℓ none, accepting := .waiting }
    | _ => none
  | .poll ℓ ready =>
    if s.looping ℓ = .idle ∧ s.batch ℓ = [] ∧ ready.Nodup ∧ ∀ fd ∈ ready, s.polled ℓ fd ≠ none then
      some { s with batch := Function.update s.batch ℓ (ready.filterMap (s.polled ℓ)) }
    else none
  | .callback ℓ => match s.looping ℓ, s.batch ℓ with
    | .idle, a :: rest =>
      some { s.goto ℓ (.calling a) with batch := Function.update s.batch ℓ rest }
    | _, _ => none
  | .finish ℓ => match s.looping ℓ with
    | .calling _ => some (s.goto ℓ .idle)
    | _ => none
  | .latchDelete ℓ => match s.looping ℓ with
    | .calling a => match s.heap a with
      | none => none
      | some conn =>
        if s.latch conn.ownerLooper = none then
          some { s.goto ℓ (.finding conn.fd conn.ownerLooper) with
            latch := Function.update s.latch conn.ownerLooper (some (.looper ℓ)) }
        else none
    | _ => none
  | .erase ℓ => match s.looping ℓ with
    | .finding fd ℓ' => match s.connections ℓ' fd with
      | none => some { s.goto ℓ (.returning ℓ') with missed := true }
      | some a =>
        some { s.goto ℓ (.erased a ℓ') with connections := setAt s.connections ℓ' fd none }
    | _ => none
  | .close ℓ => match s.looping ℓ with
    | .erased a ℓ' => match s.heap a with
      | none => none
      | some conn => some ((s.closeConn a conn).goto ℓ (.closed a ℓ'))
    | _ => none
  | .free ℓ => match s.looping ℓ with
    | .closed a ℓ' => some ((s.freeConn a).goto ℓ (.returning ℓ'))
    | _ => none
  | .unlatchDelete ℓ => match s.looping ℓ with
    | .returning ℓ' =>
      some { s.goto ℓ .idle with latch := Function.update s.latch ℓ' none }
    | _ => none

/-! ## The invariant -/

namespace State

/-- The connection at an address is alive, with its descriptor, and belongs to an event looper. -/
def Lives (s : State L) (a : Addr) (fd : Fd) (ℓ : L) : Prop :=
  s.heap a = some { fd, ownerLooper := ℓ } ∧ fd ≠ noFd

/-- The descriptors that the connections on the heap have. -/
def held (heap : Addr → Option (Conn L)) : Addr → Option Fd :=
  Socket.descriptors (Option.map Conn.fd ∘ heap)

/-- What holds while the acceptor works on a new connection: as long as it is not in the poller, its
descriptor is not in the map either, and `AddConnection` holds the latch. -/
def Adding (s : State L) : Prop :=
  match s.accepting with
  | .waiting => True
  | .made a ℓ => ∃ fd, s.Lives a fd ℓ ∧ s.connections ℓ fd = none ∧ s.polled ℓ fd = none
  | .latched a ℓ => s.latch ℓ = some .acceptor ∧
    ∃ fd, s.Lives a fd ℓ ∧ s.connections ℓ fd = none ∧ s.polled ℓ fd = none
  | .registered a ℓ => s.latch ℓ = some .acceptor ∧
    ∃ fd, s.Lives a fd ℓ ∧ s.connections ℓ fd = none
  | .inserted ℓ => s.latch ℓ = some .acceptor

/-- What holds while a handler runs: its connection is not in the rest of the batch, it is in the
poller until its socket is closed, and `DeleteConnection` holds the latch of its event looper. -/
def Deleting (s : State L) (ℓ : L) : Prop :=
  match s.looping ℓ with
  | .idle => True
  | .calling a => a ∉ s.batch ℓ ∧ ∃ fd, s.polled ℓ fd = some a
  | .finding fd ℓ' => ℓ' = ℓ ∧ s.latch ℓ = some (.looper ℓ) ∧
    ∃ a, a ∉ s.batch ℓ ∧ s.polled ℓ fd = some a
  | .erased a ℓ' => ℓ' = ℓ ∧ s.latch ℓ = some (.looper ℓ) ∧ a ∉ s.batch ℓ ∧
    ∃ fd, s.polled ℓ fd = some a ∧ s.connections ℓ fd = none
  | .closed a ℓ' => ℓ' = ℓ ∧ s.latch ℓ = some (.looper ℓ) ∧
    s.heap a = some { fd := noFd, ownerLooper := ℓ }
  | .returning ℓ' => ℓ' = ℓ ∧ s.latch ℓ = some (.looper ℓ)

end State

/-- **The invariant**: connections own their descriptors; the entries of the maps are connections of
their event loopers, under their own descriptors; so are those of the pollers, which are in the map
as well, unless they are about to be put in or have just been taken out; and the batches hold
connections that are polled. -/
structure Inv (s : State L) : Prop where
  owned : Ownership.Exclusive (State.held s.heap) s.opened
  entries : ∀ ℓ fd a, s.connections ℓ fd = some a → s.Lives a fd ℓ
  watched : ∀ ℓ fd a, s.polled ℓ fd = some a → s.Lives a fd ℓ ∧
    (s.connections ℓ fd = some a ∨ s.accepting = .registered a ℓ ∨ s.looping ℓ = .erased a ℓ)
  batches : ∀ ℓ, (s.batch ℓ).Nodup ∧ ∀ a ∈ s.batch ℓ, ∃ fd, s.polled ℓ fd = some a
  adding : s.Adding
  deleting : ∀ ℓ, s.Deleting ℓ
  clean : s.dropped = false ∧ s.missed = false

namespace State

variable {s s' : State L} {a a' : Addr} {fd : Fd} {ℓ ℓ' : L}

/-- Setting an entry. -/
lemma setAt_self (f : L → Fd → Option Addr) (ℓ : L) (fd : Fd) (x : Option Addr) :
    setAt f ℓ fd x ℓ fd = x := if_pos ⟨rfl, rfl⟩

/-- Setting an entry changes no other. -/
lemma setAt_of_ne (f : L → Fd → Option Addr) {fd fd' : Fd} (x : Option Addr)
    (h : ¬ (ℓ' = ℓ ∧ fd' = fd)) : setAt f ℓ fd x ℓ' fd' = f ℓ' fd' := if_neg h

/-- Setting an entry where there was none keeps all that there are. -/
lemma setAt_keeps {f : L → Fd → Option Addr} {fd fd' : Fd} (x : Option Addr) (hfree : f ℓ fd = none)
    (h : f ℓ' fd' = some a) : setAt f ℓ fd x ℓ' fd' = some a := by
  rw [setAt_of_ne]
  · exact h
  · rintro ⟨rfl, rfl⟩
    cases hfree.symm.trans h

/-- What there is after setting an entry has been set or has been there before. -/
lemma cases_of_setAt {f : L → Fd → Option Addr} {fd fd' : Fd} {x : Option Addr}
    (h : setAt f ℓ fd x ℓ' fd' = some a) : (ℓ' = ℓ ∧ fd' = fd ∧ x = some a) ∨ f ℓ' fd' = some a := by
  by_cases hkey : ℓ' = ℓ ∧ fd' = fd
  · obtain ⟨rfl, rfl⟩ := hkey
    exact .inl ⟨rfl, rfl, (setAt_self ..).symm.trans h⟩
  · exact .inr ((setAt_of_ne _ _ hkey).symm.trans h)

omit [DecidableEq L] in
/-- A connection that is alive has its descriptor. -/
lemma Lives.held (h : s.Lives a fd ℓ) : State.held s.heap a = some fd :=
  Socket.descriptors_eq_some.mpr ⟨by simp [h.1], h.2⟩

omit [DecidableEq L] in
/-- The descriptors after a change at one address. -/
lemma held_update (heap : Addr → Option (Conn L)) (a : Addr) (x : Option (Conn L)) :
    State.held (Function.update heap a x) =
      Function.update (State.held heap) a ((x.map Conn.fd).filter (· ≠ noFd)) := by
  rw [State.held, Function.comp_update, Socket.descriptors_update, State.held]

omit [DecidableEq L] in
/-- What the acceptor relies on survives steps that keep its connection alive, put no descriptor
into a map or a poller, and leave its latch to it. -/
lemma Adding.mono (h : s.Adding) (haccepting : s'.accepting = s.accepting)
    (hlives : ∀ a fd ℓ, s.accepting = .made a ℓ ∨ s.accepting = .latched a ℓ ∨
      s.accepting = .registered a ℓ → s.Lives a fd ℓ → s'.Lives a fd ℓ)
    (hconnections : ∀ ℓ fd, s.connections ℓ fd = none → s'.connections ℓ fd = none)
    (hpolled : ∀ ℓ fd, s.polled ℓ fd = none → s'.polled ℓ fd = none)
    (hlatch : ∀ ℓ, s.latch ℓ = some .acceptor → s'.latch ℓ = some .acceptor) : s'.Adding := by
  unfold Adding at h ⊢
  rw [haccepting]
  cases hphase : s.accepting with
  | waiting => trivial
  | made a ℓ =>
    rw [hphase] at h
    obtain ⟨fd, hlive, hconn, hpoll⟩ := h
    exact ⟨fd, hlives a fd ℓ (by simp [hphase]) hlive, hconnections ℓ fd hconn, hpolled ℓ fd hpoll⟩
  | latched a ℓ =>
    rw [hphase] at h
    obtain ⟨hacceptor, fd, hlive, hconn, hpoll⟩ := h
    exact ⟨hlatch ℓ hacceptor, fd, hlives a fd ℓ (by simp [hphase]) hlive, hconnections ℓ fd hconn,
      hpolled ℓ fd hpoll⟩
  | registered a ℓ =>
    rw [hphase] at h
    obtain ⟨hacceptor, fd, hlive, hconn⟩ := h
    exact ⟨hlatch ℓ hacceptor, fd, hlives a fd ℓ (by simp [hphase]) hlive, hconnections ℓ fd hconn⟩
  | inserted ℓ =>
    rw [hphase] at h
    exact hlatch ℓ h

omit [DecidableEq L] in
/-- What a handler relies on survives steps of other threads that keep what its event looper polls,
do not touch a connection that is being destroyed, and respect its latch. -/
lemma Deleting.mono (h : s.Deleting ℓ) (hlooping : s'.looping ℓ = s.looping ℓ)
    (hbatch : s'.batch ℓ = s.batch ℓ)
    (hlatch : s.latch ℓ = some (.looper ℓ) → s'.latch ℓ = some (.looper ℓ))
    (hpolled : ∀ fd a, s.polled ℓ fd = some a → s'.polled ℓ fd = some a)
    (hheap : ∀ a, s.heap a = some { fd := noFd, ownerLooper := ℓ } → s'.heap a = s.heap a)
    (hconnections : s.latch ℓ = some (.looper ℓ) →
      ∀ fd, s.connections ℓ fd = none → s'.connections ℓ fd = none) : s'.Deleting ℓ := by
  unfold Deleting at h ⊢
  rw [hlooping, hbatch]
  cases hphase : s.looping ℓ with
  | idle => trivial
  | calling a =>
    rw [hphase] at h
    obtain ⟨hout, fd, hpoll⟩ := h
    exact ⟨hout, fd, hpolled fd a hpoll⟩
  | finding fd ℓ' =>
    rw [hphase] at h
    obtain ⟨rfl, hown, a, hout, hpoll⟩ := h
    exact ⟨rfl, hlatch hown, a, hout, hpolled fd a hpoll⟩
  | erased a ℓ' =>
    rw [hphase] at h
    obtain ⟨rfl, hown, hout, fd, hpoll, hconn⟩ := h
    exact ⟨rfl, hlatch hown, hout, fd, hpolled fd a hpoll, hconnections hown fd hconn⟩
  | closed a ℓ' =>
    rw [hphase] at h
    obtain ⟨rfl, hown, hdead⟩ := h
    exact ⟨rfl, hlatch hown, (hheap a hdead).trans hdead⟩
  | returning ℓ' =>
    rw [hphase] at h
    obtain ⟨rfl, hown⟩ := h
    exact ⟨rfl, hlatch hown⟩

end State

/-! ## The acceptor -/

section Steps

variable {s s' : State L} {a a' : Addr} {fd fd' : Fd} {ℓ ℓ' : L}

omit [DecidableEq L] in
/-- A connection has one descriptor and one event looper. -/
lemma lives_inj (h : s.Lives a fd ℓ) (h' : s.Lives a fd' ℓ') : fd = fd' ∧ ℓ = ℓ' := by
  have heq := Option.some.inj (h.1.symm.trans h'.1)
  exact ⟨congrArg Conn.fd heq, congrArg Conn.ownerLooper heq⟩

omit [DecidableEq L] in
/-- A descriptor has one connection. -/
lemma Inv.lives_unique (h : Inv s) (ha : s.Lives a fd ℓ) (ha' : s.Lives a' fd ℓ') :
    a = a' ∧ ℓ = ℓ' := by
  obtain rfl := h.owned.inj a a' fd ha.held ha'.held
  exact ⟨rfl, (lives_inj ha ha').2⟩

omit [DecidableEq L] in
/-- A descriptor that is not open has no connection. -/
lemma Inv.not_lives (h : Inv s) (hfd : fd ∉ s.opened) : ¬ s.Lives a fd ℓ :=
  fun ha => hfd (by simpa using h.owned.mem a fd ha.held)

omit [DecidableEq L] in
/-- Unless a connection is just being put into the map, what is polled is in the map, or it has just
been taken out. -/
lemma Inv.watched_of_ne (h : Inv s) (hne : ∀ a ℓ, s.accepting ≠ .registered a ℓ)
    (ha : s.polled ℓ fd = some a) :
    s.Lives a fd ℓ ∧ (s.connections ℓ fd = some a ∨ s.looping ℓ = .erased a ℓ) := by
  obtain ⟨hlive, hwhere⟩ := h.watched ℓ fd a ha
  refine ⟨hlive, hwhere.imp_right fun hwhere => ?_⟩
  exact hwhere.resolve_left (hne a ℓ)

omit [DecidableEq L] in
/-- What belongs to another index stays when something else is changed. -/
lemma update_keeps {ι β : Type} [DecidableEq ι] {f : ι → β} {i j : ι} {t : β} (x : β)
    (hj : f j = t) (hi : f i ≠ t) : Function.update f i x j = t := by
  rw [Function.update_of_ne]
  · exact hj
  · rintro rfl
    exact hi hj

/-- `accept` and a new connection. -/
lemma Inv.accept (h : Inv s) (hstep : step s (.accept fd a ℓ) = some s') : Inv s' := by
  simp only [step] at hstep
  split at hstep
  · next hguard =>
    obtain ⟨hwaiting, hpos, hfd, hfree⟩ := hguard
    cases hstep
    have hne : fd ≠ noFd := by
      rintro rfl
      exact absurd hpos (by decide)
    have hother : ∀ b conn, s.heap b = some conn →
        Function.update s.heap a (some { fd, ownerLooper := ℓ }) b = some conn := by
      intro b conn hb
      rw [Function.update_of_ne]
      · exact hb
      · rintro rfl
        rw [hfree] at hb
        cases hb
    refine ⟨?_, ?_, ?_, h.batches, ?_, ?_, h.clean⟩
    · have hacquire := h.owned.acquire (show fd ∉ (s.opened : Set Fd) by simpa using hfd) a
      simpa [State.held_update, Option.filter, hne] using hacquire
    · intro ℓ₁ fd₁ b hb
      exact ⟨hother b _ (h.entries ℓ₁ fd₁ b hb).1, (h.entries ℓ₁ fd₁ b hb).2⟩
    · intro ℓ₁ fd₁ b hb
      obtain ⟨hlive, hwhere⟩ := h.watched_of_ne (by simp [hwaiting]) hb
      exact ⟨⟨hother b _ hlive.1, hlive.2⟩, hwhere.imp_right .inr⟩
    · refine ⟨fd, ⟨Function.update_self .., hne⟩, ?_, ?_⟩
      · rw [Option.eq_none_iff_forall_ne_some]
        exact fun b hb => h.not_lives hfd (h.entries ℓ fd b hb)
      · rw [Option.eq_none_iff_forall_ne_some]
        exact fun b hb => h.not_lives hfd (h.watched ℓ fd b hb).1
    · intro ℓ₁
      exact (h.deleting ℓ₁).mono rfl rfl id (fun _ _ hb => hb)
        (fun b hb => (hother b _ hb).trans hb.symm) fun _ _ hb => hb
  · cases hstep

/-- `AddConnection` takes the latch. -/
lemma Inv.latchAdd (h : Inv s) (hstep : step s .latchAdd = some s') : Inv s' := by
  simp only [step] at hstep
  split at hstep
  · next a ℓ hmade =>
    split at hstep
    · next hfree =>
      cases hstep
      have hadding := h.adding
      rw [State.Adding, hmade] at hadding
      refine ⟨h.owned, h.entries, ?_, h.batches, ⟨Function.update_self .., hadding⟩, ?_, h.clean⟩
      · intro ℓ₁ fd₁ b hb
        obtain ⟨hlive, hwhere⟩ := h.watched_of_ne (by simp [hmade]) hb
        exact ⟨hlive, hwhere.imp_right .inr⟩
      · intro ℓ₁
        exact (h.deleting ℓ₁).mono rfl rfl (fun hown => update_keeps _ hown (by simp [hfree]))
          (fun _ _ hb => hb) (fun _ _ => rfl) fun _ _ hb => hb
    · cases hstep
  · cases hstep

/-- `Poller::AddConnection`. -/
lemma Inv.register (h : Inv s) (hstep : step s .register = some s') : Inv s' := by
  simp only [step] at hstep
  split at hstep
  · next a ℓ hlatched =>
    have hadding := h.adding
    rw [State.Adding, hlatched] at hadding
    obtain ⟨hacceptor, fd, hlive, hconn, hpoll⟩ := hadding
    rw [hlive.1] at hstep
    simp only [if_pos hlive.2] at hstep
    cases hstep
    have hkeep : ∀ ℓ₁ fd₁ b, s.polled ℓ₁ fd₁ = some b →
        setAt s.polled ℓ fd (some a) ℓ₁ fd₁ = some b :=
      fun ℓ₁ fd₁ b hb => State.setAt_keeps _ hpoll hb
    refine ⟨h.owned, h.entries, ?_, ?_, ⟨hacceptor, fd, hlive, hconn⟩, ?_, h.clean⟩
    · intro ℓ₁ fd₁ b hb
      rcases State.cases_of_setAt hb with ⟨rfl, rfl, hab⟩ | hb
      · cases hab
        exact ⟨hlive, .inr (.inl rfl)⟩
      · obtain ⟨hlive', hwhere⟩ := h.watched_of_ne (by simp [hlatched]) hb
        exact ⟨hlive', hwhere.imp_right .inr⟩
    · intro ℓ₁
      refine ⟨(h.batches ℓ₁).1, fun b hb => ?_⟩
      obtain ⟨fd₁, hpolled⟩ := (h.batches ℓ₁).2 b hb
      exact ⟨fd₁, hkeep ℓ₁ fd₁ b hpolled⟩
    · intro ℓ₁
      exact (h.deleting ℓ₁).mono rfl rfl id (hkeep ℓ₁) (fun _ _ => rfl) fun _ _ hb => hb
  · cases hstep

/-- `insert` never meets a key. -/
lemma Inv.insert (h : Inv s) (hstep : step s .insert = some s') : Inv s' := by
  simp only [step] at hstep
  split at hstep
  · next a ℓ hregistered =>
    have hadding := h.adding
    rw [State.Adding, hregistered] at hadding
    obtain ⟨hacceptor, fd, hlive, hconn⟩ := hadding
    rw [hlive.1] at hstep
    simp only [hconn] at hstep
    cases hstep
    refine ⟨h.owned, ?_, ?_, h.batches, hacceptor, ?_, h.clean⟩
    · intro ℓ₁ fd₁ b hb
      rcases State.cases_of_setAt hb with ⟨rfl, rfl, hab⟩ | hb
      · cases hab
        exact hlive
      · exact h.entries ℓ₁ fd₁ b hb
    · intro ℓ₁ fd₁ b hb
      obtain ⟨hlive', hwhere⟩ := h.watched ℓ₁ fd₁ b hb
      refine ⟨hlive', ?_⟩
      rcases hwhere with hconn' | hadded | herased
      · exact .inl (State.setAt_keeps _ hconn hconn')
      · -- this is the connection that has just been put into the map
        rw [hregistered] at hadded
        cases hadded
        obtain ⟨rfl, -⟩ := lives_inj hlive hlive'
        exact .inl (State.setAt_self ..)
      · exact .inr (.inr herased)
    · intro ℓ₁
      refine (h.deleting ℓ₁).mono rfl rfl id (fun _ _ hb => hb) (fun _ _ => rfl)
        fun hown fd₁ hb => ?_
      change setAt s.connections ℓ fd (some a) ℓ₁ fd₁ = none
      rw [State.setAt_of_ne]
      · exact hb
      · rintro ⟨rfl, -⟩
        rw [hacceptor] at hown
        cases hown
  · cases hstep

/-- `AddConnection` gives the latch back. -/
lemma Inv.unlatchAdd (h : Inv s) (hstep : step s .unlatchAdd = some s') : Inv s' := by
  simp only [step] at hstep
  split at hstep
  · next ℓ hinserted =>
    cases hstep
    have hacceptor := h.adding
    rw [State.Adding, hinserted] at hacceptor
    refine ⟨h.owned, h.entries, ?_, h.batches, trivial, ?_, h.clean⟩
    · intro ℓ₁ fd₁ b hb
      obtain ⟨hlive, hwhere⟩ := h.watched_of_ne (by simp [hinserted]) hb
      exact ⟨hlive, hwhere.imp_right .inr⟩
    · intro ℓ₁
      exact (h.deleting ℓ₁).mono rfl rfl (fun hown => update_keeps _ hown (by simp [hacceptor]))
        (fun _ _ hb => hb) (fun _ _ => rfl) fun _ _ hb => hb
  · cases hstep

/-! ## The threads of the event loopers -/

omit [DecidableEq L] in
/-- A step that changes nothing but what one thread does, its batch and its latch. -/
lemma Inv.of_thread (h : Inv s) (ℓ : L) (looping : L → Looping L) (batch : L → List Addr)
    (latch : L → Option (Thread L)) (hlooping : ∀ ℓ₁, ℓ₁ ≠ ℓ → looping ℓ₁ = s.looping ℓ₁)
    (hbatch : ∀ ℓ₁, ℓ₁ ≠ ℓ → batch ℓ₁ = s.batch ℓ₁)
    (hlatch : ∀ t ℓ₁, t ≠ .looper ℓ → s.latch ℓ₁ = some t → latch ℓ₁ = some t)
    (herased : ∀ a, s.looping ℓ ≠ .erased a ℓ)
    (hown : (batch ℓ).Nodup ∧ ∀ a ∈ batch ℓ, ∃ fd, s.polled ℓ fd = some a)
    (hdeleting : ({ s with looping, batch, latch } : State L).Deleting ℓ) :
    Inv { s with looping, batch, latch } := by
  refine ⟨h.owned, h.entries, ?_, ?_, ?_, ?_, h.clean⟩
  · intro ℓ₁ fd₁ b hb
    obtain ⟨hlive, hwhere⟩ := h.watched ℓ₁ fd₁ b hb
    refine ⟨hlive, hwhere.imp_right fun hwhere => hwhere.imp_right fun he => ?_⟩
    refine (hlooping ℓ₁ ?_).trans he
    rintro rfl
    exact herased b he
  · intro ℓ₁
    by_cases hℓ : ℓ₁ = ℓ
    · rw [hℓ]
      exact hown
    · change (batch ℓ₁).Nodup ∧ ∀ a ∈ batch ℓ₁, ∃ fd, s.polled ℓ₁ fd = some a
      rw [hbatch ℓ₁ hℓ]
      exact h.batches ℓ₁
  · exact h.adding.mono rfl (fun _ _ _ _ hlive => hlive) (fun _ _ hb => hb) (fun _ _ hb => hb)
      fun ℓ₁ hacceptor => hlatch _ ℓ₁ (nofun) hacceptor
  · intro ℓ₁
    by_cases hℓ : ℓ₁ = ℓ
    · rw [hℓ]
      exact hdeleting
    · refine (h.deleting ℓ₁).mono (hlooping ℓ₁ hℓ) (hbatch ℓ₁ hℓ) (hlatch _ ℓ₁ ?_)
        (fun _ _ hb => hb) (fun _ _ => rfl) fun _ _ hb => hb
      exact fun heq => hℓ (Thread.looper.inj heq)

/-- `Poll`: what is ready is distinct and polled. -/
lemma Inv.poll {ready : List Fd} (h : Inv s) (hstep : step s (.poll ℓ ready) = some s') :
    Inv s' := by
  simp only [step] at hstep
  split at hstep
  · next hguard =>
    obtain ⟨hidle, -, hnodup, -⟩ := hguard
    cases hstep
    refine h.of_thread ℓ s.looping _ s.latch (fun _ _ => rfl)
      (fun ℓ₁ hℓ => Function.update_of_ne hℓ ..) (fun _ _ _ ht => ht) (by simp [hidle]) ?_ ?_
    · rw [Function.update_self]
      refine ⟨hnodup.filterMap fun fd₁ fd₂ b hb hb' => ?_, fun b hb => ?_⟩
      · exact (lives_inj (h.watched ℓ fd₁ b hb).1 (h.watched ℓ fd₂ b hb').1).1
      · obtain ⟨fd₁, -, hpolled⟩ := List.mem_filterMap.mp hb
        exact ⟨fd₁, hpolled⟩
    · simp only [State.Deleting, hidle]
  · cases hstep

/-- The handler of the next connection is called. -/
lemma Inv.callback (h : Inv s) (hstep : step s (.callback ℓ) = some s') : Inv s' := by
  simp only [step] at hstep
  split at hstep
  · next a rest hidle hbatch =>
    cases hstep
    obtain ⟨hnodup, hpolled⟩ := h.batches ℓ
    rw [hbatch] at hnodup hpolled
    refine h.of_thread ℓ _ _ s.latch (fun ℓ₁ hℓ => Function.update_of_ne hℓ ..)
      (fun ℓ₁ hℓ => Function.update_of_ne hℓ ..) (fun _ _ _ ht => ht) (by simp [hidle]) ?_ ?_
    · rw [Function.update_self]
      exact ⟨(List.nodup_cons.mp hnodup).2, fun b hb => hpolled b (List.mem_cons_of_mem a hb)⟩
    · simp only [State.Deleting, State.goto, Function.update_self]
      exact ⟨(List.nodup_cons.mp hnodup).1, hpolled a List.mem_cons_self⟩
  · cases hstep

/-- The handler returns. -/
lemma Inv.finish (h : Inv s) (hstep : step s (.finish ℓ) = some s') : Inv s' := by
  simp only [step] at hstep
  split at hstep
  · next a hcalling =>
    cases hstep
    refine h.of_thread ℓ _ s.batch s.latch (fun ℓ₁ hℓ => Function.update_of_ne hℓ ..)
      (fun _ _ => rfl) (fun _ _ _ ht => ht) (by simp [hcalling]) (h.batches ℓ) ?_
    simp only [State.Deleting, Function.update_self]
  · cases hstep

/-- `DeleteConnection` takes the latch of the event looper that calls it. -/
lemma Inv.latchDelete (h : Inv s) (hstep : step s (.latchDelete ℓ) = some s') : Inv s' := by
  simp only [step] at hstep
  split at hstep
  · next a hcalling =>
    have hdeleting := h.deleting ℓ
    rw [State.Deleting, hcalling] at hdeleting
    obtain ⟨hout, fd, hpolled⟩ := hdeleting
    rw [(h.watched ℓ fd a hpolled).1.1] at hstep
    simp only at hstep
    split at hstep
    · next hfree =>
      cases hstep
      refine h.of_thread ℓ _ s.batch _ (fun ℓ₁ hℓ => Function.update_of_ne hℓ ..)
        (fun _ _ => rfl) (fun t ℓ₁ _ ht => update_keeps _ ht (by simp [hfree]))
        (by simp [hcalling]) (h.batches ℓ) ?_
      simp only [State.Deleting, State.goto, Function.update_self]
      exact ⟨trivial, trivial, a, hout, hpolled⟩
    · cases hstep
  · cases hstep

omit [DecidableEq L] in
/-- `DeleteConnection` finds the connection it has been called for. -/
lemma Inv.connections_of_finding (h : Inv s) (hfinding : s.looping ℓ = .finding fd ℓ') :
    ℓ' = ℓ ∧ s.latch ℓ = some (.looper ℓ) ∧
      ∃ a, a ∉ s.batch ℓ ∧ s.polled ℓ fd = some a ∧ s.connections ℓ fd = some a := by
  have hdeleting := h.deleting ℓ
  rw [State.Deleting, hfinding] at hdeleting
  obtain ⟨rfl, hown, a, hout, hpolled⟩ := hdeleting
  refine ⟨rfl, hown, a, hout, hpolled, ?_⟩
  rcases (h.watched ℓ' fd a hpolled).2 with hconn | hadded | herased
  · exact hconn
  · -- the latch is held here, so nothing is being put into this map
    have hacceptor := h.adding
    rw [State.Adding, hadded] at hacceptor
    cases hown.symm.trans hacceptor.1
  · rw [hfinding] at herased
    cases herased

/-- The entry is taken out of the map. -/
lemma Inv.erase (h : Inv s) (hstep : step s (.erase ℓ) = some s') : Inv s' := by
  simp only [step] at hstep
  split at hstep
  · next fd ℓ' hfinding =>
    obtain ⟨rfl, hown, a, hout, hpolled, hconn⟩ := h.connections_of_finding hfinding
    simp only [hconn] at hstep
    cases hstep
    have hgone : ∀ ℓ₁ fd₁, s.connections ℓ₁ fd₁ = none →
        setAt s.connections ℓ' fd none ℓ₁ fd₁ = none := by
      intro ℓ₁ fd₁ hb
      unfold setAt
      split
      · rfl
      · exact hb
    refine ⟨h.owned, ?_, ?_, h.batches, ?_, ?_, h.clean⟩
    · intro ℓ₁ fd₁ b hb
      rcases State.cases_of_setAt hb with ⟨-, -, hnone⟩ | hb
      · cases hnone
      · exact h.entries ℓ₁ fd₁ b hb
    · intro ℓ₁ fd₁ b hb
      obtain ⟨hlive, hwhere⟩ := h.watched ℓ₁ fd₁ b hb
      refine ⟨hlive, ?_⟩
      by_cases hkey : ℓ₁ = ℓ' ∧ fd₁ = fd
      · obtain ⟨rfl, rfl⟩ := hkey
        obtain rfl : a = b := Option.some.inj (hpolled.symm.trans hb)
        exact .inr (.inr (Function.update_self ..))
      · rcases hwhere with hconn' | hadded | herased
        · exact .inl ((State.setAt_of_ne _ _ hkey).trans hconn')
        · exact .inr (.inl hadded)
        · exact .inr (.inr (update_keeps _ herased (by simp [hfinding])))
    · exact h.adding.mono rfl (fun _ _ _ _ hlive => hlive) hgone (fun _ _ hb => hb)
        fun _ hacceptor => hacceptor
    · intro ℓ₁
      by_cases hℓ : ℓ₁ = ℓ'
      · rw [hℓ]
        simp only [State.Deleting, State.goto, Function.update_self]
        exact ⟨trivial, hown, hout, fd, hpolled, State.setAt_self ..⟩
      · exact (h.deleting ℓ₁).mono (Function.update_of_ne hℓ ..) rfl id (fun _ _ hb => hb)
          (fun _ _ => rfl) fun _ => hgone ℓ₁
  · cases hstep

omit [DecidableEq L] in
/-- The acceptor is not at work on a connection that an event looper is about to destroy. -/
lemma Inv.not_accepting (h : Inv s) (hpolled : s.polled ℓ fd = some a)
    (hown : s.latch ℓ = some (.looper ℓ)) :
    ¬ (s.accepting = .made a ℓ' ∨ s.accepting = .latched a ℓ' ∨ s.accepting = .registered a ℓ') := by
  have hlive := (h.watched ℓ fd a hpolled).1
  have hadding := h.adding
  rintro (hphase | hphase | hphase)
  · rw [State.Adding, hphase] at hadding
    obtain ⟨fd', hlive', -, hpoll⟩ := hadding
    obtain ⟨rfl, rfl⟩ := lives_inj hlive hlive'
    cases hpolled.symm.trans hpoll
  · rw [State.Adding, hphase] at hadding
    obtain ⟨-, fd', hlive', -, hpoll⟩ := hadding
    obtain ⟨rfl, rfl⟩ := lives_inj hlive hlive'
    cases hpolled.symm.trans hpoll
  · rw [State.Adding, hphase] at hadding
    obtain ⟨hacceptor, fd', hlive', -⟩ := hadding
    obtain ⟨rfl, rfl⟩ := lives_inj hlive hlive'
    cases hown.symm.trans hacceptor

omit [DecidableEq L] in
/-- What is polled of the other connections stays when a descriptor is closed, for they have other
ones. -/
lemma Inv.polled_others (h : Inv s) (ha : s.Lives a fd ℓ) (ha' : s.polled ℓ' fd' = some a')
    (hne : a' ≠ a) : (if fd' = fd then none else s.polled ℓ' fd') = some a' := by
  rw [if_neg]
  · exact ha'
  · rintro rfl
    exact hne (h.lives_unique (h.watched ℓ' fd' a' ha').1 ha).1

/-- The socket of the connection is closed: nothing else has its descriptor.

**Proof sketch.** The connection is in no map and in no batch any more, and it is not the one that
is being accepted. Every other connection that lives has another descriptor, so that it keeps its
place in the heap, in the pollers, the maps and the batches. -/
lemma Inv.close (h : Inv s) (hstep : step s (.close ℓ) = some s') : Inv s' := by
  simp only [step] at hstep
  split at hstep
  · next a ℓ' herased =>
    have hdeleting := h.deleting ℓ
    rw [State.Deleting, herased] at hdeleting
    obtain ⟨rfl, hown, hout, fd, hpolled, hconn⟩ := hdeleting
    have hlive := (h.watched ℓ' fd a hpolled).1
    rw [hlive.1] at hstep
    simp only [State.closeConn, if_pos hlive.2] at hstep
    cases hstep
    have hkeep : ∀ b fd₁ ℓ₁, s.Lives b fd₁ ℓ₁ → b ≠ a →
        Function.update s.heap a (some { fd := noFd, ownerLooper := ℓ' }) b =
          some { fd := fd₁, ownerLooper := ℓ₁ } :=
      fun b fd₁ ℓ₁ hb hba => (Function.update_of_ne hba ..).trans hb.1
    refine ⟨?_, ?_, ?_, ?_, ?_, ?_, h.clean⟩
    · have hrelease := h.owned.release hlive.held
      simpa [State.goto, State.held_update, Option.filter, Finset.coe_erase] using hrelease
    · intro ℓ₁ fd₁ b hb
      have hlive' := h.entries ℓ₁ fd₁ b hb
      refine ⟨hkeep b fd₁ ℓ₁ hlive' ?_, hlive'.2⟩
      rintro rfl
      obtain ⟨rfl, rfl⟩ := lives_inj hlive hlive'
      cases hconn.symm.trans hb
    · intro ℓ₁ fd₁ b hb
      simp only [State.goto, ite_eq_iff] at hb
      obtain ⟨-, hb⟩ | ⟨hne, hb⟩ := hb
      · cases hb
      · obtain ⟨hlive', hwhere⟩ := h.watched ℓ₁ fd₁ b hb
        have hba : b ≠ a := by
          rintro rfl
          exact hne (lives_inj hlive' hlive).1
        refine ⟨⟨hkeep b fd₁ ℓ₁ hlive' hba, hlive'.2⟩,
          hwhere.imp_right fun hwhere => hwhere.imp_right fun he => update_keeps _ he ?_⟩
        rw [herased]
        rintro ⟨⟩
        exact hba rfl
    · intro ℓ₁
      refine ⟨(h.batches ℓ₁).1, fun b hb => ?_⟩
      obtain ⟨fd₁, hpolled'⟩ := (h.batches ℓ₁).2 b hb
      refine ⟨fd₁, h.polled_others hlive hpolled' ?_⟩
      rintro rfl
      obtain ⟨-, rfl⟩ := lives_inj hlive (h.watched ℓ₁ fd₁ b hpolled').1
      exact hout hb
    · refine h.adding.mono rfl (fun b fd₁ ℓ₁ hphase hb => ⟨hkeep b fd₁ ℓ₁ hb ?_, hb.2⟩)
        (fun _ _ hb => hb) (fun ℓ₁ fd₁ hb => ?_) fun _ hacceptor => hacceptor
      · rintro rfl
        exact h.not_accepting hpolled hown hphase
      · simp only [State.goto]
        split
        · rfl
        · exact hb
    · intro ℓ₁
      by_cases hℓ : ℓ₁ = ℓ'
      · rw [hℓ]
        simp only [State.Deleting, State.goto, Function.update_self]
        exact ⟨trivial, hown, trivial⟩
      · refine (h.deleting ℓ₁).mono (Function.update_of_ne hℓ ..) rfl id
          (fun fd₁ b hb => h.polled_others hlive hb ?_) (fun b hb => Function.update_of_ne ?_ ..)
          fun _ _ hb => hb
        · rintro rfl
          exact hℓ (lives_inj hlive (h.watched ℓ₁ fd₁ b hb).1).2.symm
        · rintro rfl
          rw [hlive.1] at hb
          cases hb
          exact hlive.2 rfl
  · cases hstep

/-- The memory of the connection is given back: nothing points to it any more. -/
lemma Inv.free (h : Inv s) (hstep : step s (.free ℓ) = some s') : Inv s' := by
  simp only [step] at hstep
  split at hstep
  · next a ℓ' hclosed =>
    have hdeleting := h.deleting ℓ
    rw [State.Deleting, hclosed] at hdeleting
    obtain ⟨rfl, hown, hdead⟩ := hdeleting
    cases hstep
    have hkeep : ∀ b fd₁ ℓ₁, s.Lives b fd₁ ℓ₁ →
        Function.update s.heap a none b = some { fd := fd₁, ownerLooper := ℓ₁ } := by
      intro b fd₁ ℓ₁ hb
      rw [Function.update_of_ne]
      · exact hb.1
      · rintro rfl
        have heq := Option.some.inj (hdead.symm.trans hb.1)
        exact hb.2 (congrArg Conn.fd heq).symm
    refine ⟨?_, ?_, ?_, h.batches, ?_, ?_, h.clean⟩
    · simpa [State.goto, State.freeConn, State.held_update] using h.owned.drop a
    · intro ℓ₁ fd₁ b hb
      exact ⟨hkeep b fd₁ ℓ₁ (h.entries ℓ₁ fd₁ b hb), (h.entries ℓ₁ fd₁ b hb).2⟩
    · intro ℓ₁ fd₁ b hb
      obtain ⟨hlive, hwhere⟩ := h.watched ℓ₁ fd₁ b hb
      exact ⟨⟨hkeep b fd₁ ℓ₁ hlive, hlive.2⟩, hwhere.imp_right fun hwhere =>
        hwhere.imp_right fun he => update_keeps _ he (by simp [State.freeConn, hclosed])⟩
    · exact h.adding.mono rfl (fun b fd₁ ℓ₁ _ hb => ⟨hkeep b fd₁ ℓ₁ hb, hb.2⟩)
        (fun _ _ hb => hb) (fun _ _ hb => hb) fun _ hacceptor => hacceptor
    · intro ℓ₁
      by_cases hℓ : ℓ₁ = ℓ'
      · rw [hℓ]
        simp only [State.Deleting, State.goto, Function.update_self]
        exact ⟨trivial, hown⟩
      · refine (h.deleting ℓ₁).mono (Function.update_of_ne hℓ ..) rfl id (fun _ _ hb => hb)
          (fun b hb => Function.update_of_ne ?_ ..) fun _ _ hb => hb
        rintro rfl
        have heq := Option.some.inj (hdead.symm.trans hb)
        exact hℓ (congrArg Conn.ownerLooper heq).symm
  · cases hstep

/-- `DeleteConnection` gives the latch back, and the handler returns. -/
lemma Inv.unlatchDelete (h : Inv s) (hstep : step s (.unlatchDelete ℓ) = some s') : Inv s' := by
  simp only [step] at hstep
  split at hstep
  · next ℓ' hreturning =>
    have hdeleting := h.deleting ℓ
    rw [State.Deleting, hreturning] at hdeleting
    obtain ⟨rfl, hown⟩ := hdeleting
    cases hstep
    refine h.of_thread ℓ' _ s.batch _ (fun ℓ₁ hℓ => Function.update_of_ne hℓ ..)
      (fun _ _ => rfl) (fun t ℓ₁ ht ht' => update_keeps _ ht' ?_) (by simp [hreturning])
      (h.batches ℓ') ?_
    · rw [hown]
      exact fun heq => ht (Option.some.inj heq).symm
    · simp only [State.Deleting, State.goto, Function.update_self]
  · cases hstep

/-! ## All interleavings -/

/-- **The step lemma**: any thread may take the next step. -/
lemma Inv.step {l : Label L} (h : Inv s) (hstep : EventLoopers.step s l = some s') : Inv s' := by
  cases l with
  | accept fd a ℓ => exact h.accept hstep
  | latchAdd => exact h.latchAdd hstep
  | register => exact h.register hstep
  | insert => exact h.insert hstep
  | unlatchAdd => exact h.unlatchAdd hstep
  | poll ℓ ready => exact h.poll hstep
  | callback ℓ => exact h.callback hstep
  | finish ℓ => exact h.finish hstep
  | latchDelete ℓ => exact h.latchDelete hstep
  | erase ℓ => exact h.erase hstep
  | close ℓ => exact h.close hstep
  | free ℓ => exact h.free hstep
  | unlatchDelete ℓ => exact h.unlatchDelete hstep

end Steps

omit [DecidableEq L] in
/-- No connection has been accepted yet. -/
lemma Inv.start (opened : Finset Fd) : Inv (State.start (L := L) opened) where
  owned := ⟨by simp [State.held, Socket.descriptors, State.start],
    by simp [State.held, Socket.descriptors, State.start]⟩
  entries := by simp [State.start]
  watched := by simp [State.start]
  batches := by simp [State.start]
  adding := trivial
  deleting := fun _ => trivial
  clean := ⟨rfl, rfl⟩

/-- **The bookkeeping of the connections**, after any interleaving of the acceptor and the event
loopers: the connections in a map are alive and under their own open descriptors, no descriptor is
in two maps, `insert` has not met a key, `DeleteConnection` has found its connection, and what is
left of a batch is alive.

**Proof sketch.** The invariant holds after every run: each kind of step has a lemma. A connection
in a map lives under its own descriptor, which is therefore open. If a descriptor is in two maps,
the two connections that live under it are one, and it has one event looper. What is in a batch is
polled, and what is polled lives. -/
theorem bookkeeping (opened : Finset Fd) (run : List (Label L)) {s : State L}
    (hrun : Transition.exec step (State.start opened) run = some s) :
    (∀ ℓ fd a, s.connections ℓ fd = some a → s.Lives a fd ℓ ∧ fd ∈ s.opened) ∧
    (∀ ℓ ℓ' fd, s.connections ℓ fd ≠ none → s.connections ℓ' fd ≠ none → ℓ = ℓ') ∧
    s.dropped = false ∧ s.missed = false ∧
    ∀ ℓ, ∀ a ∈ s.batch ℓ, ∃ fd, s.Lives a fd ℓ ∧ fd ∈ s.opened := by
  have h : Inv s := Transition.invariant_of_exec (fun _ _ _ => Inv.step) run (Inv.start opened) hrun
  have hopen : ∀ a fd ℓ, s.Lives a fd ℓ → fd ∈ s.opened :=
    fun a fd ℓ hlive => by simpa using h.owned.mem a fd hlive.held
  refine ⟨fun ℓ fd a ha => ?_, fun ℓ ℓ' fd hℓ hℓ' => ?_, h.clean.1, h.clean.2, fun ℓ a ha => ?_⟩
  · have hlive := h.entries ℓ fd a ha
    exact ⟨hlive, hopen a fd ℓ hlive⟩
  · obtain ⟨a, ha⟩ := Option.ne_none_iff_exists'.mp hℓ
    obtain ⟨a', ha'⟩ := Option.ne_none_iff_exists'.mp hℓ'
    exact (h.lives_unique (h.entries ℓ fd a ha) (h.entries ℓ' fd a' ha')).2
  · obtain ⟨fd, hpolled⟩ := (h.batches ℓ).2 a ha
    have hlive := (h.watched ℓ fd a hpolled).1
    exact ⟨fd, hlive, hopen a fd ℓ hlive⟩

/-- A connection that is called before it is in the map, and a second one, of another event looper,
that is given the descriptor and the address of the first one before the first `DeleteConnection`
has returned. -/
theorem bookkeeping_reuse : ∃ s : State (Fin 2),
    Transition.exec step (State.start {0, 1, 2}) [.accept 3 100 0, .latchAdd, .register,
      .poll 0 [3], .callback 0, .insert, .unlatchAdd, .latchDelete 0, .erase 0, .close 0, .free 0,
      .accept 3 100 1, .latchAdd, .register, .poll 1 [3], .insert, .unlatchDelete 0] = some s ∧
    (s.connections 0 3, s.connections 1 3, s.batch 1) = (none, some 100, [100]) ∧
    s.dropped = false ∧ s.missed = false ∧ ∃ fd, s.Lives 100 fd 1 ∧ fd ∈ s.opened := by
  have hseen : (Transition.exec step (State.start (L := Fin 2) {0, 1, 2}) [.accept 3 100 0,
      .latchAdd, .register, .poll 0 [3], .callback 0, .insert, .unlatchAdd, .latchDelete 0,
      .erase 0, .close 0, .free 0, .accept 3 100 1, .latchAdd, .register, .poll 1 [3], .insert,
      .unlatchDelete 0]).map (fun s => (s.connections 0 3, s.connections 1 3, s.batch 1)) =
        some (none, some 100, [100]) := by decide +kernel
  obtain ⟨s, hrun, hs⟩ := Option.map_eq_some_iff.mp hseen
  obtain ⟨-, -, hdropped, hmissed, hbatch⟩ := bookkeeping {0, 1, 2} _ hrun
  have hcalled : 100 ∈ s.batch 1 := by
    rw [(Prod.mk.inj (Prod.mk.inj hs).2).2]
    exact List.mem_cons_self
  exact ⟨s, hrun, hs, hdropped, hmissed, hbatch 1 100 hcalled⟩

end EventLoopers

end Icee
