import Icee.Core.EventLooperThreads
import Icee.Http.Isolation

set_option relaxedAutoImplicit false
set_option autoImplicit false

/-!
# The reactors on their threads

`Icee.Http.Reactor` speaks of connections and of what is done for them. Here they are what they are
in the program: objects on the heap, which the acceptor makes and puts into the poller of an event
looper, which the thread of the event looper takes out of its poller in batches, calls back one
after the other, and deletes, and whose addresses and descriptors are given out again as soon as
they are free. Nothing here looks at how far a connection has come before it is put into a batch or
called back; that this does no harm is what is shown.

## Main definitions

* `Icee.Http.Deployment.State`, `Icee.Http.Deployment.Label`, `Icee.Http.Deployment.step` — the
  event loopers with their connections.
* `Icee.Http.Deployment.Staged` — how far the connections have come, told from the threads.
* `Icee.Http.Deployment.Mirrors` — the connections on the heap are connections of the reactors.

## Main results

* `Icee.Http.Deployment.refines` — the event loopers do nothing that the reactors cannot do.
* `Icee.Http.Deployment.served_on_heap` — so a connection is served as if there were no other, not
  even the ones that had its address before.

## Design

The stage of a connection is the place in its handler that the thread is at. The connections of the
reactors are numbered in the order in which they have been accepted; which of them is at which
address is kept for the record.
-/

namespace Icee.Http

open EventLoopers (Looping)
open Socket (noFd)

namespace Reactor

/-- All connections of a batch are reported. -/
def State.report {ι : Type} [DecidableEq ι] (s : State ι) (batch : List ι) : State ι :=
  { s with conns := fun i =>
      if i ∈ batch then { s.conns i with stage := .reported, edge := false } else s.conns i }

/-- The connections of a batch are reported one after the other. -/
lemma State.report_cons {ι : Type} [DecidableEq ι] (s : State ι) {i : ι} {batch : List ι}
    (hout : i ∉ batch) : s.report (i :: batch) =
      (s.set i { s.conns i with stage := .reported, edge := false }).report batch := by
  simp only [State.report, State.set, State.mk.injEq, true_and, and_true]
  funext j
  by_cases hji : j = i
  · subst hji
    simp [hout]
  · simp [hji]

end Reactor

namespace Deployment

open Reactor (Act Closing Intake)

/-- The event loopers, the cache and the connections on the heap, and for the record how many
connections have been accepted, and which of them each address has. -/
structure State (L : Type) where
  threads : EventLoopers.State L
  server : Reactor.State Addr
  accepted : ℕ
  name : Addr → ℕ

/-- The steps: of the network, of the threads, and of the handlers that they are in. -/
inductive Label (L : Type)
  | arrive (a : Addr) (m : Bytes)
  | hangUp (a : Addr) (how : Closing)
  | thread (l : EventLoopers.Label L)
  | recv (ℓ : L) (result : RecvResult)
  | begin (ℓ : L) (now : UInt64)
  | finish (ℓ : L) (now : UInt64)

variable {L : Type} [DecidableEq L]

namespace State

/-- No connection has been accepted yet. -/
def start (opened : Finset Fd) (A : Allocator) (capacity : Int32) (now₁ now₂ : UInt64) :
    State L where
  threads := .start opened
  server := .start Addr A capacity now₁ now₂
  accepted := 0
  name _ := 0

omit [DecidableEq L] in
/-- Whether the handler that a thread is in lets it return, or delete its connection. -/
def permits (d : State L) : EventLoopers.Label L → Bool
  | .finish ℓ => match d.threads.looping ℓ with
    | .calling a => (d.server.conns a).stage = .polled
    | _ => false
  | .latchDelete ℓ => match d.threads.looping ℓ with
    | .calling a => (d.server.conns a).stage = .deleted
    | _ => false
  | _ => true

/-- What a step of a thread does to the connections. -/
def serve (d : State L) : EventLoopers.Label L → State L
  | .accept _ a _ => { d with
    server := d.server.set a .new
    accepted := d.accepted + 1
    name := Function.update d.name a d.accepted }
  | .register => match d.threads.accepting with
    | .latched a _ => { d with server := d.server.set a (d.server.conns a).register }
    | _ => d
  | .poll ℓ ready => { d with
    server := d.server.report (ready.filterMap (d.threads.polled ℓ)) }
  | .callback ℓ => match d.threads.batch ℓ with
    | a :: _ => { d with
      server := d.server.set a { d.server.conns a with stage := .receiving } }
    | [] => d
  | _ => d

end State

variable (servingDirectory : Bytes) (fs : FileSystem) (A : Allocator)

/-- A step of the network at a connection whose socket is open. -/
def networkStep (d : State L) (a : Addr) (e : Intake) : Option (State L) :=
  match d.threads.heap a with
  | some conn =>
    if conn.fd ≠ noFd then
      ((d.server.conns a).intake e).map fun c => { d with server := d.server.set a c }
    else none
  | none => none

/-- A step of the handler that a thread is in. -/
def handlerStep (d : State L) (ℓ : L) (act : Act) : Option (State L) :=
  match d.threads.looping ℓ with
  | .calling a =>
    (Reactor.liveStep servingDirectory fs A d.server ⟨a, act⟩).map fun server => { d with server }
  | _ => none

/-- One step, as long as the process runs. -/
def step (d : State L) (l : Label L) : Option (State L) :=
  match d.server.fault with
  | some _ => none
  | none => match l with
    | .arrive a m => networkStep d a (.arrive m)
    | .hangUp a how => networkStep d a (.close how)
    | .thread l =>
      if d.permits l then
        (EventLoopers.step d.threads l).map fun threads => { d.serve l with threads }
      else none
    | .recv ℓ result => handlerStep servingDirectory fs A d ℓ (.intake (.recv result))
    | .begin ℓ now => handlerStep servingDirectory fs A d ℓ (.begin now)
    | .finish ℓ now => handlerStep servingDirectory fs A d ℓ (.finish now)

/-! ## The stages -/

/-- How far the connections have come, told from the threads: a connection that is not in a poller
yet is unregistered, what is in a batch has been reported, and what is polled, in no batch, and not
in a handler is at rest. -/
structure Staged (s : EventLoopers.State L) (conns : Addr → Reactor.Conn) : Prop where
  adding : ∀ a ℓ, s.accepting = .made a ℓ ∨ s.accepting = .latched a ℓ →
    (conns a).stage = .unregistered
  reported : ∀ ℓ, ∀ a ∈ s.batch ℓ, (conns a).stage = .reported
  resting : ∀ ℓ fd a, s.polled ℓ fd = some a → a ∉ s.batch ℓ → ¬ s.Handles ℓ a →
    (conns a).stage = .polled

section Threads

variable {s s' : EventLoopers.State L} {conns : Addr → Reactor.Conn} {a b : Addr} {fd fd' : Fd}
  {ℓ ℓ' : L}

omit [DecidableEq L] in
/-- A connection is in one poller, once. -/
lemma polled_unique (hinv : EventLoopers.Inv s) (h : s.polled ℓ fd = some a)
    (h' : s.polled ℓ' fd' = some a) : fd = fd' ∧ ℓ = ℓ' :=
  EventLoopers.lives_inj (hinv.watched ℓ fd a h).1 (hinv.watched ℓ' fd' a h').1

omit [DecidableEq L] in
/-- A connection that is not in a poller yet is in none. -/
lemma not_polled_of_adding (hinv : EventLoopers.Inv s)
    (ha : s.accepting = .made a ℓ ∨ s.accepting = .latched a ℓ) :
    ∀ ℓ' fd, s.polled ℓ' fd ≠ some a := by
  intro ℓ' fd hpolled
  have hlive := (hinv.watched ℓ' fd a hpolled).1
  have hadding := hinv.adding
  obtain ⟨fd', hlive', hnone⟩ : ∃ fd', s.Lives a fd' ℓ ∧ s.polled ℓ fd' = none := by
    rcases ha with ha | ha
    · rw [EventLoopers.State.Adding, ha] at hadding
      obtain ⟨fd', hlive', -, hnone⟩ := hadding
      exact ⟨fd', hlive', hnone⟩
    · rw [EventLoopers.State.Adding, ha] at hadding
      obtain ⟨-, fd', hlive', -, hnone⟩ := hadding
      exact ⟨fd', hlive', hnone⟩
  obtain ⟨rfl, rfl⟩ := EventLoopers.lives_inj hlive hlive'
  cases hpolled.symm.trans hnone

omit [DecidableEq L] in
/-- A connection that is polled is on the heap. -/
lemma heap_of_polled (hinv : EventLoopers.Inv s) (h : s.polled ℓ fd = some a) :
    s.heap a ≠ none := by
  rw [(hinv.watched ℓ fd a h).1.1]
  exact Option.some_ne_none _

omit [DecidableEq L] in
/-- A connection whose handler runs is polled, and it is not in the batch again. -/
lemma polled_of_calling (hinv : EventLoopers.Inv s) (hcalling : s.looping ℓ = .calling a) :
    a ∉ s.batch ℓ ∧ ∃ fd, s.polled ℓ fd = some a := by
  have hdeleting := hinv.deleting ℓ
  rwa [EventLoopers.State.Deleting, hcalling] at hdeleting

omit [DecidableEq L] in
/-- A connection that is still polled is handled by a thread as long as the thread stays where it
is. -/
lemma handles_mono (hinv : EventLoopers.Inv s) (hlooping : s'.looping ℓ = s.looping ℓ)
    (hpolled : s.polled ℓ fd = some a) (hpolled' : s'.polled ℓ fd = some a)
    (h : s.Handles ℓ a) : s'.Handles ℓ a := by
  unfold EventLoopers.State.Handles at h ⊢
  rw [hlooping]
  cases hphase : s.looping ℓ with
  | idle => rw [hphase] at h; exact h
  | calling c => rw [hphase] at h; exact h
  | finding fd₁ ℓ₁ =>
    rw [hphase] at h
    change s.polled ℓ fd₁ = some a at h
    obtain ⟨rfl, -⟩ := polled_unique hinv hpolled h
    exact hpolled'
  | erased c ℓ₁ => rw [hphase] at h; exact h
  | closed c ℓ₁ => rw [hphase] at h; exact h
  | returning ℓ₁ => rw [hphase] at h; exact h

omit [DecidableEq L] in
/-- A step after which nothing is newly polled, no batch has changed, and who was in a handler still
is, unless it is polled no longer. -/
lemma Staged.mono (h : Staged s conns)
    (hadding : ∀ a ℓ, s'.accepting = .made a ℓ ∨ s'.accepting = .latched a ℓ →
      s.accepting = .made a ℓ ∨ s.accepting = .latched a ℓ)
    (hbatch : s'.batch = s.batch)
    (hpolled : ∀ ℓ fd a, s'.polled ℓ fd = some a → s.polled ℓ fd = some a)
    (hhandles : ∀ ℓ fd a, s'.polled ℓ fd = some a → s.Handles ℓ a → s'.Handles ℓ a) :
    Staged s' conns where
  adding a ℓ ha := h.adding a ℓ (hadding a ℓ ha)
  reported ℓ a ha := h.reported ℓ a (hbatch ▸ ha)
  resting ℓ fd a ha hout hidle := h.resting ℓ fd a (hpolled ℓ fd a ha) (hbatch ▸ hout)
    fun hhandle => hidle (hhandles ℓ fd a ha hhandle)

omit [DecidableEq L] in
/-- What changes a connection, but not how far it has come. -/
lemma Staged.congr {conns' : Addr → Reactor.Conn} (h : Staged s conns)
    (hstage : ∀ a, (conns' a).stage = (conns a).stage) : Staged s conns' where
  adding a ℓ ha := (hstage a).trans (h.adding a ℓ ha)
  reported ℓ a ha := (hstage a).trans (h.reported ℓ a ha)
  resting ℓ fd a ha hout hidle := (hstage a).trans (h.resting ℓ fd a ha hout hidle)

omit [DecidableEq L] in
/-- A handler only changes its own connection, which nobody else knows anything of. -/
lemma Staged.handler (h : Staged s conns) (hinv : EventLoopers.Inv s)
    (hcalling : s.looping ℓ = .calling a) (c : Reactor.Conn) :
    Staged s (Function.update conns a c) := by
  obtain ⟨hout, fd, hpolled⟩ := polled_of_calling hinv hcalling
  refine ⟨fun b ℓ' hb => ?_, fun ℓ' b hb => ?_, fun ℓ' fd' b hb hbout hidle => ?_⟩
  · rw [Function.update_of_ne]
    · exact h.adding b ℓ' hb
    · rintro rfl
      exact not_polled_of_adding hinv hb ℓ fd hpolled
  · rw [Function.update_of_ne]
    · exact h.reported ℓ' b hb
    · rintro rfl
      obtain ⟨fd', hpolled'⟩ := (hinv.batches ℓ').2 b hb
      obtain ⟨-, rfl⟩ := polled_unique hinv hpolled hpolled'
      exact hout hb
  · rw [Function.update_of_ne]
    · exact h.resting ℓ' fd' b hb hbout hidle
    · rintro rfl
      obtain ⟨-, rfl⟩ := polled_unique hinv hpolled hb
      exact hidle (by simp only [EventLoopers.State.Handles, hcalling])

/-- A new connection. -/
lemma Staged.accept (h : Staged s conns) (hinv : EventLoopers.Inv s)
    (hstep : EventLoopers.step s (.accept fd a ℓ) = some s') :
    Staged s' (Function.update conns a .new) := by
  simp only [EventLoopers.step] at hstep
  split at hstep
  · next hguard =>
    obtain ⟨-, -, -, hfree⟩ := hguard
    cases hstep
    have hother : ∀ ℓ₁ fd₁, s.polled ℓ₁ fd₁ ≠ some a := by
      intro ℓ₁ fd₁ hpolled
      cases hfree.symm.trans (hinv.watched ℓ₁ fd₁ a hpolled).1.1
    refine ⟨fun b ℓ₁ hb => ?_, fun ℓ₁ b hb => ?_, fun ℓ₁ fd₁ b hb hout hidle => ?_⟩
    · rcases hb with hb | hb
      · cases hb
        rw [Function.update_self]
        rfl
      · cases hb
    · rw [Function.update_of_ne]
      · exact h.reported ℓ₁ b hb
      · rintro rfl
        obtain ⟨fd₁, hpolled⟩ := (hinv.batches ℓ₁).2 b hb
        exact hother ℓ₁ fd₁ hpolled
    · rw [Function.update_of_ne]
      · exact h.resting ℓ₁ fd₁ b hb hout hidle
      · rintro rfl
        exact hother ℓ₁ fd₁ hb
  · cases hstep

/-- A connection is put into a poller. -/
lemma Staged.register (h : Staged s conns) (hinv : EventLoopers.Inv s)
    (hlatched : s.accepting = .latched a ℓ) (hstep : EventLoopers.step s .register = some s') :
    Staged s' (Function.update conns a (conns a).register) := by
  have hout := not_polled_of_adding hinv (.inr hlatched)
  have hadding := hinv.adding
  rw [EventLoopers.State.Adding, hlatched] at hadding
  obtain ⟨-, fd, hlive, -, hnone⟩ := hadding
  simp only [EventLoopers.step, hlatched, hlive.1, if_pos hlive.2] at hstep
  cases hstep
  refine ⟨?_, fun ℓ₁ b hb => ?_, fun ℓ₁ fd₁ b hb hbout hidle => ?_⟩
  · rintro b ℓ₁ (hb | hb) <;> cases hb
  · rw [Function.update_of_ne]
    · exact h.reported ℓ₁ b hb
    · rintro rfl
      obtain ⟨fd₁, hpolled⟩ := (hinv.batches ℓ₁).2 b hb
      exact hout ℓ₁ fd₁ hpolled
  · rcases EventLoopers.State.cases_of_setAt hb with ⟨-, -, heq⟩ | hold
    · cases heq
      rw [Function.update_self]
      rfl
    · rw [Function.update_of_ne]
      · refine h.resting ℓ₁ fd₁ b hold hbout fun hhandle => hidle ?_
        exact handles_mono hinv rfl hold hb hhandle
      · rintro rfl
        exact hout ℓ₁ fd₁ hold

/-- What is ready is put into the batch.

**Proof sketch.** What is ready is polled, so it is not the connection that is being added. The
batch was empty, so what is in it now is what was ready, and that has been reported. A polled
connection that is not in the batch was not ready, and has not been changed. -/
lemma Staged.poll {ready : List Fd} (h : Staged s conns) (hinv : EventLoopers.Inv s)
    (hstep : EventLoopers.step s (.poll ℓ ready) = some s') :
    Staged s' fun a => if a ∈ ready.filterMap (s.polled ℓ) then
      { conns a with stage := .reported, edge := false } else conns a := by
  simp only [EventLoopers.step] at hstep
  split at hstep
  · next hguard =>
    obtain ⟨hlooping, hempty, -, -⟩ := hguard
    cases hstep
    have hready : ∀ b ∈ ready.filterMap (s.polled ℓ), ∃ fd, s.polled ℓ fd = some b := by
      intro b hb
      obtain ⟨fd, -, hpolled⟩ := List.mem_filterMap.mp hb
      exact ⟨fd, hpolled⟩
    refine ⟨fun b ℓ₁ hb => ?_, fun ℓ₁ b hb => ?_, fun ℓ₁ fd₁ b hb hout hidle => ?_⟩
    · rw [if_neg]
      · exact h.adding b ℓ₁ hb
      · intro hmem
        obtain ⟨fd, hpolled⟩ := hready b hmem
        exact not_polled_of_adding hinv hb ℓ fd hpolled
    · split
      · rfl
      · next hmem =>
        by_cases hℓ : ℓ₁ = ℓ
        · subst hℓ
          simp only [Function.update_self] at hb
          exact absurd hb hmem
        · simp only [Function.update_of_ne hℓ] at hb
          exact h.reported ℓ₁ b hb
    · have hmem : b ∉ ready.filterMap (s.polled ℓ) := by
        intro hmem
        obtain ⟨fd, hpolled⟩ := hready b hmem
        obtain ⟨-, rfl⟩ := polled_unique hinv hpolled hb
        exact hout (by simpa only [Function.update_self] using hmem)
      rw [if_neg hmem]
      refine h.resting ℓ₁ fd₁ b hb ?_ hidle
      by_cases hℓ : ℓ₁ = ℓ
      · rw [hℓ, hempty]
        exact List.not_mem_nil
      · simpa only [Function.update_of_ne hℓ] using hout
  · cases hstep

/-- The next connection of the batch is called back.

**Proof sketch.** The connection is polled by this event looper and by no other, and it was in the
batch once. So it is not the one that is being added, no batch holds it any more, and it need not be
at rest while its handler runs. No other connection has been changed. -/
lemma Staged.callback {rest : List Addr} (h : Staged s conns) (hinv : EventLoopers.Inv s)
    (hbatch : s.batch ℓ = a :: rest) (hstep : EventLoopers.step s (.callback ℓ) = some s') :
    Staged s' (Function.update conns a { conns a with stage := .receiving }) := by
  simp only [EventLoopers.step, hbatch] at hstep
  split at hstep
  · next a' rest' hidle heq =>
    cases heq
    cases hstep
    obtain ⟨hnodup, hpolled⟩ := hinv.batches ℓ
    rw [hbatch] at hnodup hpolled
    obtain ⟨fd, hfd⟩ := hpolled a List.mem_cons_self
    refine ⟨fun b ℓ₁ hb => ?_, fun ℓ₁ b hb => ?_, fun ℓ₁ fd₁ b hb hout hrest => ?_⟩
    · rw [Function.update_of_ne]
      · exact h.adding b ℓ₁ hb
      · rintro rfl
        exact not_polled_of_adding hinv hb ℓ fd hfd
    · by_cases hℓ : ℓ₁ = ℓ
      · subst hℓ
        simp only [Function.update_self] at hb
        rw [Function.update_of_ne]
        · exact h.reported ℓ₁ b (hbatch ▸ List.mem_cons_of_mem a hb)
        · rintro rfl
          exact (List.nodup_cons.mp hnodup).1 hb
      · simp only [Function.update_of_ne hℓ] at hb
        rw [Function.update_of_ne]
        · exact h.reported ℓ₁ b hb
        · rintro rfl
          obtain ⟨fd', hfd'⟩ := (hinv.batches ℓ₁).2 b hb
          exact hℓ (polled_unique hinv hfd hfd').2.symm
    · by_cases hℓ : ℓ₁ = ℓ
      · subst hℓ
        have hba : b ≠ a := by
          rintro rfl
          exact hrest (by
            simp only [EventLoopers.State.Handles, EventLoopers.State.goto, Function.update_self])
        simp only [Function.update_self] at hout
        rw [Function.update_of_ne hba]
        refine h.resting ℓ₁ fd₁ b hb ?_ ?_
        · rw [hbatch]
          simp only [List.mem_cons, hba, hout, or_self, not_false_eq_true]
        · simp only [EventLoopers.State.Handles, hidle, not_false_eq_true]
      · have hba : b ≠ a := by
          rintro rfl
          exact hℓ (polled_unique hinv hfd hb).2.symm
        rw [Function.update_of_ne hba]
        refine h.resting ℓ₁ fd₁ b hb (by simpa only [Function.update_of_ne hℓ] using hout)
          fun hhandle => hrest ?_
        exact handles_mono hinv (Function.update_of_ne hℓ ..) hb hb hhandle
  · cases hstep

omit [DecidableEq L] in
/-- The thread of one event looper moves on, and is still in the handler it was in, unless its
connection is polled no longer. -/
lemma Staged.goto (h : Staged s conns) (hinv : EventLoopers.Inv s) (ℓ : L)
    (haccepting : s'.accepting = s.accepting) (hbatch : s'.batch = s.batch)
    (hpolled : ∀ ℓ fd a, s'.polled ℓ fd = some a → s.polled ℓ fd = some a)
    (hlooping : ∀ ℓ', ℓ' ≠ ℓ → s'.looping ℓ' = s.looping ℓ')
    (hself : ∀ fd a, s'.polled ℓ fd = some a → s.Handles ℓ a → s'.Handles ℓ a) :
    Staged s' conns := by
  refine h.mono (fun a ℓ' ha => haccepting ▸ ha) hbatch hpolled fun ℓ' fd a ha hhandle => ?_
  by_cases hℓ : ℓ' = ℓ
  · subst hℓ
    exact hself fd a ha hhandle
  · exact handles_mono hinv (hlooping ℓ' hℓ) (hpolled ℓ' fd a ha) ha hhandle

/-- The handler returns, and its connection is at rest. -/
lemma Staged.finish (h : Staged s conns) (hinv : EventLoopers.Inv s)
    (hcalling : s.looping ℓ = .calling a) (hrest : (conns a).stage = .polled)
    (hstep : EventLoopers.step s (.finish ℓ) = some s') : Staged s' conns := by
  simp only [EventLoopers.step, hcalling] at hstep
  cases hstep
  refine ⟨h.adding, h.reported, fun ℓ₁ fd₁ b hb hout hidle => ?_⟩
  by_cases hba : b = a
  · rw [hba, hrest]
  · refine h.resting ℓ₁ fd₁ b hb hout fun hhandle => ?_
    by_cases hℓ : ℓ₁ = ℓ
    · subst hℓ
      simp only [EventLoopers.State.Handles, hcalling] at hhandle
      exact hba hhandle.symm
    · exact hidle (handles_mono hinv (Function.update_of_ne hℓ ..) hb hb hhandle)

/-- `DeleteConnection` takes the latch. -/
lemma Staged.latchDelete (h : Staged s conns) (hinv : EventLoopers.Inv s)
    (hstep : EventLoopers.step s (.latchDelete ℓ) = some s') : Staged s' conns := by
  simp only [EventLoopers.step] at hstep
  split at hstep
  · next a hcalling =>
    obtain ⟨-, fd, hpolled⟩ := polled_of_calling hinv hcalling
    simp only [(hinv.watched ℓ fd a hpolled).1.1, Option.ite_none_right_eq_some] at hstep
    obtain ⟨-, hstep⟩ := hstep
    cases hstep
    refine h.goto hinv ℓ rfl rfl (fun _ _ _ hb => hb) (fun ℓ' hℓ => Function.update_of_ne hℓ ..)
      fun fd₁ b hb hhandle => ?_
    simp only [EventLoopers.State.Handles, hcalling] at hhandle
    simp only [EventLoopers.State.Handles, EventLoopers.State.goto, Function.update_self]
    rw [← hhandle]
    exact hpolled
  · cases hstep

/-- The entry is taken out of the map. -/
lemma Staged.erase (h : Staged s conns) (hinv : EventLoopers.Inv s)
    (hstep : EventLoopers.step s (.erase ℓ) = some s') : Staged s' conns := by
  simp only [EventLoopers.step] at hstep
  split at hstep
  · next fd ℓ' hfinding =>
    obtain ⟨rfl, -, a, -, hpolled, hconn⟩ := hinv.connections_of_finding hfinding
    simp only [hconn] at hstep
    cases hstep
    refine h.goto hinv ℓ' rfl rfl (fun _ _ _ hb => hb) (fun ℓ₁ hℓ => Function.update_of_ne hℓ ..)
      fun fd₁ b hb hhandle => ?_
    simp only [EventLoopers.State.Handles, hfinding] at hhandle
    simp only [EventLoopers.State.Handles, EventLoopers.State.goto, Function.update_self]
    exact Option.some.inj (hpolled.symm.trans hhandle)
  · cases hstep

/-- The socket is closed. -/
lemma Staged.close (h : Staged s conns) (hinv : EventLoopers.Inv s)
    (hstep : EventLoopers.step s (.close ℓ) = some s') : Staged s' conns := by
  simp only [EventLoopers.step] at hstep
  split at hstep
  · next a ℓ' herased =>
    have hdeleting := hinv.deleting ℓ
    rw [EventLoopers.State.Deleting, herased] at hdeleting
    obtain ⟨rfl, -, -, fd, hpolled, -⟩ := hdeleting
    have hlive := (hinv.watched ℓ' fd a hpolled).1
    simp only [hlive.1, EventLoopers.State.closeConn, if_pos hlive.2] at hstep
    cases hstep
    refine h.goto hinv ℓ' rfl rfl (fun ℓ₁ fd₁ b hb => ?_)
      (fun ℓ₁ hℓ => Function.update_of_ne hℓ ..) fun fd₁ b hb hhandle => ?_
    · simp only [EventLoopers.State.goto, ite_eq_iff, reduceCtorEq, and_false, false_or] at hb
      exact hb.2
    · simp only [EventLoopers.State.Handles, herased] at hhandle
      simp only [EventLoopers.State.Handles, EventLoopers.State.goto, Function.update_self]
      exact hhandle
  · cases hstep

/-- The memory is given back. -/
lemma Staged.free (h : Staged s conns) (hinv : EventLoopers.Inv s)
    (hstep : EventLoopers.step s (.free ℓ) = some s') : Staged s' conns := by
  simp only [EventLoopers.step] at hstep
  split at hstep
  · next a ℓ' hclosed =>
    have hdeleting := hinv.deleting ℓ
    rw [EventLoopers.State.Deleting, hclosed] at hdeleting
    obtain ⟨rfl, -, hdead⟩ := hdeleting
    cases hstep
    refine h.goto hinv ℓ' rfl rfl (fun _ _ _ hb => hb) (fun ℓ₁ hℓ => Function.update_of_ne hℓ ..)
      fun fd₁ b hb hhandle => ?_
    simp only [EventLoopers.State.Handles, hclosed] at hhandle
    subst hhandle
    obtain ⟨hheap, hne⟩ := (hinv.watched ℓ' fd₁ a hb).1
    rw [hdead] at hheap
    cases hheap
    exact absurd rfl hne
  · cases hstep

/-- `DeleteConnection` gives the latch back. -/
lemma Staged.unlatchDelete (h : Staged s conns) (hinv : EventLoopers.Inv s)
    (hstep : EventLoopers.step s (.unlatchDelete ℓ) = some s') : Staged s' conns := by
  simp only [EventLoopers.step] at hstep
  split at hstep
  · next ℓ' hreturning =>
    cases hstep
    refine h.goto hinv ℓ rfl rfl (fun _ _ _ hb => hb) (fun ℓ₁ hℓ => Function.update_of_ne hℓ ..)
      fun fd₁ b hb hhandle => ?_
    simp only [EventLoopers.State.Handles, hreturning] at hhandle
  · cases hstep

/-- The other steps of the acceptor. -/
lemma Staged.acceptor {l : EventLoopers.Label L} (h : Staged s conns) (hinv : EventLoopers.Inv s)
    (hl : l = .latchAdd ∨ l = .insert ∨ l = .unlatchAdd)
    (hstep : EventLoopers.step s l = some s') : Staged s' conns := by
  rcases hl with rfl | rfl | rfl
  · simp only [EventLoopers.step] at hstep
    split at hstep
    · next a ℓ hmade =>
      simp only [Option.ite_none_right_eq_some] at hstep
      obtain ⟨-, hstep⟩ := hstep
      cases hstep
      refine h.mono (fun b ℓ' hb => ?_) rfl (fun _ _ _ hb => hb) fun _ _ _ _ hhandle => hhandle
      rcases hb with hb | hb <;> cases hb
      exact .inl hmade
    · cases hstep
  · simp only [EventLoopers.step] at hstep
    split at hstep
    · next a ℓ hregistered =>
      -- the map has no entry for a descriptor that has just been given out
      have hadding := hinv.adding
      rw [EventLoopers.State.Adding, hregistered] at hadding
      obtain ⟨-, fd, hlive, hnone⟩ := hadding
      simp only [hlive.1, hnone] at hstep
      cases hstep
      refine h.mono (fun b ℓ' hb => ?_) rfl (fun _ _ _ hb => hb) fun _ _ _ _ hhandle => hhandle
      rcases hb with hb | hb <;> cases hb
    · cases hstep
  · simp only [EventLoopers.step] at hstep
    split at hstep
    · next ℓ hinserted =>
      cases hstep
      refine h.mono (fun b ℓ' hb => ?_) rfl (fun _ _ _ hb => hb) fun _ _ _ _ hhandle => hhandle
      rcases hb with hb | hb <;> cases hb
    · cases hstep

end Threads

/-! ## The reactors -/

/-- The connections on the heap are connections of the reactors, all different ones, which have been
accepted; the reactors have the same cache and have met the same fault; and nothing has happened to
the connections that are yet to be accepted. -/
structure Mirrors (d : State L) (s : Reactor.State ℕ) : Prop where
  cache : s.cache = d.server.cache
  fault : s.fault = d.server.fault
  conns : ∀ a, d.threads.heap a ≠ none → s.conns (d.name a) = d.server.conns a
  accepted : ∀ a, d.threads.heap a ≠ none → d.name a < d.accepted
  names : ∀ a b, d.threads.heap a ≠ none → d.threads.heap b ≠ none → d.name a = d.name b → a = b
  fresh : ∀ k, d.accepted ≤ k → s.conns k = .new

section Mirrors

variable {d : State L} {s : Reactor.State ℕ} {a : Addr}

omit [DecidableEq L] in
/-- Connections may be taken from the heap. -/
lemma Mirrors.threads (h : Mirrors d s) (threads : EventLoopers.State L)
    (hheap : ∀ a, threads.heap a ≠ none → d.threads.heap a ≠ none) :
    Mirrors { d with threads } s where
  cache := h.cache
  fault := h.fault
  conns a ha := h.conns a (hheap a ha)
  accepted a ha := h.accepted a (hheap a ha)
  names a b ha hb := h.names a b (hheap a ha) (hheap b hb)
  fresh := h.fresh

variable {servingDirectory fs A} in
omit [DecidableEq L] in
/-- What happens to a connection on the heap happens to the connection of the reactors that it
is. -/
lemma Mirrors.act (h : Mirrors d s) (ha : d.threads.heap a ≠ none) {act : Act}
    {server : Reactor.State Addr} (hfault : d.server.fault = none)
    (hstep : Reactor.liveStep servingDirectory fs A d.server ⟨a, act⟩ = some server) :
    ∃ s', Reactor.step servingDirectory fs A s ⟨d.name a, act⟩ = some s' ∧
      Mirrors { d with server } s' := by
  obtain ⟨o, rfl, hsame⟩ := Reactor.liveStep_congr ℕ hstep
  refine ⟨s.put (d.name a) o, ?_, rfl, rfl, fun b hb => ?_, h.accepted, h.names, fun k hk => ?_⟩
  · simp only [Reactor.step, h.fault.trans hfault]
    exact hsame s (d.name a) h.cache (h.conns a ha)
  · simp only [Reactor.State.put]
    by_cases hba : b = a
    · rw [hba, Function.update_self, Function.update_self]
    · rw [Function.update_of_ne hba, Function.update_of_ne fun heq => hba (h.names b a hb ha heq)]
      exact h.conns b hb
  · have hne : k ≠ d.name a := ((h.accepted a ha).trans_le hk).ne'
    exact (Function.update_of_ne hne ..).trans (h.fresh k hk)

omit [DecidableEq L] in
/-- The same for a step of its receiving side. -/
lemma Mirrors.intake (h : Mirrors d s) (ha : d.threads.heap a ≠ none) {e : Intake}
    {c : Reactor.Conn} (hfault : d.server.fault = none)
    (hintake : (d.server.conns a).intake e = some c) :
    ∃ s', Reactor.step servingDirectory fs A s ⟨d.name a, .intake e⟩ = some s' ∧
      Mirrors { d with server := d.server.set a c } s' := by
  refine h.act ha hfault ?_
  rw [Reactor.liveStep_intake servingDirectory fs A hfault, hintake]
  rfl

omit [DecidableEq L] in
/-- A new connection is the next one of the reactors. -/
lemma Mirrors.accept (h : Mirrors d s) (hfree : d.threads.heap a = none)
    (threads : EventLoopers.State L)
    (hheap : ∀ b, b ≠ a → threads.heap b ≠ none → d.threads.heap b ≠ none) :
    Mirrors { threads, server := d.server.set a .new, accepted := d.accepted + 1,
              name := Function.update d.name a d.accepted } s where
  cache := h.cache
  fault := h.fault
  conns b hb := by
    by_cases hba : b = a
    · subst hba
      simpa [Reactor.State.set] using h.fresh d.accepted le_rfl
    · simpa [Reactor.State.set, hba] using h.conns b (hheap b hba hb)
  accepted b hb := by
    by_cases hba : b = a
    · subst hba
      simp
    · simpa [hba] using (h.accepted b (hheap b hba hb)).trans (Nat.lt_succ_self _)
  names b c hb hc heq := by
    by_cases hba : b = a <;> by_cases hca : c = a
    · rw [hba, hca]
    · simp only [hba, Function.update_self, Function.update_of_ne hca] at heq
      exact absurd heq (h.accepted c (hheap c hca hc)).ne'
    · simp only [hca, Function.update_self, Function.update_of_ne hba] at heq
      exact absurd heq (h.accepted b (hheap b hba hb)).ne
    · simp only [Function.update_of_ne hba, Function.update_of_ne hca] at heq
      exact h.names b c (hheap b hba hb) (hheap c hca hc) heq
  fresh k hk := h.fresh k ((Nat.le_succ _).trans hk)

omit [DecidableEq L] in
/-- A connection that is at rest is reported, for a reason or for none. -/
lemma Mirrors.report (h : Mirrors d s) (ha : d.threads.heap a ≠ none)
    (hfault : d.server.fault = none) (hstage : (d.server.conns a).stage = .polled) :
    ∃ ls s', Transition.exec (Reactor.step servingDirectory fs A) s ls = some s' ∧
      Mirrors { d with
        server := d.server.set a
          { d.server.conns a with stage := .reported, edge := false } } s' := by
  obtain ⟨s₁, hspurious, h₁⟩ := h.intake servingDirectory fs A ha (e := .spurious) hfault rfl
  obtain ⟨s₂, hpoll, h₂⟩ := h₁.intake servingDirectory fs A ha (e := .poll) hfault
    (c := { d.server.conns a with stage := .reported, edge := false })
    (by simp [Reactor.Conn.intake, Reactor.State.set, hstage])
  refine ⟨[.spurious (d.name a), .poll (d.name a)], s₂, ?_, ?_⟩
  · rw [Transition.exec_cons hspurious, Transition.exec_cons hpoll]
    rfl
  · simpa only [Reactor.State.set, Function.update_idem] using h₂

omit [DecidableEq L] in
/-- All connections of a batch are reported. -/
lemma Mirrors.batch {batch : List Addr} (h : Mirrors d s) (hnodup : batch.Nodup)
    (hbatch : ∀ a ∈ batch, d.threads.heap a ≠ none ∧ (d.server.conns a).stage = .polled)
    (hfault : d.server.fault = none) :
    ∃ ls s', Transition.exec (Reactor.step servingDirectory fs A) s ls = some s' ∧
      Mirrors { d with server := d.server.report batch } s' := by
  induction batch generalizing d s with
  | nil => exact ⟨[], s, rfl, by simpa [Reactor.State.report] using h⟩
  | cons a batch ih =>
    obtain ⟨hout, hrest⟩ := List.nodup_cons.mp hnodup
    obtain ⟨ha, hstage⟩ := hbatch a List.mem_cons_self
    obtain ⟨ls₁, s₁, hrun₁, h₁⟩ := h.report servingDirectory fs A ha hfault hstage
    obtain ⟨ls₂, s₂, hrun₂, h₂⟩ := ih h₁ hrest (fun b hb => by
      have hba : b ≠ a := by
        rintro rfl
        exact hout hb
      simpa [Reactor.State.set, hba] using hbatch b (List.mem_cons_of_mem a hb)) hfault
    rw [d.server.report_cons hout]
    exact ⟨ls₁ ++ ls₂, s₂, (Transition.exec_append ls₂ hrun₁).trans hrun₂, h₂⟩

end Mirrors

/-! ## The simulation -/

/-- What the threads and the connections keep to, and the reactors they are seen as. -/
structure Simulates (d : State L) (s : Reactor.State ℕ) : Prop where
  inv : EventLoopers.Inv d.threads
  staged : Staged d.threads d.server.conns
  mirrors : Mirrors d s

section Simulation

variable {servingDirectory fs A} {d d' : State L} {s : Reactor.State ℕ} {a : Addr} {ℓ : L}

/-- A connection is allocated by `accept` alone. -/
lemma heap_of_step {t t' : EventLoopers.State L} {l : EventLoopers.Label L}
    (hstep : EventLoopers.step t l = some t') (hl : ∀ fd a ℓ, l ≠ .accept fd a ℓ) :
    ∀ a, t'.heap a ≠ none → t.heap a ≠ none := by
  intro a ha hnone
  refine ha ?_
  cases l with
  | accept fd b ℓ => exact absurd rfl (hl fd b ℓ)
  | insert =>
    simp only [EventLoopers.step] at hstep
    repeat' split at hstep
    all_goals cases hstep
    · exact hnone
    · -- the connection that is dropped was the only one to change
      simp only [EventLoopers.State.freeConn, EventLoopers.State.closeConn]
      split <;> simp [Function.update_apply, hnone]
  | close ℓ =>
    simp only [EventLoopers.step] at hstep
    repeat' split at hstep
    all_goals cases hstep
    rename_i b ℓ' _ _ conn hconn
    have hab : a ≠ b := by
      rintro rfl
      cases hnone.symm.trans hconn
    simp only [EventLoopers.State.goto, EventLoopers.State.closeConn]
    split <;> simp [hab, hnone]
  | free ℓ =>
    simp only [EventLoopers.step] at hstep
    split at hstep <;> cases hstep
    simp [EventLoopers.State.goto, EventLoopers.State.freeConn, Function.update_apply, hnone]
  | _ =>
    simp only [EventLoopers.step] at hstep
    repeat' split at hstep
    all_goals cases hstep
    all_goals exact hnone

omit [DecidableEq L] in
/-- The network does something to a connection. -/
lemma Simulates.network (h : Simulates d s) {e : Intake} (hfault : d.server.fault = none)
    (he : (∃ m, e = .arrive m) ∨ ∃ how, e = .close how) (hstep : networkStep d a e = some d') :
    ∃ ls s', Transition.exec (Reactor.step servingDirectory fs A) s ls = some s' ∧
      Simulates d' s' := by
  unfold networkStep at hstep
  split at hstep
  · next conn hheap =>
    simp only [Option.ite_none_right_eq_some, Option.map_eq_some_iff] at hstep
    obtain ⟨-, c, hintake, rfl⟩ := hstep
    obtain ⟨s', hs', hmirrors⟩ :=
      h.mirrors.intake servingDirectory fs A (by simp [hheap]) hfault hintake
    have hstage : c.stage = (d.server.conns a).stage := by
      rcases he with ⟨m, rfl⟩ | ⟨how, rfl⟩ <;> cases Reactor.Conn.takes_of_intake hintake <;> rfl
    refine ⟨[_], s', (Transition.exec_cons hs' []).trans rfl, h.inv, h.staged.congr fun b => ?_,
      hmirrors⟩
    by_cases hba : b = a
    · subst hba
      simpa [Reactor.State.set] using hstage
    · simp [Reactor.State.set, hba]
  · cases hstep

omit [DecidableEq L] in
/-- The handler that a thread is in does something. -/
lemma Simulates.handler (h : Simulates d s) {act : Act} (hfault : d.server.fault = none)
    (hstep : handlerStep servingDirectory fs A d ℓ act = some d') :
    ∃ ls s', Transition.exec (Reactor.step servingDirectory fs A) s ls = some s' ∧
      Simulates d' s' := by
  unfold handlerStep at hstep
  split at hstep
  · next a hcalling =>
    simp only [Option.map_eq_some_iff] at hstep
    obtain ⟨server, hlive, rfl⟩ := hstep
    obtain ⟨-, fd, hpolled⟩ := polled_of_calling h.inv hcalling
    obtain ⟨s', hs', hmirrors⟩ := h.mirrors.act (heap_of_polled h.inv hpolled) hfault hlive
    obtain ⟨o, -, rfl⟩ := Option.map_eq_some_iff.mp hlive
    exact ⟨[_], s', (Transition.exec_cons hs' []).trans rfl, h.inv,
      h.staged.handler h.inv hcalling o.conn, hmirrors⟩
  · cases hstep

/-- A thread moves.

**Proof sketch.** Most steps do nothing to the connections, and the reactors take no step. The
connection that is accepted is the next of those that the reactors have had all along. Registering
and calling back are steps of the reactors, which are possible because the place of the acceptor and
the batch tell the stage (`Staged`). A batch is reported connection by connection, each for no
reason first: what is ready is at rest. -/
lemma Simulates.thread (h : Simulates d s) {l : EventLoopers.Label L}
    {threads : EventLoopers.State L} (hfault : d.server.fault = none)
    (hpermits : d.permits l = true) (hstep : EventLoopers.step d.threads l = some threads) :
    ∃ ls s', Transition.exec (Reactor.step servingDirectory fs A) s ls = some s' ∧
      Simulates { d.serve l with threads } s' := by
  have hinv := h.inv.step hstep
  -- most steps do nothing to the connections
  have hquiet : (∀ fd a ℓ, l ≠ .accept fd a ℓ) → d.serve l = d →
      Staged threads d.server.conns →
      ∃ ls s', Transition.exec (Reactor.step servingDirectory fs A) s ls = some s' ∧
        Simulates { d.serve l with threads } s' := by
    intro hl hserve hstaged
    rw [hserve]
    exact ⟨[], s, rfl, hinv, hstaged, h.mirrors.threads threads (heap_of_step hstep hl)⟩
  cases l with
  | accept fd a ℓ =>
    have hstaged := h.staged.accept h.inv hstep
    simp only [EventLoopers.step] at hstep
    split at hstep
    · next hguard =>
      obtain ⟨-, -, -, hfree⟩ := hguard
      cases hstep
      refine ⟨[], s, rfl, hinv, hstaged, h.mirrors.accept hfree _ fun b hba hb => ?_⟩
      simpa only [Function.update_of_ne hba] using hb
    · cases hstep
  | latchAdd =>
    exact hquiet (by simp) rfl (h.staged.acceptor h.inv (.inl rfl) hstep)
  | register =>
    cases hphase : d.threads.accepting with
    | latched a ℓ =>
      have hintake : (d.server.conns a).intake .register =
          some (d.server.conns a).register := if_pos (h.staged.adding a ℓ (.inr hphase))
      have hadding := h.inv.adding
      rw [EventLoopers.State.Adding, hphase] at hadding
      obtain ⟨-, fd, hlives, -⟩ := hadding
      obtain ⟨s', hs', hmirrors⟩ :=
        h.mirrors.intake servingDirectory fs A (by simp [hlives.1]) hfault hintake
      refine ⟨[_], s', (Transition.exec_cons hs' []).trans rfl, hinv, ?_, ?_⟩
      · simpa [State.serve, hphase, Reactor.State.set] using
          h.staged.register h.inv hphase hstep
      · have hthreads := hmirrors.threads threads (heap_of_step hstep (by simp))
        simpa only [State.serve, hphase] using hthreads
    | _ => simp [EventLoopers.step, hphase] at hstep
  | insert =>
    exact hquiet (by simp) rfl (h.staged.acceptor h.inv (.inr (.inl rfl)) hstep)
  | unlatchAdd =>
    exact hquiet (by simp) rfl (h.staged.acceptor h.inv (.inr (.inr rfl)) hstep)
  | poll ℓ ready =>
    have hstaged := h.staged.poll h.inv hstep
    have hheap := heap_of_step hstep (by simp)
    have hbatch := (hinv.batches ℓ).1
    simp only [EventLoopers.step] at hstep
    split at hstep
    · next hguard =>
      obtain ⟨hidle, hempty, -, -⟩ := hguard
      cases hstep
      simp only [Function.update_self] at hbatch
      obtain ⟨ls, s', hrun, hmirrors⟩ := h.mirrors.batch servingDirectory fs A hbatch
        (fun b hb => by
          obtain ⟨fd, -, hpolled⟩ := List.mem_filterMap.mp hb
          refine ⟨heap_of_polled h.inv hpolled, ?_⟩
          exact h.staged.resting ℓ fd b hpolled (by simp [hempty])
            (by simp only [EventLoopers.State.Handles, hidle, not_false_eq_true])) hfault
      exact ⟨ls, s', hrun, hinv, hstaged, hmirrors.threads _ hheap⟩
    · cases hstep
  | callback ℓ =>
    cases hbatch : d.threads.batch ℓ with
    | nil => simp [EventLoopers.step, hbatch] at hstep
    | cons a rest =>
      have hintake : (d.server.conns a).intake .callback =
          some { d.server.conns a with stage := .receiving } :=
        if_pos (h.staged.reported ℓ a (by simp [hbatch]))
      obtain ⟨fd, hpolled⟩ := (h.inv.batches ℓ).2 a (by simp [hbatch])
      obtain ⟨s', hs', hmirrors⟩ := h.mirrors.intake servingDirectory fs A
        (heap_of_polled h.inv hpolled) hfault hintake
      refine ⟨[_], s', (Transition.exec_cons hs' []).trans rfl, hinv, ?_, ?_⟩
      · simpa [State.serve, hbatch, Reactor.State.set] using
          h.staged.callback h.inv hbatch hstep
      · have hthreads := hmirrors.threads threads (heap_of_step hstep (by simp))
        simpa only [State.serve, hbatch] using hthreads
  | finish ℓ =>
    refine hquiet (by simp) rfl ?_
    cases hphase : d.threads.looping ℓ with
    | calling a =>
      simp only [State.permits, hphase, decide_eq_true_eq] at hpermits
      exact h.staged.finish h.inv hphase hpermits hstep
    | _ => simp [EventLoopers.step, hphase] at hstep
  | latchDelete ℓ => exact hquiet (by simp) rfl (h.staged.latchDelete h.inv hstep)
  | erase ℓ => exact hquiet (by simp) rfl (h.staged.erase h.inv hstep)
  | close ℓ => exact hquiet (by simp) rfl (h.staged.close h.inv hstep)
  | free ℓ => exact hquiet (by simp) rfl (h.staged.free h.inv hstep)
  | unlatchDelete ℓ => exact hquiet (by simp) rfl (h.staged.unlatchDelete h.inv hstep)

omit [DecidableEq L] in
/-- Before the first connection. -/
lemma Simulates.start (opened : Finset Fd) (A : Allocator) (capacity : Int32)
    (now₁ now₂ : UInt64) :
    Simulates (State.start (L := L) opened A capacity now₁ now₂)
      (.start ℕ A capacity now₁ now₂) where
  inv := .start opened
  staged :=
    { adding := by rintro a ℓ (ha | ha) <;> cases ha
      reported := by rintro ℓ a ⟨⟩
      resting := by rintro ℓ fd a ⟨⟩ }
  mirrors :=
    { cache := rfl
      fault := rfl
      conns := fun a ha => absurd rfl ha
      accepted := fun a ha => absurd rfl ha
      names := fun a b ha => absurd rfl ha
      fresh := fun _ _ => rfl }

/-- **The step lemma**: whatever the network, a thread or a handler does, the reactors can
follow. -/
lemma Simulates.step (h : Simulates d s) {l : Label L}
    (hstep : step servingDirectory fs A d l = some d') :
    ∃ ls s', Transition.exec (Reactor.step servingDirectory fs A) s ls = some s' ∧
      Simulates d' s' := by
  unfold Deployment.step at hstep
  split at hstep
  · cases hstep
  · next hfault =>
    cases l with
    | arrive a m => exact h.network hfault (.inl ⟨m, rfl⟩) hstep
    | hangUp a how => exact h.network hfault (.inr ⟨how, rfl⟩) hstep
    | thread l =>
      simp only [Option.ite_none_right_eq_some, Option.map_eq_some_iff] at hstep
      obtain ⟨hpermits, threads, hthread, rfl⟩ := hstep
      exact h.thread hfault hpermits hthread
    | recv ℓ result => exact h.handler hfault hstep
    | begin ℓ now => exact h.handler hfault hstep
    | finish ℓ now => exact h.handler hfault hstep

/-- After any run, the event loopers are reactors at work. -/
lemma Simulates.of_run {opened : Finset Fd} {capacity : Int32} {now₁ now₂ : UInt64}
    {run : List (Label L)} (hrun : Transition.exec (Deployment.step servingDirectory fs A)
      (State.start opened A capacity now₁ now₂) run = some d) :
    ∃ ls s, Transition.exec (Reactor.step servingDirectory fs A)
      (.start ℕ A capacity now₁ now₂) ls = some s ∧ Simulates d s :=
  Transition.exists_exec_of_simulation Simulates (fun _ _ _ _ h => h.step) run
    (.start opened A capacity now₁ now₂) hrun

end Simulation

variable {servingDirectory fs A} {d : State L} {opened : Finset Fd} {capacity : Int32}
  {now₁ now₂ : UInt64} {run : List (Label L)}

/-- The steps that put a new connection at this address into the poller of the only event looper. -/
def connect (fd : Fd) (a : Addr) : List (Label Unit) :=
  [.thread (.accept fd a ()), .thread .latchAdd, .thread .register, .thread .insert,
    .thread .unlatchAdd]

/-- One call of `recv` can read the whole request. -/
lemma sampleGet_size : 0 < sampleGet.length ∧ sampleGet.length ≤ tempBufSize := by decide

/-- The steps that answer one request, with those that its page takes if it is not in the cache. -/
def sampleTurn (fd : Fd) (insertion : List (Label Unit)) : List (Label Unit) :=
  .thread (.poll () [fd]) :: .thread (.callback ()) :: .recv () (.data sampleGet sampleGet_size) ::
    .recv () (.error .eagain) :: .begin () 1 ::
    (insertion ++ [.begin () 3, .thread (.finish ())])

/-- A connection asks for a page and leaves, and the next one, which asks for it again, is given the
same address and the same descriptor. -/
def sampleRun : List (Label Unit) :=
  List.flatten [connect 3 100, [.arrive 100 sampleGet], sampleTurn 3 [.finish () 2],
    [.hangUp 100 .shutdown, .thread (.poll () [3]), .thread (.callback ()), .recv () .eof,
      .thread (.latchDelete ()), .thread (.erase ()), .thread (.close ()), .thread (.free ()),
      .thread (.unlatchDelete ())],
    connect 3 100, [.arrive 100 sampleGet], sampleTurn 3 []]

/-- **Nobody else's bytes.** Whatever else the event loopers serve, and whatever connections have
had its address and its descriptor before: as long as its peer stays, the history of a connection on
the heap is the beginning of what it would be in any other server for the same files, if its own
stream had been there from the start. If it is polled, and it is in no batch and in no handler, and
nothing has happened to it since, all of its stream has been received, every request in it has been
answered like that, and the read buffer holds the beginning of the next request and nothing more. -/
theorem served_on_heap (hrun : Transition.exec (step servingDirectory fs A)
      (State.start opened A capacity now₁ now₂) run = some d) {a : Addr}
    (hheap : d.threads.heap a ≠ none)
    (hplain : Reactor.Plain servingDirectory (d.server.conns a).arrived) {site : Site}
    (hsite : site.servingDirectory = servingDirectory) (hfiles : ∀ n, site.fileSystem n = fs)
    {w : World Cache} (hw : Served site w) :
    (.peerClosed ∉ (d.server.conns a).events → (d.server.conns a).events <+:
      (Reactor.solo site w (d.server.conns a).arrived).events) ∧
    ∀ ℓ fd, d.threads.polled ℓ fd = some a → a ∉ d.threads.batch ℓ → ¬ d.threads.Handles ℓ a →
      (d.server.conns a).edge = false →
        (d.server.conns a).pending = [] ∧
        (d.server.conns a).events = (Reactor.solo site w (d.server.conns a).arrived).events ∧
        (d.server.conns a).readBuffer = (Reactor.solo site w (d.server.conns a).arrived).unread ∧
        ¬ crlfCrlf <:+: (d.server.conns a).readBuffer := by
  obtain ⟨ls, s, hexec, h⟩ := Simulates.of_run hrun
  have hinv := Reactor.Inv.of_run hexec
  rw [← h.mirrors.conns a hheap] at hplain ⊢
  refine ⟨fun hpeer => ?_, fun ℓ fd hpolled hbatch hidle hedge => ?_⟩
  · exact ((hinv.history _ hplain hsite hfiles hw).1 hpeer).1
  · have hstage := h.staged.resting ℓ fd a hpolled hbatch hidle
    rw [← h.mirrors.conns a hheap] at hstage
    obtain ⟨hpending, hevents, hbuffer, -, hrest⟩ :=
      hinv.complete _ hplain hsite hfiles hw hstage hedge
    exact ⟨hpending, hevents, hbuffer, hrest⟩

/-- The connection that is given the address of another one is served as if it were the first. -/
theorem served_on_heap_reuse :
    ∃ d, Transition.exec (step (bytes "www") sampleFiles Allocator.bump)
        (State.start {0, 1, 2} Allocator.bump initCacheSize 0 0) sampleRun = some d ∧
      d.threads.polled () 3 = some 100 ∧
      (.peerClosed ∉ (d.server.conns 100).events → (d.server.conns 100).events <+:
        (Reactor.solo sampleSite sampleWorld (d.server.conns 100).arrived).events) ∧
      ∀ ℓ fd, d.threads.polled ℓ fd = some 100 → 100 ∉ d.threads.batch ℓ →
        ¬ d.threads.Handles ℓ 100 → (d.server.conns 100).edge = false →
          (d.server.conns 100).pending = [] ∧
          (d.server.conns 100).events =
            (Reactor.solo sampleSite sampleWorld (d.server.conns 100).arrived).events ∧
          (d.server.conns 100).readBuffer =
            (Reactor.solo sampleSite sampleWorld (d.server.conns 100).arrived).unread ∧
          ¬ crlfCrlf <:+: (d.server.conns 100).readBuffer := by
  have hseen : (Transition.exec (step (bytes "www") sampleFiles Allocator.bump)
      (State.start {0, 1, 2} Allocator.bump initCacheSize 0 0) sampleRun).map
      (fun d => (d.threads.polled () 3, (d.threads.heap 100).isSome,
        (d.server.conns 100).arrived)) = some (some 100, true, sampleGet) := by
    decide +kernel
  obtain ⟨d, hrun, hd⟩ := Option.map_eq_some_iff.mp hseen
  simp only [Prod.mk.injEq] at hd
  obtain ⟨hpolled, hheap, harrived⟩ := hd
  have hplain : Reactor.Plain (bytes "www") (d.server.conns 100).arrived := by
    rw [harrived]
    decide +kernel
  exact ⟨d, hrun, hpolled, served_on_heap hrun (Option.isSome_iff_ne_none.mp hheap) hplain rfl
    (fun _ => rfl) (.start initCacheSize 0 0)⟩

end Deployment

end Icee.Http
