import Icee.Core.IceeServer
import Icee.Core.PoolDestructor

set_option relaxedAutoImplicit false
set_option autoImplicit false

/-!
# The life of the server

`IceeServer` in `src/include/core/icee_server.h` from its constructor to the end of its members. The
workers of the pool run the loops of the reactors, which are other members of the server, and the
members are destroyed in the reverse order of their declarations, also when the constructor throws.

## Main definitions

* `Icee.ServerLifetime.Member`, `Icee.ServerLifetime.members` — the members, as they are declared.
* `Icee.ServerLifetime.State`, `Icee.ServerLifetime.step` — the server and its steps.
* `Icee.ServerLifetime.State.alive` — the member has not been destroyed.
* `Icee.ServerLifetime.Inv` — the invariant.

## Main results

* `Icee.ServerLifetime.members_outlive_workers` — no worker is left when a member has been
  destroyed, and no connection is accepted before there is a handler for it.
* `Icee.ServerLifetime.destroyed_iff` — when the server can be destroyed at all.

## Design

The model begins when the pool and the reactors have been made. The handlers that `OnHandle` is
given are of any type; `none` is the lambda with an empty body that the constructor of `Acceptor`
stores.
-/

namespace Icee

namespace ServerLifetime

variable {n : ℕ} {H : Type*}

/-- The members of an `IceeServer` that have something to destroy. -/
inductive Member
  | reactors
  | acceptor
  | listener
  | threadPool
  deriving DecidableEq, Repr

/-- The members in the order of their declarations. -/
def members : List Member := [.reactors, .acceptor, .listener, .threadPool]

/-- How far the thread of the server has come. -/
inductive Stage
  /-- In the constructor. -/
  | constructing
  /-- The constructor has returned. -/
  | constructed
  /-- In `listener_->loop()`. -/
  | listening
  /-- These members are still to be destroyed, in this order. -/
  | destroying (rest : List Member)
  deriving DecidableEq, Repr

/-- The pool with the reactors' loops as its tasks, the other members, and the callbacks of the
connections that have been accepted. -/
structure State (n : ℕ) (H : Type*) where
  pool : IceeServer.Pool n
  stage : Stage
  setedOnHandle : Bool
  handleCallback : Option H
  accepted : List (Option H)

/-- The steps of the threads. -/
inductive Label (n : ℕ) (H : Type*)
  /-- The constructor submits the loop of the next reactor. -/
  | submitNext
  /-- The constructor makes the acceptor and returns. -/
  | makeAcceptor
  /-- `OnHandle`. -/
  | onHandle (handler : H)
  /-- `Begin`. -/
  | begin
  /-- `BaseAcceptCallback` makes a connection. -/
  | accept
  /-- `listener_->loop()` returns or throws. -/
  | leave
  /-- The constructor throws, or the destructor is called: `~ThreadPool` sets `done_`. -/
  | destroy
  /-- `~Joiner` joins the next thread. -/
  | join
  /-- The member whose turn it is has been destroyed. -/
  | destroyed
  | test (w : Fin n)
  | tryPop (w : Fin n)
  | finish (w : Fin n)

/-- The server with its pool and reactors made. -/
def State.start (n : ℕ) (H : Type*) : State n H where
  pool := ThreadPool.init
  stage := .constructing
  setedOnHandle := false
  handleCallback := none
  accepted := []

/-- The member has not been destroyed. -/
def State.alive (s : State n H) (member : Member) : Bool :=
  match s.stage with
  | .destroying rest => rest.contains member
  | _ => true

/-- A step of the pool. -/
def State.inPool (exit : Fin n → Bool) (s : State n H) (l : ThreadPool.Label n (Fin n)) :
    Option (State n H) :=
  (ThreadPool.step exit s.pool l).map fun pool => { s with pool }

/-- One step of a thread, if it is possible; `exit` are the flags `exit_` of the reactors. -/
def step (exit : Fin n → Bool) (s : State n H) : Label n H → Option (State n H)
  | .submitNext =>
    if s.stage = .constructing then
      if h : s.pool.submitted.length < n then s.inPool exit (.submit ⟨s.pool.submitted.length, h⟩)
      else none
    else none
  | .makeAcceptor =>
    if s.stage = .constructing ∧ s.pool.submitted.length = n then
      some { s with stage := .constructed }
    else none
  | .onHandle handler =>
    if s.stage = .constructed then
      some { s with handleCallback := some handler, setedOnHandle := true }
    else none
  | .begin =>
    -- without a handler it throws, and the server is as it was
    if s.stage = .constructed then
      if s.setedOnHandle then some { s with stage := .listening } else some s
    else none
  | .accept =>
    if s.stage = .listening then some { s with accepted := s.accepted ++ [s.handleCallback] }
    else none
  | .leave => if s.stage = .listening then some { s with stage := .constructed } else none
  | .destroy =>
    if s.stage = .constructing ∨ s.stage = .constructed then
      (s.inPool exit .setDone).map fun s => { s with stage := .destroying members.reverse }
    else none
  | .join => match s.stage with
    | .destroying (.threadPool :: _) => s.inPool exit .join
    | _ => none
  | .destroyed => match s.stage with
    | .destroying (.threadPool :: rest) =>
      if s.pool.owner = .joining n then some { s with stage := .destroying rest } else none
    | .destroying (_ :: rest) => some { s with stage := .destroying rest }
    | _ => none
  | .test w => s.inPool exit (.test w)
  | .tryPop w => s.inPool exit (.tryPop w)
  | .finish w => s.inPool exit (.finish w)

/-! ## The inversion of a step -/

/-- The steps of the server, with what they require and what they do. -/
inductive Moves (exit : Fin n → Bool) (s : State n H) : State n H → Prop
  | run {l : ThreadPool.Label n (Fin n)} {pool : IceeServer.Pool n}
    (next : ThreadPool.step exit s.pool l = some pool) (owner : pool.owner = s.pool.owner) :
    Moves exit s { s with pool }
  | makeAcceptor (stage : s.stage = .constructing) :
    Moves exit s { s with stage := .constructed }
  | onHandle {handler : H} (stage : s.stage = .constructed) :
    Moves exit s { s with handleCallback := some handler, setedOnHandle := true }
  | refuse (stage : s.stage = .constructed) : Moves exit s s
  | begin (stage : s.stage = .constructed) (seted : s.setedOnHandle = true) :
    Moves exit s { s with stage := .listening }
  | accept (stage : s.stage = .listening) :
    Moves exit s { s with accepted := s.accepted ++ [s.handleCallback] }
  | leave (stage : s.stage = .listening) : Moves exit s { s with stage := .constructed }
  | destroy {pool : IceeServer.Pool n} (stage : s.stage = .constructing ∨ s.stage = .constructed)
    (next : ThreadPool.step exit s.pool .setDone = some pool) :
    Moves exit s { s with pool, stage := .destroying members.reverse }
  | join {rest : List Member} {pool : IceeServer.Pool n}
    (stage : s.stage = .destroying (.threadPool :: rest))
    (next : ThreadPool.step exit s.pool .join = some pool) : Moves exit s { s with pool }
  | poolDestroyed {rest : List Member} (stage : s.stage = .destroying (.threadPool :: rest))
    (joined : s.pool.owner = .joining n) : Moves exit s { s with stage := .destroying rest }
  | destroyed {member : Member} {rest : List Member} (ne : member ≠ .threadPool)
    (stage : s.stage = .destroying (member :: rest)) :
    Moves exit s { s with stage := .destroying rest }

variable {exit : Fin n → Bool}

/-- A step of the pool. -/
lemma eq_of_inPool {s s' : State n H} {l : ThreadPool.Label n (Fin n)}
    (h : s.inPool exit l = some s') :
    ∃ pool, ThreadPool.step exit s.pool l = some pool ∧ s' = { s with pool } := by
  obtain ⟨pool, hnext, rfl⟩ := Option.map_eq_some_iff.mp h
  exact ⟨pool, hnext, rfl⟩

/-- A worker leaves the owner of the pool where it is, and so does the constructor. -/
lemma owner_eq {pool pool' : IceeServer.Pool n} {l : ThreadPool.Label n (Fin n)}
    (h : ThreadPool.step exit pool l = some pool') (hset : l ≠ .setDone) (hjoin : l ≠ .join) :
    pool'.owner = pool.owner := by
  cases ThreadPool.moves_of_step h with
  | setDone inUse => exact absurd rfl hset
  | join lt joining exited => exact absurd rfl hjoin
  | _ => rfl

/-- **The inversion of a step.** -/
lemma moves_of_step {s s' : State n H} {l : Label n H} (h : step exit s l = some s') :
    Moves exit s s' := by
  cases l with
  | submitNext =>
    simp only [step] at h
    split at h
    · split at h
      · obtain ⟨pool, hnext, rfl⟩ := eq_of_inPool h
        exact .run hnext (owner_eq hnext (by simp) (by simp))
      · cases h
    · cases h
  | makeAcceptor =>
    simp only [step, Option.ite_none_right_eq_some, Option.some.injEq] at h
    obtain ⟨⟨hstage, -⟩, rfl⟩ := h
    exact .makeAcceptor hstage
  | onHandle handler =>
    simp only [step, Option.ite_none_right_eq_some, Option.some.injEq] at h
    obtain ⟨hstage, rfl⟩ := h
    exact .onHandle hstage
  | begin =>
    simp only [step, Option.ite_none_right_eq_some] at h
    obtain ⟨hstage, hbegin⟩ := h
    split at hbegin
    · next hseted =>
      cases hbegin
      exact .begin hstage hseted
    · cases hbegin
      exact .refuse hstage
  | accept =>
    simp only [step, Option.ite_none_right_eq_some, Option.some.injEq] at h
    obtain ⟨hstage, rfl⟩ := h
    exact .accept hstage
  | leave =>
    simp only [step, Option.ite_none_right_eq_some, Option.some.injEq] at h
    obtain ⟨hstage, rfl⟩ := h
    exact .leave hstage
  | destroy =>
    simp only [step, Option.ite_none_right_eq_some] at h
    obtain ⟨hstage, hdestroy⟩ := h
    obtain ⟨s₁, hset, rfl⟩ := Option.map_eq_some_iff.mp hdestroy
    obtain ⟨pool, hnext, rfl⟩ := eq_of_inPool hset
    exact .destroy hstage hnext
  | join =>
    simp only [step] at h
    split at h
    · next rest hstage =>
      obtain ⟨pool, hnext, rfl⟩ := eq_of_inPool h
      exact .join hstage hnext
    · cases h
  | destroyed =>
    simp only [step] at h
    split at h
    · next rest hstage =>
      simp only [Option.ite_none_right_eq_some, Option.some.injEq] at h
      obtain ⟨hjoined, rfl⟩ := h
      exact .poolDestroyed hstage hjoined
    · next member rest hne hstage =>
      cases h
      exact .destroyed hne hstage
    · cases h
  | test w =>
    obtain ⟨pool, hnext, rfl⟩ := eq_of_inPool h
    exact .run hnext (owner_eq hnext (by simp) (by simp))
  | tryPop w =>
    obtain ⟨pool, hnext, rfl⟩ := eq_of_inPool h
    exact .run hnext (owner_eq hnext (by simp) (by simp))
  | finish w =>
    obtain ⟨pool, hnext, rfl⟩ := eq_of_inPool h
    exact .run hnext (owner_eq hnext (by simp) (by simp))

/-! ## The invariant -/

/-- **The invariant**: the pool is in use until the members are destroyed, it is the first of them,
and the listener does not run without a handler. -/
structure Inv (s : State n H) : Prop where
  joined : ThreadPool.Joined s.pool
  inUse : (∀ rest, s.stage ≠ .destroying rest) → s.pool.owner = .inUse
  destroying : ∀ rest, s.stage = .destroying rest → s.pool.owner ≠ .inUse ∧
    rest <:+ members.reverse ∧ (rest ≠ members.reverse → s.pool.owner = .joining n)
  seted : s.stage = .listening → s.setedOnHandle = true
  handler : s.setedOnHandle = true → s.handleCallback ≠ none
  accepted : ∀ callback ∈ s.accepted, callback ≠ none

/-- The invariant when the constructor begins to submit. -/
lemma Inv.start (n : ℕ) (H : Type*) : Inv (State.start n H) :=
  ⟨⟨by rintro _ ⟨⟩, by rintro _ ⟨⟩⟩, fun _ => rfl, by rintro _ ⟨⟩, by rintro ⟨⟩, by rintro ⟨⟩,
    by rintro _ ⟨⟩⟩

/-- **A step keeps the invariant.**

**Proof sketch.** The pool is the first of the members to be destroyed. As long as it is at the head
of the list its threads are joined, and it leaves the list when all of them have been; after that
nothing is joined any more. The steps before the destruction change nothing that the other parts are
about, but for a callback that is accepted, which is the handler that has been set. -/
lemma Inv.moves {s s' : State n H} (h : Inv s) (hmove : Moves exit s s') : Inv s' := by
  obtain ⟨hjoined, hinUse, hdestroying, hseted, hhandler, haccepted⟩ := h
  cases hmove with
  | run next owner =>
    exact ⟨hjoined.moves (ThreadPool.moves_of_step next), owner ▸ hinUse, owner ▸ hdestroying,
      hseted, hhandler, haccepted⟩
  | makeAcceptor stage =>
    exact ⟨hjoined, fun _ => hinUse (by simp [stage]), by simp, by simp, hhandler, haccepted⟩
  | onHandle stage => exact ⟨hjoined, hinUse, hdestroying, fun _ => rfl, by simp, haccepted⟩
  | refuse stage => exact ⟨hjoined, hinUse, hdestroying, hseted, hhandler, haccepted⟩
  | begin stage seted =>
    exact ⟨hjoined, fun _ => hinUse (by simp [stage]), by simp, fun _ => seted, hhandler, haccepted⟩
  | accept stage =>
    refine ⟨hjoined, hinUse, hdestroying, hseted, hhandler, fun callback hmem => ?_⟩
    rcases List.mem_append.mp hmem with hmem | hmem
    · exact haccepted callback hmem
    · rw [List.mem_singleton.mp hmem]
      exact hhandler (hseted stage)
  | leave stage =>
    exact ⟨hjoined, fun _ => hinUse (by simp [stage]), by simp, by simp, hhandler, haccepted⟩
  | destroy stage next =>
    have hmove := ThreadPool.moves_of_step next
    refine ⟨hjoined.moves hmove, fun hnot => absurd rfl (hnot _), fun rest hrest => ?_, by simp,
      hhandler, haccepted⟩
    cases hrest
    cases hmove
    exact ⟨by simp, List.suffix_rfl, fun hne => absurd rfl hne⟩
  | @join rest pool stage next =>
    have hmove := ThreadPool.moves_of_step next
    refine ⟨hjoined.moves hmove, fun hnot => absurd stage (hnot _), fun rest' hrest => ?_, hseted,
      hhandler, haccepted⟩
    obtain ⟨howner, hsuffix, hgone⟩ := hdestroying rest' hrest
    cases hmove with
    | @join joined lt joining exited =>
      refine ⟨by simp, hsuffix, fun hne => ?_⟩
      -- all threads have been joined already
      rw [hgone hne] at joining
      cases joining
      exact absurd lt (lt_irrefl _)
  | poolDestroyed stage joined =>
    obtain ⟨howner, hsuffix, -⟩ := hdestroying _ stage
    refine ⟨hjoined, fun hnot => absurd rfl (hnot _), fun rest' hrest => ?_, by simp, hhandler,
      haccepted⟩
    cases hrest
    exact ⟨howner, (List.suffix_cons _ _).trans hsuffix, fun _ => joined⟩
  | @destroyed member rest ne stage =>
    obtain ⟨howner, hsuffix, hgone⟩ := hdestroying _ stage
    refine ⟨hjoined, fun hnot => absurd rfl (hnot _), fun rest' hrest => ?_, by simp, hhandler,
      haccepted⟩
    cases hrest
    refine ⟨howner, (List.suffix_cons _ _).trans hsuffix, fun _ => hgone fun heq => ?_⟩
    -- the pool is the first one
    cases heq
    exact ne rfl

/-- The invariant of every run. -/
lemma Inv.of_exec {ls : List (Label n H)} {s : State n H}
    (h : Transition.exec (step exit) (State.start n H) ls = some s) : Inv s :=
  Transition.invariant_of_exec (fun _ _ _ hs hstep => hs.moves (moves_of_step hstep)) ls
    (Inv.start n H) h

/-- **No thread is left to use what has been destroyed.** In every run of the server: when one of
its members has been destroyed, all workers of the pool have exited, so that no loop uses a reactor
that is gone; and every connection that is accepted is given a handler. -/
theorem members_outlive_workers {ls : List (Label n H)} {s : State n H}
    (h : Transition.exec (step exit) (State.start n H) ls = some s) :
    (∀ member, s.alive member = false → ∀ w, s.pool.worker w = .exited) ∧
      ∀ callback ∈ s.accepted, callback ≠ none := by
  have hinv := Inv.of_exec h
  refine ⟨fun member hgone w => ?_, hinv.accepted⟩
  cases hstage : s.stage with
  | destroying rest =>
    simp only [State.alive, hstage] at hgone
    have hne : rest ≠ members.reverse := by
      rintro rfl
      cases member <;> exact absurd hgone (by decide)
    have hjoining := (hinv.destroying rest hstage).2.2 hne
    exact (hinv.joined.joining n hjoining).2 w w.isLt
  | _ => simp only [State.alive, hstage, Bool.true_eq_false] at hgone

/-- A server with two reactors accepts a connection and is destroyed before its workers have looked
for their loops: the pool and the listener are gone. -/
theorem members_outlive_workers_two :
    ∃ s : State 2 ℕ, Transition.exec (step fun _ => false) (State.start 2 ℕ)
        [.submitNext, .submitNext, .makeAcceptor, .begin, .onHandle 7, .begin, .accept, .leave,
          .destroy, .test 0, .test 1, .join, .join, .destroyed, .destroyed] = some s ∧
      s.alive .listener = false ∧ s.accepted = [some 7] ∧ (∀ w, s.pool.worker w = .exited) ∧
      ∀ callback ∈ s.accepted, callback ≠ none := by
  have hrun : (Transition.exec (step fun _ => false) (State.start 2 ℕ)
      [.submitNext, .submitNext, .makeAcceptor, .begin, .onHandle 7, .begin, .accept, .leave,
        .destroy, .test 0, .test 1, .join, .join, .destroyed, .destroyed]).map
      (fun s => (s.alive .listener, s.accepted)) = some (false, [some 7]) := by
    decide +kernel
  obtain ⟨s, hs, heq⟩ := Option.map_eq_some_iff.mp hrun
  obtain ⟨hgone, haccepted⟩ := Prod.mk.inj heq
  obtain ⟨hworkers, hcallbacks⟩ := members_outlive_workers hs
  exact ⟨s, hs, hgone, haccepted, hworkers .listener hgone, hcallbacks⟩

/-! ## When the server can be destroyed -/

/-- How many steps are left at most to a server that is being destroyed. -/
def State.left (s : State n H) : ℕ :=
  s.pool.work + match s.stage with
    | .destroying rest => rest.length
    | _ => 0

/-- A server that is being destroyed. -/
def Destroying (s : State n H) : Prop := Inv s ∧ ∃ rest, s.stage = .destroying rest

/-- **Every step of a server that is being destroyed** leaves fewer steps to be taken. -/
lemma Destroying.moves {s s' : State n H} (h : Destroying s) (hmove : Moves exit s s') :
    Destroying s' ∧ s'.left < s.left := by
  obtain ⟨hinv, rest, hrest⟩ := h
  have howner := (hinv.destroying rest hrest).1
  have hdone : s.pool.done = true := by
    cases hjoining : s.pool.owner with
    | inUse => exact absurd hjoining howner
    | joining joined => exact (hinv.joined.joining joined hjoining).1
  have hless : ∀ {l pool}, ThreadPool.step exit s.pool l = some pool → pool.work < s.pool.work :=
    fun hnext => ThreadPool.work_lt hdone howner (ThreadPool.moves_of_step hnext)
  have hinv' := hinv.moves hmove
  cases hmove with
  | run next owner =>
    exact ⟨⟨hinv', rest, hrest⟩, Nat.add_lt_add_right (hless next) _⟩
  | join stage next =>
    exact ⟨⟨hinv', rest, hrest⟩, Nat.add_lt_add_right (hless next) _⟩
  | poolDestroyed stage joined =>
    refine ⟨⟨hinv', _, rfl⟩, ?_⟩
    simp only [State.left, stage, List.length_cons]
    omega
  | destroyed ne stage =>
    refine ⟨⟨hinv', _, rfl⟩, ?_⟩
    simp only [State.left, stage, List.length_cons]
    omega
  | destroy stage next => rcases stage with stage | stage <;> simp [stage] at hrest
  | makeAcceptor stage | onHandle stage | refuse stage | begin stage | accept stage
  | leave stage => simp [stage] at hrest

/-- What the server does is something that the pool does, or it does not matter to the pool. -/
lemma pool_of_moves {s s' : State n H} (h : Moves exit s s') :
    s'.pool = s.pool ∨ ∃ l, ThreadPool.step exit s.pool l = some s'.pool := by
  cases h with
  | run next owner => exact .inr ⟨_, next⟩
  | destroy stage next => exact .inr ⟨_, next⟩
  | join stage next => exact .inr ⟨_, next⟩
  | _ => exact .inl rfl

/-- If the server can do nothing while its pool is being destroyed, neither can the pool. -/
lemma pool_stuck {s : State n H} (hstuck : Transition.Stuck (step exit) s) {rest : List Member}
    (hstage : s.stage = .destroying (.threadPool :: rest)) (howner : s.pool.owner ≠ .inUse) :
    Transition.Stuck (ThreadPool.step exit) s.pool := by
  intro l
  cases l with
  | submit task => simp [ThreadPool.step, howner]
  | setDone => simp [ThreadPool.step, howner]
  | join =>
    have hno := hstuck .join
    simpa [step, hstage, State.inPool] using hno
  | test w => simpa [step, State.inPool] using hstuck (.test w)
  | tryPop w => simpa [step, State.inPool] using hstuck (.tryPop w)
  | finish w => simpa [step, State.inPool] using hstuck (.finish w)

/-- A server that can do nothing more has been destroyed, or it waits for its pool. -/
lemma stage_of_stuck {s : State n H} (hstuck : Transition.Stuck (step exit) s)
    (h : Destroying s) : s.stage = .destroying [] ∨
      ∃ rest, s.stage = .destroying (.threadPool :: rest) ∧ s.pool.owner ≠ .joining n := by
  obtain ⟨hinv, rest, hrest⟩ := h
  have hno := hstuck .destroyed
  cases rest with
  | nil => exact .inl hrest
  | cons member rest =>
    refine .inr ⟨rest, ?_⟩
    cases member with
    | threadPool =>
      refine ⟨hrest, fun hjoined => ?_⟩
      simp [step, hrest, hjoined] at hno
    | _ => simp [step, hrest] at hno

/-- What the beginning of the destruction does. -/
lemma eq_of_destroy {s s' : State n H} (h : step exit s .destroy = some s') :
    ThreadPool.step exit s.pool .setDone = some s'.pool ∧
      s'.stage = .destroying members.reverse := by
  simp only [step, Option.ite_none_right_eq_some] at h
  obtain ⟨-, hdestroy⟩ := h
  obtain ⟨s₁, hset, rfl⟩ := Option.map_eq_some_iff.mp hdestroy
  obtain ⟨pool, hnext, rfl⟩ := eq_of_inPool hset
  exact ⟨hnext, rfl⟩

/-- **When the server is destroyed.** Let its constructor throw or its destructor be called after
any run. However the threads go on from there, they take a bounded number of steps; and when none of
them can take another one, all members have been destroyed if and only if the loops that the workers
were running come back, and those that they were about to take. As long as no flag `exit_` is set,
this means that no worker has taken a loop or is about to.

**Proof sketch.** Every step of the threads makes `State.left` less, which is at most `4 * n + 4`
when the destruction begins. A run of the server is a run of its pool, so the criterion for the
destructor of the pool applies (`ThreadPool.destructor_returns_iff`). At rest either all members are
gone, and then the pool has joined its threads, or it is the pool that is waited for. -/
theorem destroyed_iff {ls₁ : List (Label n H)} {s₁ s₁' : State n H}
    (h₁ : Transition.exec (step exit) (State.start n H) ls₁ = some s₁)
    (hdestroy : step exit s₁ .destroy = some s₁') {ls₂ : List (Label n H)} {s₂ : State n H}
    (h₂ : Transition.exec (step exit) s₁' ls₂ = some s₂) :
    ls₂.length ≤ 4 * n + 4 ∧
      (Transition.Stuck (step exit) s₂ →
        (s₂.stage = .destroying [] ↔ ThreadPool.Returning exit s₁.pool)) ∧
      ((∀ r, exit r = false) → (ThreadPool.Returning exit s₁.pool ↔
        s₁.pool.started = [] ∧ (s₁.pool.queue = [] ∨ s₁.pool.popping = 0))) := by
  obtain ⟨hset, hstage⟩ := eq_of_destroy hdestroy
  have hstart : Destroying s₁' :=
    ⟨(Inv.of_exec h₁).moves (moves_of_step hdestroy), _, hstage⟩
  have hkeeps : ∀ (s : State n H) l s', Destroying s → step exit s l = some s' →
      Destroying s' ∧ s'.left < s.left :=
    fun s l s' hs hstep => hs.moves (moves_of_step hstep)
  have hdestroying : Destroying s₂ :=
    Transition.invariant_of_exec (fun s l s' hs hstep => (hkeeps s l s' hs hstep).1) ls₂ hstart h₂
  -- the run of the pool
  have hpool : ∀ {s s' : State n H} ls, Transition.exec (step exit) s ls = some s' →
      ∃ ls', Transition.exec (ThreadPool.step exit) s.pool ls' = some s'.pool :=
    fun ls => Transition.exists_exec_of_steps State.pool
      (fun s l s' hstep => pool_of_moves (moves_of_step hstep)) ls
  obtain ⟨ls, hpool₁⟩ := hpool ls₁ h₁
  obtain ⟨ls', hpool₂⟩ := hpool ls₂ h₂
  have hreturns := (ThreadPool.destructor_returns_iff hpool₁ hset hpool₂).2
  refine ⟨?_, fun hstuck => ?_, fun hnever => ThreadPool.returning_iff_of_never hnever hpool₁⟩
  · have hlength := Transition.length_le_of_measure State.left hkeeps ls₂ hstart h₂
    have hleft : s₁'.left ≤ 4 * n + 4 := by
      simp only [State.left, hstage]
      exact Nat.add_le_add (ThreadPool.work_le _) le_rfl
    omega
  · rcases stage_of_stuck hstuck hdestroying with hgone | ⟨rest, hwaiting, hnot⟩
    · have hjoined := (hdestroying.1.destroying [] hgone).2.2 (by decide)
      have hexited := fun w : Fin n => (hdestroying.1.joined.joining n hjoined).2 w w.isLt
      exact iff_of_true hgone
        ((hreturns (ThreadPool.stuck_of_joined hjoined hexited)).mp hjoined)
    · have howner := (hdestroying.1.destroying _ hwaiting).1
      refine iff_of_false (by simp [hwaiting]) fun hreturning => hnot ?_
      exact (hreturns (pool_stuck hstuck hwaiting howner)).mpr hreturning

/-- The constructor throws when the worker has taken the loop of the only reactor: nothing more can
happen, and no member has been destroyed. -/
theorem destroyed_iff_running :
    ∃ s₁ s₁' s₂ : State 1 ℕ, Transition.exec (step fun _ => false) (State.start 1 ℕ)
        [.submitNext, .test 0, .tryPop 0] = some s₁ ∧
      step (fun _ => false) s₁ .destroy = some s₁' ∧
      Transition.exec (step fun _ => false) s₁' [] = some s₂ ∧
      Transition.Stuck (step fun _ => false) s₂ ∧ s₂.stage ≠ .destroying [] := by
  have hrun : Transition.observe (step fun _ => false) (State.start 1 ℕ)
      [.submitNext, .test 0, .tryPop 0] .destroy []
      (fun s₁ s₂ : State 1 ℕ => (s₁.pool.started, s₂.stage, s₂.pool.owner,
        (s₂.pool.worker 0).isRunning)) =
        some ([(0, 0)], .destroying members.reverse, .joining 0, true) := by
    decide +kernel
  obtain ⟨s₁, s₁', s₂, h₁, hdestroy, h₂, heq⟩ := Transition.exists_of_observe _ hrun
  simp only [Prod.mk.injEq] at heq
  obtain ⟨hstarted, hstage, howner, hworker⟩ := heq
  have hrunning : ∀ w, ∃ i r, s₂.pool.worker w = .running i r := fun w => by
    rw [Subsingleton.elim w 0]
    cases h : s₂.pool.worker 0 with
    | running i r => exact ⟨i, r, rfl⟩
    | _ => rw [h] at hworker; cases hworker
  have hstuck : Transition.Stuck (step fun _ => false) s₂ := by
    intro l
    cases l with
    | test w | tryPop w | finish w =>
      obtain ⟨i, r, hw⟩ := hrunning w
      simp [step, State.inPool, ThreadPool.step, hw]
    | join =>
      obtain ⟨i, r, hw⟩ := hrunning 0
      simp [step, State.inPool, ThreadPool.step, hstage, members, howner, hw]
    | _ => simp [step, hstage, members, howner]
  obtain ⟨-, hgone, hnever⟩ := destroyed_iff h₁ hdestroy h₂
  refine ⟨s₁, s₁', s₂, h₁, hdestroy, h₂, hstuck, fun hall => ?_⟩
  have hempty := ((hnever fun _ => rfl).mp ((hgone hstuck).mp hall)).1
  rw [hstarted] at hempty
  cases hempty

end ServerLifetime

end Icee
