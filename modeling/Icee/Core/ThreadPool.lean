import Icee.Core.Basic
import Icee.Lib.Census
import Icee.Lib.Transition

set_option relaxedAutoImplicit false
set_option autoImplicit false

/-!
# The thread pool

`ThreadPool` in `src/include/core/threadPool.h`: a fixed number of workers that test `done_`, try to
pop a task and run it, over and over, and a destructor that sets `done_` and joins them. The tasks
are taken in the order in which they were submitted and every task that is taken is executed; what
is still queued when the workers find `done_` set is dropped.

## Main definitions

* `Icee.ThreadSafeQueue.push`, `Icee.ThreadSafeQueue.tryPop` — the queue.
* `Icee.ThreadPool.Worker`, `Icee.ThreadPool.Owner` — how far `worker_thread` and `~ThreadPool` have
  come.
* `Icee.ThreadPool.State`, `Icee.ThreadPool.step` — the pool and its steps.
* `Icee.ThreadPool.Moves` — the steps, one constructor for each.
* `Icee.ThreadPool.Accounted`, `Icee.ThreadPool.Joined` — the invariants.

## Main results

* `Icee.ThreadPool.moves_of_step` — the inversion of a step.
* `Icee.ThreadPool.taken_of_exec` — the tasks are taken in the order of their submission.
* `Icee.ThreadPool.executed_of_joined` — what has been executed when the destructor returns.

## Design

Whether a task comes back once it has been started is a parameter, so that the pool can be used for
tasks that do and for loops that do not. Two components of the state are there for the record: the
tasks that have been taken, each with its worker, and the positions in that list of the tasks that
have come back.
-/

namespace Icee

/-! ## The queue -/

namespace ThreadSafeQueue

variable {τ : Type*}

/-- `ThreadSafeQueue::Push`. -/
def push (queue : List τ) (newValue : τ) : List τ := queue ++ [newValue]

/-- `ThreadSafeQueue::TryPop`: what has been popped, if anything, and the queue afterwards. -/
def tryPop : List τ → Option τ × List τ
  | [] => (none, [])
  | value :: queue => (some value, queue)

end ThreadSafeQueue

namespace ThreadPool

/-! ## The pool -/

/-- How far `worker_thread` has come. -/
inductive Worker (τ : Type*)
  /-- `done_` is to be tested. -/
  | testing
  /-- `done_` was not set, and `TryPop` is to be called. -/
  | popping
  /-- The task has been taken, as the one at this position, and is being run. -/
  | running (position : ℕ) (task : τ)
  | exited

/-- The worker is between its test of `done_` and `TryPop`. -/
def Worker.isPopping {τ : Type*} : Worker τ → Bool
  | .popping => true
  | _ => false

/-- The worker is running a task. -/
def Worker.isRunning {τ : Type*} : Worker τ → Bool
  | .running _ _ => true
  | _ => false

/-- How far the owner of the pool has come. -/
inductive Owner
  /-- The pool is in use. -/
  | inUse
  /-- `done_` has been set, and the `Joiner` has joined so many threads. -/
  | joining (joined : ℕ)
  deriving DecidableEq, Repr

/-- The pool, the local variables of its threads, and what has happened so far. -/
structure State (n : ℕ) (τ : Type*) where
  done : Bool
  queue : List τ
  worker : Fin n → Worker τ
  owner : Owner
  submitted : List τ
  started : List (Fin n × τ)
  executed : List ℕ

/-- The steps of the threads. -/
inductive Label (n : ℕ) (τ : Type*)
  /-- `submit`. -/
  | submit (task : τ)
  /-- `~ThreadPool` sets `done_`. -/
  | setDone
  /-- `~Joiner` joins the next thread. -/
  | join
  /-- The worker tests `done_`. -/
  | test (w : Fin n)
  /-- The worker calls `TryPop`. -/
  | tryPop (w : Fin n)
  /-- The task of the worker comes back. -/
  | finish (w : Fin n)

variable {n : ℕ} {τ : Type*}

/-- A new pool. -/
def init : State n τ where
  done := false
  queue := []
  worker _ := .testing
  owner := .inUse
  submitted := []
  started := []
  executed := []

namespace State

/-- The worker moves on. -/
def goto (s : State n τ) (w : Fin n) (worker : Worker τ) : State n τ :=
  { s with worker := Function.update s.worker w worker }

/-- The worker that has moved on. -/
lemma goto_worker_self (s : State n τ) (w : Fin n) (worker : Worker τ) :
    (s.goto w worker).worker w = worker :=
  Function.update_self _ _ _

/-- The other workers. -/
lemma goto_worker_of_ne (s : State n τ) {w w' : Fin n} (h : w' ≠ w) (worker : Worker τ) :
    (s.goto w worker).worker w' = s.worker w' :=
  Function.update_of_ne h _ _

/-- A worker in its phase: it is the one that has moved on, or it was in this phase before. -/
lemma goto_worker_cases {s : State n τ} {w w' : Fin n} {worker phase : Worker τ}
    (h : (s.goto w worker).worker w' = phase) :
    w' = w ∧ worker = phase ∨ w' ≠ w ∧ s.worker w' = phase := by
  by_cases hww : w' = w
  · subst hww
    rw [goto_worker_self] at h
    exact .inl ⟨rfl, h⟩
  · rw [goto_worker_of_ne s hww] at h
    exact .inr ⟨hww, h⟩

/-- A worker stays in its phase when one that is in another phase moves on. -/
lemma goto_worker_stays {s : State n τ} {w w' : Fin n} {phase : Worker τ}
    (h : s.worker w' = phase) (hne : s.worker w ≠ phase) (worker : Worker τ) :
    (s.goto w worker).worker w' = phase := by
  have hww : w' ≠ w := by
    rintro rfl
    exact hne h
  rw [goto_worker_of_ne s hww, h]

/-- `submit`. -/
def submit (s : State n τ) (task : τ) : State n τ :=
  { s with queue := ThreadSafeQueue.push s.queue task, submitted := s.submitted ++ [task] }

/-- The worker takes a task and begins to run it. -/
def take (s : State n τ) (w : Fin n) (task : τ) (queue : List τ) : State n τ :=
  { s.goto w (.running s.started.length task) with
      queue := queue
      started := s.started ++ [(w, task)] }

/-- The task of the worker comes back. -/
def finish (s : State n τ) (w : Fin n) (position : ℕ) : State n τ :=
  { s.goto w .testing with executed := s.executed ++ [position] }

/-- How many workers are between their test of `done_` and `TryPop`. -/
def popping (s : State n τ) : ℕ := Census.count Worker.isPopping s.worker

end State

/-- One step of one thread, if it is possible; `returns` says which tasks come back. -/
def step (returns : τ → Bool) (s : State n τ) : Label n τ → Option (State n τ)
  | .submit task => if s.owner = .inUse then some (s.submit task) else none
  | .setDone =>
    if s.owner = .inUse then some { s with done := true, owner := .joining 0 } else none
  | .join => match s.owner with
    | .inUse => none
    | .joining joined =>
      if h : joined < n then
        match s.worker ⟨joined, h⟩ with
        | .exited => some { s with owner := .joining (joined + 1) }
        | _ => none
      else none
  | .test w => match s.worker w with
    | .testing => some (s.goto w (if s.done then .exited else .popping))
    | _ => none
  | .tryPop w => match s.worker w with
    | .popping => match ThreadSafeQueue.tryPop s.queue with
      | (none, _) => some (s.goto w .testing)
      | (some task, queue) => some (s.take w task queue)
    | _ => none
  | .finish w => match s.worker w with
    | .running position task => if returns task then some (s.finish w position) else none
    | _ => none

/-! ## The inversion of a step -/

/-- The steps of the pool, with what they require and what they do. -/
inductive Moves (returns : τ → Bool) (s : State n τ) : Label n τ → State n τ → Prop
  | submit {task : τ} (inUse : s.owner = .inUse) : Moves returns s (.submit task) (s.submit task)
  | setDone (inUse : s.owner = .inUse) :
    Moves returns s .setDone { s with done := true, owner := .joining 0 }
  | join {joined : ℕ} (lt : joined < n) (joining : s.owner = .joining joined)
    (exited : s.worker ⟨joined, lt⟩ = .exited) :
    Moves returns s .join { s with owner := .joining (joined + 1) }
  | exit {w : Fin n} (testing : s.worker w = .testing) (done : s.done = true) :
    Moves returns s (.test w) (s.goto w .exited)
  | goOn {w : Fin n} (testing : s.worker w = .testing) (done : s.done = false) :
    Moves returns s (.test w) (s.goto w .popping)
  | yield {w : Fin n} (popping : s.worker w = .popping) (empty : s.queue = []) :
    Moves returns s (.tryPop w) (s.goto w .testing)
  | take {w : Fin n} {task : τ} {queue : List τ} (popping : s.worker w = .popping)
    (nonempty : s.queue = task :: queue) : Moves returns s (.tryPop w) (s.take w task queue)
  | finish {w : Fin n} {position : ℕ} {task : τ} (running : s.worker w = .running position task)
    (back : returns task = true) : Moves returns s (.finish w) (s.finish w position)

variable {returns : τ → Bool}

/-- **The inversion of a step.** -/
lemma moves_of_step {s s' : State n τ} {l : Label n τ} (h : step returns s l = some s') :
    Moves returns s l s' := by
  cases l <;> simp only [step, Option.ite_none_right_eq_some, Option.some.injEq] at h
  case submit task =>
    obtain ⟨hinUse, rfl⟩ := h
    exact .submit hinUse
  case setDone =>
    obtain ⟨hinUse, rfl⟩ := h
    exact .setDone hinUse
  case join =>
    cases howner : s.owner with
    | inUse => rw [howner] at h; cases h
    | joining joined =>
      simp only [howner] at h
      split at h
      · next hlt =>
        cases hworker : s.worker ⟨joined, hlt⟩ <;> simp only [hworker] at h
        case exited =>
          obtain rfl := Option.some.inj h
          exact .join hlt howner hworker
        all_goals cases h
      · cases h
  case test w =>
    cases hworker : s.worker w <;> simp only [hworker] at h
    case testing =>
      obtain rfl := Option.some.inj h
      cases hdone : s.done with
      | true => exact .exit hworker hdone
      | false => exact .goOn hworker hdone
    all_goals cases h
  case tryPop w =>
    cases hworker : s.worker w <;> simp only [hworker] at h
    case popping =>
      cases hqueue : s.queue with
      | nil =>
        rw [hqueue] at h
        obtain rfl := Option.some.inj h
        exact .yield hworker hqueue
      | cons task queue =>
        rw [hqueue] at h
        obtain rfl := Option.some.inj h
        exact .take hworker hqueue
    all_goals cases h
  case finish w =>
    cases hworker : s.worker w <;> simp only [hworker] at h
    case running position task =>
      split at h
      · next hback =>
        obtain rfl := Option.some.inj h
        exact .finish hworker hback
      · cases h
    all_goals cases h

/-- **The invariant rule** for the pool. -/
lemma invariant_of_moves {Inv : State n τ → Prop}
    (hmoves : ∀ s l s', Inv s → Moves returns s l s' → Inv s') (ls : List (Label n τ))
    {s s' : State n τ} (hs : Inv s) (h : Transition.exec (step returns) s ls = some s') : Inv s' :=
  Transition.invariant_of_exec (fun s l s' hs hstep => hmoves s l s' hs (moves_of_step hstep)) ls
    hs h

/-! ## Every task that is taken is run once -/

/-- The tasks taken and the tasks queued make up the tasks submitted, and of the tasks taken some
have come back, each once, while each of the others is being run by the worker that took it. -/
structure Accounted (s : State n τ) : Prop where
  taken : s.started.map Prod.snd ++ s.queue = s.submitted
  nodup : s.executed.Nodup
  executed : ∀ i ∈ s.executed, i < s.started.length
  running : ∀ w i task, s.worker w = .running i task → s.started[i]? = some (w, task) ∧
    i ∉ s.executed
  complete : ∀ i < s.started.length, i ∈ s.executed ∨ ∃ w task, s.worker w = .running i task

/-- A worker that changes between two phases in which it runs nothing. -/
lemma Accounted.goto {s : State n τ} (h : Accounted s) {w : Fin n} {worker : Worker τ}
    (hbefore : ∀ i task, s.worker w ≠ .running i task)
    (hafter : ∀ i task, worker ≠ .running i task) : Accounted (s.goto w worker) := by
  obtain ⟨htaken, hnodup, hexecuted, hrunning, hcomplete⟩ := h
  refine ⟨htaken, hnodup, hexecuted, fun w' i task hw => ?_, fun i hi => ?_⟩
  · rcases State.goto_worker_cases hw with ⟨-, hrun⟩ | ⟨-, hw⟩
    · exact absurd hrun (hafter i task)
    · exact hrunning w' i task hw
  · refine (hcomplete i hi).imp_right ?_
    rintro ⟨w', task, hw⟩
    exact ⟨w', task, State.goto_worker_stays hw (hbefore i task) worker⟩

/-- A worker takes a task. -/
lemma Accounted.take {s : State n τ} (h : Accounted s) {w : Fin n} {task : τ} {queue : List τ}
    (hpopping : s.worker w = .popping) (hqueue : s.queue = task :: queue) :
    Accounted (s.take w task queue) := by
  obtain ⟨htaken, hnodup, hexecuted, hrunning, hcomplete⟩ := h
  refine ⟨?_, hnodup, fun i hi => ?_, fun w' i task' hw => ?_, fun i hi => ?_⟩
  · rw [hqueue] at htaken
    simpa [State.take, State.goto] using htaken
  · have := hexecuted i hi
    simp only [State.take, List.length_append, List.length_singleton]
    omega
  · rcases State.goto_worker_cases hw with ⟨rfl, hrun⟩ | ⟨-, hw⟩
    · cases hrun
      refine ⟨List.getElem?_concat_length, fun hmem => ?_⟩
      have := hexecuted _ hmem
      omega
    · obtain ⟨hstarted, hnot⟩ := hrunning w' i task' hw
      refine ⟨?_, hnot⟩
      have hlt := (List.getElem?_eq_some_iff.mp hstarted).1
      exact (List.getElem?_append_left hlt).trans hstarted
  · rcases Nat.lt_succ_iff_lt_or_eq.mp (by simpa [State.take] using hi) with hi | rfl
    · refine (hcomplete i hi).imp_right ?_
      rintro ⟨w', task', hw⟩
      exact ⟨w', task', State.goto_worker_stays hw (by simp [hpopping]) _⟩
    · exact .inr ⟨w, task, s.goto_worker_self w _⟩

/-- A task comes back. -/
lemma Accounted.finish {s : State n τ} (h : Accounted s) {w : Fin n} {position : ℕ} {task : τ}
    (hworker : s.worker w = .running position task) : Accounted (s.finish w position) := by
  obtain ⟨htaken, hnodup, hexecuted, hrunning, hcomplete⟩ := h
  obtain ⟨hstarted, hnot⟩ := hrunning w position task hworker
  have hlt := (List.getElem?_eq_some_iff.mp hstarted).1
  refine ⟨htaken, ?_, fun i hi => ?_, fun w' i task' hw => ?_, fun i hi => ?_⟩
  · rw [show (s.finish w position).executed = s.executed.concat position from
      List.concat_eq_append.symm, List.nodup_concat]
    exact ⟨hnot, hnodup⟩
  · rcases List.mem_append.mp hi with hi | hi
    · exact hexecuted i hi
    · rw [List.mem_singleton.mp hi]
      exact hlt
  · rcases State.goto_worker_cases hw with ⟨-, hrun⟩ | ⟨hww, hw⟩
    · cases hrun
    · obtain ⟨hstarted', hnot'⟩ := hrunning w' i task' hw
      refine ⟨hstarted', fun hmem => ?_⟩
      rcases List.mem_append.mp hmem with hmem | hmem
      · exact hnot' hmem
      · -- two workers do not run the same task
        rw [List.mem_singleton.mp hmem, hstarted] at hstarted'
        cases hstarted'
        exact hww rfl
  · by_cases hposition : i = position
    · exact .inl (by simp [State.finish, hposition])
    · refine (hcomplete i hi).imp (fun hmem => List.mem_append_left _ hmem) ?_
      rintro ⟨w', task', hw⟩
      have hne : s.worker w ≠ .running i task' := by
        rw [hworker]
        rintro ⟨⟩
        exact hposition rfl
      exact ⟨w', task', State.goto_worker_stays hw hne _⟩

/-- **A step keeps the account.** -/
lemma Accounted.moves {s s' : State n τ} {l : Label n τ} (h : Accounted s)
    (hmove : Moves returns s l s') : Accounted s' := by
  cases hmove with
  | @submit task inUse =>
    refine ⟨?_, h.nodup, h.executed, h.running, h.complete⟩
    have htaken : (s.started.map Prod.snd ++ s.queue) ++ [task] = s.submitted ++ [task] := by
      rw [h.taken]
    rw [List.append_assoc] at htaken
    exact htaken
  | setDone inUse => exact ⟨h.taken, h.nodup, h.executed, h.running, h.complete⟩
  | join lt joining exited => exact ⟨h.taken, h.nodup, h.executed, h.running, h.complete⟩
  | exit testing done => exact h.goto (by simp [testing]) (by simp)
  | goOn testing done => exact h.goto (by simp [testing]) (by simp)
  | yield popping empty => exact h.goto (by simp [popping]) (by simp)
  | take popping nonempty => exact h.take popping nonempty
  | finish running back => exact h.finish running

/-- The account of a new pool. -/
lemma Accounted.init : Accounted (ThreadPool.init : State n τ) :=
  ⟨rfl, List.nodup_nil, by rintro _ ⟨⟩, by rintro _ _ _ ⟨⟩, by rintro _ ⟨⟩⟩

/-- The account of every run. -/
lemma Accounted.of_exec {ls : List (Label n τ)} {s : State n τ}
    (h : Transition.exec (step returns) ThreadPool.init ls = some s) : Accounted s :=
  invariant_of_moves (fun _ _ _ => Accounted.moves) ls Accounted.init h

/-- **The tasks are taken in the order of their submission.** -/
lemma taken_of_exec {ls : List (Label n τ)} {s : State n τ}
    (h : Transition.exec (step returns) init ls = some s) :
    s.started.map Prod.snd ++ s.queue = s.submitted :=
  (Accounted.of_exec h).taken

/-! ## Destruction -/

/-- The workers exit after `done_` has been set, and those that have been joined have exited. -/
structure Joined (s : State n τ) : Prop where
  exited : ∀ w, s.worker w = .exited → s.done = true
  joining : ∀ joined, s.owner = .joining joined → s.done = true ∧
    ∀ w : Fin n, w < joined → s.worker w = .exited

/-- A worker that has not exited moves on. -/
lemma Joined.goto {s s' : State n τ} (h : Joined s) {w : Fin n} {worker : Worker τ}
    (hworker : s'.worker = (s.goto w worker).worker) (hdone : s'.done = s.done)
    (howner : s'.owner = s.owner) (hbefore : s.worker w ≠ .exited)
    (hafter : worker = .exited → s.done = true) : Joined s' := by
  refine ⟨fun w' hw => ?_, fun joined hjoining => ?_⟩
  · rw [hdone]
    rw [hworker] at hw
    rcases State.goto_worker_cases hw with ⟨-, hexit⟩ | ⟨-, hw⟩
    · exact hafter hexit
    · exact h.exited w' hw
  · obtain ⟨hset, hall⟩ := h.joining joined (howner ▸ hjoining)
    refine ⟨hdone ▸ hset, fun w' hlt => ?_⟩
    rw [hworker]
    exact State.goto_worker_stays (hall w' hlt) hbefore worker

/-- A step keeps track of the threads that have been joined. -/
lemma Joined.moves {s s' : State n τ} {l : Label n τ} (h : Joined s)
    (hmove : Moves returns s l s') : Joined s' := by
  cases hmove with
  | submit inUse => exact ⟨h.exited, h.joining⟩
  | setDone inUse =>
    refine ⟨fun _ _ => rfl, fun joined hjoining => ⟨rfl, fun w hlt => ?_⟩⟩
    cases hjoining
    exact absurd hlt (Nat.not_lt_zero _)
  | @join joined lt joining exited =>
    obtain ⟨hset, hall⟩ := h.joining joined joining
    refine ⟨h.exited, fun joined' hjoining => ⟨hset, fun w hlt => ?_⟩⟩
    cases hjoining
    rcases Nat.lt_succ_iff_lt_or_eq.mp hlt with hlt | heq
    · exact hall w hlt
    · rw [show w = ⟨joined, lt⟩ from Fin.ext heq]
      exact exited
  | exit testing done => exact h.goto rfl rfl rfl (by simp [testing]) fun _ => done
  | goOn testing done => exact h.goto rfl rfl rfl (by simp [testing]) (by simp)
  | yield popping empty => exact h.goto rfl rfl rfl (by simp [popping]) (by simp)
  | take popping nonempty => exact h.goto rfl rfl rfl (by simp [popping]) (by simp)
  | finish running back => exact h.goto rfl rfl rfl (by simp [running]) (by simp)

/-- After `done_` has been set, nothing more is submitted, each worker that is about to pop pops
once more, and this is how many tasks they leave in the queue. -/
structure Draining (tasks : List τ) (left : ℕ) (s : State n τ) : Prop where
  done : s.done = true
  owner : s.owner ≠ .inUse
  submitted : s.submitted = tasks
  left : s.queue.length - s.popping = left

/-- How many workers are about to pop when one of them moves on. -/
lemma popping_update (s : State n τ) {t : State n τ} {w : Fin n} {worker : Worker τ}
    (hworker : t.worker = (s.goto w worker).worker) :
    t.popping + (s.worker w).isPopping.toNat = s.popping + worker.isPopping.toNat := by
  rw [State.popping, hworker]
  exact Census.count_update _ _ _ _

/-- A step of a pool that is being destroyed. -/
lemma Draining.moves {tasks : List τ} {left : ℕ} {s s' : State n τ} {l : Label n τ}
    (h : Draining tasks left s) (hmove : Moves returns s l s') : Draining tasks left s' := by
  obtain ⟨hdone, howner, hsubmitted, hleft⟩ := h
  cases hmove with
  | submit inUse => exact absurd inUse howner
  | setDone inUse => exact absurd inUse howner
  | join lt joining exited => exact ⟨hdone, by simp, hsubmitted, hleft⟩
  | @exit w testing done =>
    have hcount := popping_update s (t := s.goto w .exited) rfl
    simp only [testing, Worker.isPopping, Bool.toNat_false, Nat.add_zero] at hcount
    exact ⟨hdone, howner, hsubmitted, hcount ▸ hleft⟩
  | goOn testing notDone => rw [hdone] at notDone; cases notDone
  | yield popping empty =>
    -- nothing is left, whoever is about to pop
    refine ⟨hdone, howner, hsubmitted, ?_⟩
    rw [empty, List.length_nil, Nat.zero_sub] at hleft
    rw [← hleft]
    simp [State.goto, empty]
  | @take w task queue popping nonempty =>
    have hcount := popping_update s (t := s.take w task queue) rfl
    simp only [popping, Worker.isPopping, Bool.toNat_false, Bool.toNat_true] at hcount
    rw [nonempty, List.length_cons] at hleft
    refine ⟨hdone, howner, hsubmitted, ?_⟩
    have hqueue : (s.take w task queue).queue = queue := rfl
    rw [hqueue]
    omega
  | @finish w position task running back =>
    have hcount := popping_update s (t := s.finish w position) rfl
    simp only [running, Worker.isPopping, Bool.toNat_false, Nat.add_zero] at hcount
    exact ⟨hdone, howner, hsubmitted, hcount ▸ hleft⟩

/-- When all workers have exited, every task that has been taken has come back. -/
lemma executed_perm_of_exited {s : State n τ} (h : Accounted s)
    (hexited : ∀ w, s.worker w = .exited) :
    s.executed.Perm (List.range s.started.length) := by
  refine (List.perm_ext_iff_of_nodup h.nodup List.nodup_range).mpr fun i => ?_
  rw [List.mem_range]
  refine ⟨h.executed i, fun hi => (h.complete i hi).resolve_right ?_⟩
  rintro ⟨w, task, hw⟩
  rw [hexited w] at hw
  cases hw

/-- **What has been executed when the destructor returns.** In every run in which `~ThreadPool` sets
`done_` and then joins all workers: the tasks have been taken in the order in which they were
submitted, those that have been taken have been executed, each exactly once, and these are all the
tasks if and only if, when `done_` was set, there were no more tasks in the queue than workers
between their test of `done_` and `TryPop`. -/
theorem executed_of_joined {ls₁ ls₂ : List (Label n τ)} {s₁ s₁' s₂ : State n τ}
    (h₁ : Transition.exec (step returns) init ls₁ = some s₁)
    (hset : step returns s₁ .setDone = some s₁')
    (h₂ : Transition.exec (step returns) s₁' ls₂ = some s₂) (hjoined : s₂.owner = .joining n) :
    s₂.submitted = s₁.submitted ∧ s₂.started.map Prod.snd <+: s₂.submitted ∧
      s₂.executed.Perm (List.range s₂.started.length) ∧
      (s₂.started.map Prod.snd = s₂.submitted ↔ s₁.queue.length ≤ s₁.popping) := by
  have hmove := moves_of_step hset
  have haccounted : Accounted s₂ := invariant_of_moves (fun _ _ _ => Accounted.moves) ls₂
    ((Accounted.of_exec h₁).moves hmove) h₂
  have hjoined₁ : Joined s₁ := invariant_of_moves (fun _ _ _ => Joined.moves) ls₁
    ⟨by rintro _ ⟨⟩, by rintro _ ⟨⟩⟩ h₁
  have hjoined₂ : Joined s₂ := invariant_of_moves (fun _ _ _ => Joined.moves) ls₂
    (hjoined₁.moves hmove) h₂
  have hexited : ∀ w, s₂.worker w = .exited := fun w => (hjoined₂.joining n hjoined).2 w w.isLt
  have hstart : Draining s₁.submitted (s₁.queue.length - s₁.popping) s₁' := by
    cases hmove with
    | setDone inUse => exact ⟨rfl, by simp, rfl, rfl⟩
  have hdraining : Draining s₁.submitted (s₁.queue.length - s₁.popping) s₂ :=
    invariant_of_moves (fun _ _ _ => Draining.moves) ls₂ hstart h₂
  have hnone : s₂.popping = 0 := Census.count_eq_zero_iff.mpr fun w => by rw [hexited w]; rfl
  have hleft := hdraining.left
  rw [hnone, Nat.sub_zero] at hleft
  refine ⟨hdraining.submitted, ⟨_, haccounted.taken⟩,
    executed_perm_of_exited haccounted hexited, ?_⟩
  rw [← haccounted.taken, List.self_eq_append_right, ← List.length_eq_zero_iff, hleft,
    Nat.sub_eq_zero_iff_le]

/-- Two workers and two tasks: one task is being run and one worker is about to pop when `done_` is
set, so that both tasks are executed. -/
theorem executed_of_joined_sample :
    ∃ s₁ s₂ : State 2 ℕ, s₁.queue = [8] ∧ s₁.popping = 1 ∧ s₂.submitted = [7, 8] ∧
      s₂.executed.Perm (List.range s₂.started.length) ∧
      s₂.started.map Prod.snd = s₂.submitted := by
  have hrun : Transition.observe (step fun _ => true) init
      [.submit 7, .test 0, .submit 8, .tryPop 0, .test 1] .setDone
      [.tryPop 1, .finish 1, .test 1, .finish 0, .test 0, .join, .join]
      (fun s₁ s₂ : State 2 ℕ => (s₁.queue, s₁.popping, s₂.submitted, s₂.owner)) =
        some ([8], 1, [7, 8], .joining 2) := by
    decide +kernel
  obtain ⟨s₁, s₁', s₂, h₁, hset, h₂, heq⟩ := Transition.exists_of_observe _ hrun
  simp only [Prod.mk.injEq] at heq
  obtain ⟨hqueue, hpopping, hsubmitted, howner⟩ := heq
  obtain ⟨-, -, hperm, hall⟩ := executed_of_joined h₁ hset h₂ howner
  exact ⟨s₁, s₂, hqueue, hpopping, hsubmitted, hperm,
    hall.mpr (by rw [hqueue, hpopping]; decide)⟩

/-- The only worker of a pool finds `done_` set before it has looked for the task: the destructor
returns, and the task has not been executed. -/
theorem task_is_dropped :
    ∃ s : State 1 ℕ, Transition.exec (step fun _ => true) init
        [.submit 7, .setDone, .test 0, .join] = some s ∧
      s.owner = .joining 1 ∧ s.submitted = [7] ∧ s.started = [] ∧ s.executed = [] :=
  ⟨_, rfl, rfl, rfl, rfl, rfl⟩

end ThreadPool

end Icee
