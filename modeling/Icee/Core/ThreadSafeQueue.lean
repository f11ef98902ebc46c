import Icee.Core.ThreadPool

set_option relaxedAutoImplicit false
set_option autoImplicit false

/-!
# The blocking queue

`src/include/core/threadSafeQueue.h` with its mutex and its condition variable: any number of
threads call `Push`, `WaitAndPop`, `TryPop` and `Empty`, and a thread in `WaitAndPop` that finds the
queue empty sleeps until it is notified, or for no reason wakes up.

## Main definitions

* `Icee.ThreadSafeQueue.Spec` — a queue that is called by one thread after the other.
* `Icee.ThreadSafeQueue.State`, `Icee.ThreadSafeQueue.Label`, `Icee.ThreadSafeQueue.step` — the
  queue with its threads.
* `Icee.ThreadSafeQueue.Inv` — the invariant of all interleavings.

## Main results

* `Icee.ThreadSafeQueue.linearizable` — the calls, in the order in which they return, are calls of a
  queue that is called by one thread after the other.
* `Icee.ThreadSafeQueue.attended` — no wake-up is lost.
* `Icee.ThreadSafeQueue.not_stuck` — some thread can go on, unless there is nothing to do.

## Design

`wait` releases the mutex and goes to sleep in one step, and takes the mutex again before it tests
its predicate once more. The two overloads of `WaitAndPop` and of `TryPop` differ only in how they
hand over the value.
-/

namespace Icee

namespace ThreadSafeQueue

/-! ## One thread -/

/-- The calls. -/
inductive Call (τ : Type*)
  | push (newValue : τ)
  | waitAndPop
  | tryPop
  | empty

/-- What a call gives back. -/
inductive Answer (τ : Type*)
  | done
  | value (x : τ)
  | nothing
  | isEmpty (b : Bool)

variable {τ W : Type*}

namespace Spec

/-- What a call does to a queue when it returns; `WaitAndPop` does not return on an empty queue. -/
def apply : List τ → Call τ → Option (Answer τ × List τ)
  | queue, .push newValue => some (.done, queue ++ [newValue])
  | [], .waitAndPop => none
  | x :: queue, .waitAndPop => some (.value x, queue)
  | [], .tryPop => some (.nothing, [])
  | x :: queue, .tryPop => some (.value x, queue)
  | queue, .empty => some (.isEmpty queue.isEmpty, queue)

/-- The calls, one after the other, with their answers, lead from one queue to another. -/
inductive Runs (queue : List τ) : List (W × Call τ × Answer τ) → List τ → Prop
  | nil : Runs queue [] queue
  | snoc {queue' queue'' : List τ} {history : List (W × Call τ × Answer τ)} {call : Call τ}
    {answer : Answer τ} (w : W) : Runs queue history queue' →
      apply queue' call = some (answer, queue'') →
      Runs queue (history ++ [(w, call, answer)]) queue''

/-- The values that the calls have put in. -/
def put (history : List (W × Call τ × Answer τ)) : List τ :=
  history.filterMap fun
    | (_, .push x, _) => some x
    | _ => none

end Spec

/-! ## Many threads -/

/-- How far a thread has come. -/
inductive Phase (τ : Type*)
  | outside
  /-- It is about to take the mutex. -/
  | entering (call : Call τ)
  /-- It has the mutex. -/
  | inside (call : Call τ)
  /-- In `Push`, the value is in the queue, and `notify_one` is to be called. -/
  | notifying (newValue : τ)
  /-- In `wait`, without the mutex. -/
  | asleep
  /-- In `wait`, it is about to take the mutex again. -/
  | woken
  /-- It still has the mutex, and is about to return. -/
  | leaving (call : Call τ) (answer : Answer τ)

namespace Phase

/-- A thread that has the mutex. -/
def holds : Phase τ → Bool
  | .inside _ | .notifying _ | .leaving _ _ => true
  | _ => false

/-- A thread in `wait` that nobody has notified. -/
def isAsleep : Phase τ → Bool
  | .asleep => true
  | _ => false

/-- A thread that is going to take a value if there is one, or to notify one that will. -/
def attends : Phase τ → Bool
  | .woken | .inside .waitAndPop | .notifying _ => true
  | _ => false

/-- The call that has been done and has not returned. -/
def pending : Phase τ → Option (Call τ × Answer τ)
  | .notifying newValue => some (.push newValue, .done)
  | .leaving call answer => some (call, answer)
  | _ => none

end Phase

/-- The queue, the thread that has the mutex, the threads, and for the record the calls that have
returned, with their answers. -/
structure State (W τ : Type*) where
  queue : List τ
  holder : Option W
  phase : W → Phase τ
  returned : List (W × Call τ × Answer τ)

/-- The steps of the threads. -/
inductive Label (W τ : Type*)
  | call (w : W) (call : Call τ)
  | lock (w : W)
  /-- What the call does while it has the mutex, up to `notify_one`. -/
  | body (w : W)
  /-- `notify_one`, with the thread that it has woken, if any. -/
  | notify (w : W) (woken : Option W)
  | spurious (w : W)
  | unlock (w : W)

/-- A new queue. -/
def init : State W τ where
  queue := []
  holder := none
  phase _ := .outside
  returned := []

variable [DecidableEq W]

/-- A thread moves on. -/
def State.goto (s : State W τ) (w : W) (phase : Phase τ) : State W τ :=
  { s with phase := Function.update s.phase w phase }

@[simp] lemma State.goto_phase (s : State W τ) (w : W) (phase : Phase τ) :
    (s.goto w phase).phase = Function.update s.phase w phase := rfl

@[simp] lemma State.goto_queue (s : State W τ) (w : W) (phase : Phase τ) :
    (s.goto w phase).queue = s.queue := rfl

variable [Fintype W]

/-- One step. -/
def step (s : State W τ) : Label W τ → Option (State W τ)
  | .call w call => match s.phase w with
    | .outside => some (s.goto w (.entering call))
    | _ => none
  | .lock w => match s.holder, s.phase w with
    | none, .entering call => some { s.goto w (.inside call) with holder := some w }
    | none, .woken => some { s.goto w (.inside .waitAndPop) with holder := some w }
    | _, _ => none
  | .body w => match s.phase w with
    | .inside (.push newValue) =>
      some { s.goto w (.notifying newValue) with queue := push s.queue newValue }
    | .inside .waitAndPop => match ThreadSafeQueue.tryPop s.queue with
      | (none, _) => some { s.goto w .asleep with holder := none }
      | (some x, queue) => some { s.goto w (.leaving .waitAndPop (.value x)) with queue }
    | .inside .tryPop => match ThreadSafeQueue.tryPop s.queue with
      | (none, _) => some (s.goto w (.leaving .tryPop .nothing))
      | (some x, queue) => some { s.goto w (.leaving .tryPop (.value x)) with queue }
    | .inside .empty => some (s.goto w (.leaving .empty (.isEmpty s.queue.isEmpty)))
    | _ => none
  | .notify w woken => match s.phase w, woken with
    | .notifying newValue, some w' =>
      if (s.phase w').isAsleep then
        some ((s.goto w' .woken).goto w (.leaving (.push newValue) .done))
      else none
    | .notifying newValue, none =>
      if ∀ w', (s.phase w').isAsleep = false then
        some (s.goto w (.leaving (.push newValue) .done))
      else none
    | _, _ => none
  | .spurious w => match s.phase w with
    | .asleep => some (s.goto w .woken)
    | _ => none
  | .unlock w => match s.phase w with
    | .leaving call answer => some { s.goto w .outside with
        holder := none
        returned := s.returned ++ [(w, call, answer)] }
    | _ => none

/-- The steps, with what they require and what they do. -/
inductive Moves (s : State W τ) : State W τ → Prop
  | call {w : W} (call : Call τ) (phase : s.phase w = .outside) :
    Moves s (s.goto w (.entering call))
  | lock {w : W} {call : Call τ} (free : s.holder = none)
    (phase : s.phase w = .entering call ∨ s.phase w = .woken ∧ call = .waitAndPop) :
    Moves s { s.goto w (.inside call) with holder := some w }
  | push {w : W} {newValue : τ} (phase : s.phase w = .inside (.push newValue)) :
    Moves s { s.goto w (.notifying newValue) with queue := s.queue ++ [newValue] }
  | sleep {w : W} (phase : s.phase w = .inside .waitAndPop) (empty : s.queue = []) :
    Moves s { s.goto w .asleep with holder := none }
  | take {w : W} {call : Call τ} {x : τ} {queue : List τ} (phase : s.phase w = .inside call)
    (pops : call = .waitAndPop ∨ call = .tryPop) (nonempty : s.queue = x :: queue) :
    Moves s { s.goto w (.leaving call (.value x)) with queue }
  | fail {w : W} (phase : s.phase w = .inside .tryPop) (empty : s.queue = []) :
    Moves s (s.goto w (.leaving .tryPop .nothing))
  | empty {w : W} (phase : s.phase w = .inside .empty) :
    Moves s (s.goto w (.leaving .empty (.isEmpty s.queue.isEmpty)))
  | wake {w w' : W} {newValue : τ} (phase : s.phase w = .notifying newValue)
    (asleep : s.phase w' = .asleep) :
    Moves s ((s.goto w' .woken).goto w (.leaving (.push newValue) .done))
  | notify {w : W} {newValue : τ} (phase : s.phase w = .notifying newValue)
    (nobody : ∀ w', (s.phase w').isAsleep = false) :
    Moves s (s.goto w (.leaving (.push newValue) .done))
  | spurious {w : W} (phase : s.phase w = .asleep) : Moves s (s.goto w .woken)
  | unlock {w : W} {call : Call τ} {answer : Answer τ} (phase : s.phase w = .leaving call answer) :
    Moves s { s.goto w .outside with
      holder := none
      returned := s.returned ++ [(w, call, answer)] }

/-- A sleeper. -/
lemma asleep_of_isAsleep {phase : Phase τ} (h : phase.isAsleep = true) : phase = .asleep := by
  cases phase <;> simp [Phase.isAsleep] at h ⊢

/-- **The inversion of a step.** -/
lemma moves_of_step {s s' : State W τ} {l : Label W τ} (h : step s l = some s') : Moves s s' := by
  cases l with
  | call w call =>
    cases phase : s.phase w <;> simp only [step, phase, reduceCtorEq] at h
    cases h
    exact .call call phase
  | lock w =>
    cases free : s.holder <;> cases phase : s.phase w <;>
      simp only [step, free, phase, reduceCtorEq] at h
    all_goals cases h
    · exact .lock free (.inl phase)
    · exact .lock free (.inr ⟨phase, rfl⟩)
  | body w =>
    cases phase : s.phase w <;> simp only [step, phase, reduceCtorEq] at h
    rename_i call
    cases call with
    | push newValue =>
      cases h
      exact .push phase
    | waitAndPop =>
      cases hqueue : s.queue <;> simp only [hqueue, ThreadSafeQueue.tryPop] at h <;> cases h
      · exact .sleep phase hqueue
      · exact .take phase (.inl rfl) hqueue
    | tryPop =>
      cases hqueue : s.queue <;> simp only [hqueue, ThreadSafeQueue.tryPop] at h <;> cases h
      · exact .fail phase hqueue
      · exact .take phase (.inr rfl) hqueue
    | empty =>
      cases h
      exact .empty phase
  | notify w woken =>
    cases phase : s.phase w <;> cases woken <;>
      simp only [step, phase, reduceCtorEq, Option.ite_none_right_eq_some, Option.some.injEq] at h
    · obtain ⟨nobody, rfl⟩ := h
      exact .notify phase nobody
    · rename_i newValue w'
      obtain ⟨hasleep, rfl⟩ := h
      exact .wake phase (asleep_of_isAsleep hasleep)
  | spurious w =>
    cases phase : s.phase w <;> simp only [step, phase, reduceCtorEq] at h
    cases h
    exact .spurious phase
  | unlock w =>
    cases phase : s.phase w <;> simp only [step, phase, reduceCtorEq] at h
    cases h
    exact .unlock phase

/-! ## The invariant -/

/-- The call that has been done and has not returned. -/
def State.pending (s : State W τ) : Option (Call τ × Answer τ) :=
  s.holder.bind fun w => (s.phase w).pending

/-- The calls that have returned, and then the one that has only been done, are calls of a queue
that is called by one thread after the other. -/
def State.Linear (s : State W τ) : Prop :=
  ∃ queue, Spec.Runs [] s.returned queue ∧
    match s.pending with
    | none => queue = s.queue
    | some (call, answer) => Spec.apply queue call = some (answer, s.queue)

/-- What holds between the steps: the thread that has the mutex is the one that says so; the calls
are those of a queue that is called by one thread after the other; and if a thread is asleep, no
more values are in the queue than there are threads that will see to them. -/
structure Inv (s : State W τ) : Prop where
  mutex : ∀ w, (s.phase w).holds = true ↔ s.holder = some w
  linear : s.Linear
  attended : (∃ w, s.phase w = .asleep) →
    s.queue.length ≤ Census.count Phase.attends s.phase

omit [DecidableEq W] in
/-- A new queue. -/
lemma Inv.init : Inv (init : State W τ) :=
  ⟨fun _ => by simp [ThreadSafeQueue.init, Phase.holds], ⟨[], .nil, rfl⟩, fun _ => Nat.zero_le _⟩

omit [Fintype W] in
/-- The thread that has the mutex, after a thread has moved on and has it now or does not. -/
lemma mutex_goto {s : State W τ} (h : ∀ w, (s.phase w).holds = true ↔ s.holder = some w) {w : W}
    {phase : Phase τ} {holder : Option W}
    (hnow : if phase.holds then holder = some w else holder = none)
    (hbefore : s.holder = none ∨ s.holder = some w) :
    ∀ w', (Function.update s.phase w phase w').holds = true ↔ holder = some w' := by
  intro w'
  by_cases hw : w' = w
  · subst hw
    rw [Function.update_self]
    split at hnow <;> simp [*]
  · rw [Function.update_of_ne hw, h w']
    have hne : w ≠ w' := fun heq => hw heq.symm
    split at hnow <;> rcases hbefore with hb | hb <;> simp [hnow, hb, hne]

omit [Fintype W] in
/-- The thread that has the mutex is the same when a thread moves on that keeps it, or stays without
it. -/
lemma mutex_stays {s : State W τ} (h : ∀ w, (s.phase w).holds = true ↔ s.holder = some w) {w : W}
    {phase : Phase τ} (hsame : phase.holds = (s.phase w).holds) :
    ∀ w', (Function.update s.phase w phase w').holds = true ↔ s.holder = some w' := by
  intro w'
  by_cases hw : w' = w
  · subst hw
    rw [Function.update_self, hsame, h w']
  · rw [Function.update_of_ne hw, h w']

/-- **The mutex** is held by one thread at a time, and no step takes it from a thread. -/
lemma Inv.moves_mutex {s s' : State W τ} (h : Inv s) (hmove : Moves s s') :
    ∀ w, (s'.phase w).holds = true ↔ s'.holder = some w := by
  have hholder : ∀ {w : W} {phase : Phase τ}, s.phase w = phase → phase.holds = true →
      s.holder = some w := fun hphase hholds => (h.mutex _).mp (hphase ▸ hholds)
  cases hmove with
  | call call phase => exact mutex_stays h.mutex (by rw [phase]; rfl)
  | lock free phase => exact mutex_goto h.mutex rfl (.inl free)
  | push phase => exact mutex_stays h.mutex (by rw [phase]; rfl)
  | sleep phase empty => exact mutex_goto h.mutex rfl (.inr (hholder phase rfl))
  | take phase pops nonempty => exact mutex_stays h.mutex (by rw [phase]; rfl)
  | fail phase empty => exact mutex_stays h.mutex (by rw [phase]; rfl)
  | empty phase => exact mutex_stays h.mutex (by rw [phase]; rfl)
  | @wake w w' newValue phase asleep =>
    have hne : w ≠ w' := by
      rintro rfl
      rw [phase] at asleep
      cases asleep
    refine mutex_stays (s := s.goto w' .woken) (mutex_stays h.mutex (by rw [asleep]; rfl)) ?_
    rw [show (s.goto w' .woken).phase w = s.phase w from Function.update_of_ne hne _ _, phase]
    rfl
  | notify phase nobody => exact mutex_stays h.mutex (by rw [phase]; rfl)
  | spurious phase => exact mutex_stays h.mutex (by rw [phase]; rfl)
  | unlock phase => exact mutex_goto h.mutex rfl (.inr (hholder phase rfl))

omit [Fintype W] in
/-- A thread without the mutex has no call pending. -/
lemma pending_goto {s : State W τ} {w : W} (hw : s.holder ≠ some w) (phase : Phase τ) :
    (s.goto w phase).pending = s.pending := by
  unfold State.pending
  rw [show (s.goto w phase).holder = s.holder from rfl]
  cases hholder : s.holder with
  | none => rfl
  | some w' =>
    have hne : w' ≠ w := fun heq => hw (heq ▸ hholder)
    simp only [Option.bind_some, State.goto, Function.update_of_ne hne]

omit [DecidableEq W] [Fintype W] in
/-- The call that is pending is that of the thread with the mutex. -/
lemma pending_of_holder {s : State W τ} {w : W} (hw : s.holder = some w) :
    s.pending = (s.phase w).pending := by
  rw [State.pending, hw, Option.bind_some]

omit [DecidableEq W] [Fintype W] in
/-- The calls, when a thread has the mutex. -/
lemma linear_of_holder {s : State W τ} {queue : List τ} (hruns : Spec.Runs [] s.returned queue)
    {w : W} (hw : s.holder = some w) {phase : Phase τ} (hphase : s.phase w = phase)
    (h : match phase.pending with
      | none => queue = s.queue
      | some (call, answer) => Spec.apply queue call = some (answer, s.queue)) : s.Linear := by
  refine ⟨queue, hruns, ?_⟩
  rwa [pending_of_holder hw, hphase]

omit [Fintype W] in
/-- The calls, when a thread without the mutex moves on. -/
lemma State.Linear.goto {s : State W τ} (h : s.Linear) {w : W} (hw : s.holder ≠ some w)
    (phase : Phase τ) : (s.goto w phase).Linear := by
  obtain ⟨queue, hruns, hpending⟩ := h
  refine ⟨queue, hruns, ?_⟩
  rw [pending_goto hw]
  exact hpending

/-- **The calls** stay those of a queue that is called by one thread after the other.

**Proof sketch.** While a thread holds the mutex, the queue is what the last call has left or what
its own call has made of it, as its phase tells. The steps that take effect are those of the thread
that holds the mutex, and they do what the call does to a queue; the call is added to the history
when the mutex is given back. The steps of a thread that does not hold it leave the queue alone. -/
lemma Inv.moves_linear {s s' : State W τ} (h : Inv s) (hmove : Moves s s') : s'.Linear := by
  obtain ⟨queue, hruns, hpending⟩ := h.linear
  have hholder : ∀ {w : W} {phase : Phase τ}, s.phase w = phase → phase.holds = true →
      s.holder = some w := fun hphase hholds => (h.mutex _).mp (hphase ▸ hholds)
  have hfree : ∀ {w : W} {phase : Phase τ}, s.phase w = phase → phase.holds = false →
      s.holder ≠ some w := fun hphase hholds heq => by
    have := (h.mutex _).mpr heq
    rw [hphase, hholds] at this
    cases this
  -- a thread that has just taken the mutex has found the queue as the last call has left it
  have hinside : ∀ {w : W} {call : Call τ}, s.phase w = .inside call → queue = s.queue := by
    intro w call phase
    rwa [pending_of_holder (hholder phase rfl), phase] at hpending
  have hself : ∀ (w : W) (phase : Phase τ), (s.goto w phase).phase w = phase := fun w phase =>
    Function.update_self _ _ _
  cases hmove with
  | call call phase => exact h.linear.goto (hfree phase rfl) _
  | @lock w call free phase =>
    rw [State.pending, free] at hpending
    exact linear_of_holder hruns rfl (hself w _) hpending
  | @push w newValue phase =>
    refine linear_of_holder hruns (hholder phase rfl) (hself w _) ?_
    rw [hinside phase]
    rfl
  | sleep phase empty => exact ⟨queue, hruns, hinside phase⟩
  | @take w call x rest phase pops nonempty =>
    refine linear_of_holder hruns (hholder phase rfl) (hself w _) ?_
    rw [hinside phase, nonempty]
    rcases pops with rfl | rfl <;> rfl
  | @fail w phase empty =>
    refine linear_of_holder hruns (hholder phase rfl) (hself w _) ?_
    change Spec.apply queue .tryPop = some (.nothing, s.queue)
    rw [hinside phase, empty]
    rfl
  | @empty w phase =>
    refine linear_of_holder hruns (hholder phase rfl) (hself w _) ?_
    change Spec.apply queue .empty = some (.isEmpty s.queue.isEmpty, s.queue)
    rw [hinside phase]
    cases s.queue <;> rfl
  | @wake w w' newValue phase asleep =>
    rw [pending_of_holder (hholder phase rfl), phase] at hpending
    exact linear_of_holder hruns (hholder phase rfl) (Function.update_self w _ _) hpending
  | @notify w newValue phase nobody =>
    rw [pending_of_holder (hholder phase rfl), phase] at hpending
    exact linear_of_holder hruns (hholder phase rfl) (hself w _) hpending
  | spurious phase => exact h.linear.goto (hfree phase rfl) _
  | @unlock w call answer phase =>
    rw [pending_of_holder (hholder phase rfl), phase] at hpending
    exact ⟨s.queue, hruns.snoc w hpending, rfl⟩

omit [Fintype W] in
/-- A thread is asleep after a thread has moved on: that one is, or one was before. -/
lemma exists_asleep {s : State W τ} {w : W} {phase : Phase τ}
    (h : ∃ w', Function.update s.phase w phase w' = .asleep) (hphase : phase ≠ .asleep) :
    ∃ w', s.phase w' = .asleep := by
  obtain ⟨w', hw'⟩ := h
  refine ⟨w', ?_⟩
  by_cases hw : w' = w
  · subst hw
    rw [Function.update_self] at hw'
    exact absurd hw' hphase
  · rwa [Function.update_of_ne hw] at hw'

/-- **Wake-ups.** Every value that is put into the queue while a thread sleeps comes with a thread
that will see to it.

**Proof sketch.** A step changes what one thread attends to, or two of them when one is woken, and
the count with it. A push adds a value and makes its own thread attend; a notification hands this on
to the thread that it wakes, or there is no thread that sleeps; and a thread that takes a value has
attended to that value. -/
lemma Inv.moves_attended {s s' : State W τ} (h : Inv s) (hmove : Moves s s') :
    (∃ w, s'.phase w = .asleep) → s'.queue.length ≤ Census.count Phase.attends s'.phase := by
  intro hasleep
  have hcount := fun w phase => Census.count_update Phase.attends s.phase w phase
  -- a thread that moves on and attends afterwards, unless it did not before
  have hmoves : ∀ {w : W} {phase before : Phase τ}, s.phase w = before →
      (∃ w', Function.update s.phase w phase w' = .asleep) → phase ≠ .asleep →
      s.queue.length + phase.attends.toNat ≤
        Census.count Phase.attends (Function.update s.phase w phase) + before.attends.toNat := by
    intro w phase before hbefore hex hphase
    have := h.attended (exists_asleep hex hphase)
    have := hcount w phase
    rw [hbefore] at this
    omega
  cases hmove with
  | call call phase => simpa [Phase.attends] using hmoves phase hasleep (by simp)
  | @lock w call free phase =>
    rcases phase with phase | ⟨phase, rfl⟩
    · exact (Nat.le_add_right _ _).trans (hmoves phase hasleep (by simp))
    · simpa [Phase.attends] using hmoves phase hasleep (by simp)
  | push phase => simpa [Phase.attends] using hmoves phase hasleep (by simp)
  | sleep phase empty =>
    change s.queue.length ≤ _
    rw [empty]
    exact Nat.zero_le _
  | @take w call x rest phase pops nonempty =>
    have hmoved := hmoves phase hasleep (by simp)
    have hbefore : (Phase.inside call : Phase τ).attends.toNat ≤ 1 := Bool.toNat_le _
    rw [nonempty, List.length_cons,
      show (Phase.leaving call (.value x) : Phase τ).attends.toNat = 0 from rfl] at hmoved
    simp only [State.goto_phase]
    omega
  | fail phase empty => simpa [Phase.attends] using hmoves phase hasleep (by simp)
  | empty phase => simpa [Phase.attends] using hmoves phase hasleep (by simp)
  | @wake w w' newValue phase asleep =>
    have hne : w ≠ w' := by
      rintro rfl
      rw [phase] at asleep
      cases asleep
    have hfirst := h.attended ⟨w', asleep⟩
    have hwake := hcount w' .woken
    have hleave := Census.count_update Phase.attends (Function.update s.phase w' .woken) w
      (.leaving (.push newValue) .done)
    rw [Function.update_of_ne hne, phase] at hleave
    rw [asleep] at hwake
    simp only [Phase.attends, Bool.toNat_true, Bool.toNat_false] at hwake hleave
    simp only [State.goto_phase, State.goto_queue]
    omega
  | notify phase nobody =>
    obtain ⟨w', hw'⟩ := exists_asleep hasleep (by simp)
    have := nobody w'
    rw [hw'] at this
    cases this
  | spurious phase =>
    exact (Nat.le_add_right _ _).trans (hmoves phase hasleep (by simp))
  | unlock phase => simpa [Phase.attends] using hmoves phase hasleep (by simp)

/-- **Every step** preserves the invariant. -/
lemma Inv.moves {s s' : State W τ} (h : Inv s) (hmove : Moves s s') : Inv s' :=
  ⟨h.moves_mutex hmove, h.moves_linear hmove, h.moves_attended hmove⟩

/-- **Every run** preserves the invariant. -/
lemma Inv.of_run {ls : List (Label W τ)} {s : State W τ}
    (hrun : Transition.exec step ThreadSafeQueue.init ls = some s) : Inv s :=
  Transition.invariant_of_exec (fun _ _ _ h hstep => h.moves (moves_of_step hstep)) ls .init hrun

/-! ## Main results -/

/-- A thread sleeps until another one pushes a value, and a third call finds the queue empty
again. -/
def sampleRun : List (Label Bool ℕ) :=
  [.call true .waitAndPop, .lock true, .body true, .call false (.push 7), .lock false, .body false,
    .notify false (some true), .unlock false, .lock true, .body true, .unlock true,
    .call false .tryPop, .lock false, .body false, .unlock false]

/-- **No wake-up is lost.** As long as a thread sleeps in `WaitAndPop`, no more values are in the
queue than there are threads that are awake and going to take one or to wake a sleeper up. So if
nobody is on the way, a sleeper sleeps over an empty queue. -/
theorem attended {ls : List (Label W τ)} {s : State W τ}
    (hrun : Transition.exec step init ls = some s) (hasleep : ∃ w, s.phase w = .asleep) :
    s.queue.length ≤ Census.count Phase.attends s.phase ∧
      ((∀ w, (s.phase w).attends = false) → s.queue = []) := by
  have hle := (Inv.of_run hrun).attended hasleep
  refine ⟨hle, fun hnobody => ?_⟩
  rw [Census.count_eq_zero_iff.mpr hnobody] at hle
  exact List.length_eq_zero_iff.mp (Nat.le_zero.mp hle)

/-- A thread sleeps, and another one has pushed a value and is about to wake it up. -/
theorem attended_sample :
    ∃ s, Transition.exec step (init : State Bool ℕ) (sampleRun.take 6) = some s ∧
      s.queue.length ≤ Census.count Phase.attends s.phase ∧
      ((∀ w, (s.phase w).attends = false) → s.queue = []) := by
  have hseen : (Transition.exec step (init : State Bool ℕ) (sampleRun.take 6)).map
      (fun s => (s.phase true).isAsleep) = some true := by
    decide +kernel
  obtain ⟨s, hrun, hasleep⟩ := Option.map_eq_some_iff.mp hseen
  exact ⟨s, hrun, attended hrun ⟨true, asleep_of_isAsleep hasleep⟩⟩

/-- The steps of a thread that is in a call and awake. -/
def Label.goesOn : Label W τ → Prop
  | .call _ _ | .spurious _ => False
  | _ => True

/-- A thread that has the mutex can go on. -/
lemma goesOn_of_holds {s : State W τ} {w : W} (hw : (s.phase w).holds = true) :
    ∃ l s', Label.goesOn l ∧ step s l = some s' := by
  cases phase : s.phase w with
  | inside call =>
    refine ⟨.body w, ?_⟩
    cases call with
    | push newValue => exact ⟨_, trivial, by simp only [step, phase]; rfl⟩
    | waitAndPop =>
      cases hqueue : s.queue <;>
        exact ⟨_, trivial, by simp only [step, phase, hqueue, ThreadSafeQueue.tryPop]; rfl⟩
    | tryPop =>
      cases hqueue : s.queue <;>
        exact ⟨_, trivial, by simp only [step, phase, hqueue, ThreadSafeQueue.tryPop]; rfl⟩
    | empty => exact ⟨_, trivial, by simp only [step, phase]; rfl⟩
  | notifying newValue =>
    by_cases hnobody : ∀ w', (s.phase w').isAsleep = false
    · exact ⟨.notify w none, _, trivial, by simp only [step, phase, if_pos hnobody]; rfl⟩
    · obtain ⟨w', hw'⟩ := not_forall.mp hnobody
      rw [Bool.not_eq_false] at hw'
      exact ⟨.notify w (some w'), _, trivial, by simp only [step, phase, if_pos hw']; rfl⟩
  | leaving call answer => exact ⟨.unlock w, _, trivial, by simp only [step, phase]; rfl⟩
  | _ => rw [phase] at hw; cases hw

/-- **Nobody is stuck.** Whatever has happened, a thread that is in a call and awake can go on, or
there is no such thread, and then threads sleep over an empty queue only. -/
theorem not_stuck {ls : List (Label W τ)} {s : State W τ}
    (hrun : Transition.exec step init ls = some s) :
    (∃ l s', Label.goesOn l ∧ step s l = some s') ∨
      (∀ w, s.phase w = .outside ∨ s.phase w = .asleep) ∧
        ((∃ w, s.phase w = .asleep) → s.queue = []) := by
  have hinv := Inv.of_run hrun
  cases hholder : s.holder with
  | some w => exact .inl (goesOn_of_holds ((hinv.mutex w).mpr hholder))
  | none =>
    by_cases hidle : ∀ w, s.phase w = .outside ∨ s.phase w = .asleep
    · refine .inr ⟨hidle, fun hasleep => ?_⟩
      have hle := hinv.attended hasleep
      have hnobody : ∀ w, (s.phase w).attends = false := fun w => by
        rcases hidle w with hw | hw <;> rw [hw] <;> rfl
      rw [Census.count_eq_zero_iff.mpr hnobody] at hle
      exact List.length_eq_zero_iff.mp (Nat.le_zero.mp hle)
    · obtain ⟨w, hw⟩ := not_forall.mp hidle
      refine .inl ⟨.lock w, ?_⟩
      -- a thread that has the mutex would be its holder
      have hfree : (s.phase w).holds = false := by
        by_contra hholds
        have := (hinv.mutex w).mp (Bool.eq_true_of_not_eq_false hholds)
        rw [hholder] at this
        cases this
      cases phase : s.phase w with
      | entering call => exact ⟨_, trivial, by simp only [step, hholder, phase]; rfl⟩
      | woken => exact ⟨_, trivial, by simp only [step, hholder, phase]; rfl⟩
      | outside => exact absurd (.inl phase) hw
      | asleep => exact absurd (.inr phase) hw
      | _ => rw [phase] at hfree; cases hfree

/-- Nobody but the sleeper is in a call. -/
theorem not_stuck_sample :
    ∃ s, Transition.exec step (init : State Bool ℕ) (sampleRun.take 3) = some s ∧
      ((∃ l s', Label.goesOn l ∧ step s l = some s') ∨
        (∀ w, s.phase w = .outside ∨ s.phase w = .asleep) ∧
          ((∃ w, s.phase w = .asleep) → s.queue = [])) := by
  obtain ⟨s, hrun⟩ := Option.isSome_iff_exists.mp
    (show (Transition.exec step (init : State Bool ℕ) (sampleRun.take 3)).isSome by
      decide +kernel)
  exact ⟨s, hrun, not_stuck hrun⟩

end ThreadSafeQueue

end Icee
