import Icee.Core.ThreadPool

set_option relaxedAutoImplicit false
set_option autoImplicit false

/-!
# When the destructor of the pool returns

`~ThreadPool` sets `done_` and `~Joiner` waits for every worker. A worker tests `done_` between two
tasks and at no other time, so that one task that does not come back keeps the destructor from
returning. Which tasks are still run is decided when `done_` is set: the ones that are being run,
and one for each worker that has just found `done_` not set, from the front of the queue.

## Main definitions

* `Icee.ThreadPool.Returning` — the tasks that are still run when `done_` is set all come back.
* `Icee.ThreadPool.State.work` — how many steps are left when `done_` has been set.
* `Icee.ThreadPool.Since` — what a pool that is being destroyed has kept.

## Main results

* `Icee.ThreadPool.destructor_returns_iff` — every run of a pool that is being destroyed ends, and
  whether it ends with the return of the destructor is decided when `done_` is set.
-/

namespace Icee

namespace ThreadPool

variable {n : ℕ} {τ : Type*} {returns : τ → Bool}

/-- The tasks that are still run if `done_` is set now: those that are being run, and those at the
front of the queue for which a worker is about to pop. All of them come back. -/
def Returning (returns : τ → Bool) (s : State n τ) : Prop :=
  (∀ w i task, s.worker w = .running i task → returns task = true) ∧
    ∀ task ∈ s.queue.take s.popping, returns task = true

/-! ## The steps that are left -/

/-- How many steps a worker has at most before it, once `done_` is set. -/
@[simp] def Worker.work : Worker τ → ℕ
  | .testing => 1
  | .popping => 3
  | .running _ _ => 2
  | .exited => 0

/-- How many steps the pool has at most before it, once `done_` is set. -/
def State.work (s : State n τ) : ℕ :=
  (∑ w, (s.worker w).work) + match s.owner with
    | .inUse => n
    | .joining joined => n - joined

/-- What is left when a worker moves on. -/
lemma work_goto {s s' : State n τ} {w : Fin n} {worker : Worker τ}
    (hworker : s'.worker = (s.goto w worker).worker) (howner : s'.owner = s.owner) :
    s'.work + (s.worker w).work = s.work + worker.work := by
  have hsum := Census.sum_update Worker.work s.worker w worker
  simp only [State.work, howner, hworker, State.goto]
  omega

/-- A step of a worker that leaves it fewer steps to take. -/
lemma work_lt_of_goto {s s' : State n τ} {w : Fin n} {worker : Worker τ}
    (hworker : s'.worker = (s.goto w worker).worker) (howner : s'.owner = s.owner)
    (hless : worker.work < (s.worker w).work) : s'.work < s.work := by
  have hleft := work_goto hworker howner
  omega

/-- **Every step of a pool that is being destroyed** leaves fewer steps to be taken. -/
lemma work_lt {s s' : State n τ} {l : Label n τ} (hdone : s.done = true) (howner : s.owner ≠ .inUse)
    (hmove : Moves returns s l s') : s'.work < s.work := by
  cases hmove with
  | submit inUse => exact absurd inUse howner
  | setDone inUse => exact absurd inUse howner
  | @join joined lt joining exited =>
    simp only [State.work, joining]
    omega
  | exit testing done => exact work_lt_of_goto rfl rfl (by simp [testing])
  | goOn testing notDone => rw [hdone] at notDone; cases notDone
  | yield popping empty => exact work_lt_of_goto rfl rfl (by simp [popping])
  | take popping nonempty => exact work_lt_of_goto rfl rfl (by simp [popping])
  | finish running back => exact work_lt_of_goto rfl rfl (by simp [running])

/-- A worker has at most three steps before it. -/
lemma work_le (s : State n τ) : s.work ≤ 4 * n := by
  have hworkers : ∑ w, (s.worker w).work ≤ ∑ _w : Fin n, 3 :=
    Finset.sum_le_sum fun w _ => by cases s.worker w <;> simp
  have howner : (match s.owner with
    | .inUse => n
    | .joining joined => n - joined) ≤ n := by
    cases s.owner with
    | inUse => exact le_rfl
    | joining joined => exact Nat.sub_le _ _
  rw [Finset.sum_const, Finset.card_univ, Fintype.card_fin, smul_eq_mul] at hworkers
  rw [State.work]
  omega

/-! ## What is kept -/

/-- What a pool has kept since the state `s₁`: it has the tasks that were taken and the tasks that
had come back, and the tasks that have come back are ones that do. -/
structure Since (returns : τ → Bool) (s₁ s : State n τ) : Prop where
  started : s₁.started <+: s.started
  executed : ∀ i ∈ s₁.executed, i ∈ s.executed
  returns : ∀ i ∈ s.executed, ∃ w task, s.started[i]? = some (w, task) ∧ returns task = true
  joined : ∀ joined, s.owner = .joining joined → joined ≤ n

/-- A step keeps what the pool has. -/
lemma Since.moves {s₁ s s' : State n τ} {l : Label n τ} (h : Since returns s₁ s)
    (haccounted : Accounted s) (hmove : Moves returns s l s') : Since returns s₁ s' := by
  obtain ⟨hstarted, hexecuted, hreturns, hjoined⟩ := h
  cases hmove with
  | submit inUse => exact ⟨hstarted, hexecuted, hreturns, hjoined⟩
  | setDone inUse =>
    exact ⟨hstarted, hexecuted, hreturns, fun joined hjoining => by cases hjoining; omega⟩
  | @join joined lt joining exited =>
    exact ⟨hstarted, hexecuted, hreturns, fun joined' hjoining => by cases hjoining; omega⟩
  | exit testing done => exact ⟨hstarted, hexecuted, hreturns, hjoined⟩
  | goOn testing done => exact ⟨hstarted, hexecuted, hreturns, hjoined⟩
  | yield popping empty => exact ⟨hstarted, hexecuted, hreturns, hjoined⟩
  | @take w task queue popping nonempty =>
    refine ⟨hstarted.trans (List.prefix_append _ _), hexecuted, fun i hi => ?_, hjoined⟩
    obtain ⟨w', task', hi', hback⟩ := hreturns i hi
    have hlt := (List.getElem?_eq_some_iff.mp hi').1
    exact ⟨w', task', (List.getElem?_append_left hlt).trans hi', hback⟩
  | @finish w position task running back =>
    refine ⟨hstarted, fun i hi => List.mem_append_left _ (hexecuted i hi), fun i hi => ?_, hjoined⟩
    rcases List.mem_append.mp hi with hi | hi
    · exact hreturns i hi
    · rw [List.mem_singleton.mp hi]
      exact ⟨w, task, (haccounted.running w position task running).1, back⟩

/-! ## The end of a run -/

/-- A pool in which no worker is about to pop has taken the front of the queue it had. -/
lemma started_of_draining {s₁ s : State n τ} (h₁ : Accounted s₁) (h : Accounted s)
    (hsince : Since returns s₁ s)
    (hdraining : Draining s₁.submitted (s₁.queue.length - s₁.popping) s) (hnone : s.popping = 0) :
    ∃ more, s.started = s₁.started ++ more ∧ more.map Prod.snd = s₁.queue.take s₁.popping := by
  obtain ⟨more, hmore⟩ := hsince.started
  have htaken := h.taken
  rw [← hmore, hdraining.submitted, ← h₁.taken, List.map_append, List.append_assoc] at htaken
  have hqueue : more.map Prod.snd ++ s.queue = s₁.queue := List.append_cancel_left htaken
  have hleft := hdraining.left
  have hlength := congrArg List.length hqueue
  rw [List.length_append] at hlength
  refine ⟨more, hmore.symm, ?_⟩
  by_cases hfew : s₁.queue.length ≤ s₁.popping
  · have hempty : s.queue = [] := List.length_eq_zero_iff.mp (by omega)
    rw [List.take_of_length_le hfew, ← hqueue, hempty, List.append_nil]
  · rw [← hqueue, List.take_left' (by omega)]

/-- A worker that can do nothing has exited, or it runs a task that does not come back. -/
lemma exited_or_running {s : State n τ} (hstuck : Transition.Stuck (step returns) s) (w : Fin n) :
    s.worker w = .exited ∨ ∃ i task, s.worker w = .running i task ∧ returns task = false := by
  cases hworker : s.worker w with
  | testing =>
    have hno := hstuck (.test w)
    simp only [step, hworker, reduceCtorEq] at hno
  | popping =>
    have hno := hstuck (.tryPop w)
    cases hqueue : s.queue <;>
      simp only [step, hworker, hqueue, ThreadSafeQueue.tryPop, reduceCtorEq] at hno
  | running i task =>
    have hno := hstuck (.finish w)
    refine .inr ⟨i, task, rfl, ?_⟩
    simpa [step, hworker] using hno
  | exited => exact .inl rfl

/-- If all workers have exited, the destructor goes on until it has joined them. -/
lemma joined_of_exited {s : State n τ} (hstuck : Transition.Stuck (step returns) s)
    (howner : s.owner ≠ .inUse) (hle : ∀ joined, s.owner = .joining joined → joined ≤ n)
    (hexited : ∀ w, s.worker w = .exited) : s.owner = .joining n := by
  cases hjoining : s.owner with
  | inUse => exact absurd hjoining howner
  | joining joined =>
    have hno := hstuck .join
    simp only [step, hjoining, hexited] at hno
    have hnot : ¬ joined < n := by
      intro hlt
      simp [hlt] at hno
    have := hle joined hjoining
    rw [show joined = n by omega]

/-- When the destructor has returned, nothing more is done. -/
lemma stuck_of_joined {s : State n τ} (howner : s.owner = .joining n)
    (hexited : ∀ w, s.worker w = .exited) : Transition.Stuck (step returns) s := by
  intro l
  cases l <;> simp [step, howner, hexited]

/-- A task that is being run has been run since `done_` was set, or has been taken since then. -/
lemma Returning.of_running {s₁ s : State n τ} (hreturning : Returning returns s₁)
    (h₁ : Accounted s₁) (h : Accounted s) (hsince : Since returns s₁ s)
    (hdraining : Draining s₁.submitted (s₁.queue.length - s₁.popping) s) (hnone : s.popping = 0)
    {w : Fin n} {i : ℕ} {task : τ} (hrunning : s.worker w = .running i task) :
    returns task = true := by
  obtain ⟨hstarted, hnot⟩ := h.running w i task hrunning
  obtain ⟨more, hmore, htake⟩ := started_of_draining h₁ h hsince hdraining hnone
  rw [hmore] at hstarted
  by_cases hi : i < s₁.started.length
  · rw [List.getElem?_append_left hi] at hstarted
    rcases h₁.complete i hi with hexecuted | ⟨w', task', hw'⟩
    · exact absurd (hsince.executed i hexecuted) hnot
    · have hstarted' := (h₁.running w' i task' hw').1
      rw [hstarted] at hstarted'
      cases hstarted'
      exact hreturning.1 w i task hw'
  · rw [List.getElem?_append_right (not_lt.mp hi)] at hstarted
    have hmem := List.mem_map_of_mem (f := Prod.snd) (List.mem_of_getElem? hstarted)
    rw [htake] at hmem
    exact hreturning.2 task hmem

/-- If the destructor returns, every task that was still run has come back. -/
lemma Returning.of_joined {s₁ s : State n τ} (h₁ : Accounted s₁) (h : Accounted s)
    (hsince : Since returns s₁ s)
    (hdraining : Draining s₁.submitted (s₁.queue.length - s₁.popping) s)
    (hexited : ∀ w, s.worker w = .exited) : Returning returns s₁ := by
  have hnone : s.popping = 0 := Census.count_eq_zero_iff.mpr fun w => by rw [hexited w]; rfl
  obtain ⟨more, hmore, htake⟩ := started_of_draining h₁ h hsince hdraining hnone
  -- whatever has been taken has come back
  have hback : ∀ e ∈ s.started, returns e.2 = true := by
    intro e he
    obtain ⟨i, hi, heq⟩ := List.mem_iff_getElem.mp he
    have hexecuted : i ∈ s.executed :=
      (executed_perm_of_exited h hexited).mem_iff.mpr (List.mem_range.mpr hi)
    obtain ⟨w, task, hi', hreturns⟩ := hsince.returns i hexecuted
    rw [List.getElem?_eq_getElem hi, heq] at hi'
    cases hi'
    exact hreturns
  refine ⟨fun w i task hw => ?_, fun task hmem => ?_⟩
  · have hmem : (w, task) ∈ s₁.started := List.mem_of_getElem? (h₁.running w i task hw).1
    exact hback (w, task) (hsince.started.subset hmem)
  · rw [← htake] at hmem
    obtain ⟨e, he, rfl⟩ := List.mem_map.mp hmem
    exact hback e (hmore ▸ List.mem_append_right _ he)

/-- What a run keeps of the pool it begins with. -/
lemma Since.of_exec {ls₁ ls₂ : List (Label n τ)} {s₁ s₂ : State n τ}
    (h₁ : Transition.exec (step returns) init ls₁ = some s₁)
    (h₂ : Transition.exec (step returns) s₁ ls₂ = some s₂) :
    Accounted s₂ ∧ Since returns s₁ s₂ := by
  have hkeeps : ∀ {s₀ : State n τ} (s l s'), (Accounted s ∧ Since returns s₀ s) →
      step returns s l = some s' → Accounted s' ∧ Since returns s₀ s' :=
    fun s l s' h hstep => ⟨h.1.moves (moves_of_step hstep), h.2.moves h.1 (moves_of_step hstep)⟩
  have hinit : Since returns (init : State n τ) init :=
    ⟨List.prefix_rfl, fun _ hi => hi, by rintro _ ⟨⟩, by rintro _ ⟨⟩⟩
  obtain ⟨haccounted, hsince⟩ := Transition.invariant_of_exec hkeeps ls₁
    ⟨Accounted.init, hinit⟩ h₁
  exact Transition.invariant_of_exec hkeeps ls₂
    ⟨haccounted, List.prefix_rfl, fun _ hi => hi, hsince.returns, hsince.joined⟩ h₂

/-- If no task comes back, all that is still run when `done_` is set comes back only if nothing is:
no task has been taken, and none is left for a worker that is about to pop. -/
lemma returning_iff_of_never (hnever : ∀ task, returns task = false) {ls : List (Label n τ)}
    {s : State n τ} (h : Transition.exec (step returns) init ls = some s) :
    Returning returns s ↔ s.started = [] ∧ (s.queue = [] ∨ s.popping = 0) := by
  have hinit : Transition.exec (step returns) (init : State n τ) [] = some init := rfl
  obtain ⟨haccounted, hsince⟩ := Since.of_exec hinit h
  have hfront : (∀ task ∈ s.queue.take s.popping, returns task = true) ↔
      s.queue = [] ∨ s.popping = 0 := by
    rw [← List.take_eq_nil_iff.trans or_comm, List.eq_nil_iff_forall_not_mem]
    simp only [hnever, Bool.false_eq_true, imp_false]
  rw [Returning, hfront]
  refine and_congr_left fun _ => ⟨fun hrunning => ?_, fun hempty w i task hw => ?_⟩
  · by_contra hne
    rcases haccounted.complete 0 (List.length_pos_iff.mpr hne) with hexecuted | ⟨w, task, hw⟩
    · obtain ⟨w, task, -, hback⟩ := hsince.returns 0 hexecuted
      rw [hnever] at hback
      cases hback
    · have hback := hrunning w 0 task hw
      rw [hnever] at hback
      cases hback
  · have hstarted := (haccounted.running w i task hw).1
    rw [hempty] at hstarted
    cases hstarted

/-- **When the destructor of the pool returns.** Let `done_` be set after any run. However the
threads go on from there, they take at most four steps for each worker; and when none of them can
take another one, the destructor has returned if and only if the tasks that were being run when
`done_` was set come back, and those at the front of the queue for which a worker was about to
pop. -/
theorem destructor_returns_iff {ls₁ : List (Label n τ)} {s₁ s₁' : State n τ}
    (h₁ : Transition.exec (step returns) init ls₁ = some s₁)
    (hset : step returns s₁ .setDone = some s₁') {ls₂ : List (Label n τ)} {s₂ : State n τ}
    (h₂ : Transition.exec (step returns) s₁' ls₂ = some s₂) :
    ls₂.length ≤ 4 * n ∧
      (Transition.Stuck (step returns) s₂ → (s₂.owner = .joining n ↔ Returning returns s₁)) := by
  have haccounted₁ : Accounted s₁ := Accounted.of_exec h₁
  have hrun : Transition.exec (step returns) s₁ (.setDone :: ls₂) = some s₂ := by
    rw [Transition.exec_cons hset, h₂]
  obtain ⟨haccounted, hsince⟩ := Since.of_exec h₁ hrun
  have hstart : Draining s₁.submitted (s₁.queue.length - s₁.popping) s₁' := by
    cases moves_of_step hset with
    | setDone inUse => exact ⟨rfl, by simp, rfl, rfl⟩
  have hdraining : Draining s₁.submitted (s₁.queue.length - s₁.popping) s₂ :=
    invariant_of_moves (fun _ _ _ => Draining.moves) ls₂ hstart h₂
  refine ⟨?_, fun hstuck => ⟨fun hjoined => ?_, fun hreturning => ?_⟩⟩
  · have hkept : ∀ (s : State n τ) l s', Draining s₁.submitted (s₁.queue.length - s₁.popping) s →
        step returns s l = some s' →
        Draining s₁.submitted (s₁.queue.length - s₁.popping) s' ∧ s'.work < s.work :=
      fun s l s' hs hstep => ⟨hs.moves (moves_of_step hstep),
        work_lt hs.done hs.owner (moves_of_step hstep)⟩
    have hless := Transition.length_le_of_measure State.work hkept ls₂ hstart h₂
    have := work_le s₁'
    omega
  · have hjoinedInv : Joined s₂ := invariant_of_moves (fun _ _ _ => Joined.moves)
      (ls₁ ++ .setDone :: ls₂) ⟨by rintro _ ⟨⟩, by rintro _ ⟨⟩⟩
      ((Transition.exec_append _ h₁).trans hrun)
    have hexited : ∀ w, s₂.worker w = .exited := fun w => (hjoinedInv.joining n hjoined).2 w w.isLt
    exact Returning.of_joined haccounted₁ haccounted hsince hdraining hexited
  · have hnone : s₂.popping = 0 := Census.count_eq_zero_iff.mpr fun w => by
      rcases exited_or_running hstuck w with hw | ⟨i, task, hw, -⟩ <;> rw [hw] <;> rfl
    refine joined_of_exited hstuck hdraining.owner hsince.joined fun w => ?_
    rcases exited_or_running hstuck w with hw | ⟨i, task, hw, hnot⟩
    · exact hw
    · have hback := hreturning.of_running haccounted₁ haccounted hsince hdraining hnone hw
      rw [hnot] at hback
      cases hback

/-- Three workers: one runs a task that comes back, one is about to pop, and there are two tasks in
the queue. The first of them comes back, and whether the other one does is of no importance. -/
theorem destructor_returns_iff_three :
    ∃ s₁ s₁' s₂ : State 3 ℕ, Transition.exec (step (· < 9)) init
        [.submit 7, .test 0, .tryPop 0, .submit 8, .submit 9, .test 1] = some s₁ ∧
      step (· < 9) s₁ .setDone = some s₁' ∧ Transition.exec (step (· < 9)) s₁' [.tryPop 1, .test 2,
        .finish 0, .finish 1, .test 0, .test 1, .join, .join, .join] = some s₂ ∧
      Transition.Stuck (step (· < 9)) s₂ ∧ 9 ∈ s₁.queue ∧ Returning (· < 9) s₁ := by
  have hrun : Transition.observe (step (· < 9)) init
      [.submit 7, .test 0, .tryPop 0, .submit 8, .submit 9, .test 1] .setDone
      [.tryPop 1, .test 2, .finish 0, .finish 1, .test 0, .test 1, .join, .join, .join]
      (fun s₁ s₂ : State 3 ℕ => (s₁.queue, s₂.owner, s₂.work)) = some ([8, 9], .joining 3, 0) := by
    decide +kernel
  obtain ⟨s₁, s₁', s₂, h₁, hset, h₂, heq⟩ := Transition.exists_of_observe _ hrun
  simp only [Prod.mk.injEq] at heq
  obtain ⟨hqueue, howner, hwork⟩ := heq
  have hexited : ∀ w, s₂.worker w = .exited := fun w => by
    have hzero : ∑ w, (s₂.worker w).work = 0 := (Nat.add_eq_zero_iff.mp hwork).1
    have hw := Finset.sum_eq_zero_iff.mp hzero w (Finset.mem_univ w)
    cases hworker : s₂.worker w <;> simp [hworker] at hw
    rfl
  have hstuck : Transition.Stuck (step (· < 9)) s₂ := stuck_of_joined howner hexited
  exact ⟨s₁, s₁', s₂, h₁, hset, h₂, hstuck, by simp [hqueue],
    ((destructor_returns_iff h₁ hset h₂).2 hstuck).mp howner⟩

end ThreadPool

end Icee
