import Icee.Core.ThreadPool

set_option relaxedAutoImplicit false
set_option autoImplicit false

/-!
# The reactors of the server

The constructor of `IceeServer` in `src/include/core/icee_server.h` makes a thread pool, as many
reactors as the pool has threads, and submits the loop of each of them to the pool. As long as
no loop comes back, every reactor gets a thread of its own.

## Main definitions

* `Icee.IceeServer.step` — one step of the constructor or of a worker of the pool.
* `Icee.IceeServer.Served` — the invariant while no loop comes back.

## Main results

* `Icee.IceeServer.reactor_per_thread` — no reactor without a thread, no thread with two reactors.

## Design

`EventLooper::loop` comes back only when it finds `exit_` set, so the flags of the reactors are the
tasks of the pool that come back. A reactor is its index in `reactors_`.
-/

namespace Icee

namespace IceeServer

variable {n : ℕ}

/-- The pool of the server, whose tasks are the loops of the reactors. -/
abbrev Pool (n : ℕ) := ThreadPool.State n (Fin n)

/-- The steps of the constructor and of the workers. -/
inductive Label (n : ℕ)
  /-- The constructor submits the loop of the next reactor. -/
  | submitNext
  | test (w : Fin n)
  | tryPop (w : Fin n)
  | finish (w : Fin n)

/-- What the step is to the pool, if it is possible. -/
def Label.toPool (s : Pool n) : Label n → Option (ThreadPool.Label n (Fin n))
  | .submitNext =>
    if h : s.submitted.length < n then some (.submit ⟨s.submitted.length, h⟩) else none
  | .test w => some (.test w)
  | .tryPop w => some (.tryPop w)
  | .finish w => some (.finish w)

/-- One step of the constructor or of a worker; `exit` are the flags `exit_` of the reactors. -/
def step (exit : Fin n → Bool) (s : Pool n) (l : Label n) : Option (Pool n) :=
  (l.toPool s).bind (ThreadPool.step exit s)

/-- The inversion of a step. -/
lemma moves_of_step {exit : Fin n → Bool} {s s' : Pool n} {l : Label n}
    (h : step exit s l = some s') :
    ∃ l', l.toPool s = some l' ∧ ThreadPool.Moves exit s l' s' := by
  obtain ⟨l', hl', hstep⟩ := Option.bind_eq_some_iff.mp h
  exact ⟨l', hl', ThreadPool.moves_of_step hstep⟩

/-- The reactors are submitted in their order. -/
lemma eq_length_of_toPool {s : Pool n} {l : Label n} {r : Fin n}
    (h : l.toPool s = some (.submit r)) : (r : ℕ) = s.submitted.length := by
  cases l with
  | submitNext =>
    simp only [Label.toPool] at h
    split at h
    · cases h
      rfl
    · cases h
  | _ => cases h

/-- The state of the pool while no loop comes back. -/
structure Served (s : Pool n) : Prop where
  accounted : ThreadPool.Accounted s
  done : s.done = false
  present : ∀ w, s.worker w ≠ .exited
  executed : s.executed = []
  submitted : s.submitted.map Fin.val = List.range s.submitted.length
  busy : Census.count ThreadPool.Worker.isRunning s.worker = s.started.length

/-- A worker that begins or stops to look for a loop. -/
lemma Served.goto {s : Pool n} (h : Served s) {w : Fin n} {worker : ThreadPool.Worker (Fin n)}
    (hbefore : (s.worker w).isRunning = false) (hafter : worker.isRunning = false)
    (hpresent : worker ≠ .exited) : Served (s.goto w worker) := by
  have hcount := Census.count_update ThreadPool.Worker.isRunning s.worker w worker
  rw [hbefore, hafter] at hcount
  refine ⟨h.accounted.goto ?_ ?_, h.done, fun w' hw => ?_, h.executed, h.submitted, ?_⟩
  · intro i r hw
    rw [hw] at hbefore
    cases hbefore
  · rintro i r rfl
    cases hafter
  · rcases ThreadPool.State.goto_worker_cases hw with ⟨-, hexited⟩ | ⟨-, hw⟩
    · exact hpresent hexited
    · exact h.present w' hw
  · exact hcount.trans h.busy

/-- A step of the constructor or of a worker, as long as no loop comes back. -/
lemma Served.step {exit : Fin n → Bool} (hexit : ∀ r, exit r = false) {s s' : Pool n}
    {l : Label n} (h : Served s) (hstep : IceeServer.step exit s l = some s') : Served s' := by
  obtain ⟨l', hl', hmove⟩ := moves_of_step hstep
  have haccounted := h.accounted.moves hmove
  cases hmove with
  | @submit r inUse =>
    refine ⟨haccounted, h.done, h.present, h.executed, ?_, h.busy⟩
    have hnext := eq_length_of_toPool hl'
    simp only [ThreadPool.State.submit, List.map_append, List.map_cons, List.map_nil, h.submitted,
      hnext, List.length_append, List.length_singleton, List.range_succ]
  | setDone inUse => cases l <;> simp [Label.toPool] at hl'
  | join lt joining exited => cases l <;> simp [Label.toPool] at hl'
  | exit testing done => rw [h.done] at done; cases done
  | goOn testing done => exact h.goto (by rw [testing]; rfl) rfl (by simp)
  | yield popping empty => exact h.goto (by rw [popping]; rfl) rfl (by simp)
  | @take w r queue popping nonempty =>
    have hcount := Census.count_update ThreadPool.Worker.isRunning s.worker w
      (.running s.started.length r)
    rw [popping, h.busy] at hcount
    refine ⟨haccounted, h.done, fun w' hw => ?_, h.executed, h.submitted, ?_⟩
    · rcases ThreadPool.State.goto_worker_cases hw with ⟨-, hexited⟩ | ⟨-, hw⟩
      · cases hexited
      · exact h.present w' hw
    · rw [show (s.take w r queue).started = s.started ++ [(w, r)] from rfl, List.length_append]
      exact hcount
  | @finish w position r running back =>
    rw [hexit r] at back
    cases back

/-- A loop that has been taken is still being run by the worker that has taken it. -/
lemma Served.running {s : Pool n} (h : Served s) {i : ℕ} (hi : i < s.started.length) :
    s.worker s.started[i].1 = .running i s.started[i].2 := by
  rcases h.accounted.complete i hi with hmem | ⟨w, r, hw⟩
  · rw [h.executed] at hmem
    cases hmem
  · have hstarted := (h.accounted.running w i r hw).1
    rw [List.getElem?_eq_getElem hi] at hstarted
    rw [Option.some.inj hstarted]
    exact hw

/-- **No worker runs two loops.** -/
lemma Served.nodup_workers {s : Pool n} (h : Served s) : (s.started.map Prod.fst).Nodup := by
  refine List.nodup_iff_injective_getElem.mpr fun i j hij => ?_
  have hi : i.1 < s.started.length := by simpa using i.2
  have hj : j.1 < s.started.length := by simpa using j.2
  simp only [List.getElem_map] at hij
  have hr := h.running hi
  have hr' := h.running hj
  rw [hij, hr', ThreadPool.Worker.running.injEq] at hr
  exact Fin.ext hr.1.symm

/-- **No loop is run by two workers**: every reactor is submitted once. -/
lemma Served.nodup_reactors {s : Pool n} (h : Served s) : s.submitted.Nodup := by
  have hrange : (s.submitted.map Fin.val).Nodup := h.submitted ▸ List.nodup_range
  exact hrange.of_map _

/-- A worker that runs no loop is looking for one. -/
lemma Served.cases_of_not_running {s : Pool n} (h : Served s) {w : Fin n}
    (hw : (s.worker w).isRunning = false) : s.worker w = .testing ∨ s.worker w = .popping := by
  cases hworker : s.worker w with
  | testing => exact .inl rfl
  | popping => exact .inr rfl
  | running i r => rw [hworker] at hw; cases hw
  | exited => exact absurd hworker (h.present w)

/-- The workers without a loop are as many as the loops without a worker. -/
lemma Served.count_not_running {s : Pool n} (h : Served s) :
    Census.count (fun worker => !worker.isRunning) s.worker =
      s.queue.length + (n - s.submitted.length) := by
  have hall := Census.count_add_count_not ThreadPool.Worker.isRunning s.worker
  rw [h.busy, Fintype.card_fin] at hall
  have htaken := congrArg List.length h.accounted.taken
  rw [List.length_append, List.length_map] at htaken
  have hle : s.submitted.length ≤ n := by
    simpa using h.nodup_reactors.length_le_card
  omega

/-- **Every reactor gets its own thread.** However the `n` submissions of the constructor are
interleaved with the steps of the `n` workers, as long as no reactor has its flag `exit_` set: no
loop is ever run by two workers, no worker ever runs two loops, the workers that run no loop are as
many as the loops that are still queued or not yet submitted, and a reactor that has been submitted
is being run by a worker, or it is in the queue and a worker is looking for it. -/
theorem reactor_per_thread {exit : Fin n → Bool} (hexit : ∀ r, exit r = false)
    {ls : List (Label n)} {s : Pool n}
    (h : Transition.exec (step exit) ThreadPool.init ls = some s) :
    (s.started.map Prod.snd).Nodup ∧ (s.started.map Prod.fst).Nodup ∧
      Census.count (fun worker => !worker.isRunning) s.worker =
        s.queue.length + (n - s.submitted.length) ∧
      ∀ r ∈ s.submitted, (∃ w i, s.worker w = .running i r) ∨
        r ∈ s.queue ∧ ∃ w, s.worker w = .testing ∨ s.worker w = .popping := by
  have hstart : Served (ThreadPool.init : Pool n) :=
    ⟨ThreadPool.Accounted.init, rfl, by simp [ThreadPool.init], rfl, rfl,
      Census.count_eq_zero_iff.mpr fun _ => rfl⟩
  have hserved : Served s := Transition.invariant_of_exec
    (fun s l s' hs hstep => hs.step hexit hstep) ls hstart h
  have htaken := hserved.accounted.taken
  refine ⟨?_, hserved.nodup_workers, hserved.count_not_running, fun r hr => ?_⟩
  · have hnodup := hserved.nodup_reactors
    rw [← htaken] at hnodup
    exact hnodup.of_append_left
  · rw [← htaken] at hr
    rcases List.mem_append.mp hr with hr | hr
    · obtain ⟨⟨w, r'⟩, hmem, rfl⟩ := List.mem_map.mp hr
      obtain ⟨i, hi, heq⟩ := List.mem_iff_getElem.mp hmem
      have hrunning := hserved.running hi
      rw [heq] at hrunning
      exact .inl ⟨w, i, hrunning⟩
    · refine .inr ⟨hr, ?_⟩
      have hpos := List.length_pos_of_mem hr
      obtain ⟨w, hw⟩ := Census.exists_of_count_pos
        (hserved.count_not_running ▸ Nat.add_pos_left hpos _)
      exact ⟨w, hserved.cases_of_not_running (by simpa using hw)⟩

/-- Two workers and two reactors: the first loop has been taken, the second one has been
submitted, and the other worker is about to look for it. -/
theorem reactor_per_thread_sample :
    ∃ s : Pool 2, Transition.exec (step fun _ => false) ThreadPool.init
        [.submitNext, .test 0, .test 1, .tryPop 0, .submitNext] = some s ∧ s.queue = [1] ∧
      (s.started.map Prod.snd).Nodup ∧ (s.started.map Prod.fst).Nodup ∧
      Census.count (fun worker => !worker.isRunning) s.worker =
        s.queue.length + (2 - s.submitted.length) ∧
      ∀ r ∈ s.submitted, (∃ w i, s.worker w = .running i r) ∨
        r ∈ s.queue ∧ ∃ w, s.worker w = .testing ∨ s.worker w = .popping := by
  have hrun : (Transition.exec (step fun _ => false) (ThreadPool.init : Pool 2)
      [.submitNext, .test 0, .test 1, .tryPop 0, .submitNext]).map ThreadPool.State.queue =
        some [1] := by
    decide +kernel
  obtain ⟨s, hs, hqueue⟩ := Option.map_eq_some_iff.mp hrun
  exact ⟨s, hs, hqueue, reactor_per_thread (fun _ => rfl) hs⟩

end IceeServer

end Icee
