import Icee.Log.Logger

set_option relaxedAutoImplicit false
set_option autoImplicit false

/-!
# Waking up the background thread

`PushNewLog` changes what the predicate of `cond_.wait` is about while it holds the latch, and
notifies afterwards; `~Logger` sets `done_` without the latch. A notification of the former is never
lost. That of the latter is, if it comes after `LogWrite` has found the predicate false and before
it has blocked; then `~Logger` waits for a thread that nobody wakes up any more.

## Main definitions

* `Icee.Logger.AboutToNotify`, `Icee.Logger.Asleep` — `LogWrite` sleeps through its wake-up.
* `Icee.Logger.Attentive` — the notification of `~Logger` does not fall into that window.
* `Icee.Logger.Attended` — the invariant of such runs.

## Main results

* `Icee.Logger.not_asleep_of_attentive` — in such runs `LogWrite` never sleeps through its wake-up.
* `Icee.Logger.blocked_of_not_attentive` — any other notification of `~Logger` is lost.
-/

namespace Icee

namespace Logger

variable {T : Type*} [DecidableEq T]

/-- A thread is still about to call `notify_one`. -/
def AboutToNotify (s : State T) : Prop :=
  (∃ t position, s.producer t = .pushed position true) ∨ s.destructor = .doneSet

/-- `LogWrite` is blocked although it should flush, and nobody is about to wake it up. -/
def Asleep (s : State T) : Prop :=
  s.writer = .blocked ∧ (s.done = true ∨ s.frontLogEntries.length ≥ countThreshold) ∧
    ¬ AboutToNotify s

/-- The notification of `~Logger` does not come between the evaluation of the predicate to false
and the blocking of `LogWrite`. -/
def Attentive (s : State T) (l : Label T) : Prop := l = .notify → s.writer ≠ .refused

instance (s : State T) (l : Label T) : Decidable (Attentive s l) :=
  inferInstanceAs (Decidable (_ → _))

/-- While `LogWrite` is about to block or blocked, everything that should wake it up is about to. -/
structure Attended (s : State T) : Prop where
  done : s.done = true → s.writer = .refused ∨ s.writer = .blocked → s.destructor = .doneSet
  full : s.frontLogEntries.length ≥ countThreshold → s.writer = .blocked →
    ∃ t position, s.producer t = .pushed position true
  refused : s.writer = .refused → s.frontLogEntries.length < countThreshold
  begun : s.destructor ≠ .alive → s.done = true

@[simp] lemma Writer.notified_ne_blocked (w : Writer) : w.notified ≠ .blocked := by
  cases w <;> decide

@[simp] lemma Writer.notified_eq_refused (w : Writer) : w.notified = .refused ↔ w = .refused := by
  cases w <;> decide

/-- A thread whose entry fills the buffer is going to notify. -/
lemma exists_pushed_of_full {s : State T} {t : T} {log : Log} {now : ℤ}
    (h : (s.pushNewLog t log now).frontLogEntries.length ≥ countThreshold) :
    ∃ t' position, (s.pushNewLog t log now).producer t' = .pushed position true := by
  have hnotify : decide (now - s.lastFlush > timeThreshold ∨
      (s.frontLogEntries ++ [log]).length ≥ countThreshold) = true := decide_eq_true (.inr h)
  refine ⟨t, s.pushed.length, ?_⟩
  simp only [State.pushNewLog, hnotify, Function.update_self]

/-- **A step keeps `LogWrite` attended**, unless the notification of `~Logger` falls into the window
before it blocks.

**Proof sketch.** `LogWrite` is asleep only after it has been refused, and a refusal has seen
neither `done_` nor a full buffer. A buffer that is filled after that is filled by a thread that is
going to notify; and after `done_` has been set `~Logger` notifies, which wakes `LogWrite` unless it
is in between, and that is excluded. -/
lemma Attended.moves {s s' : State T} {l : Label T} (h : Attended s) (hl : Attentive s l)
    (hmove : Moves s l s') : Attended s' := by
  obtain ⟨hdone, hfull, hrefused, hbegun⟩ := h
  cases hmove with
  | push outside free there =>
    refine ⟨hdone, fun hlength _ => exists_pushed_of_full hlength, fun hw => ?_, hbegun⟩
    rw [show s.writer = .refused from hw] at free
    cases free
  | @leave t position shouldNotify pushed =>
    rw [State.leavePushNewLog_eq]
    cases shouldNotify with
    | true =>
      refine ⟨fun hset hw => hdone hset ?_, fun _ hw => ?_, fun hw => hrefused ?_, hbegun⟩
      · exact .inl (by simpa using hw.resolve_right (Writer.notified_ne_blocked _))
      · exact absurd hw (Writer.notified_ne_blocked _)
      · simpa using hw
    | false =>
      refine ⟨hdone, fun hlength hw => ?_, hrefused, hbegun⟩
      -- another thread is going to notify
      obtain ⟨t', position', hnotify⟩ := hfull hlength hw
      have ht : t' ≠ t := by
        rintro rfl
        rw [pushed] at hnotify
        cases hnotify
      exact ⟨t', position', (Function.update_of_ne ht _ _).trans hnotify⟩
  | refuse locked flush =>
    simp only [State.shouldFlush, Bool.or_eq_false_iff, decide_eq_false_iff_not, not_le] at flush
    obtain ⟨⟨hnotDone, -⟩, hlength⟩ := flush
    refine ⟨fun hset => ?_, by rintro - ⟨⟩, fun _ => by omega, hbegun⟩
    rw [show s.done = true from hset] at hnotDone
    cases hnotDone
  | block refused =>
    refine ⟨fun hset _ => hdone hset (.inl refused), fun hlength _ => ?_, by rintro ⟨⟩, hbegun⟩
    have := hrefused refused
    exact absurd hlength (by simp only; omega)
  | setDone alive =>
    exact ⟨fun _ _ => rfl, hfull, hrefused, fun _ => rfl⟩
  | notify doneSet =>
    have hw : s.writer.notified ≠ .refused := by simpa using hl rfl
    exact ⟨fun _ h => absurd h (by simp [State.notifyOne, hw]),
      fun _ h => absurd h (Writer.notified_ne_blocked _), fun h => absurd h hw,
      fun _ => hbegun (by rw [doneSet]; decide)⟩
  | join joining returned =>
    refine ⟨fun _ h => ?_, fun _ h => ?_, fun h => ?_, fun _ => hbegun (by rw [joining]; decide)⟩
    · simp [returned] at h
    · simp [returned] at h
    · simp [returned] at h
  | _ => exact ⟨by rintro - (⟨⟨⟩⟩ | ⟨⟨⟩⟩), by rintro - ⟨⟩, by rintro ⟨⟩, hbegun⟩

/-- **The log thread does not sleep through its wake-up** in any run in which no notification of
`~Logger` comes between the evaluation of the predicate to false and the blocking of `LogWrite`:
whenever `LogWrite` is blocked although `done_` is set or the buffer is full, a thread is still
about to call `notify_one`; and `~Logger` never joins a blocked thread. -/
theorem not_asleep_of_attentive {now : ℤ} {ls : List (Label T)} {s : State T}
    (hattentive : Transition.Along step Attentive (init now) ls)
    (h : Transition.exec step (init now) ls = some s) :
    ¬ Asleep s ∧ ¬ (s.destructor = .joining ∧ s.writer = .blocked) := by
  have hstart : Attended (init now : State T) :=
    ⟨by rintro ⟨⟩, by rintro - ⟨⟩, by rintro ⟨⟩, fun halive => absurd rfl halive⟩
  have hattended : Attended s := Transition.invariant_of_along
    (fun s l s' hs hl hstep => hs.moves hl (moves_of_step hstep)) ls hstart hattentive h
  constructor
  · rintro ⟨hblocked, hdone | hfull, hnobody⟩
    · exact hnobody (.inr (hattended.done hdone (.inr hblocked)))
    · exact hnobody (.inl (hattended.full hfull hblocked))
  · rintro ⟨hjoining, hblocked⟩
    have hdone := hattended.begun (by rw [hjoining]; decide)
    have hset := hattended.done hdone (.inr hblocked)
    rw [hjoining] at hset
    cases hset

/-- A notification of `~Logger` in the window before `LogWrite` blocks is lost: with the next step
of `LogWrite`, `~Logger` waits for a blocked thread. -/
lemma blocked_of_not_attentive {s s' : State T} (hwindow : s.writer = .refused)
    (hnotify : step s .notify = some s') (now : ℤ) :
    ∃ s'', step s' (.write now) = some s'' ∧ s''.writer = .blocked ∧ s''.destructor = .joining := by
  cases moves_of_step hnotify with
  | notify doneSet =>
    refine ⟨{ s.notifyOne with writer := .blocked, destructor := .joining }, ?_, rfl, rfl⟩
    simp only [step, State.logWrite, State.notifyOne, hwindow, Writer.notified]

/-- A run in which `~Logger` notifies a blocked thread. -/
def sampleAttentive : List (Label ℕ) :=
  [.write 0, .write 0, .write 0, .setDone, .notify, .write 0, .write 0]

/-- The thread is woken up. -/
theorem not_asleep_of_attentive_sample :
    ∃ s, Transition.exec step (init 0) sampleAttentive = some s ∧ s.writer = .passed ∧
      ¬ Asleep s ∧ ¬ (s.destructor = .joining ∧ s.writer = .blocked) := by
  have hrun : (Transition.exec step (init 0) sampleAttentive).map State.writer = some .passed := by
    decide +kernel
  obtain ⟨s, hs, hwriter⟩ := Option.map_eq_some_iff.mp hrun
  exact ⟨s, hs, hwriter, not_asleep_of_attentive (by decide +kernel) hs⟩

/-- `~Logger` sets `done_` and notifies after `LogWrite` has found the predicate false and before
it blocks: it then waits in `join` for a thread that sleeps. -/
theorem wakeUp_is_lost :
    ∃ s : State ℕ, Transition.exec step (init 0)
        [.write 0, .write 0, .setDone, .notify, .write 0] = some s ∧
      Asleep s ∧ s.destructor = .joining ∧ s.writer = .blocked := by
  refine ⟨_, rfl, ⟨rfl, .inl rfl, ?_⟩, rfl, rfl⟩
  rintro (⟨t, position, hpushed⟩ | hset)
  · cases hpushed
  · cases hset

end Logger

end Icee
