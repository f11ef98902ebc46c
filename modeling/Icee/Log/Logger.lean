import Icee.Core.Basic
import Icee.Lib.Transition

set_option relaxedAutoImplicit false
set_option autoImplicit false

/-!
# The asynchronous logger

`src/log/logger.cc`: any number of threads push log entries into a buffer, a background thread
exchanges that buffer for an empty one and hands it to `log_strategy_`, and the destructor stops
the background thread. The system is given step by step, so that the threads can be interleaved.

## Main definitions

* `Icee.Logger.Log` — a log entry.
* `Icee.Logger.Writer`, `Icee.Logger.Producer`, `Icee.Logger.Destructor` — how far `LogWrite`, a
  call of `PushNewLog` and `~Logger` have come.
* `Icee.Logger.State`, `Icee.Logger.step` — the whole system and its steps.
* `Icee.Logger.Moves` — the steps, one constructor for each.

## Main results

* `Icee.Logger.moves_of_step` — the inversion of a step.
* `Icee.Logger.invariant_of_moves` — the invariant rule for the logger.

## Design

The critical section of `PushNewLog` is one step, which is possible when `LogWrite` does not hold
`latch_`. `LogWrite` is cut into the steps between which other threads can make a difference. In
`cond_.wait` it evaluates the predicate while it holds the latch, and blocks in a second step, in
which it gives the latch back. A blocked thread is woken by `notify_one` or, as the standard
allows, for no reason; it then has to take the latch again before it evaluates the predicate.

Three components of the state are there for the record: the batches given to `log_strategy_`, all
entries pushed in the order in which the pushes took the latch, and the positions in that order of
the entries whose `PushNewLog` has returned.
-/

namespace Icee

namespace Logger

/-- `COUNT_THRESHOLD`. -/
def countThreshold : ℕ := 1000

/-- `TIME_THRESHOLD`, in microseconds. -/
def timeThreshold : ℤ := 3000

/-- `Logger::Log`. Every log entry ends its line. -/
structure Log where
  stampedMessage : Bytes
  endsLine : stampedMessage.getLast? = some 10
  deriving DecidableEq

/-- The constructor of `Logger::Log`: the time stamp, the message, and `std::endl`. -/
def Log.make (timeStamp message : Bytes) : Log :=
  ⟨timeStamp ++ message ++ [10], List.getLast?_concat⟩

/-! ## The threads -/

/-- How far `LogWrite` has come. -/
inductive Writer
  /-- At the beginning of the loop. -/
  | start
  /-- The latch has been taken, and the predicate of `cond_.wait` is to be evaluated. -/
  | locked
  /-- The predicate was false; the latch is still held. -/
  | refused
  /-- In `cond_.wait`, without the latch. -/
  | blocked
  /-- In `cond_.wait`, woken up, but without the latch. -/
  | woken
  /-- The predicate was true, and the buffer can be flushed. -/
  | passed
  /-- The buffers have been swapped, under the latch. -/
  | swapped
  /-- The latch has been given back. -/
  | unlocked
  /-- `log_strategy_` has been called. -/
  | given
  /-- `last_flush_` has been refreshed. -/
  | stamped
  /-- The standby buffer has been cleared, and `done_` is to be tested. -/
  | flushed
  /-- There was nothing to flush, and `done_` is to be tested, under the latch. -/
  | idle
  | returned
  deriving DecidableEq, Repr

/-- Where `LogWrite` holds the latch. -/
def Writer.holdsLatch : Writer → Bool
  | .locked | .refused | .passed | .swapped | .idle => true
  | _ => false

/-- What a notification does to `LogWrite`: nothing, unless it is blocked. -/
def Writer.notified : Writer → Writer
  | .blocked => .woken
  | writer => writer

/-- How far the call of `PushNewLog` in a thread has come. -/
inductive Producer
  | outside
  /-- The entry has been pushed, at this position, and the latch has been given back. -/
  | pushed (position : ℕ) (shouldNotify : Bool)
  deriving DecidableEq, Repr

/-- How far `~Logger` has come. -/
inductive Destructor
  | alive
  /-- `done_` has been set. -/
  | doneSet
  /-- `notify_one` has been called. -/
  | joining
  | destroyed
  deriving DecidableEq, Repr

/-! ## The system -/

variable {T : Type*} [DecidableEq T]

/-- The logger, the local variables of its threads, and what has happened so far. -/
structure State (T : Type*) where
  done : Bool
  frontLogEntries : List Log
  standbyBuffer : List Log
  lastFlush : ℤ
  writer : Writer
  producer : T → Producer
  destructor : Destructor
  given : List (List Log)
  pushed : List Log
  completed : List ℕ

/-- A new logger. -/
def init (now : ℤ) : State T where
  done := false
  frontLogEntries := []
  standbyBuffer := []
  lastFlush := now
  writer := .start
  producer _ := .outside
  destructor := .alive
  given := []
  pushed := []
  completed := []

namespace State

/-- The predicate of `cond_.wait`. -/
def shouldFlush (s : State T) (now : ℤ) : Bool :=
  s.done || now - s.lastFlush > timeThreshold || s.frontLogEntries.length ≥ countThreshold

/-- `cond_.notify_one()`. -/
def notifyOne (s : State T) : State T := { s with writer := s.writer.notified }

/-- The critical section of `PushNewLog`. -/
def pushNewLog (s : State T) (t : T) (log : Log) (now : ℤ) : State T :=
  let frontLogEntries := s.frontLogEntries ++ [log]
  let shouldNotify := decide (now - s.lastFlush > timeThreshold ∨
    frontLogEntries.length ≥ countThreshold)
  { s with
      frontLogEntries := frontLogEntries
      producer := Function.update s.producer t (.pushed s.pushed.length shouldNotify)
      pushed := s.pushed ++ [log] }

/-- `PushNewLog` behind its critical section. -/
def leavePushNewLog (s : State T) (t : T) (position : ℕ) (shouldNotify : Bool) : State T :=
  let s := if shouldNotify then s.notifyOne else s
  { s with
      producer := Function.update s.producer t .outside
      completed := s.completed ++ [position] }

/-- What the rest of `PushNewLog` changes. -/
lemma leavePushNewLog_eq (s : State T) (t : T) (position : ℕ) (shouldNotify : Bool) :
    s.leavePushNewLog t position shouldNotify = { s with
      writer := if shouldNotify then s.writer.notified else s.writer
      producer := Function.update s.producer t .outside
      completed := s.completed ++ [position] } := by
  cases shouldNotify <;> rfl

/-- The next step of `LogWrite`; the clock is read in two of them. -/
def logWrite (s : State T) (now : ℤ) : Option (State T) :=
  match s.writer with
  | .start => some { s with writer := .locked }
  | .locked => some { s with writer := if s.shouldFlush now then .passed else .refused }
  | .refused => some { s with writer := .blocked }
  | .blocked => none
  | .woken => some { s with writer := .locked }
  | .passed =>
    if s.frontLogEntries = [] then some { s with writer := .idle }
    else some { s with
      frontLogEntries := s.standbyBuffer
      standbyBuffer := s.frontLogEntries
      writer := .swapped }
  | .swapped => some { s with writer := .unlocked }
  | .unlocked => some { s with given := s.given ++ [s.standbyBuffer], writer := .given }
  | .given => some { s with lastFlush := now, writer := .stamped }
  | .stamped => some { s with standbyBuffer := [], writer := .flushed }
  | .flushed => some { s with writer := if s.done then .returned else .start }
  | .idle => some { s with writer := if s.done then .returned else .start }
  | .returned => none

end State

/-- The steps of the threads. -/
inductive Label (T : Type*)
  /-- A thread enters `PushNewLog` and goes through its critical section. -/
  | push (t : T) (log : Log) (now : ℤ)
  /-- A thread leaves `PushNewLog`. -/
  | leave (t : T)
  /-- `LogWrite` goes on. -/
  | write (now : ℤ)
  /-- `LogWrite` is woken up although nobody has notified it. -/
  | wake
  /-- `~Logger` sets `done_`. -/
  | setDone
  /-- `~Logger` calls `notify_one`. -/
  | notify
  /-- `~Logger` joins the background thread. -/
  | join
  deriving DecidableEq

/-- One step of one thread, if it is possible. -/
def step (s : State T) : Label T → Option (State T)
  | .push t log now =>
    if s.producer t = .outside ∧ s.writer.holdsLatch = false ∧ s.destructor ≠ .destroyed then
      some (s.pushNewLog t log now)
    else none
  | .leave t => match s.producer t with
    | .outside => none
    | .pushed position shouldNotify => some (s.leavePushNewLog t position shouldNotify)
  | .write now => s.logWrite now
  | .wake => if s.writer = .blocked then some { s with writer := .woken } else none
  | .setDone =>
    if s.destructor = .alive then some { s with done := true, destructor := .doneSet } else none
  | .notify =>
    if s.destructor = .doneSet then some { s.notifyOne with destructor := .joining } else none
  | .join =>
    if s.destructor = .joining ∧ s.writer = .returned then some { s with destructor := .destroyed }
    else none

/-! ## The inversion of a step -/

/-- The steps of the system, with what they require and what they do. -/
inductive Moves (s : State T) : Label T → State T → Prop
  | push {t : T} {log : Log} {now : ℤ} (outside : s.producer t = .outside)
    (free : s.writer.holdsLatch = false) (there : s.destructor ≠ .destroyed) :
    Moves s (.push t log now) (s.pushNewLog t log now)
  | leave {t : T} {position : ℕ} {shouldNotify : Bool}
    (pushed : s.producer t = .pushed position shouldNotify) :
    Moves s (.leave t) (s.leavePushNewLog t position shouldNotify)
  | lock {now : ℤ} (start : s.writer = .start ∨ s.writer = .woken) :
    Moves s (.write now) { s with writer := .locked }
  | pass {now : ℤ} (locked : s.writer = .locked) (flush : s.shouldFlush now = true) :
    Moves s (.write now) { s with writer := .passed }
  | refuse {now : ℤ} (locked : s.writer = .locked) (flush : s.shouldFlush now = false) :
    Moves s (.write now) { s with writer := .refused }
  | block {now : ℤ} (refused : s.writer = .refused) :
    Moves s (.write now) { s with writer := .blocked }
  | skip {now : ℤ} (passed : s.writer = .passed) (empty : s.frontLogEntries = []) :
    Moves s (.write now) { s with writer := .idle }
  | swap {now : ℤ} (passed : s.writer = .passed) (nonempty : s.frontLogEntries ≠ []) :
    Moves s (.write now) { s with
      frontLogEntries := s.standbyBuffer
      standbyBuffer := s.frontLogEntries
      writer := .swapped }
  | unlock {now : ℤ} (swapped : s.writer = .swapped) :
    Moves s (.write now) { s with writer := .unlocked }
  | give {now : ℤ} (unlocked : s.writer = .unlocked) :
    Moves s (.write now) { s with given := s.given ++ [s.standbyBuffer], writer := .given }
  | stamp {now : ℤ} (given : s.writer = .given) :
    Moves s (.write now) { s with lastFlush := now, writer := .stamped }
  | clear {now : ℤ} (stamped : s.writer = .stamped) :
    Moves s (.write now) { s with standbyBuffer := [], writer := .flushed }
  | again {now : ℤ} (tested : s.writer = .flushed ∨ s.writer = .idle) (done : s.done = false) :
    Moves s (.write now) { s with writer := .start }
  | finish {now : ℤ} (tested : s.writer = .flushed ∨ s.writer = .idle) (done : s.done = true) :
    Moves s (.write now) { s with writer := .returned }
  | wake (blocked : s.writer = .blocked) : Moves s .wake { s with writer := .woken }
  | setDone (alive : s.destructor = .alive) :
    Moves s .setDone { s with done := true, destructor := .doneSet }
  | notify (doneSet : s.destructor = .doneSet) :
    Moves s .notify { s.notifyOne with destructor := .joining }
  | join (joining : s.destructor = .joining) (returned : s.writer = .returned) :
    Moves s .join { s with destructor := .destroyed }

/-- The inversion of a step of `LogWrite`. -/
lemma moves_of_logWrite {s s' : State T} {now : ℤ} (h : s.logWrite now = some s') :
    Moves s (.write now) s' := by
  unfold State.logWrite at h
  cases hwriter : s.writer <;> simp only [hwriter] at h
  case blocked => cases h
  case returned => cases h
  case locked =>
    obtain rfl := Option.some.inj h
    cases hflush : s.shouldFlush now with
    | true => simpa using Moves.pass hwriter hflush
    | false => simpa using Moves.refuse hwriter hflush
  case passed =>
    split at h
    · next hempty => obtain rfl := Option.some.inj h; exact .skip hwriter hempty
    · next hne => obtain rfl := Option.some.inj h; exact .swap hwriter hne
  case flushed =>
    obtain rfl := Option.some.inj h
    cases hdone : s.done with
    | true => simpa [hdone] using Moves.finish (.inl hwriter) hdone
    | false => simpa [hdone] using Moves.again (.inl hwriter) hdone
  case idle =>
    obtain rfl := Option.some.inj h
    cases hdone : s.done with
    | true => simpa [hdone] using Moves.finish (.inr hwriter) hdone
    | false => simpa [hdone] using Moves.again (.inr hwriter) hdone
  all_goals obtain rfl := Option.some.inj h
  case start => exact .lock (.inl hwriter)
  case woken => exact .lock (.inr hwriter)
  case refused => exact .block hwriter
  case swapped => exact .unlock hwriter
  case unlocked => exact .give hwriter
  case given => exact .stamp hwriter
  case stamped => exact .clear hwriter

/-- **The inversion of a step.** -/
lemma moves_of_step {s s' : State T} {l : Label T} (h : step s l = some s') : Moves s l s' := by
  cases l <;> simp only [step, Option.ite_none_right_eq_some, Option.some.injEq] at h
  case push t log now =>
    obtain ⟨⟨houtside, hfree, hthere⟩, rfl⟩ := h
    exact .push houtside hfree hthere
  case leave t =>
    cases hproducer : s.producer t with
    | outside => rw [hproducer] at h; cases h
    | pushed position shouldNotify =>
      rw [hproducer] at h
      obtain rfl := Option.some.inj h
      exact .leave hproducer
  case write now => exact moves_of_logWrite h
  case wake =>
    obtain ⟨hblocked, rfl⟩ := h
    exact .wake hblocked
  case setDone =>
    obtain ⟨halive, rfl⟩ := h
    exact .setDone halive
  case notify =>
    obtain ⟨hset, rfl⟩ := h
    exact .notify hset
  case join =>
    obtain ⟨⟨hjoining, hreturned⟩, rfl⟩ := h
    exact .join hjoining hreturned

/-- **The invariant rule** for the logger. -/
lemma invariant_of_moves {Inv : State T → Prop}
    (hmoves : ∀ s l s', Inv s → Moves s l s' → Inv s') (ls : List (Label T)) {s s' : State T}
    (hs : Inv s) (h : Transition.exec step s ls = some s') : Inv s' :=
  Transition.invariant_of_exec (fun s l s' hs hstep => hmoves s l s' hs (moves_of_step hstep)) ls
    hs h

end Logger

end Icee
