import Icee.Log.DoubleBuffer

set_option relaxedAutoImplicit false
set_option autoImplicit false

/-!
# The log file

`FlushToFile`, the strategy with which the singleton logger is built: every batch gets a
`StreamWriter` of its own, whose constructor opens the file of the day and empties it. What is in
the file is therefore the last batch alone.

## Main definitions

* `Icee.Logger.Files` — the files, by their names.
* `Icee.Logger.StreamWriter.make`, `Icee.Logger.StreamWriter.writeLogsToFile` — opening the file of
  the day and writing to it.
* `Icee.Logger.flushToFile`, `Icee.Logger.flushAll` — one batch, and one batch after the other.
* `Icee.Logger.Accumulates` — after every flush the file holds all batches so far.

## Main results

* `Icee.Logger.flushAll_concat` — what is in the file is the last batch.
* `Icee.Logger.given_ne_nil_of_exec` — `LogWrite` gives away no empty batch.
* `Icee.Logger.accumulates_iff` — the file accumulates what a day brings exactly if the day brings
  at most one batch.
-/

namespace Icee

namespace Logger

/-- `FILE_PATH`. -/
def filePath : Bytes := bytes "IceeLog"

/-- The files, by their names; `none` is a file that does not exist. -/
abbrev Files := Bytes → Option Bytes

/-- The name of the file of the day. -/
def fileName (filename date : Bytes) : Bytes := filename ++ bytes "_" ++ date

namespace StreamWriter

/-- The constructor of `StreamWriter`: the file of the day is opened with `out | trunc`, which
creates or empties it. -/
def make (filename date : Bytes) (files : Files) : Files :=
  Function.update files (fileName filename date) (some [])

/-- The file of the day is there and empty. -/
lemma make_self (filename date : Bytes) (files : Files) :
    make filename date files (fileName filename date) = some [] :=
  Function.update_self _ _ _

/-- `StreamWriter::WriteLogsToFile`: the entries are appended to what has been written to the
stream. -/
def writeLogsToFile (filename date : Bytes) (logs : List Log) (files : Files) : Files :=
  logs.foldl
    (fun files it => Function.update files (fileName filename date)
      ((files (fileName filename date)).map (· ++ it.stampedMessage)))
    files

/-- Writing to a file that is there. -/
lemma writeLogsToFile_eq {filename date content : Bytes} (logs : List Log) {files : Files}
    (h : files (fileName filename date) = some content) :
    writeLogsToFile filename date logs files (fileName filename date) =
      some (content ++ logs.flatMap Log.stampedMessage) := by
  unfold writeLogsToFile
  induction logs generalizing files content with
  | nil => simpa using h
  | cons it logs ih =>
    rw [List.foldl_cons, ih (by rw [Function.update_self, h]; rfl), List.flatMap_cons,
      List.append_assoc]

end StreamWriter

/-- `FlushToFile`, on a given date. -/
def flushToFile (date : Bytes) (logs : List Log) (files : Files) : Files :=
  StreamWriter.writeLogsToFile filePath date logs (StreamWriter.make filePath date files)

/-- The batches of a day, one after the other. -/
def flushAll (date : Bytes) (batches : List (List Log)) (files : Files) : Files :=
  batches.foldl (fun files logs => flushToFile date logs files) files

/-- **What is in the file** after a flush is the batch that has been flushed, and nothing else. -/
lemma flushAll_concat (date : Bytes) (batches : List (List Log)) (logs : List Log)
    (files : Files) :
    flushAll date (batches ++ [logs]) files (fileName filePath date) =
      some (logs.flatMap Log.stampedMessage) := by
  unfold flushAll
  rw [List.foldl_append, List.foldl_cons, List.foldl_nil, flushToFile,
    StreamWriter.writeLogsToFile_eq logs (StreamWriter.make_self _ _ _), List.nil_append]

/-- After each flush, the file of the day contains the messages of all batches flushed so far, in
order, each exactly once. -/
def Accumulates (date : Bytes) (files : Files) (batches : List (List Log)) : Prop :=
  ∀ flushed, flushed ≠ [] → flushed <+: batches →
    flushAll date flushed files (fileName filePath date) =
      some (flushed.flatten.flatMap Log.stampedMessage)

/-- A log entry is not empty. -/
lemma Log.stampedMessage_ne_nil (log : Log) : log.stampedMessage ≠ [] := by
  intro h
  have := log.endsLine
  rw [h] at this
  cases this

/-- A batch with an entry has something to write. -/
lemma flatMap_stampedMessage_ne_nil {logs : List Log} (h : logs ≠ []) :
    logs.flatMap Log.stampedMessage ≠ [] := by
  obtain ⟨log, logs, rfl⟩ := List.exists_cons_of_ne_nil h
  rw [List.flatMap_cons]
  exact List.append_ne_nil_of_left_ne_nil log.stampedMessage_ne_nil _

/-- **The day's log file accumulates** the batches of the day exactly if there is at most one of
them. -/
theorem accumulates_iff (date : Bytes) (files : Files) {batches : List (List Log)}
    (hbatches : ∀ logs ∈ batches, logs ≠ []) :
    Accumulates date files batches ↔ batches.length ≤ 1 := by
  constructor
  · intro h
    by_contra hlength
    obtain ⟨logs₁, logs₂, rest, rfl⟩ : ∃ logs₁ logs₂ rest, batches = logs₁ :: logs₂ :: rest := by
      rcases batches with _ | ⟨logs₁, _ | ⟨logs₂, rest⟩⟩
      · simp at hlength
      · simp at hlength
      · exact ⟨logs₁, logs₂, rest, rfl⟩
    -- the second flush has emptied the file
    have htwo := h [logs₁, logs₂] (List.cons_ne_nil _ _) (List.prefix_append [logs₁, logs₂] rest)
    rw [show [logs₁, logs₂] = [logs₁] ++ [logs₂] from rfl, flushAll_concat] at htwo
    have hfirst := flatMap_stampedMessage_ne_nil (hbatches logs₁ (by simp))
    simp only [Option.some.injEq, List.flatten_append, List.flatMap_append] at htwo
    have hlengths := congrArg List.length htwo
    simp only [List.flatten_singleton, List.length_append] at hlengths
    have := List.length_pos_of_ne_nil hfirst
    omega
  · intro hlength flushed hne hfront
    obtain ⟨logs, rfl⟩ : ∃ logs, flushed = [logs] := by
      have hpos := List.length_pos_of_ne_nil hne
      have hle := hfront.length_le
      exact List.length_eq_one_iff.mp (by omega)
    rw [show [logs] = [] ++ [logs] from rfl, flushAll_concat]
    simp

/-! ## The batches that `LogWrite` gives away -/

section Given

variable {T : Type*} [DecidableEq T]

/-- What is given away, or about to be, is not empty. -/
structure Filled (s : State T) : Prop where
  given : ∀ logs ∈ s.given, logs ≠ []
  standby : s.writer.carries = true → s.standbyBuffer ≠ []

/-- A step gives away no empty batch. -/
lemma Filled.moves {s s' : State T} {l : Label T} (h : Filled s) (hmove : Moves s l s') :
    Filled s' := by
  obtain ⟨hgiven, hstandby⟩ := h
  have hnotified : s.writer.notified.carries = true → s.standbyBuffer ≠ [] := by
    simpa using hstandby
  cases hmove with
  | push outside free there => exact ⟨hgiven, hstandby⟩
  | @leave t position shouldNotify pushed =>
    rw [State.leavePushNewLog_eq]
    cases shouldNotify
    · exact ⟨hgiven, hstandby⟩
    · exact ⟨hgiven, hnotified⟩
  | notify doneSet => exact ⟨hgiven, hnotified⟩
  | setDone alive => exact ⟨hgiven, hstandby⟩
  | join joining returned => exact ⟨hgiven, hstandby⟩
  | swap passed nonempty => exact ⟨hgiven, fun _ => nonempty⟩
  | unlock swapped => exact ⟨hgiven, fun _ => hstandby (by rw [swapped]; rfl)⟩
  | give unlocked =>
    refine ⟨fun logs hlogs => ?_, by rintro ⟨⟩⟩
    rcases List.mem_append.mp hlogs with hlogs | hlogs
    · exact hgiven logs hlogs
    · rw [List.mem_singleton.mp hlogs]
      exact hstandby (by rw [unlocked]; rfl)
  | _ => exact ⟨hgiven, by rintro ⟨⟩⟩

/-- **`LogWrite` gives away no empty batch.** -/
lemma given_ne_nil_of_exec {now : ℤ} {ls : List (Label T)} {s : State T}
    (h : Transition.exec step (init now) ls = some s) : ∀ logs ∈ s.given, logs ≠ [] := by
  have hfilled : Filled s := invariant_of_moves (fun _ _ _ => Filled.moves) ls
    ⟨by rintro _ ⟨⟩, by rintro ⟨⟩⟩ h
  exact hfilled.given

/-- Two batches that `LogWrite` gives away. -/
def sampleBatches : List (Label ℕ) :=
  sampleRun ++ [Label.leave 1, .write 5000, .write 5000, .write 9000, .write 9000, .write 9000,
    .write 9000, .write 9000, .write 9000]

/-- The file of that day does not accumulate. -/
theorem accumulates_iff_sample :
    ∃ s, Transition.exec step (init 0) sampleBatches = some s ∧ s.given.length = 2 ∧
      ¬ Accumulates (bytes "01Jan2024") (fun _ => none) s.given := by
  have hrun : (Transition.exec step (init 0) sampleBatches).map (fun s => s.given.length) =
      some 2 := by
    decide +kernel
  obtain ⟨s, hs, hlength⟩ := Option.map_eq_some_iff.mp hrun
  refine ⟨s, hs, hlength, ?_⟩
  rw [accumulates_iff _ _ (given_ne_nil_of_exec hs), hlength]
  decide

/-- The first of two batches is gone after the second flush. -/
theorem second_flush_empties_file :
    ¬ Accumulates (bytes "01Jan2024") (fun _ => none)
      [[Log.make (bytes "[t]") (bytes "a")], [Log.make (bytes "[t]") (bytes "b")]] := by
  intro h
  have := h [[Log.make (bytes "[t]") (bytes "a")], [Log.make (bytes "[t]") (bytes "b")]]
    (by decide) List.prefix_rfl
  exact absurd this (by decide +kernel)

end Given

end Logger

end Icee
