import Icee.Log.Logger

set_option relaxedAutoImplicit false
set_option autoImplicit false

/-!
# The double buffer

The producers fill one vector while `LogWrite` flushes the other one without the latch. No entry is
lost or duplicated on the way; but `LogWrite` tests `done_` only after a flush, and what has been
pushed during that flush stays where it is.

## Main definitions

* `Icee.Logger.State.unflushed` — the batch that has been swapped out but not yet given away.
* `Icee.Logger.Conserved` — every entry is in exactly one place, and the places are in order.
* `Icee.Logger.Writer.pastSwap` — `LogWrite` is between the swap and its test of `done_`.

## Main results

* `Icee.Logger.entries_of_exec` — no entry is lost or duplicated.
* `Icee.Logger.flushed_iff` — which shutdowns flush everything.
-/

namespace Icee

namespace Logger

variable {T : Type*} [DecidableEq T]

/-! ## Every entry is in one place -/

/-- The standby buffer has been filled but not yet given to `log_strategy_`. -/
def Writer.carries : Writer → Bool
  | .swapped | .unlocked => true
  | _ => false

/-- The standby buffer has been filled but not yet cleared. -/
def Writer.usesStandby : Writer → Bool
  | .swapped | .unlocked | .given | .stamped => true
  | _ => false

/-- The batch that has been swapped out but not yet given to `log_strategy_`. -/
def State.unflushed (s : State T) : List Log := if s.writer.carries then s.standbyBuffer else []

/-- Every entry that has been pushed is in exactly one place, and the places are in order. -/
structure Conserved (s : State T) : Prop where
  entries : s.given.flatten ++ s.unflushed ++ s.frontLogEntries = s.pushed
  standby : s.writer.usesStandby = false → s.standbyBuffer = []

/-- A notification does not change what becomes of the standby buffer. -/
@[simp] lemma Writer.carries_notified (w : Writer) : w.notified.carries = w.carries := by
  cases w <;> rfl

@[simp] lemma Writer.usesStandby_notified (w : Writer) :
    w.notified.usesStandby = w.usesStandby := by
  cases w <;> rfl

/-- The places in which there are entries, and the record of what has been pushed. -/
def State.entries (s : State T) : List (List Log) × List Log × List Log × List Log :=
  (s.given, s.standbyBuffer, s.frontLogEntries, s.pushed)

omit [DecidableEq T] in
/-- A step that leaves the entries where they are. -/
lemma Conserved.congr {s s' : State T} {w : Writer} (h : Conserved s) (hw : s.writer = w)
    (hsame : s'.entries = s.entries) (hcarries : s'.writer.carries = w.carries)
    (huses : s'.writer.usesStandby = w.usesStandby) : Conserved s' := by
  subst hw
  simp only [State.entries, Prod.mk.injEq] at hsame
  obtain ⟨hgiven, hstandby, hfront, hpushed⟩ := hsame
  refine ⟨?_, fun hw => ?_⟩
  · rw [hgiven, hfront, hpushed, ← h.entries, State.unflushed, State.unflushed, hcarries, hstandby]
  · rw [hstandby]
    exact h.standby (huses ▸ hw)

/-- **A step keeps every entry in one place.**

**Proof sketch.** An entry is pushed to the end of `frontLogEntries`. `swap` takes it to the standby
buffer, which is empty, and `give` from there to what has been given; until `clear` the standby
buffer keeps a copy, which does not count. The other steps leave the four lists alone. -/
lemma Conserved.moves {s s' : State T} {l : Label T} (h : Conserved s) (hmove : Moves s l s') :
    Conserved s' := by
  cases hmove with
  | @push t log now outside free there =>
    refine ⟨?_, h.standby⟩
    have hentries : s.given.flatten ++ s.unflushed ++ (s.frontLogEntries ++ [log]) =
        s.pushed ++ [log] := by
      rw [← h.entries, List.append_assoc _ s.frontLogEntries]
    exact hentries
  | swap passed nonempty =>
    have hempty : s.standbyBuffer = [] := h.standby (by rw [passed]; rfl)
    refine ⟨?_, by simp [Writer.usesStandby]⟩
    simpa [State.unflushed, Writer.carries, passed, hempty] using h.entries
  | give unlocked =>
    refine ⟨?_, by simp [Writer.usesStandby]⟩
    simpa [State.unflushed, Writer.carries, unlocked] using h.entries
  | clear stamped =>
    refine ⟨?_, fun _ => rfl⟩
    simpa [State.unflushed, Writer.carries, stamped] using h.entries
  | @leave t position shouldNotify pushed =>
    rw [State.leavePushNewLog_eq]
    cases shouldNotify
    · exact h.congr rfl rfl rfl rfl
    · exact h.congr rfl rfl (Writer.carries_notified _) (Writer.usesStandby_notified _)
  | notify doneSet =>
    exact h.congr rfl rfl (Writer.carries_notified _) (Writer.usesStandby_notified _)
  | setDone alive => exact h.congr rfl rfl rfl rfl
  | join joining returned => exact h.congr rfl rfl rfl rfl
  -- the other steps of `LogWrite` leave the buffers alone
  | lock start =>
    rcases start with start | start
    · exact h.congr start rfl rfl rfl
    · exact h.congr start rfl rfl rfl
  | pass locked flush => exact h.congr locked rfl rfl rfl
  | refuse locked flush => exact h.congr locked rfl rfl rfl
  | block refused => exact h.congr refused rfl rfl rfl
  | skip passed empty => exact h.congr passed rfl rfl rfl
  | unlock swapped => exact h.congr swapped rfl rfl rfl
  | stamp given => exact h.congr given rfl rfl rfl
  | again tested done =>
    rcases tested with tested | tested
    · exact h.congr tested rfl rfl rfl
    · exact h.congr tested rfl rfl rfl
  | finish tested done =>
    rcases tested with tested | tested
    · exact h.congr tested rfl rfl rfl
    · exact h.congr tested rfl rfl rfl
  | wake blocked => exact h.congr blocked rfl rfl rfl

/-- **Runs keep every entry in one place.** -/
lemma Conserved.of_exec {now : ℤ} {ls : List (Label T)} {s : State T}
    (h : Transition.exec step (init now) ls = some s) : Conserved s :=
  invariant_of_moves (fun _ _ _ => Conserved.moves) ls ⟨rfl, fun _ => rfl⟩ h

/-- **No entry is lost or duplicated by the double buffer.** However the calls of `PushNewLog` in
any number of threads, the steps of `LogWrite` and those of `~Logger` are interleaved: the batches
given to `log_strategy_`, then the batch that has been swapped out but not yet given to it, and then
`front_log_entries_` make up all the entries, in the order in which the pushes took the latch. -/
theorem entries_of_exec {now : ℤ} {ls : List (Label T)} {s : State T}
    (h : Transition.exec step (init now) ls = some s) :
    s.given.flatten ++ s.unflushed ++ s.frontLogEntries = s.pushed :=
  (Conserved.of_exec h).entries

/-- Two entries, the second of which is pushed while the first one is being flushed. -/
def sampleRun : List (Label ℕ) :=
  [.push 0 (Log.make (bytes "[t]") (bytes "a")) 5000, .leave 0, .write 5000, .write 5000,
    .write 5000, .write 5000, .push 1 (Log.make (bytes "[t]") (bytes "b")) 5000, .write 5000]

/-- The places of the two entries. -/
theorem entries_of_exec_sample :
    ∃ s, Transition.exec step (init 0) sampleRun = some s ∧ s.writer = .given ∧
      s.given.flatten ++ s.unflushed ++ s.frontLogEntries = s.pushed := by
  have hrun : (Transition.exec step (init 0) sampleRun).map State.writer = some .given := by
    decide +kernel
  obtain ⟨s, hs, hwriter⟩ := Option.map_eq_some_iff.mp hrun
  exact ⟨s, hs, hwriter, entries_of_exec hs⟩

/-! ## The calls that have completed -/

/-- The entries whose `PushNewLog` is in progress or has completed have been pushed. -/
structure Counted (s : State T) : Prop where
  producer : ∀ t position shouldNotify, s.producer t = .pushed position shouldNotify →
    position < s.pushed.length
  completed : ∀ i ∈ s.completed, i < s.pushed.length

/-- A producer goes on while `n` entries have been pushed. -/
lemma Counted.producer_update {s : State T} (h : Counted s) {t : T} {p : Producer} {n : ℕ}
    (hn : s.pushed.length ≤ n)
    (hp : ∀ position shouldNotify, p = .pushed position shouldNotify → position < n) :
    ∀ u position shouldNotify, Function.update s.producer t p u = .pushed position shouldNotify →
      position < n := by
  rw [Function.forall_update_iff s.producer fun _ q =>
    ∀ position shouldNotify, q = .pushed position shouldNotify → position < n]
  exact ⟨hp, fun u _ position shouldNotify hu =>
    Nat.lt_of_lt_of_le (h.producer u position shouldNotify hu) hn⟩

/-- A step counts the entries as the calls of `PushNewLog` do. -/
lemma Counted.moves {s s' : State T} {l : Label T} (h : Counted s) (hmove : Moves s l s') :
    Counted s' := by
  cases hmove with
  | @push t log now outside free there =>
    have hpushed : (s.pushNewLog t log now).pushed.length = s.pushed.length + 1 :=
      List.length_append
    refine ⟨h.producer_update (hpushed ▸ Nat.le_succ _) ?_, fun i hi => ?_⟩
    · rintro position shouldNotify ⟨⟩
      omega
    · have := h.completed i hi
      omega
  | @leave t position shouldNotify pushed =>
    rw [State.leavePushNewLog_eq]
    refine ⟨h.producer_update le_rfl ?_, fun i hi => ?_⟩
    · rintro position' shouldNotify' ⟨⟩
    · rcases List.mem_append.mp hi with hi | hi
      · exact h.completed i hi
      · rw [List.mem_singleton.mp hi]
        exact h.producer t position shouldNotify pushed
  | _ => exact ⟨h.producer, h.completed⟩

/-! ## Shutting down -/

/-- `LogWrite` has swapped the buffers and is on its way to the test of `done_`. -/
def Writer.pastSwap : Writer → Bool
  | .swapped | .unlocked | .given | .stamped | .flushed => true
  | _ => false

/-- `LogWrite` returns without another swap if `done_` has been set. -/
def Writer.ending : Writer → Bool
  | .swapped | .unlocked | .given | .stamped | .flushed | .idle | .returned => true
  | _ => false

/-- On the way to the test of `done_` it is decided what `LogWrite` leaves behind. -/
lemma Writer.ending_of_pastSwap {w : Writer} (h : w.pastSwap = true) : w.ending = true := by
  cases w <;> first | rfl | cases h

/-- Where `LogWrite` is when it does not come to another swap. -/
lemma Writer.cases_of_ending {w : Writer} (h : w.ending = true) :
    w.pastSwap = true ∨ w = .idle ∨ w = .returned := by
  cases w <;> first | exact .inl rfl | exact .inr (.inl rfl) | exact .inr (.inr rfl) | cases h

/-- What is known of the end of `LogWrite`: it leaves nothing behind when there is nothing to
flush, and it returns only after `~Logger` has begun. -/
structure Settled (s : State T) : Prop where
  idle : s.writer = .idle → s.frontLogEntries = []
  returned : s.writer = .returned → s.done = true
  done : s.done = true → s.destructor ≠ .alive

@[simp] lemma Writer.ending_notified (w : Writer) : w.notified.ending = w.ending := by
  cases w <;> rfl

/-- A notification leads to neither of the two states in which `done_` is tested or has been
found to be set. -/
@[simp] lemma Writer.notified_eq_idle (w : Writer) : w.notified = .idle ↔ w = .idle := by
  cases w <;> decide

@[simp] lemma Writer.notified_eq_returned (w : Writer) :
    w.notified = .returned ↔ w = .returned := by
  cases w <;> decide

/-- A step keeps what is known of the end. -/
lemma Settled.moves {s s' : State T} {l : Label T} (h : Settled s) (hmove : Moves s l s') :
    Settled s' := by
  obtain ⟨hidle, hreturned, hdone⟩ := h
  cases hmove with
  | push outside free there =>
    refine ⟨fun hw => ?_, hreturned, hdone⟩
    rw [show s.writer = .idle from hw] at free
    cases free
  | @leave t position shouldNotify pushed =>
    rw [State.leavePushNewLog_eq]
    cases shouldNotify
    · exact ⟨hidle, hreturned, hdone⟩
    · exact ⟨by simpa using hidle, by simpa using hreturned, hdone⟩
  | notify doneSet =>
    exact ⟨by simpa [State.notifyOne] using hidle, by simpa [State.notifyOne] using hreturned,
      fun _ => by simp⟩
  | skip passed empty => exact ⟨fun _ => empty, by rintro ⟨⟩, hdone⟩
  | finish tested done => exact ⟨by rintro ⟨⟩, fun _ => done, hdone⟩
  | setDone alive => exact ⟨hidle, fun _ => rfl, fun _ => by simp⟩
  | join joining returned => exact ⟨hidle, hreturned, fun _ => by simp⟩
  | _ => exact ⟨by rintro ⟨⟩, by rintro ⟨⟩, hdone⟩

/-- From now on `LogWrite` gives away as many entries as this, and no more. -/
def Sealed (n : ℕ) (s : State T) : Prop :=
  s.done = true ∧ s.writer.ending = true ∧ n + s.frontLogEntries.length = s.pushed.length

/-- Before it returns, `LogWrite` gives away at least as many entries as this. -/
def Covered (n : ℕ) (s : State T) : Prop :=
  s.done = true ∧ n ≤ s.pushed.length ∧
    (s.writer.ending = true → n + s.frontLogEntries.length ≤ s.pushed.length)

/-- What is sealed stays sealed. -/
lemma Sealed.moves {n : ℕ} {s s' : State T} {l : Label T} (h : Sealed n s)
    (hmove : Moves s l s') : Sealed n s' := by
  obtain ⟨hdone, hending, hlength⟩ := h
  cases hmove with
  | push outside free there =>
    refine ⟨hdone, hending, ?_⟩
    simp only [State.pushNewLog, List.length_append, List.length_singleton]
    omega
  | @leave t position shouldNotify pushed =>
    rw [State.leavePushNewLog_eq]
    cases shouldNotify
    · exact ⟨hdone, hending, hlength⟩
    · exact ⟨hdone, by simpa using hending, hlength⟩
  | notify doneSet => exact ⟨hdone, by simpa [State.notifyOne] using hending, hlength⟩
  | setDone alive => exact ⟨rfl, hending, hlength⟩
  | join joining returned => exact ⟨hdone, hending, hlength⟩
  -- on the way to the end
  | unlock swapped => exact ⟨hdone, rfl, hlength⟩
  | give unlocked => exact ⟨hdone, rfl, hlength⟩
  | stamp given => exact ⟨hdone, rfl, hlength⟩
  | clear stamped => exact ⟨hdone, rfl, hlength⟩
  | finish tested done => exact ⟨hdone, rfl, hlength⟩
  | again tested notDone => rw [hdone] at notDone; cases notDone
  -- `LogWrite` is nowhere else
  | lock start => rcases start with start | start <;> rw [start] at hending <;> cases hending
  | pass locked flush => rw [locked] at hending; cases hending
  | refuse locked flush => rw [locked] at hending; cases hending
  | block refused => rw [refused] at hending; cases hending
  | skip passed empty => rw [passed] at hending; cases hending
  | swap passed nonempty => rw [passed] at hending; cases hending
  | wake blocked => rw [blocked] at hending; cases hending

/-- What is covered stays covered: a swap takes everything. -/
lemma Covered.moves {n : ℕ} {s s' : State T} {l : Label T} (h : Covered n s)
    (hstandby : s.writer.usesStandby = false → s.standbyBuffer = []) (hmove : Moves s l s') :
    Covered n s' := by
  obtain ⟨hdone, hpushed, hlength⟩ := h
  cases hmove with
  | push outside free there =>
    refine ⟨hdone, ?_, fun hw => ?_⟩
    · simp only [State.pushNewLog, List.length_append, List.length_singleton]
      omega
    · have := hlength hw
      simp only [State.pushNewLog, List.length_append, List.length_singleton]
      omega
  | @leave t position shouldNotify pushed =>
    rw [State.leavePushNewLog_eq]
    cases shouldNotify
    · exact ⟨hdone, hpushed, hlength⟩
    · exact ⟨hdone, hpushed, by simpa using hlength⟩
  | notify doneSet => exact ⟨hdone, hpushed, by simpa [State.notifyOne] using hlength⟩
  | setDone alive => exact ⟨rfl, hpushed, hlength⟩
  | join joining returned => exact ⟨hdone, hpushed, hlength⟩
  -- at the beginning of the end nothing is left in the front buffer
  | skip passed empty => exact ⟨hdone, hpushed, fun _ => by simpa [empty] using hpushed⟩
  | swap passed nonempty =>
    have hempty : s.standbyBuffer = [] := hstandby (by rw [passed]; rfl)
    exact ⟨hdone, hpushed, fun _ => by simpa [hempty] using hpushed⟩
  | unlock swapped => exact ⟨hdone, hpushed, fun _ => hlength (by rw [swapped]; rfl)⟩
  | give unlocked => exact ⟨hdone, hpushed, fun _ => hlength (by rw [unlocked]; rfl)⟩
  | stamp given => exact ⟨hdone, hpushed, fun _ => hlength (by rw [given]; rfl)⟩
  | clear stamped => exact ⟨hdone, hpushed, fun _ => hlength (by rw [stamped]; rfl)⟩
  | finish tested done =>
    refine ⟨hdone, hpushed, fun _ => hlength ?_⟩
    rcases tested with tested | tested <;> rw [tested] <;> rfl
  | again tested notDone => rw [hdone] at notDone; cases notDone
  | _ => exact ⟨hdone, hpushed, by rintro ⟨⟩⟩

/-- The record of what has been pushed only grows. -/
lemma pushed_prefix_of_exec {s s' : State T} {ls : List (Label T)}
    (h : Transition.exec step s ls = some s') : s.pushed <+: s'.pushed := by
  have hgrows : ∀ (s₁ : State T) l s₂, s.pushed <+: s₁.pushed → Moves s₁ l s₂ →
      s.pushed <+: s₂.pushed := by
    intro s₁ l s₂ hfront hmove
    refine hfront.trans ?_
    cases hmove with
    | push outside free there => exact List.prefix_append _ _
    | leave pushed => rw [State.leavePushNewLog_eq]
    | _ => exact List.prefix_rfl
  exact invariant_of_moves hgrows ls List.prefix_rfl h

/-- Two prefixes of a list have the same entry in a place that the first one has, exactly if the
second one has it as well. -/
lemma exists_getElem?_iff {α : Type*} {xs ys zs : List α} {i : ℕ} (hxs : xs <+: zs)
    (hys : ys <+: zs) (hi : i < xs.length) :
    (∃ x, xs[i]? = some x ∧ ys[i]? = some x) ↔ i < ys.length := by
  constructor
  · rintro ⟨x, -, hy⟩
    exact (List.getElem?_eq_some_iff.mp hy).1
  · intro hlt
    refine ⟨xs[i], List.getElem?_eq_getElem hi, ?_⟩
    rw [List.getElem?_eq_getElem hlt, hys.getElem hlt, hxs.getElem hi]

omit [DecidableEq T] in
/-- How many entries have been given away when `LogWrite` has returned. -/
lemma length_given_of_returned {s : State T} (h : Conserved s) (hreturned : s.writer = .returned) :
    s.given.flatten <+: s.pushed ∧
      s.given.flatten.length + s.frontLogEntries.length = s.pushed.length := by
  have hentries := h.entries
  rw [State.unflushed, hreturned, show Writer.returned.carries = false from rfl,
    if_neg (by decide), List.append_nil] at hentries
  exact ⟨⟨_, hentries⟩, by rw [← hentries, List.length_append]⟩

/-- When `done_` is set and `LogWrite` does not come to another swap, the entries in the front
buffer are not given away. -/
lemma length_given_of_ending {ls : List (Label T)} {s s' s₂ : State T} (h : Conserved s)
    (hmove : Moves s .setDone s') (hrun : Transition.exec step s' ls = some s₂)
    (hreturned : s₂.writer = .returned) (hending : s.writer.ending = true) :
    s₂.given.flatten.length = s.pushed.length - s.frontLogEntries.length := by
  have hconserved : Conserved s₂ := invariant_of_moves (fun _ _ _ => Conserved.moves) ls
    (h.moves hmove) hrun
  have hlength : s.frontLogEntries.length ≤ s.pushed.length := by
    rw [← h.entries, List.length_append]
    omega
  have hstart : Sealed (s.pushed.length - s.frontLogEntries.length) s' := by
    cases hmove with
    | setDone alive => exact ⟨rfl, hending, Nat.sub_add_cancel hlength⟩
  have hsealed : Sealed (s.pushed.length - s.frontLogEntries.length) s₂ :=
    invariant_of_moves (fun _ _ _ => Sealed.moves) ls hstart hrun
  have hgiven := (length_given_of_returned hconserved hreturned).2
  have hcount := hsealed.2.2
  omega

/-- When `done_` is set and `LogWrite` comes to another swap, that swap takes everything. -/
lemma le_length_given_of_not_ending {ls : List (Label T)} {s s' s₂ : State T} (h : Conserved s)
    (hmove : Moves s .setDone s') (hrun : Transition.exec step s' ls = some s₂)
    (hreturned : s₂.writer = .returned) (hending : s.writer.ending = false) :
    s.pushed.length ≤ s₂.given.flatten.length := by
  have hstart : Covered s.pushed.length s' := by
    cases hmove with
    | setDone alive => exact ⟨rfl, le_rfl, fun hw => by rw [hending] at hw; cases hw⟩
  have hboth : ∀ (t : State T) l t', Conserved t ∧ Covered s.pushed.length t → Moves t l t' →
      Conserved t' ∧ Covered s.pushed.length t' := fun t l t' ht hmove =>
    ⟨ht.1.moves hmove, ht.2.moves ht.1.standby hmove⟩
  obtain ⟨hconserved, hcovered⟩ := invariant_of_moves hboth ls ⟨h.moves hmove, hstart⟩ hrun
  have hgiven := (length_given_of_returned hconserved hreturned).2
  have hcount := hcovered.2.2 (by rw [hreturned]; rfl)
  omega

/-- **Which shutdowns flush everything.** In every run in which `~Logger` sets `done_` and
`LogWrite` returns: every entry whose `PushNewLog` had completed when `done_` was set has been given
to `log_strategy_`, if and only if at that moment `LogWrite` was not between the swap of the buffers
and its test of `done_` with such an entry in `front_log_entries_`.

**Proof sketch.** The entries are given in the order in which they have been pushed (`Conserved`),
so an entry has been given if its position is below the number of entries given. If `LogWrite` is on
its way out when `done_` is set, this number is what has been swapped out by then; otherwise it
swaps again, and everything that had been pushed is among what it takes. -/
theorem flushed_iff {now : ℤ} {ls₁ ls₂ : List (Label T)} {s₁ s₁' s₂ : State T}
    (h₁ : Transition.exec step (init now) ls₁ = some s₁) (hset : step s₁ .setDone = some s₁')
    (h₂ : Transition.exec step s₁' ls₂ = some s₂) (hreturned : s₂.writer = .returned) :
    (∀ i ∈ s₁.completed, ∃ log, s₁.pushed[i]? = some log ∧ s₂.given.flatten[i]? = some log) ↔
      ¬ (s₁.writer.pastSwap = true ∧
        ∃ i ∈ s₁.completed, s₁.pushed.length - s₁.frontLogEntries.length ≤ i) := by
  have hconserved := Conserved.of_exec h₁
  have hcounted : Counted s₁ := invariant_of_moves (fun _ _ _ => Counted.moves) ls₁
    ⟨by rintro _ _ _ ⟨⟩, by rintro _ ⟨⟩⟩ h₁
  have hsettled : Settled s₁ := invariant_of_moves (fun _ _ _ => Settled.moves) ls₁
    ⟨by rintro ⟨⟩, by rintro ⟨⟩, by rintro ⟨⟩⟩ h₁
  have hmove := moves_of_step hset
  obtain ⟨alive, hpushed⟩ : s₁.destructor = .alive ∧ s₁'.pushed = s₁.pushed := by
    cases hmove with
    | setDone alive => exact ⟨alive, rfl⟩
  have hconserved₂ : Conserved s₂ := invariant_of_moves (fun _ _ _ => Conserved.moves) ls₂
    (hconserved.moves hmove) h₂
  have hpassed : ∀ i ∈ s₁.completed,
      ((∃ log, s₁.pushed[i]? = some log ∧ s₂.given.flatten[i]? = some log) ↔
        i < s₂.given.flatten.length) := fun i hi =>
    exists_getElem?_iff (hpushed ▸ pushed_prefix_of_exec h₂)
      (length_given_of_returned hconserved₂ hreturned).1 (hcounted.completed i hi)
  rw [forall₂_congr hpassed]
  cases hending : s₁.writer.ending with
  | true =>
    rw [length_given_of_ending hconserved hmove h₂ hreturned hending]
    cases hpast : s₁.writer.pastSwap with
    | true => simp only [true_and, not_exists, not_and, not_le]
    | false =>
      -- there was nothing to flush
      have hidle : s₁.writer = .idle := by
        rcases Writer.cases_of_ending hending with hw | hw | hw
        · rw [hw] at hpast
          cases hpast
        · exact hw
        · exact absurd alive (hsettled.done (hsettled.returned hw))
      rw [hsettled.idle hidle]
      simpa using hcounted.completed
  | false =>
    have hcount := le_length_given_of_not_ending hconserved hmove h₂ hreturned hending
    have hpast : s₁.writer.pastSwap = false := by
      by_contra hpast
      rw [Writer.ending_of_pastSwap (Bool.eq_true_of_not_eq_false hpast)] at hending
      cases hending
    rw [hpast]
    refine iff_of_true (fun i hi => ?_) (by simp)
    have := hcounted.completed i hi
    omega

/-- The first entry of `sampleRun` has been flushed and the second one has been pushed when `done_`
is set: everything is flushed. -/
theorem flushed_iff_sample :
    ∃ s₁ s₂ : State ℕ, s₁.completed = [0, 1] ∧ s₂.writer = .returned ∧
      ∀ i ∈ s₁.completed, ∃ log, s₁.pushed[i]? = some log ∧ s₂.given.flatten[i]? = some log := by
  have hrun : Transition.observe step (init 0)
      (sampleRun ++ [Label.leave 1, .write 5000, .write 5000, .write 5000]) .setDone
      (Label.notify :: List.replicate 8 (.write 5000))
      (fun s₁ s₂ => (s₁.completed, s₁.writer, s₂.writer)) = some ([0, 1], .start, .returned) := by
    decide +kernel
  obtain ⟨s₁, s₁', s₂, h₁, hset, h₂, heq⟩ := Transition.exists_of_observe step hrun
  simp only [Prod.mk.injEq] at heq
  obtain ⟨hcompleted, hstart, hreturned⟩ := heq
  refine ⟨s₁, s₂, hcompleted, hreturned, ?_⟩
  exact (flushed_iff h₁ hset h₂ hreturned).mpr (by rw [hstart]; simp [Writer.pastSwap])

/-- An entry that is pushed while another one is being flushed, and whose `PushNewLog` completes
before `~Logger` sets `done_`, is never flushed if `LogWrite` then finds `done_` set. -/
theorem shutdown_loses_entry :
    ∃ s₁ s₁' s₂ : State ℕ,
      Transition.exec step (init 0) (sampleRun ++ [.leave 1]) = some s₁ ∧
      step s₁ .setDone = some s₁' ∧
      Transition.exec step s₁' [.notify, .write 5000, .write 5000, .write 5000, .join] = some s₂ ∧
      s₂.writer = .returned ∧ s₂.destructor = .destroyed ∧
      ¬ ∀ i ∈ s₁.completed, ∃ log, s₁.pushed[i]? = some log ∧
        s₂.given.flatten[i]? = some log := by
  have hrun : Transition.observe step (init 0) (sampleRun ++ [Label.leave 1]) .setDone
      [.notify, .write 5000, .write 5000, .write 5000, .join]
      (fun s₁ s₂ => (s₁.completed, s₂.writer, s₂.destructor, s₂.given.flatten.length)) =
        some ([0, 1], .returned, .destroyed, 1) := by
    decide +kernel
  obtain ⟨s₁, s₁', s₂, h₁, hset, h₂, heq⟩ := Transition.exists_of_observe step hrun
  simp only [Prod.mk.injEq] at heq
  obtain ⟨hcompleted, hreturned, hdestroyed, hlength⟩ := heq
  refine ⟨s₁, s₁', s₂, h₁, hset, h₂, hreturned, hdestroyed, fun hall => ?_⟩
  obtain ⟨log, -, hlog⟩ := hall 1 (by rw [hcompleted]; decide)
  have := (List.getElem?_eq_some_iff.mp hlog).1
  omega

end Logger

end Icee
