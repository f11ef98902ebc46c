import Icee.Http.Isolation
import Icee.Lib.Census

set_option relaxedAutoImplicit false
set_option autoImplicit false

/-!
# The server comes to rest

Once nothing more arrives, the pollers and the handlers have a bounded number of steps to take, in
whatever order they take them. When none of them can take another one, every connection is with its
poller or has been deleted, and its requests have been answered.

## Main definitions

* `Icee.Http.Reactor.Act.works` — the step is one of the server, and it is of some use.
* `Icee.Http.Reactor.workStep` — the server by itself.
* `Icee.Http.Reactor.Conn.work` — how much a connection gives it to do.

## Main results

* `Icee.Http.Reactor.served_at_rest` — the server comes to rest, and has then answered everything.

## Design

What the server does not do by itself is what the network does, the report of a connection of which
nothing is new, and the interruption of `recv` by a signal, after which it is called again.
-/

namespace Icee.Http

namespace Reactor

open Pipeline (Event)

variable {ι : Type} [DecidableEq ι]

/-- The step is one of the server, and not one that could be repeated for ever. -/
def Act.works : Act → Bool
  | .intake (.arrive _) | .intake (.close _) | .intake .spurious => false
  | .intake (.recv (.error .eintr)) => false
  | _ => true

/-- One step of the server by itself. -/
def workStep (servingDirectory : Bytes) (fs : FileSystem) (A : Allocator) (s : State ι)
    (l : Label ι) : Option (State ι) :=
  if l.act.works then step servingDirectory fs A s l else none

/-! ## How much there is to do -/

/-- What a stage has before it, beside what is to be received and parsed. -/
@[simp] def Stage.work : Stage → ℕ
  | .unregistered => 5
  | .reported => 3
  | .receiving => 2
  | .inserting _ _ => 2
  | .parsing => 1
  | _ => 0

/-- How many steps a connection gives the server to take, at most. A byte in the socket is received
before it is parsed, and a request leads to two steps more. -/
def Conn.work (c : Conn) : ℕ :=
  3 * c.pending.length + 2 * c.readBuffer.length + 4 * c.edge.toNat + c.stage.work

/-- How many steps the connections give the server to take, at most. -/
def State.work [Fintype ι] (s : State ι) : ℕ := ∑ i, (s.conns i).work

section Steps

variable {servingDirectory : Bytes} {fs : FileSystem} {A : Allocator} {s s' : State ι}

/-- An answer leaves no more to do than the loop has. -/
lemma Conn.work_answer_le (responseBuf : Bytes) (noMoreParse : Bool) (c : Conn) :
    (c.answer responseBuf noMoreParse).work ≤
      3 * c.pending.length + 2 * c.readBuffer.length + 4 * c.edge.toNat + 1 := by
  cases noMoreParse <;> simp [Conn.work, Conn.answer]

/-- **Every step of the receiving side** that is one of the server leaves the connection less to
do. -/
lemma Conn.Takes.work_lt {c c' : Conn} {e : Intake} (takes : c.Takes e c')
    (hworks : (Act.intake e).works = true) : c'.work < c.work := by
  cases takes with
  | arrive | close | spurious => cases hworks
  | register stage =>
    have hedge := Bool.toNat_le c.register.edge
    simp only [Conn.work, stage, Stage.work]
    simp only [Conn.register] at hedge ⊢
    omega
  | poll stage edge => simp [Conn.work, stage, edge]
  | callback stage => simp [Conn.work, stage]
  | @recv result stage gives =>
    rcases result with ⟨chunk, size⟩ | _ | (_ | _ | _ | _)
    · -- the bytes go from the socket to the read buffer
      obtain ⟨rest, hrest⟩ : chunk <+: c.pending := gives
      simp only [Conn.work, Conn.recv, Buffer.append, ← hrest, List.drop_left, List.length_append]
      omega
    · simp [Conn.work, Conn.recv, Conn.leave, stage]
    · cases hworks
    · simp [Conn.work, Conn.recv, stage]
    · simp [Conn.work, Conn.recv, stage]
    · simp [Conn.work, Conn.recv, Conn.leave, stage]

/-- **Every step of the server** leaves its connection less to do. A request that is taken off the
read buffer leads to no more than two steps, and it is not empty. -/
lemma Conn.Moves.work_lt {c c' : Conn} {act : Act} {fault : Option Fault}
    (hmove : c.Moves servingDirectory fs act c' fault) (hworks : act.works = true) :
    c'.work < c.work := by
  have hless : ∀ {request readBuffer : Bytes},
      Search.cut crlfCrlf c.readBuffer = some (request, readBuffer) →
      readBuffer.length < c.readBuffer.length :=
    fun cut => Search.length_rest_lt_of_cut (by decide) cut
  cases hmove with
  | intake takes => exact takes.work_lt hworks
  | rest stage cut => simp [Conn.work, stage]
  | fail stage cut reply | silent stage cut cgi | miss stage cut reply =>
    have := hless cut
    simp only [Conn.work, Conn.pop, stage, Stage.work]
    omega
  | @answer now request readBuffer responseBuf noMoreParse stage cut reply =>
    have := hless cut
    refine (Conn.work_answer_le responseBuf noMoreParse _).trans_lt ?_
    simp only [Conn.work, Conn.pop, stage, Stage.work]
    omega
  | @finish now m noMoreParse stage =>
    refine (Conn.work_answer_le m.responseBuf noMoreParse c).trans_lt ?_
    simp [Conn.work, stage]

/-- **Every step of the server** leaves it less to do. -/
lemma work_lt [Fintype ι] {l : Label ι} (hs : Sound fs s)
    (h : workStep servingDirectory fs A s l = some s') : s'.work < s.work := by
  obtain ⟨hworks, hstep⟩ := Option.ite_none_right_eq_some.mp h
  obtain ⟨-, c', hconns, hmove⟩ := hs.step hstep
  have hless := hmove.work_lt hworks
  have hsum := Census.sum_update Conn.work s.conns l.conn c'
  rw [State.work, State.work, hconns]
  omega

/-! ## What is left at rest -/

/-- If the process still runs, no handler has brought it down. -/
def State.Running (s : State ι) : Prop :=
  s.fault = none → ∀ i fault, (s.conns i).stage ≠ .crashed fault

/-- A move that does not stop the process crashes nothing. -/
lemma Conn.Moves.crashed {c c' : Conn} {act : Act} {fault : Fault}
    (hmove : c.Moves servingDirectory fs act c' none) (hcrashed : c'.stage = .crashed fault) :
    c.stage = .crashed fault := by
  have hanswer : ∀ (responseBuf : Bytes) (noMoreParse : Bool) (c : Conn),
      (c.answer responseBuf noMoreParse).stage ≠ .crashed fault := by
    rintro responseBuf (_ | _) c ⟨⟩
  cases hmove with
  | intake takes =>
    cases takes with
    | arrive | close | spurious => exact hcrashed
    | register | poll | callback => cases hcrashed
    | @recv result stage gives =>
      rcases result with chunk | _ | (_ | _ | _ | _) <;>
        simp [Conn.recv, Conn.leave, stage] at hcrashed
  | rest | silent | miss => cases hcrashed
  | answer | finish => exact absurd hcrashed (hanswer _ _ _)

/-- A handler that crashes brings the process down. -/
lemma State.Running.step {l : Label ι} (h : s.Running) (hs : Sound fs s)
    (hstep : Reactor.step servingDirectory fs A s l = some s') : s'.Running := by
  intro hfault'
  obtain ⟨-, c', hconns, hmove⟩ := hs.step hstep
  rw [hfault'] at hmove
  have hfault : s.fault = none := by
    cases h : s.fault with
    | none => rfl
    | some fault => simp only [Reactor.step, h, reduceCtorEq] at hstep
  rw [hconns, Function.forall_update_iff s.conns fun _ c => ∀ fault, c.stage ≠ .crashed fault]
  exact ⟨fun fault hcrashed => h hfault l.conn fault (hmove.crashed hcrashed),
    fun i _ => h hfault i⟩

/-- What `recv` can give back at any time. -/
lemma Conn.exists_gives (c : Conn) :
    ∃ result, c.Gives result ∧ result ≠ .error .eintr := by
  cases hpending : c.pending with
  | cons b rest =>
    have size : 0 < [b].length ∧ [b].length ≤ tempBufSize := by simp [tempBufSize]
    exact ⟨.data [b] size, by simp [Conn.Gives, hpending], by rintro ⟨⟩⟩
  | nil =>
    cases hclosing : c.closing with
    | shutdown => exact ⟨.eof, ⟨hpending, hclosing⟩, by rintro ⟨⟩⟩
    | reset => exact ⟨.error .other, hclosing, by rintro ⟨⟩⟩
    | _ => exact ⟨.error .eagain, ⟨hpending, hclosing⟩, by rintro ⟨⟩⟩

/-- **At rest** every connection is with its poller, which has nothing to report, or it has been
deleted. -/
lemma stage_of_stuck (hstuck : Transition.Stuck (workStep servingDirectory fs A) s)
    (hrunning : s.Running) (hfault : s.fault = none) (i : ι) :
    (s.conns i).stage = .polled ∧ (s.conns i).edge = false ∨ (s.conns i).stage = .deleted := by
  have hno : ∀ act : Act, act.works = true →
      (s.conns i).act servingDirectory fs A s.cache act = none := by
    intro act hworks
    have hnone := hstuck ⟨i, act⟩
    rw [workStep, if_pos hworks, step, hfault] at hnone
    exact Option.map_eq_none_iff.mp hnone
  have hnot : ∀ e : Intake, (Act.intake e).works = true → (s.conns i).intake e = none :=
    fun e hworks => Option.map_eq_none_iff.mp (hno (.intake e) hworks)
  cases stage : (s.conns i).stage with
  | unregistered => simpa [Conn.intake, stage] using hnot .register rfl
  | polled =>
    cases hedge : (s.conns i).edge with
    | false => exact .inl ⟨rfl, rfl⟩
    | true => simpa [Conn.intake, stage, hedge] using hnot .poll rfl
  | reported => simpa [Conn.intake, stage] using hnot .callback rfl
  | receiving =>
    obtain ⟨result, hgives, hne⟩ := (s.conns i).exists_gives
    have hworks : (Act.intake (.recv result)).works = true := by
      rcases result with chunk | _ | (_ | _ | _ | _) <;> first | rfl | exact absurd rfl hne
    simpa [Conn.intake, stage, hgives] using hnot (.recv result) hworks
  | parsing =>
    have hnone := hno (.begin 0) rfl
    simp only [Conn.act, stage] at hnone
    split at hnone <;> cases hnone
  | inserting m noMoreParse =>
    have hnone := hno (.finish 0) rfl
    simp only [Conn.act, stage] at hnone
    split at hnone <;> cases hnone
  | deleted => exact .inr rfl
  | crashed fault => exact absurd stage (hrunning hfault i fault)

/-- The peer has left if the server has seen it leave. -/
def Conn.Left (c : Conn) : Prop := .peerClosed ∈ c.events → c.closing ≠ .open

/-- Every step of the receiving side keeps it so. -/
lemma Conn.Left.takes {c c' : Conn} {e : Intake} (h : c.Left) (takes : c.Takes e c') : c'.Left := by
  cases takes with
  | close how closing =>
    rintro -
    rcases closing with ⟨-, hhow⟩ | ⟨-, rfl⟩
    · exact hhow
    · rintro ⟨⟩
  | @recv result stage gives =>
    rcases result with chunk | _ | (_ | _ | _ | _)
    · exact h
    · exact fun _ => by simp [recv, leave, show c.closing = .shutdown from gives.2]
    · exact h
    · exact h
    · exact h
    · exact fun _ => by simp [recv, leave, show c.closing = .reset from gives]
  | _ => exact h

/-- Every move keeps it so. -/
lemma Conn.Left.moves {c c' : Conn} {act : Act} {fault : Option Fault} (h : c.Left)
    (hmove : c.Moves servingDirectory fs act c' fault) : c'.Left := by
  have hanswer : ∀ {c : Conn} {responseBuf : Bytes} {noMoreParse : Bool}, c.Left →
      (c.answer responseBuf noMoreParse).Left := by
    intro c responseBuf noMoreParse h
    cases noMoreParse <;> simpa [Left, answer] using h
  have hpop : ∀ request readBuffer : Bytes, (c.pop request readBuffer).Left := by
    simpa [Left, pop] using h
  cases hmove with
  | intake takes => exact h.takes takes
  | rest stage cut => exact h
  | @fail now request readBuffer fault stage cut reply => exact hpop request readBuffer
  | @silent now request readBuffer stage cut cgi => exact hpop request readBuffer
  | answer stage cut reply => exact hanswer (hpop _ _)
  | @miss now request readBuffer m noMoreParse stage cut reply => exact hpop request readBuffer
  | finish stage => exact hanswer h

end Steps

section Rest

variable {servingDirectory : Bytes} {fs : FileSystem} {A : Allocator} {s s' : State ι}
  {capacity : Int32} {now₁ now₂ : UInt64} {ls : List (Label ι)}

/-- What holds at the start and is kept by every step from a state in which what the handlers share
is right, holds after every run. -/
lemma of_run {P : State ι → Prop} (hstart : P (State.start ι A capacity now₁ now₂))
    (hkeeps : ∀ s l s', Sound fs s → P s → step servingDirectory fs A s l = some s' → P s')
    (hrun : Transition.exec (step servingDirectory fs A) (State.start ι A capacity now₁ now₂) ls =
      some s) : P s := by
  have hboth : ∀ s l s', (Sound fs s ∧ P s) → step servingDirectory fs A s l = some s' →
      Sound fs s' ∧ P s' :=
    fun s l s' h hstep => ⟨(h.1.step hstep).1, hkeeps s l s' h.1 h.2 hstep⟩
  exact (Transition.invariant_of_exec hboth ls
    ⟨(Inv.start servingDirectory fs A capacity now₁ now₂).sound, hstart⟩ hrun).2

/-- After every run the server has seen no peer leave that has not. -/
lemma Conn.Left.of_run (hrun : Transition.exec (step servingDirectory fs A)
    (State.start ι A capacity now₁ now₂) ls = some s) : ∀ i, (s.conns i).Left := by
  refine Reactor.of_run (P := fun s => ∀ i, (s.conns i).Left)
    (fun _ hpeer => absurd hpeer List.not_mem_nil) (fun s l s' hsound hleft hstep => ?_) hrun
  obtain ⟨-, c', hconns, hmove⟩ := hsound.step hstep
  rw [hconns, Function.forall_update_iff s.conns fun _ c => c.Left]
  exact ⟨(hleft l.conn).moves hmove, fun i _ => hleft i⟩

/-- The server can do nothing if every connection is with its poller, which has nothing to report,
or has been deleted. -/
lemma stuck_of_stage (h : ∀ i, (s.conns i).stage = .polled ∧ (s.conns i).edge = false ∨
    (s.conns i).stage = .deleted) : Transition.Stuck (workStep servingDirectory fs A) s := by
  rintro ⟨i, act⟩
  by_cases hworks : act.works = true
  · rw [workStep, if_pos hworks, step]
    split
    · refine Option.map_eq_none_iff.mpr ?_
      cases act with
      | intake e =>
        refine Option.map_eq_none_iff.mpr ?_
        cases e with
        | arrive | close | spurious => cases hworks
        | register | poll | callback | recv result =>
          rcases h i with ⟨hstage, hedge⟩ | hstage <;> simp [Conn.intake, *]
      | begin now | finish now =>
        rcases h i with ⟨hstage, hedge⟩ | hstage <;> simp [Conn.act, *]
    · rfl
  · rw [workStep, if_neg hworks]

/-- **The server comes to rest, and has then answered everything.** After any interleaving of the
network, the pollers and the handlers: if nothing more arrives, the server takes a bounded number of
steps, whichever of them it takes first. When it cannot take another one and has not been brought
down, every client that has not left, and whose requests ask neither for scripts nor for mere heads,
has been answered as it would have been by any other server for the same files that had found its
whole stream at once.

**Proof sketch.** Every step of the server leaves its connection less to do (`Conn.Moves.work_lt`).
At rest a connection is with its poller, which has nothing to report, or has been deleted
(`stage_of_stuck`). In the first case everything has been answered (`Inv.complete`); in the second
the server has ended it, for its peer has not left, and then its history is complete
(`Inv.history`). -/
theorem served_at_rest [Fintype ι] (hrun : Transition.exec (step servingDirectory fs A)
      (State.start ι A capacity now₁ now₂) ls = some s) {ls' : List (Label ι)}
    (hwork : Transition.exec (workStep servingDirectory fs A) s ls' = some s') :
    ls'.length ≤ s.work ∧
      (Transition.Stuck (workStep servingDirectory fs A) s' → s'.fault = none →
        ∀ i, Plain servingDirectory (s'.conns i).arrived → (s'.conns i).closing = .open →
        ∀ (site : Site) (w : World Cache), site.servingDirectory = servingDirectory →
          (∀ n, site.fileSystem n = fs) → Served site w →
          (s'.conns i).events = (solo site w (s'.conns i).arrived).events) := by
  constructor
  · have hless : ∀ (s : State ι) l s', Sound fs s → workStep servingDirectory fs A s l = some s' →
        Sound fs s' ∧ s'.work < s.work := fun s l s' hs hstep =>
      ⟨(hs.step (Option.ite_none_right_eq_some.mp hstep).2).1, work_lt hs hstep⟩
    have hlength := Transition.length_le_of_measure State.work hless ls' (Inv.of_run hrun).sound
      hwork
    omega
  · intro hstuck hfault i hplain hopen site w hsite hfiles hw
    have hrun' : Transition.exec (step servingDirectory fs A)
        (State.start ι A capacity now₁ now₂) (ls ++ ls') = some s' := by
      rw [Transition.exec_append ls' hrun]
      exact Transition.exec_of_restricted
        (fun s l s' hstep => (Option.ite_none_right_eq_some.mp hstep).2) ls' hwork
    have hinv := Inv.of_run hrun'
    have hrunning : s'.Running :=
      of_run (by rintro - i fault ⟨⟩) (fun s l s' hs h hstep => h.step hs hstep) hrun'
    have hleft := Conn.Left.of_run hrun'
    rcases stage_of_stuck hstuck hrunning hfault i with ⟨hpolled, hedge⟩ | hdeleted
    · exact (hinv.complete i hplain hsite hfiles hw hpolled hedge).2.1
    · exact ((hinv.history i hplain hsite hfiles hw).1 fun hpeer => hleft i hpeer hopen).2 hdeleted

/-- A page is asked for before the poller has the connection: eight steps, and it has been sent. -/
theorem served_at_rest_once :
    ∃ s s', Transition.exec (step (bytes "www") sampleFiles Allocator.bump)
        (State.start Unit Allocator.bump initCacheSize 0 0) [.arrive () sampleGet] = some s ∧
      Transition.exec (workStep (bytes "www") sampleFiles Allocator.bump) s
        [.register (), .poll (), .callback (), .recv () (.data sampleGet (by decide)),
          .recv () (.error .eagain), .begin () 0, .finish () 1, .begin () 2] = some s' ∧
      8 ≤ s.work ∧ (s'.conns ()).events.length = 3 ∧
      (s'.conns ()).events = (solo sampleSite sampleWorld (s'.conns ()).arrived).events := by
  have hseen : (Transition.exec (step (bytes "www") sampleFiles Allocator.bump)
      (State.start Unit Allocator.bump initCacheSize 0 0) [.arrive () sampleGet]).bind (fun s =>
        (Transition.exec (workStep (bytes "www") sampleFiles Allocator.bump) s
          [.register (), .poll (), .callback (), .recv () (.data sampleGet (by decide)),
            .recv () (.error .eagain), .begin () 0, .finish () 1, .begin () 2]).map fun s' =>
          ((s'.conns ()).arrived, (s'.conns ()).closing, (s'.conns ()).edge, s'.fault.isNone,
            (s'.conns ()).events.length, (s'.conns ()).stage)) =
        some (sampleGet, .open, false, true, 3, .polled) := by
    decide +kernel
  obtain ⟨s, hrun, hs⟩ := Option.bind_eq_some_iff.mp hseen
  obtain ⟨s', hwork, heq⟩ := Option.map_eq_some_iff.mp hs
  simp only [Prod.mk.injEq] at heq
  obtain ⟨harrived, hopen, hedge, hfault, hevents, hpolled⟩ := heq
  obtain ⟨hlength, hserved⟩ := served_at_rest hrun hwork
  have hplain : Plain (bytes "www") (s'.conns ()).arrived := by
    rw [harrived]
    decide +kernel
  exact ⟨s, s', hrun, hwork, hlength, hevents,
    hserved (stuck_of_stage fun _ => .inl ⟨hpolled, hedge⟩)
      (Option.isNone_iff_eq_none.mp hfault) () hplain hopen sampleSite
      sampleWorld rfl (fun _ => rfl) (.start initCacheSize 0 0)⟩

end Rest

end Reactor

end Icee.Http
