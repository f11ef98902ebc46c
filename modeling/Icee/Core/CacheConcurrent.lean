import Icee.Core.CacheStore
import Icee.Lib.Transition

set_option relaxedAutoImplicit false
set_option autoImplicit false

/-!
# Several threads on one cache

`Cache::TryLoad` holds `latch_` in shared mode although it relinks the list; `Cache::TryInsert`
holds it in exclusive mode. Here any number of threads call the two functions, a load step by
step, and the latch decides who may enter. Two loads of the same entry that overlap between
`RemoveFromList` and `AppendToEndOfList` leave a list that never reaches the tailer; as long as no
two loads of one node overlap there, list and hash map agree whenever no call is in progress.

## Main definitions

* `Icee.Threads.Latch`, `Icee.Threads.Phase`, `Icee.Threads.State` — the shared mutex, how far the
  call of a thread has come, and the whole system.
* `Icee.Threads.threadStep`, `Icee.Threads.step` — one atomic step of one thread.
* `Icee.Threads.NoOverlap` — the step does not remove a node that another load has removed and
  not yet appended again.
* `Icee.Threads.Inv` — the invariant of such runs.

## Main results

* `Icee.Threads.overlapping_loads_break_list` — two loads of one entry, remove, remove, append,
  append.
* `Icee.Threads.intact_of_noOverlap` — whole runs without such overlaps.
-/

namespace Icee

namespace Threads

variable {T : Type*} [DecidableEq T]

/-! ## The system -/

/-- `std::shared_mutex`: the threads that hold it shared and the one that holds it exclusively. -/
structure Latch (T : Type*) where
  shared : Finset T
  exclusive : Option T

/-- How far the call of a thread has come. -/
inductive Phase
  | idle
  /-- In `TryLoad`, the shared lock is held. -/
  | loading (identifier : Bytes)
  /-- In `TryLoad`, `find` has returned `mapping_.end()`. -/
  | notFound
  /-- In `TryLoad`, `find` has returned the entry of this node. -/
  | found (index : Addr)
  /-- In `TryLoad`, after `Serialize`. -/
  | serialized (index : Addr)
  /-- In `TryLoad`, after `RemoveFromList`. -/
  | removed (index : Addr)
  /-- In `TryLoad`, after `AppendToEndOfList`. -/
  | appended (index : Addr)
  /-- In `TryLoad`, after `UpdateTimeStamp`. -/
  | stamped
  /-- In `TryInsert`, the exclusive lock is held. -/
  | inserting (resourceIdentifier source : Bytes)
  /-- In `TryInsert`, after its body. -/
  | inserted (done : Bool)
  deriving DecidableEq

/-- The phases in which the latch is held in shared mode. -/
def Phase.HoldsShared : Phase → Prop
  | .idle | .inserting _ _ | .inserted _ => False
  | _ => True

/-- The node a load is working on. -/
def Phase.index : Phase → Option Addr
  | .found a | .serialized a | .removed a | .appended a => some a
  | _ => none

/-- The steps of the two calls. -/
inductive Act
  | acquireShared (identifier : Bytes)
  | find
  | serialize
  | removeFromList
  | appendToEndOfList
  | updateTimeStamp (now : UInt64)
  | acquireExclusive (resourceIdentifier source : Bytes)
  | insertBody (now : UInt64)
  | release

/-- The cache, its latch, the threads and their `destination` vectors. `crashed` is the fault
that has ended the process. -/
structure State (T : Type*) where
  cache : Cache
  latch : Latch T
  phase : T → Phase
  destination : T → Bytes
  crashed : Option Fault

/-- A new cache and no call in progress. -/
def init (A : Allocator) (capacity : Int32) (now₁ now₂ : UInt64) : State T where
  cache := Cache.make A capacity now₁ now₂
  latch := ⟨∅, none⟩
  phase _ := .idle
  destination _ := []
  crashed := none

/-- The thread moves on to another phase. -/
def State.goto (s : State T) (t : T) (p : Phase) : State T :=
  { s with phase := Function.update s.phase t p }

/-- The thread has worked on the cache and moves on, or the process has crashed. -/
def State.gotoWith (s : State T) (t : T) (p : Phase) : Except Fault Cache → State T
  | .ok c => { s.goto t p with cache := c }
  | .error f => { s with crashed := some f }

/-- One atomic step of thread `t`, if it is the next one of its call and the latch admits it. -/
def threadStep (A : Allocator) (s : State T) (t : T) (act : Act) : Option (State T) :=
  if s.crashed.isSome then none
  else match s.phase t, act with
    | .idle, .acquireShared identifier =>
      if s.latch.exclusive = none then
        some { s.goto t (.loading identifier) with
          latch := { s.latch with shared := insert t s.latch.shared } }
      else none
    | .loading identifier, .find => match s.cache.mapping.lookup identifier with
      | none => some (s.goto t .notFound)
      | some index => some (s.goto t (.found index))
    | .found index, .serialize => match s.cache.deref (some index) with
      | .ok n => some { s.goto t (.serialized index) with
          destination := Function.update s.destination t (n.serialize (s.destination t)) }
      | .error f => some { s with crashed := some f }
    | .serialized index, .removeFromList =>
      some (s.gotoWith t (.removed index) (s.cache.removeFromList index))
    | .removed index, .appendToEndOfList =>
      some (s.gotoWith t (.appended index) (s.cache.appendToEndOfList index))
    | .appended index, .updateTimeStamp now =>
      some (s.gotoWith t .stamped (s.cache.modify (some index) (CacheNode.updateTimeStamp now)))
    | .notFound, .release | .stamped, .release =>
      some { s.goto t .idle with latch := { s.latch with shared := s.latch.shared.erase t } }
    | .idle, .acquireExclusive resourceIdentifier source =>
      if s.latch.exclusive = none ∧ s.latch.shared = ∅ then
        some { s.goto t (.inserting resourceIdentifier source) with
          latch := { s.latch with exclusive := some t } }
      else none
    | .inserting resourceIdentifier source, .insertBody now =>
      match s.cache.tryInsert A resourceIdentifier source now with
      | .ok (c, done) => some { s.goto t (.inserted done) with cache := c }
      | .error f => some { s with crashed := some f }
    | .inserted _, .release =>
      some { s.goto t .idle with latch := { s.latch with exclusive := none } }
    | _, _ => none

/-- The steps of the whole system, labelled with the thread that moves. -/
def step (A : Allocator) (s : State T) (m : T × Act) : Option (State T) :=
  threadStep A s m.1 m.2

/-- No call is in progress. -/
def State.Quiescent (s : State T) : Prop := ∀ t, s.phase t = .idle

/-- The step is not the removal of a node that another load has removed and not yet appended
again. -/
def NoOverlap (s : State T) (m : T × Act) : Prop :=
  match m.2, s.phase m.1 with
  | .removeFromList, .serialized index => ∀ u, s.phase u ≠ .removed index
  | _, _ => True

instance [Fintype T] (s : State T) (m : T × Act) : Decidable (NoOverlap s m) := by
  unfold NoOverlap
  split <;> infer_instance

/-! ## The overlap -/

/-- A walk that starts on a node pointing at itself ends nowhere else. -/
lemma not_visits_of_loop {α : Type*} {f : α → Option α} {a b : α} (hf : f a = some a)
    (hb : b ≠ a) : ∀ xs, ¬ Links.Visits f a xs b
  | [], h => hb (Option.some.inj (h.symm.trans hf))
  | x :: xs, h => by
    obtain rfl : a = x := Option.some.inj (hf.symm.trans h.1)
    exact not_visits_of_loop hf hb xs h.2

/-- One thread stores a resource; then two threads load it, both remove its node from the list
before either appends it again. -/
def overlap : List (Bool × Act) :=
  [(true, .acquireExclusive [97] [1]), (true, .insertBody 0), (true, .release),
    (true, .acquireShared [97]), (true, .find), (true, .serialize),
    (false, .acquireShared [97]), (false, .find), (false, .serialize),
    (true, .removeFromList), (false, .removeFromList),
    (true, .appendToEndOfList), (false, .appendToEndOfList),
    (true, .updateTimeStamp 1), (true, .release),
    (false, .updateTimeStamp 2), (false, .release)]

/-- **Two overlapping loads of one entry break the list**: all calls return, and the only node
points at itself, so that `next_` never leads from the header to the tailer. -/
theorem overlapping_loads_break_list :
    ∃ s, Transition.exec (step Allocator.bump) (init Allocator.bump 8 0 0) overlap = some s ∧
      s.crashed = none ∧ s.Quiescent ∧ ¬ ∃ nodes, s.cache.Intact nodes := by
  have hrun : (Transition.exec (step Allocator.bump) (init Allocator.bump 8 0 0) overlap).map
      (fun s => (s.crashed, s.phase true, s.phase false, s.cache.dummyHeader,
        s.cache.dummyTailer, s.cache.nextOf 1, s.cache.nextOf 3)) =
      some (none, .idle, .idle, 1, 2, some 3, some 3) := by
    rfl
  obtain ⟨s, hs, hfields⟩ := Option.map_eq_some_iff.mp hrun
  simp only [Prod.mk.injEq] at hfields
  obtain ⟨hcrashed, htrue, hfalse, hheader, htailer, hnext, hloop⟩ := hfields
  refine ⟨s, hs, hcrashed, fun t => by cases t <;> assumption, ?_⟩
  rintro ⟨nodes, h⟩
  have hforward := h.forward
  rw [hheader, htailer] at hforward
  cases nodes with
  | nil => exact absurd (Option.some.inj (hnext.symm.trans hforward)) (by decide)
  | cons n nodes =>
    obtain rfl : 3 = n := Option.some.inj (hnext.symm.trans hforward.1)
    exact not_visits_of_loop hloop (by decide) nodes hforward.2

/-! ## What a step can do -/

/-- The steps of a thread, one by one. -/
inductive Moves (A : Allocator) (s : State T) (t : T) : Act → State T → Prop
  | acquireShared {identifier : Bytes} (hphase : s.phase t = .idle)
      (hlatch : s.latch.exclusive = none) :
      Moves A s t (.acquireShared identifier) { s.goto t (.loading identifier) with
        latch := { s.latch with shared := insert t s.latch.shared } }
  | findNone {identifier : Bytes} (hphase : s.phase t = .loading identifier) :
      Moves A s t .find (s.goto t .notFound)
  | find {identifier : Bytes} {index : Addr} (hphase : s.phase t = .loading identifier)
      (hfind : s.cache.mapping.lookup identifier = some index) :
      Moves A s t .find (s.goto t (.found index))
  | serialize {index : Addr} {n : CacheNode} (hphase : s.phase t = .found index)
      (hderef : s.cache.deref (some index) = .ok n) :
      Moves A s t .serialize { s.goto t (.serialized index) with
        destination := Function.update s.destination t (n.serialize (s.destination t)) }
  | serializeFault {index : Addr} {f : Fault} (hphase : s.phase t = .found index)
      (hderef : s.cache.deref (some index) = .error f) :
      Moves A s t .serialize { s with crashed := some f }
  | removeFromList {index : Addr} (hphase : s.phase t = .serialized index) :
      Moves A s t .removeFromList
        (s.gotoWith t (.removed index) (s.cache.removeFromList index))
  | appendToEndOfList {index : Addr} (hphase : s.phase t = .removed index) :
      Moves A s t .appendToEndOfList
        (s.gotoWith t (.appended index) (s.cache.appendToEndOfList index))
  | updateTimeStamp {index : Addr} {now : UInt64} (hphase : s.phase t = .appended index) :
      Moves A s t (.updateTimeStamp now) (s.gotoWith t .stamped
        (s.cache.modify (some index) (CacheNode.updateTimeStamp now)))
  | releaseShared (hphase : s.phase t = .notFound ∨ s.phase t = .stamped) :
      Moves A s t .release { s.goto t .idle with
        latch := { s.latch with shared := s.latch.shared.erase t } }
  | acquireExclusive {id source : Bytes} (hphase : s.phase t = .idle)
      (hexclusive : s.latch.exclusive = none) (hshared : s.latch.shared = ∅) :
      Moves A s t (.acquireExclusive id source) { s.goto t (.inserting id source) with
        latch := { s.latch with exclusive := some t } }
  | insertBody {id source : Bytes} {now : UInt64} {c : Cache} {done : Bool}
      (hphase : s.phase t = .inserting id source)
      (hbody : s.cache.tryInsert A id source now = .ok (c, done)) :
      Moves A s t (.insertBody now) { s.goto t (.inserted done) with cache := c }
  | insertFault {id source : Bytes} {now : UInt64} {f : Fault}
      (hphase : s.phase t = .inserting id source)
      (hbody : s.cache.tryInsert A id source now = .error f) :
      Moves A s t (.insertBody now) { s with crashed := some f }
  | releaseExclusive {done : Bool} (hphase : s.phase t = .inserted done) :
      Moves A s t .release { s.goto t .idle with latch := { s.latch with exclusive := none } }

/-- Every step is one of these. -/
lemma moves_of_step {A : Allocator} {s s' : State T} {t : T} {act : Act}
    (h : threadStep A s t act = some s') : s.crashed = none ∧ Moves A s t act s' := by
  unfold threadStep at h
  split at h
  · cases h
  · next hcrashed =>
    refine ⟨by simpa using hcrashed, ?_⟩
    split at h
    · next hphase =>
      split at h
      · next hlatch => cases h; exact .acquireShared hphase hlatch
      · cases h
    · next hphase =>
      split at h
      · cases h; exact .findNone hphase
      · next hfind => cases h; exact .find hphase hfind
    · next hphase =>
      split at h
      · next hderef => cases h; exact .serialize hphase hderef
      · next hderef => cases h; exact .serializeFault hphase hderef
    · next hphase => cases h; exact .removeFromList hphase
    · next hphase => cases h; exact .appendToEndOfList hphase
    · next hphase => cases h; exact .updateTimeStamp hphase
    · next hphase => cases h; exact .releaseShared (Or.inl hphase)
    · next hphase => cases h; exact .releaseShared (Or.inr hphase)
    · next hphase =>
      split at h
      · next hlatch => cases h; exact .acquireExclusive hphase hlatch.1 hlatch.2
      · cases h
    · next hphase =>
      split at h
      · next hbody => cases h; exact .insertBody hphase hbody
      · next hbody => cases h; exact .insertFault hphase hbody
    · next hphase => cases h; exact .releaseExclusive hphase
    · cases h

/-! ## The invariant -/

/-- The cache keeps its invariant, with the nodes detached that some load has removed and not
yet appended again; no node is detached twice, and the nodes loads work on are all there. -/
structure Consistent (c : Cache) (phase : T → Phase) (nodes D : List Addr) : Prop where
  rep : c.Rep nodes D
  detached : ∀ a, a ∈ D ↔ ∃ t, phase t = .removed a
  once : ∀ t u a, phase t = .removed a → phase u = .removed a → t = u
  index_mem : ∀ t a, (phase t).index = some a → a ∈ nodes ++ D

/-- The latch is held by those who are in the calls. -/
structure Guarded (l : Latch T) (phase : T → Phase) : Prop where
  shared : ∀ t, (phase t).HoldsShared → t ∈ l.shared
  alone : l.exclusive ≠ none → l.shared = ∅
  inserting : ∀ t id source, phase t = .inserting id source → l.exclusive = some t
  inserted : ∀ t done, phase t = .inserted done → l.exclusive = some t

/-- The invariant of runs without overlaps. -/
structure Inv (s : State T) : Prop where
  crashed : s.crashed = none
  consistent : ∃ nodes D, Consistent s.cache s.phase nodes D
  guarded : Guarded s.latch s.phase

variable {A : Allocator} {s s' : State T} {c c' : Cache} {phase : T → Phase} {t : T} {p : Phase}
  {nodes D : List Addr} {l : Latch T}

/-- After a step of one thread, the nodes that the threads point to are among those of a list that
has all the nodes of before and that of the thread. -/
lemma Consistent.index_mem_update (h : Consistent c phase nodes D) {rest : List Addr}
    (hcover : ∀ b ∈ nodes ++ D, b ∈ rest) (hindex : ∀ a, p.index = some a → a ∈ rest) (u : T)
    {a : Addr} (hu : (Function.update phase t p u).index = some a) : a ∈ rest := by
  have hall : ∀ v, (Function.update phase t p v).index = some a → a ∈ rest := by
    rw [Function.forall_update_iff phase fun _ q => q.index = some a → a ∈ rest]
    exact ⟨hindex a, fun v _ hv => hcover a (h.index_mem v a hv)⟩
  exact hall u hu

/-- A thread that neither was nor gets to the middle of a move keeps the cache consistent. -/
lemma Consistent.goto (h : Consistent c phase nodes D) (hold : ∀ a, phase t ≠ .removed a)
    (hnew : ∀ a, p ≠ .removed a) (hindex : ∀ a, p.index = some a → a ∈ nodes ++ D) :
    Consistent c (Function.update phase t p) nodes D := by
  have hremoved : ∀ u a, Function.update phase t p u = .removed a ↔ phase u = .removed a := by
    intro u a
    by_cases hu : u = t
    · subst hu
      rw [Function.update_self]
      exact ⟨fun e => absurd e (hnew a), fun e => absurd e (hold a)⟩
    · rw [Function.update_of_ne hu]
  refine ⟨h.rep, fun a => ?_, fun u v a hu hv => ?_, fun u a hu => ?_⟩
  · rw [h.detached]
    exact exists_congr fun u => (hremoved u a).symm
  · exact h.once u v a ((hremoved u a).mp hu) ((hremoved v a).mp hv)
  · exact h.index_mem_update (fun _ hb => hb) hindex u hu

/-- The same for a thread that gets to a phase without a node. -/
lemma Consistent.goto_none (h : Consistent c phase nodes D) (hold : ∀ a, phase t ≠ .removed a)
    (hnone : p.index = none) : Consistent c (Function.update phase t p) nodes D := by
  refine h.goto hold ?_ ?_
  · rintro a rfl
    cases hnone
  · intro a ha
    rw [hnone] at ha
    cases ha

/-- A load removes its node, which no other load has removed. -/
lemma Consistent.removeFromList {index : Addr} (h : Consistent c phase nodes D)
    (hphase : phase t = .serialized index) (hfree : ∀ u, phase u ≠ .removed index) :
    ∃ c' nodes', c.removeFromList index = .ok c' ∧
      Consistent c' (Function.update phase t (.removed index)) nodes' (index :: D) := by
  have hD : index ∉ D := fun hmem => by
    obtain ⟨u, hu⟩ := (h.detached index).mp hmem
    exact hfree u hu
  have hmem : index ∈ nodes := by
    rcases List.mem_append.mp (h.index_mem t index (by rw [hphase]; rfl)) with hm | hm
    · exact hm
    · exact absurd hm hD
  obtain ⟨l₁, l₂, rfl⟩ := List.append_of_mem hmem
  obtain ⟨c', hc', -, hrep⟩ := h.rep.removeFromList
  have hother : ∀ u, u ≠ t → Function.update phase t (.removed index) u = phase u :=
    fun u hu => Function.update_of_ne hu _ _
  refine ⟨c', l₁ ++ l₂, hc', hrep, fun a => ?_, fun u v a hu hv => ?_, fun u a hu => ?_⟩
  · rw [List.mem_cons, h.detached]
    refine ⟨?_, ?_⟩
    · rintro (rfl | ⟨u, hu⟩)
      · exact ⟨t, Function.update_self ..⟩
      · refine ⟨u, ?_⟩
        rw [hother u (by rintro rfl; rw [hphase] at hu; cases hu), hu]
    · rintro ⟨u, hu⟩
      by_cases hut : u = t
      · subst hut
        rw [Function.update_self] at hu
        exact Or.inl (Phase.removed.inj hu).symm
      · exact Or.inr ⟨u, by rwa [hother u hut] at hu⟩
  · by_cases hut : u = t
    · by_cases hvt : v = t
      · rw [hut, hvt]
      · rw [hut, Function.update_self] at hu
        rw [hother v hvt, ← Phase.removed.inj hu] at hv
        exact absurd hv (hfree v)
    · rw [hother u hut] at hu
      by_cases hvt : v = t
      · rw [hvt, Function.update_self] at hv
        rw [← Phase.removed.inj hv] at hu
        exact absurd hu (hfree u)
      · rw [hother v hvt] at hv
        exact h.once u v a hu hv
  · refine h.index_mem_update (fun b hb => ?_) (fun b hb => ?_) u hu
    · simp only [List.mem_append, List.mem_cons] at hb ⊢
      tauto
    · obtain rfl : index = b := Option.some.inj hb
      simp

/-- A load appends the node it has removed. -/
lemma Consistent.appendToEndOfList {index : Addr} (h : Consistent c phase nodes D)
    (hphase : phase t = .removed index) :
    ∃ c' D', c.appendToEndOfList index = .ok c' ∧
      Consistent c' (Function.update phase t (.appended index)) (nodes ++ [index]) D' := by
  have hmem : index ∈ D := (h.detached index).mpr ⟨t, hphase⟩
  obtain ⟨D₁, D₂, rfl⟩ := List.append_of_mem hmem
  obtain ⟨c', hc', -, hrep⟩ := h.rep.appendToEndOfList
  have hindex : index ∉ D₁ ++ D₂ := by
    have hnodup : (D₁ ++ index :: D₂).Nodup := h.rep.nodup.sublist
      ((List.sublist_cons_self _ _).trans (List.sublist_append_right _ _))
    exact (List.nodup_cons.mp (List.perm_middle.nodup_iff.mp hnodup)).1
  have hother : ∀ u, u ≠ t → Function.update phase t (.appended index) u = phase u :=
    fun u hu => Function.update_of_ne hu _ _
  have hremoved : ∀ u a, Function.update phase t (.appended index) u = .removed a ↔
      phase u = .removed a ∧ u ≠ t := by
    intro u a
    by_cases hut : u = t
    · subst hut; simp
    · rw [hother u hut]; simp [hut]
  refine ⟨c', D₁ ++ D₂, hc', hrep, fun a => ?_, fun u v a hu hv => ?_, fun u a hu => ?_⟩
  · have hD := h.detached a
    constructor
    · intro ha
      have hne : a ≠ index := ne_of_mem_of_not_mem ha hindex
      obtain ⟨u, hu⟩ := hD.mp (by
        simp only [List.mem_append, List.mem_cons] at ha ⊢
        tauto)
      refine ⟨u, (hremoved u a).mpr ⟨hu, ?_⟩⟩
      rintro rfl
      exact hne (Phase.removed.inj (hu.symm.trans hphase))
    · rintro ⟨u, hu⟩
      obtain ⟨hu, hut⟩ := (hremoved u a).mp hu
      have hne : a ≠ index := by
        intro e
        exact hut (h.once u t a hu (e ▸ hphase))
      have ha := hD.mpr ⟨u, hu⟩
      simp only [List.mem_append, List.mem_cons] at ha ⊢
      tauto
  · exact h.once u v a ((hremoved u a).mp hu).1 ((hremoved v a).mp hv).1
  · refine h.index_mem_update (fun b hb => ?_) (fun b hb => ?_) u hu
    · simp only [List.mem_append, List.mem_cons] at hb ⊢
      tauto
    · obtain rfl : index = b := Option.some.inj hb
      simp

/-- Alone with the latch, an insertion finds no node detached and leaves none. -/
lemma Consistent.tryInsert (h : Consistent c phase nodes D)
    (hidle : ∀ u, ¬ (phase u).HoldsShared) (A : Allocator) (t : T) (id source : Bytes)
    (now : UInt64) :
    ∃ c' done nodes', c.tryInsert A id source now = .ok (c', done) ∧
      Consistent c' (Function.update phase t (.inserted done)) nodes' [] := by
  have hindex : ∀ u, (phase u).index = none := by
    intro u
    have := hidle u
    cases hu : phase u <;> simp_all [Phase.HoldsShared, Phase.index]
  have hremoved : ∀ u a, phase u ≠ .removed a := by
    intro u a hu
    have := hindex u
    rw [hu] at this
    cases this
  obtain rfl : D = [] := List.eq_nil_iff_forall_not_mem.mpr fun a ha => by
    obtain ⟨u, hu⟩ := (h.detached a).mp ha
    exact hremoved u a hu
  obtain ⟨st, hst⟩ := h.rep.exists_refines
  obtain ⟨c', hc', hr⟩ := hst.tryInsert A id source now
  obtain ⟨nodes', hcar⟩ := hr.carries
  have hbefore : Consistent c' phase nodes' [] := by
    refine ⟨hcar.toRep, fun a => ?_, fun u v a hu => absurd hu (hremoved u a), fun u a hu => ?_⟩
    · exact ⟨fun ha => (by cases ha), fun ⟨u, hu⟩ => absurd hu (hremoved u a)⟩
    · rw [hindex u] at hu
      cases hu
  exact ⟨c', _, nodes', hc', hbefore.goto_none (hremoved t) rfl⟩

omit [DecidableEq T] in
/-- While a thread is inside `TryInsert`, no thread holds the latch shared. -/
lemma Guarded.not_holdsShared {id source : Bytes} (h : Guarded l phase)
    (hphase : phase t = .inserting id source) : ∀ u, ¬ (phase u).HoldsShared := by
  intro u hu
  have hholder := h.inserting t id source hphase
  have hempty := h.alone (by rw [hholder]; simp)
  have hmem := h.shared u hu
  rw [hempty] at hmem
  exact Finset.notMem_empty u hmem

/-- A thread that leaves or enters a call: what the latch has to know about the new phase. -/
lemma Guarded.goto_latch {l' : Latch T} (h : Guarded l phase)
    (hshared : ∀ u, u ≠ t → u ∈ l.shared → u ∈ l'.shared)
    (halone : l'.exclusive ≠ none → l'.shared = ∅)
    (hexclusive : ∀ u, u ≠ t → l.exclusive = some u → l'.exclusive = some u)
    (hp : p.HoldsShared → t ∈ l'.shared)
    (hinserting : ∀ id source, p = .inserting id source → l'.exclusive = some t)
    (hinserted : ∀ done, p = .inserted done → l'.exclusive = some t) :
    Guarded l' (Function.update phase t p) := by
  refine ⟨?_, halone, ?_, ?_⟩
  · rw [Function.forall_update_iff phase fun u q => q.HoldsShared → u ∈ l'.shared]
    exact ⟨hp, fun u hut hu => hshared u hut (h.shared u hu)⟩
  · rw [Function.forall_update_iff phase fun u q =>
      ∀ id source, q = .inserting id source → l'.exclusive = some u]
    exact ⟨hinserting, fun u hut id source hu => hexclusive u hut (h.inserting u id source hu)⟩
  · rw [Function.forall_update_iff phase fun u q =>
      ∀ done, q = .inserted done → l'.exclusive = some u]
    exact ⟨hinserted, fun u hut done hu => hexclusive u hut (h.inserted u done hu)⟩

/-- A thread that moves within `TryLoad` holds the latch as before. -/
lemma Guarded.goto_shared (h : Guarded l phase) (hold : (phase t).HoldsShared)
    (hnew : p.HoldsShared) : Guarded l (Function.update phase t p) := by
  refine h.goto_latch ?_ h.alone ?_ ?_ ?_ ?_
  · exact fun u _ hu => hu
  · exact fun u _ hu => hu
  · exact fun _ => h.shared t hold
  · rintro id source rfl
    exact hnew.elim
  · rintro done rfl
    exact hnew.elim

/-- A thread takes the latch in shared mode. -/
lemma Guarded.lockShared (h : Guarded l phase) (hfree : l.exclusive = none)
    (identifier : Bytes) : Guarded { l with shared := insert t l.shared }
      (Function.update phase t (.loading identifier)) := by
  refine h.goto_latch ?_ ?_ ?_ ?_ ?_ ?_
  · exact fun u _ hu => Finset.mem_insert_of_mem hu
  · exact fun hne => absurd hfree hne
  · exact fun u _ hu => hu
  · exact fun _ => Finset.mem_insert_self _ _
  · exact nofun
  · exact nofun

/-- A thread gives the latch back in shared mode. -/
lemma Guarded.unlockShared (h : Guarded l phase) : Guarded { l with shared := l.shared.erase t }
    (Function.update phase t .idle) := by
  refine h.goto_latch ?_ ?_ ?_ ?_ ?_ ?_
  · exact fun u hu hmem => Finset.mem_erase.mpr ⟨hu, hmem⟩
  · intro hne
    simp [h.alone hne]
  · exact fun u _ hu => hu
  · exact fun hp => hp.elim
  · exact nofun
  · exact nofun

/-- A thread takes the latch exclusively. -/
lemma Guarded.lock (h : Guarded l phase) (hfree : l.exclusive = none)
    (hempty : l.shared = ∅) (id source : Bytes) : Guarded { l with exclusive := some t }
      (Function.update phase t (.inserting id source)) := by
  refine h.goto_latch ?_ ?_ ?_ ?_ ?_ ?_
  · exact fun u _ hu => hu
  · exact fun _ => hempty
  · intro u _ hu
    rw [hfree] at hu
    cases hu
  · exact fun hp => hp.elim
  · exact fun _ _ _ => rfl
  · exact nofun

/-- A thread comes to the end of `TryInsert`. -/
lemma Guarded.insertBody {id source : Bytes} (h : Guarded l phase)
    (hphase : phase t = .inserting id source) (done : Bool) :
    Guarded l (Function.update phase t (.inserted done)) := by
  refine h.goto_latch ?_ h.alone ?_ ?_ ?_ ?_
  · exact fun u _ hu => hu
  · exact fun u _ hu => hu
  · exact fun hp => hp.elim
  · exact nofun
  · exact fun _ _ => h.inserting t id source hphase

/-- A thread gives the latch back that it held exclusively. -/
lemma Guarded.unlock {done : Bool} (h : Guarded l phase) (hphase : phase t = .inserted done) :
    Guarded { l with exclusive := none } (Function.update phase t .idle) := by
  refine h.goto_latch ?_ ?_ ?_ ?_ ?_ ?_
  · exact fun u _ hu => hu
  · exact fun hne => absurd rfl hne
  · intro u hu hholder
    rw [h.inserted t done hphase] at hholder
    exact absurd (Option.some.inj hholder).symm hu
  · exact fun hp => hp.elim
  · exact nofun
  · exact nofun

/-- **One step** without an overlap keeps the invariant.

**Proof sketch.** The steps that do not touch the list only move a thread on. A removal finds its
node in the list, since no other load has it detached; an append puts back the one node its thread
has detached; an insertion holds the latch alone, so nothing is detached when it works. -/
lemma Inv.step (h : Inv s) {m : T × Act} (hcond : NoOverlap s m)
    (hstep : Threads.step A s m = some s') : Inv s' := by
  obtain ⟨t, act⟩ := m
  obtain ⟨nodes, D, hcons⟩ := h.consistent
  obtain ⟨hcrashed, hmoves⟩ := moves_of_step (show threadStep A s t act = some s' from hstep)
  cases hmoves with
  | acquireShared hphase hlatch =>
    exact ⟨hcrashed, ⟨nodes, D, hcons.goto_none (by simp [hphase]) rfl⟩,
      h.guarded.lockShared hlatch _⟩
  | findNone hphase =>
    exact ⟨hcrashed, ⟨nodes, D, hcons.goto_none (by simp [hphase]) rfl⟩,
      h.guarded.goto_shared (by rw [hphase]; trivial) trivial⟩
  | find hphase hfind =>
    refine ⟨hcrashed, ⟨nodes, D, hcons.goto (by simp [hphase]) (by simp) (fun a ha => ?_)⟩,
      h.guarded.goto_shared (by rw [hphase]; trivial) trivial⟩
    obtain rfl := Option.some.inj ha
    exact ((hcons.rep.mapped _ _).mp hfind).1
  | serialize hphase hderef =>
    refine ⟨hcrashed, ⟨nodes, D, hcons.goto (by simp [hphase]) (by simp) (fun a ha => ?_)⟩,
      h.guarded.goto_shared (by rw [hphase]; trivial) trivial⟩
    exact hcons.index_mem t a (by rw [hphase]; exact ha)
  | @serializeFault index f hphase hderef =>
    have hlive : index ∈ s.cache.heap := by
      have := hcons.index_mem t index (by rw [hphase]; rfl)
      rw [hcons.rep.live]
      simp only [List.mem_append, List.mem_cons] at this ⊢
      tauto
    obtain ⟨n, hn, -⟩ := Cache.deref_spec hlive
    rw [hn] at hderef
    cases hderef
  | @removeFromList index hphase =>
    have hfree : ∀ u, s.phase u ≠ .removed index := by
      simpa only [NoOverlap, hphase] using hcond
    obtain ⟨c', nodes', hc', hcons'⟩ := hcons.removeFromList hphase hfree
    rw [hc']
    exact ⟨hcrashed, ⟨nodes', _, hcons'⟩,
      h.guarded.goto_shared (by rw [hphase]; trivial) trivial⟩
  | appendToEndOfList hphase =>
    obtain ⟨c', D', hc', hcons'⟩ := hcons.appendToEndOfList hphase
    rw [hc']
    exact ⟨hcrashed, ⟨_, D', hcons'⟩, h.guarded.goto_shared (by rw [hphase]; trivial) trivial⟩
  | @updateTimeStamp index now hphase =>
    have hindex := hcons.index_mem t index (by rw [hphase]; rfl)
    obtain ⟨c', hc', -, hrep⟩ := hcons.rep.updateTimeStamp hindex now
    have hcons' : Consistent c' s.phase nodes D :=
      ⟨hrep, hcons.detached, hcons.once, hcons.index_mem⟩
    rw [hc']
    exact ⟨hcrashed, ⟨nodes, D, hcons'.goto_none (by simp [hphase]) rfl⟩,
      h.guarded.goto_shared (by rw [hphase]; trivial) trivial⟩
  | releaseShared hphase =>
    have hold : ∀ a, s.phase t ≠ .removed a := by rcases hphase with e | e <;> simp [e]
    exact ⟨hcrashed, ⟨nodes, D, hcons.goto_none hold rfl⟩, h.guarded.unlockShared⟩
  | acquireExclusive hphase hexclusive hshared =>
    exact ⟨hcrashed, ⟨nodes, D, hcons.goto_none (by simp [hphase]) rfl⟩,
      h.guarded.lock hexclusive hshared _ _⟩
  | @insertBody id source now c done hphase hbody =>
    obtain ⟨c', done', nodes', hc', hcons'⟩ :=
      hcons.tryInsert (h.guarded.not_holdsShared hphase) A t id source now
    rw [hc'] at hbody
    obtain ⟨rfl, rfl⟩ := Prod.mk.inj (Except.ok.inj hbody)
    exact ⟨hcrashed, ⟨nodes', [], hcons'⟩, h.guarded.insertBody hphase _⟩
  | @insertFault id source now f hphase hbody =>
    obtain ⟨c', done', nodes', hc', -⟩ :=
      hcons.tryInsert (h.guarded.not_holdsShared hphase) A t id source now
    rw [hc'] at hbody
    cases hbody
  | releaseExclusive hphase =>
    exact ⟨hcrashed, ⟨nodes, D, hcons.goto_none (by simp [hphase]) rfl⟩,
      h.guarded.unlock hphase⟩

omit [DecidableEq T] in
/-- The invariant holds initially. -/
lemma inv_init (A : Allocator) (capacity : Int32) (now₁ now₂ : UInt64) :
    Inv (init A capacity now₁ now₂ : State T) := by
  refine ⟨rfl, ⟨[], [], Cache.make_rep A capacity now₁ now₂, ?_, ?_, ?_⟩, ?_, ?_, ?_, ?_⟩
  · exact fun a => ⟨fun ha => (by cases ha), fun ⟨t, ht⟩ => (by cases ht)⟩
  · exact fun t u a ht => (by cases ht)
  · exact fun t a ha => (by cases ha)
  · exact fun t ht => ht.elim
  · exact fun hne => absurd rfl hne
  · exact fun t id source e => (by cases e)
  · exact fun t done e => (by cases e)

/-- **The cache survives every interleaving without overlapping removals.** For any number of
threads and any run in which no load removes a node while another load has it removed and not yet
appended again, no step crashes, and whenever no call is in progress list and hash map agree. -/
theorem intact_of_noOverlap (A : Allocator) (capacity : Int32) (now₁ now₂ : UInt64)
    (ms : List (T × Act)) (s : State T)
    (hcond : Transition.Along (Threads.step A) NoOverlap (init A capacity now₁ now₂) ms)
    (hrun : Transition.exec (Threads.step A) (init A capacity now₁ now₂) ms = some s)
    (hquiet : s.Quiescent) : s.crashed = none ∧ ∃ nodes, s.cache.Intact nodes := by
  have hinv : Inv s := Transition.invariant_of_along
    (fun s m s' hs hm hstep => Inv.step hs hm hstep) ms (inv_init A capacity now₁ now₂) hcond hrun
  obtain ⟨nodes, D, hcons⟩ := hinv.consistent
  obtain rfl : D = [] := List.eq_nil_iff_forall_not_mem.mpr fun a ha => by
    obtain ⟨t, ht⟩ := (hcons.detached a).mp ha
    rw [hquiet t] at ht
    cases ht
  exact ⟨hinv.crashed, nodes, hcons.rep.intact⟩

/-- Two threads load two different entries, one inside the other. -/
def nested : List (Bool × Act) :=
  [(true, .acquireExclusive [97] [1]), (true, .insertBody 0), (true, .release),
    (false, .acquireExclusive [98] [2]), (false, .insertBody 0), (false, .release),
    (true, .acquireShared [97]), (true, .find), (true, .serialize), (true, .removeFromList),
    (false, .acquireShared [98]), (false, .find), (false, .serialize), (false, .removeFromList),
    (false, .appendToEndOfList), (true, .appendToEndOfList),
    (false, .updateTimeStamp 2), (false, .release), (true, .updateTimeStamp 1), (true, .release)]

/-- The nested loads leave the list as it should be. -/
theorem intact_of_nested_loads :
    ∃ s, Transition.exec (Threads.step Allocator.bump) (init Allocator.bump 8 0 0) nested = some s ∧
      s.Quiescent ∧ s.crashed = none ∧ ∃ nodes, s.cache.Intact nodes := by
  have hphases : (Transition.exec (Threads.step Allocator.bump) (init Allocator.bump 8 0 0)
      nested).map (fun s => (s.phase true, s.phase false)) = some (.idle, .idle) := by
    rfl
  obtain ⟨s, hs, hidle⟩ := Option.map_eq_some_iff.mp hphases
  obtain ⟨htrue, hfalse⟩ := Prod.mk.inj hidle
  have hquiet : s.Quiescent := fun t => by cases t <;> assumption
  exact ⟨s, hs, hquiet, intact_of_noOverlap Allocator.bump 8 0 0 nested s (by decide) hs hquiet⟩

end Threads

end Icee
