import Icee.Core.CacheLru
import Icee.Lib.Transition

set_option relaxedAutoImplicit false
set_option autoImplicit false

/-!
# The accounts of the cache

`current_size_` is an `int` that is updated in three places, and the eviction loop compares the
capacity minus this counter with an `int` copy of the size of a resource. This file is about the
values that these expressions have as integers, and about resources whose size is no `int`.

## Main definitions

* `Icee.Cache.runValues` — the exact values of the `int` expressions of a run.
* `Icee.Cache.held` — the number of bytes that the cache holds.
* `Icee.Cache.Refuses` — the calls of `TryInsert` that are turned down before anything is evicted.

## Main results

* `Icee.Cache.accounting` — for resources of less than `2^31` bytes the counter is exact, and no
  expression leaves the range of `int`.
* `Icee.Cache.oversized_iff` — resources larger than the cache are turned down exactly in these
  calls, and the capacity is respected exactly in the runs in which they always are.
-/

namespace Icee

open Links

namespace Cache

/-! ## The values of the expressions -/

/-- The value of `current_size_ - resource_size` in `Cache::EvitOne`. -/
def evitOneValues (c : Cache) : List ℤ :=
  match c.deref (some c.dummyHeader) with
  | .error _ => []
  | .ok header =>
    if header.next = some c.dummyTailer then []
    else match c.deref header.next with
      | .error _ => []
      | .ok firstNode => [c.currentSize.toInt - firstNode.size]

/-- The values of `capacity_ - current_size_` at the tests of the eviction loop, and those in the
calls of `EvitOne`. -/
def evictWhileValues (neededSize : Int32) : ℕ → Cache → List ℤ
  | 0, _ => []
  | fuel + 1, c =>
    (c.capacity.toInt - c.currentSize.toInt) ::
      if c.capacity - c.currentSize < neededSize ∧ c.mapping.keys ≠ [] then
        c.evitOneValues ++ match c.evitOne with
          | .error _ => []
          | .ok c => evictWhileValues neededSize fuel c
      else []

/-- The value of `needed_size`, those in the eviction loop, and that of
`current_size_ + needed_size`. -/
def tryInsertValues (c : Cache) (resourceIdentifier source : Bytes) : List ℤ :=
  if (c.mapping.lookup resourceIdentifier).isSome then []
  else
    let neededSize := Int32.ofNat source.length
    (source.length : ℤ) ::
      if neededSize > c.capacity then []
      else
        c.evictWhileValues neededSize (c.mapping.keys.length + 1) ++
          match c.evictWhile neededSize (c.mapping.keys.length + 1) with
          | .error _ => []
          | .ok c => [c.currentSize.toInt + neededSize.toInt]

/-- The values in a call; only `TryInsert` computes with the counter. -/
def callValues (c : Cache) : CacheOp → List ℤ
  | .tryInsert resourceIdentifier source _ => c.tryInsertValues resourceIdentifier source
  | .tryLoad .. | .clear => []

/-- The values in a finite sequence of calls. -/
def runValues (A : Allocator) (c : Cache) : List CacheOp → List ℤ
  | [] => []
  | op :: ops => c.callValues op ++ match c.call A op with
    | .error _ => []
    | .ok (c, _) => runValues A c ops

/-- The number of bytes held: the sum of the sizes of the data in the list. -/
def held (c : Cache) : ℕ := Lru.total List.length c.contents

/-- The value is in the range of `int`, and also the same as a `size_t`. -/
def Fits (v : ℤ) : Prop := 0 ≤ v ∧ v < 2 ^ 31

/-! ## The accounts are exact -/

variable {c : Cache} {s : Store} {nodes : List Addr} {E : List (Bytes × Bytes)}

/-- `EvitOne` subtracts the size of the first entry. -/
lemma Carries.evitOneValues {e : Bytes × Bytes} (h : Carries c nodes (e :: E)) :
    c.evitOneValues = [c.currentSize.toInt - e.2.length] := by
  obtain ⟨n, l, rfl, hn, -⟩ := List.map_eq_cons_iff.mp h.entries
  obtain ⟨m, hm, -, hmn, -, -⟩ :=
    deref_spec (c := c) (a := c.dummyHeader) ((h.live _).mpr (by simp))
  have hfirst : m.next = some n := hmn.trans (Linked.visits h.linked).1
  obtain ⟨f, hf, -, -, -, hfe⟩ := deref_spec (c := c) (a := n) ((h.live n).mpr (by simp))
  obtain rfl : e = (f.identifier, f.data) := Option.some.inj (hn.symm.trans hfe)
  have hne : ¬ (some n = some c.dummyTailer) := by
    have hnodup := h.nodup
    simp only [List.cons_append, List.nodup_cons, List.mem_append, List.mem_cons] at hnodup
    intro heq
    exact hnodup.2.1 (.inr (.inl (Option.some.inj heq)))
  simp only [Cache.evitOneValues, hm, hfirst, if_neg hne, hf, CacheNode.size]

/-- **The eviction loop** computes with the room that is left and with what is held after each
eviction.

**Proof sketch.** Induction on the tests of the loop. The counter is the sum of the sizes and within
the capacity, and stays so when the first entry goes with its size. -/
lemma Carries.fits_evictWhileValues (neededSize : Int32) : ∀ (fuel : ℕ) {c : Cache}
    {nodes : List Addr} {E : List (Bytes × Bytes)}, Carries c nodes E →
      c.currentSize.toInt = Lru.total List.length E →
      (Lru.total List.length E : ℤ) ≤ c.capacity.toInt →
      ∀ v ∈ c.evictWhileValues neededSize fuel, Fits v := by
  intro fuel
  induction fuel with
  | zero => intro c nodes E _ _ _ v hv; cases hv
  | succ fuel ih =>
    intro c nodes E h hcur hcap v hv
    have hlt := c.capacity.toInt_lt
    unfold Cache.evictWhileValues at hv
    rcases List.mem_cons.mp hv with rfl | hv
    · exact ⟨by omega, by omega⟩
    · by_cases hcond : c.capacity - c.currentSize < neededSize ∧ c.mapping.keys ≠ []
      · rw [if_pos hcond] at hv
        cases E with
        | nil => exact absurd (h.keys_eq_nil.mpr rfl) hcond.2
        | cons e E =>
          obtain ⟨c₁, nodes₁, h₁, hcarries, -, hcap₁, hcur₁⟩ := h.evitOne
          rw [Lru.total_cons] at hcur hcap
          push_cast at hcur hcap
          have he : (Int32.ofNat e.2.length).toInt = e.2.length :=
            Int32.toInt_ofNat_of_lt (by omega)
          have hleft : c₁.currentSize.toInt = Lru.total List.length E := by
            rw [hcur₁, Store.toInt_sub_of_nonneg (by omega) (by omega), he]
            omega
          rw [h.evitOneValues, h₁] at hv
          rcases List.mem_append.mp hv with hv | hv
          · rw [List.mem_singleton.mp hv]
            exact ⟨by omega, by omega⟩
          · exact ih hcarries hleft (by rw [hcap₁]; omega) v hv
      · rw [if_neg hcond] at hv
        cases hv

/-- **`TryInsert`** on an exact cache. -/
lemma Refines.fits_tryInsertValues (h : Refines c s) (hexact : s.Exact) (id : Bytes)
    {source : Bytes} (hsmall : source.length < 2 ^ 31) :
    ∀ v ∈ c.tryInsertValues id source, Fits v := by
  obtain ⟨nodes, hc⟩ := h.carries
  have hcur := hexact.currentSize
  have hcap := hexact.le_capacity
  have hneeded : (Int32.ofNat source.length).toInt = source.length :=
    Int32.toInt_ofNat_of_lt hsmall
  intro v hv
  unfold tryInsertValues at hv
  split at hv
  · cases hv
  · simp only at hv
    rcases List.mem_cons.mp hv with rfl | hv
    · exact ⟨by omega, by omega⟩
    · by_cases hbig : Int32.ofNat source.length > c.capacity
      · rw [if_pos hbig] at hv
        cases hv
      · have hle : source.length ≤ s.capacity.toInt.toNat := by
          rw [gt_iff_lt, Int32.lt_iff_toInt_lt, hneeded, h.capacity] at hbig
          omega
        obtain ⟨-, hcount, hroom⟩ := hexact.evictWhile hneeded hle
        obtain ⟨c₁, nodes₁, h₁, -, -, hcur₁⟩ := Carries.evictWhile (Int32.ofNat source.length)
          (c.mapping.keys.length + 1) c nodes s.entries hc (by omega)
        rw [if_neg hbig, h₁] at hv
        rcases List.mem_append.mp hv with hv | hv
        · rw [← h.currentSize] at hcur
          rw [← h.capacity] at hcap
          exact hc.fits_evictWhileValues _ _ hcur hcap v hv
        · rw [List.mem_singleton.mp hv, hcur₁, h.capacity, h.currentSize, hcount, hneeded]
          have hlt := s.capacity.toInt_lt
          exact ⟨by omega, by omega⟩

/-- Whole runs on an exact cache. -/
lemma Refines.run_exact (A : Allocator) (ops : List CacheOp) : ∀ {c : Cache} {s : Store},
    Refines c s → s.Exact → (∀ op ∈ ops, op.Small) →
      ∃ c' rs s', c.run A ops = .ok (c', rs) ∧ Refines c' s' ∧ s'.Exact ∧
        s'.capacity = s.capacity ∧ ∀ v ∈ c.runValues A ops, Fits v := by
  induction ops with
  | nil =>
    intro c s h hexact _
    exact ⟨c, [], s, rfl, h, hexact, rfl, by simp [Cache.runValues]⟩
  | cons op ops ih =>
    intro c s h hexact hops
    obtain ⟨c₁, h₁, hrefines₁⟩ := h.call A op
    obtain ⟨hexact₁, hcap₁, -⟩ := hexact.call (hops op (by simp))
    obtain ⟨c', rs, s', hrun, hrefines', hexact', hcap', hvalues⟩ :=
      ih hrefines₁ hexact₁ fun op' hop' => hops op' (by simp [hop'])
    refine ⟨c', (s.call op).2 :: rs, s', ?_, hrefines', hexact', hcap'.trans hcap₁, ?_⟩
    · simp only [Cache.run, h₁, hrun, bind, Except.bind, pure, Except.pure]
    · intro v hv
      rw [Cache.runValues, h₁] at hv
      rcases List.mem_append.mp hv with hv | hv
      · cases op with
        | tryInsert id source now =>
          exact h.fits_tryInsertValues hexact id (hops _ List.mem_cons_self) v hv
        | tryLoad id destination now => cases hv
        | clear => cases hv
      · exact hvalues v hv

/-- A new cache is exact. -/
lemma exact_make {capacity : Int32} (hcapacity : 0 ≤ capacity) : (Store.make capacity).Exact :=
  ⟨by simp [Store.make], by simpa [Store.make] using Int32.le_iff_toInt_le.mp hcapacity⟩

/-- **The accounts of the cache are exact.** After any finite sequence of calls on a new cache whose
capacity is not negative, with resources of less than `2^31` bytes, `GetCurSize` is the sum of the
sizes of the data in the list, it is between zero and the capacity, and the value of every `int`
expression on the way was in the range of `int`. -/
theorem accounting (A : Allocator) {capacity : Int32} (hcapacity : 0 ≤ capacity)
    (now₁ now₂ : UInt64) {ops : List CacheOp} (hops : ∀ op ∈ ops, op.Small) :
    ∃ c rs, (make A capacity now₁ now₂).run A ops = .ok (c, rs) ∧
      c.getCurSize.toInt = c.held ∧ 0 ≤ c.getCurSize.toInt ∧
      c.getCurSize.toInt ≤ c.getCapacity.toInt ∧ c.getCapacity = capacity ∧
      ∀ v ∈ (make A capacity now₁ now₂).runValues A ops, 0 ≤ v ∧ v < 2 ^ 31 := by
  obtain ⟨c, rs, s, hrun, hrefines, hexact, hcap, hvalues⟩ :=
    (refines_make A capacity now₁ now₂).run_exact A ops (exact_make hcapacity) hops
  have hcur : c.getCurSize.toInt = c.held := by
    rw [getCurSize, hrefines.currentSize, hexact.currentSize, held, hrefines.contents_eq]
  have hle := hexact.le_capacity
  rw [← hexact.currentSize, ← hrefines.currentSize, ← hrefines.capacity] at hle
  exact ⟨c, rs, hrun, hcur, by omega, hle, hrefines.capacity.trans hcap, hvalues⟩

/-- A cache of four bytes, in which the third resource evicts the first two. -/
theorem accounting_four :
    (0 : Int32) ≤ 4 ∧ ∃ c rs, (make Allocator.bump 4 0 0).run Allocator.bump
        [.tryInsert [97] [1, 2] 1, .tryInsert [98] [3, 4] 2, .tryInsert [99] [5, 6, 7] 3] =
          .ok (c, rs) ∧ c.getCurSize.toInt = c.held ∧
      (make Allocator.bump 4 0 0).runValues Allocator.bump
        [.tryInsert [97] [1, 2] 1, .tryInsert [98] [3, 4] 2, .tryInsert [99] [5, 6, 7] 3] =
          [2, 4, 2, 2, 2, 4, 3, 0, 2, 2, 0, 4, 3] := by
  obtain ⟨c, rs, hrun, hcur, -⟩ := accounting Allocator.bump (show (0 : Int32) ≤ 4 by decide) 0 0
    (show ∀ op ∈ [CacheOp.tryInsert [97] [1, 2] 1, .tryInsert [98] [3, 4] 2,
      .tryInsert [99] [5, 6, 7] 3], op.Small by decide)
  exact ⟨by decide, c, rs, hrun, hcur, by decide +kernel⟩

/-! ## Resources larger than the cache -/

/-- The call is turned down before anything is evicted: the identifier is stored already, or the
`int` copy of the size, which is the size modulo `2^32` if that is below `2^31` and else negative,
exceeds the capacity. -/
def Refuses (c : Cache) (resourceIdentifier source : Bytes) : Prop :=
  (c.mapping.lookup resourceIdentifier).isSome = true ∨
    c.capacity.toInt < (source.length % 2 ^ 32 : ℕ) ∧ source.length % 2 ^ 32 < 2 ^ 31

instance (c : Cache) (resourceIdentifier source : Bytes) :
    Decidable (c.Refuses resourceIdentifier source) :=
  inferInstanceAs (Decidable (_ ∨ _))

/-- `TryInsert` returns `false` and leaves the entries, their order and the counter alone. -/
def TurnsDown (A : Allocator) (c : Cache) (resourceIdentifier source : Bytes) (now : UInt64) :
    Prop :=
  ∃ c', c.tryInsert A resourceIdentifier source now = .ok (c', false) ∧
    c'.contents = c.contents ∧ c'.currentSize = c.currentSize

/-- One call, as a step. -/
def step (A : Allocator) (c : Cache) (op : CacheOp) : Option Cache :=
  match c.call A op with
  | .error _ => none
  | .ok (c, _) => some c

/-- If the call offers a resource larger than the cache, it is turned down. -/
def OversizedRefused (c : Cache) : CacheOp → Prop
  | .tryInsert resourceIdentifier source _ =>
    c.capacity.toInt < source.length → c.Refuses resourceIdentifier source
  | .tryLoad .. | .clear => True

instance (c : Cache) (op : CacheOp) : Decidable (c.OversizedRefused op) :=
  match op with
  | .tryInsert resourceIdentifier source _ =>
    have := Int.decLt c.capacity.toInt source.length
    decidable_of_iff (¬ c.capacity.toInt < source.length ∨ c.Refuses resourceIdentifier source)
      Decidable.imp_iff_not_or.symm
  | .tryLoad .. | .clear => .isTrue trivial

/-- The `int` copy of a size exceeds a capacity that is not negative. -/
lemma ofNat_gt_iff {capacity : Int32} (hcapacity : 0 ≤ capacity) (n : ℕ) :
    Int32.ofNat n > capacity ↔
      capacity.toInt < (n % 2 ^ 32 : ℕ) ∧ n % 2 ^ 32 < 2 ^ 31 := by
  have hpos : 0 ≤ capacity.toInt := by simpa using Int32.le_iff_toInt_le.mp hcapacity
  have hlt := capacity.toInt_lt
  rw [gt_iff_lt, Int32.lt_iff_toInt_lt, Int32.toInt_ofNat', Int.bmod_def,
    show ((Int32.size : ℕ) : ℤ) = 2 ^ 32 from rfl]
  omega

/-- What `Refuses` means for the entries. -/
lemma Refines.refuses_iff (h : Refines c s) (hcapacity : 0 ≤ c.capacity) (id source : Bytes) :
    c.Refuses id source ↔ s.lookup id ≠ none ∨ Int32.ofNat source.length > s.capacity := by
  rw [Refuses, ← h.capacity, ofNat_gt_iff hcapacity, ne_eq, ← h.lookup_eq_none,
    Option.isSome_iff_ne_none]

/-- A call that is turned down changes nothing. -/
lemma Refines.insert_of_refuses (h : Refines c s) (hcapacity : 0 ≤ c.capacity) {id source : Bytes}
    (hrefuses : c.Refuses id source) : s.insert id source = (s, false) := by
  by_cases hid : s.lookup id = none
  · rcases (h.refuses_iff hcapacity id source).mp hrefuses with hno | hbig
    · exact absurd hid hno
    · exact Store.insert_of_gt hid hbig
  · exact Store.insert_of_some hid source

/-- Any other call stores its resource, however large it is. -/
lemma Refines.insert_of_not_refuses (h : Refines c s) (hcapacity : 0 ≤ c.capacity)
    {id source : Bytes} (hrefuses : ¬ c.Refuses id source) :
    (s.insert id source).2 = true ∧
      source.length ≤ Lru.total List.length (s.insert id source).1.entries := by
  rw [h.refuses_iff hcapacity, not_or, not_not] at hrefuses
  rw [Store.insert_of_le hrefuses.1 hrefuses.2]
  refine ⟨rfl, ?_⟩
  simp only [Lru.total_append, Lru.total_cons, Lru.total_nil]
  omega

/-- One call is turned down exactly if it is refused, whatever is in the cache. -/
lemma Refines.turnsDown_iff (h : Refines c s) (hcapacity : 0 ≤ c.capacity) (A : Allocator)
    (id source : Bytes) (now : UInt64) : c.TurnsDown A id source now ↔ c.Refuses id source := by
  obtain ⟨c', hc', hrefines'⟩ := h.tryInsert A id source now
  constructor
  · rintro ⟨c'', hc'', -, -⟩
    rw [hc'] at hc''
    by_contra hrefuses
    rw [(h.insert_of_not_refuses hcapacity hrefuses).1] at hc''
    cases hc''
  · intro hrefuses
    rw [h.insert_of_refuses hcapacity hrefuses] at hc' hrefines'
    exact ⟨c', hc', by rw [hrefines'.contents_eq, h.contents_eq],
      by rw [hrefines'.currentSize, h.currentSize]⟩

/-- What holds in the runs in which every oversized resource is turned down. -/
def Sound (capacity : Int32) (c : Cache) : Prop :=
  c.capacity = capacity ∧ ∃ s, Refines c s ∧ s.Exact

/-- A step is a call on the cache and on the store. -/
lemma Refines.of_step (h : Refines c s) {A : Allocator} {c' : Cache} {op : CacheOp}
    (hstep : Cache.step A c op = some c') :
    c.call A op = .ok (c', (s.call op).2) ∧ Refines c' (s.call op).1 := by
  obtain ⟨c₁, h₁, hrefines₁⟩ := h.call A op
  rw [Cache.step, h₁] at hstep
  obtain rfl := Option.some.inj hstep
  exact ⟨h₁, hrefines₁⟩

/-- A call that meets the condition keeps the accounts exact. -/
lemma Sound.step {capacity : Int32} (hcapacity : 0 ≤ capacity) {A : Allocator} {c c' : Cache}
    {op : CacheOp} (h : Sound capacity c) (hop : c.OversizedRefused op)
    (hstep : Cache.step A c op = some c') : Sound capacity c' := by
  obtain ⟨hcap, s, hrefines, hexact⟩ := h
  obtain ⟨-, hrefines'⟩ := hrefines.of_step hstep
  have hfrom : (s.call op).1.Exact ∧ (s.call op).1.capacity = s.capacity →
      Sound capacity c' := fun ⟨hexact₁, hcap₁⟩ =>
    ⟨by rw [hrefines'.capacity, hcap₁, ← hrefines.capacity, hcap], _, hrefines', hexact₁⟩
  have hsmall : op.Small → Sound capacity c' := fun hsmall =>
    hfrom ⟨(hexact.call hsmall).1, (hexact.call hsmall).2.1⟩
  cases op with
  | tryLoad id destination now => exact hsmall trivial
  | clear => exact hsmall trivial
  | tryInsert id source now =>
    by_cases hbig : c.capacity.toInt < source.length
    · have hsame := hrefines.insert_of_refuses (by rwa [hcap]) (hop hbig)
      have hcall : (s.call (.tryInsert id source now)).1 = s := congrArg Prod.fst hsame
      exact hfrom ⟨by rw [hcall]; exact hexact, by rw [hcall]⟩
    · have hlt := c.capacity.toInt_lt
      exact hsmall (show source.length < 2 ^ 31 by omega)

/-- The accounts of such a cache. -/
lemma Sound.held_le {capacity : Int32} {c : Cache} (h : Sound capacity c) :
    (c.held : ℤ) ≤ capacity.toInt := by
  obtain ⟨hcap, s, hrefines, hexact⟩ := h
  rw [held, hrefines.contents_eq, ← hcap, hrefines.capacity]
  exact hexact.le_capacity

/-- A call that does not meet the condition leaves more in the cache than it may hold. -/
lemma Sound.lt_held {capacity : Int32} (hcapacity : 0 ≤ capacity) {A : Allocator} {c c' : Cache}
    {op : CacheOp} (h : Sound capacity c) (hop : ¬ c.OversizedRefused op)
    (hstep : Cache.step A c op = some c') : capacity.toInt < c'.held := by
  obtain ⟨hcap, s, hrefines, -⟩ := h
  obtain ⟨-, hrefines'⟩ := hrefines.of_step hstep
  cases op with
  | tryLoad id destination now => exact absurd trivial hop
  | clear => exact absurd trivial hop
  | tryInsert id source now =>
    obtain ⟨hbig, hrefuses⟩ := Classical.not_imp.mp hop
    have hle := (hrefines.insert_of_not_refuses (by rwa [hcap]) hrefuses).2
    rw [held, hrefines'.contents_eq]
    rw [hcap] at hbig
    change capacity.toInt < (Lru.total List.length (s.insert id source).1.entries : ℕ)
    omega

/-- Every run is possible. -/
lemma exec_step (A : Allocator) (ops : List CacheOp) : ∀ {c : Cache} {s : Store}, Refines c s →
    ∃ c', Transition.exec (step A) c ops = some c' := by
  induction ops with
  | nil => intro c s _; exact ⟨c, rfl⟩
  | cons op ops ih =>
    intro c s h
    obtain ⟨c₁, h₁, hrefines₁⟩ := h.call A op
    obtain ⟨c', hc'⟩ := ih hrefines₁
    exact ⟨c', by simpa [Transition.exec, step, h₁] using hc'⟩

/-- **Resources larger than the cache.** A reachable cache whose capacity is not negative turns a
resource down that is larger than the capacity, and is left as it is, exactly if the identifier is
stored already or the size modulo `2^32` is above the capacity and below `2^31`. And in a run from a
new cache the number of bytes held never exceeds the capacity, in any state, exactly if every such
resource is turned down for one of these reasons. -/
theorem oversized_iff (A : Allocator) :
    (∀ {c : Cache}, c.Reachable A → 0 ≤ c.capacity → ∀ (id : Bytes) {source : Bytes} (now : UInt64),
      c.capacity.toInt < source.length →
        (c.TurnsDown A id source now ↔ c.Refuses id source)) ∧
    ∀ {capacity : Int32}, 0 ≤ capacity → ∀ (now₁ now₂ : UInt64) (ops : List CacheOp),
      (∀ front c, front <+: ops →
          Transition.exec (step A) (make A capacity now₁ now₂) front = some c →
            (c.held : ℤ) ≤ capacity.toInt) ↔
        Transition.Along (step A) OversizedRefused (make A capacity now₁ now₂) ops := by
  constructor
  · intro c hreach hcapacity id source now _
    obtain ⟨s, hs⟩ := hreach.exists_refines
    exact hs.turnsDown_iff hcapacity A id source now
  · intro capacity hcapacity now₁ now₂ ops
    have hmake := refines_make A capacity now₁ now₂
    have hsound : Sound capacity (make A capacity now₁ now₂) :=
      ⟨rfl, _, hmake, exact_make hcapacity⟩
    obtain ⟨c', hc'⟩ := exec_step A ops hmake
    exact (Transition.along_iff (fun c h => h.held_le)
      (fun c op c' h hop hstep => h.step hcapacity hop hstep)
      (fun c op c' h hop hstep => not_le.mpr (h.lt_held hcapacity hop hstep))
      ops hsound hc').symm

/-- Resources of five bytes and a cache of four, which holds one of two bytes. -/
theorem oversized_iff_four :
    (make Allocator.bump 4 0 0).TurnsDown Allocator.bump [97] [1, 2, 3, 4, 5] 1 ∧
    ∀ front c, front <+: [CacheOp.tryInsert [97] [1, 2] 1, .tryInsert [98] [1, 2, 3, 4, 5] 2] →
      Transition.exec (step Allocator.bump) (make Allocator.bump 4 0 0) front = some c →
        (c.held : ℤ) ≤ 4 := by
  obtain ⟨hcall, hrun⟩ := oversized_iff Allocator.bump
  have hreach : (make Allocator.bump 4 0 0).Reachable Allocator.bump := ⟨4, 0, 0, [], [], rfl⟩
  refine ⟨(hcall hreach (by decide) [97] 1 (by decide)).mpr (by decide), ?_⟩
  exact (hrun (show (0 : Int32) ≤ 4 by decide) 0 0 _).mpr (by decide +kernel)

/-- A resource of `2^32` bytes is not turned down by an empty cache of four bytes, since its
size is zero as an `int`; the cache then holds more than it may. -/
theorem oversized_is_admitted :
    ∃ source : Bytes, source.length = 2 ^ 32 ∧
      ∃ c, (make Allocator.bump 4 0 0).tryInsert Allocator.bump [97] source 1 = .ok (c, true) ∧
        (4 : Int32).toInt < c.held := by
  refine ⟨List.replicate (2 ^ 32) 0, List.length_replicate, ?_⟩
  generalize hsource : (List.replicate (2 ^ 32) 0 : Bytes) = source
  have hlen : source.length = 2 ^ 32 := by rw [← hsource, List.length_replicate]
  have hmake := refines_make Allocator.bump 4 0 0
  obtain ⟨c, hc, hrefines⟩ := hmake.tryInsert Allocator.bump [97] source 1
  have hrefuses : ¬ (make Allocator.bump 4 0 0).Refuses [97] source := by
    rw [Refuses, hlen]
    decide
  obtain ⟨htrue, hle⟩ := hmake.insert_of_not_refuses (by decide) hrefuses
  rw [htrue] at hc
  refine ⟨c, hc, ?_⟩
  rw [held, hrefines.contents_eq, show (4 : Int32).toInt = 4 from rfl]
  omega

end Cache

end Icee
