import Icee.Core.CacheStore
import Icee.Lib.Lru

set_option relaxedAutoImplicit false
set_option autoImplicit false

/-!
# The cache is a least-recently-used store

For a capacity that is not negative and resources shorter than `2^31` bytes no `int` of the cache
wraps, the counter is the sum of the sizes, and the eviction loop drops exactly the shortest
prefix that makes room. The cache then refines the store of `Icee.Lib.Lru`.

## Main definitions

* `Icee.CacheOp.Small` — the resource a call would store is shorter than `2^31` bytes.
* `Icee.lruCall`, `Icee.lruRun` — the calls on the abstract store.
* `Icee.Store.Exact` — the counter of the list model is the sum of the sizes, within capacity.

## Main results

* `Icee.Store.evictWhile_eq_drop_shortest` — what the eviction loop removes.
* `Icee.Store.Exact.call` — one call, on the list model and on the abstract store.
* `Icee.Cache.run_refines_lru` — whole runs of the pointer-level model.
-/

namespace Icee

/-! ## The abstract store -/

/-- The resource a call would store is shorter than `2^31` bytes. -/
def CacheOp.Small : CacheOp → Prop
  | .tryInsert _ source _ => source.length < 2 ^ 31
  | _ => True

instance (op : CacheOp) : Decidable op.Small := by
  cases op <;> unfold CacheOp.Small <;> infer_instance

/-- One call on the abstract store of the given capacity, with its result. -/
noncomputable def lruCall (capacity : ℕ) (entries : List (Bytes × Bytes)) :
    CacheOp → List (Bytes × Bytes) × CacheResult
  | .tryLoad id destination _ => match Lru.load entries id with
    | (entries, none) => (entries, .loaded destination false)
    | (entries, some data) => (entries, .loaded (destination ++ data) true)
  | .tryInsert id source _ => match Lru.insert List.length capacity entries id source with
    | (entries, done) => (entries, .inserted done)
  | .clear => ([], .cleared)

/-- A finite sequence of calls on the abstract store, with all their results. -/
noncomputable def lruRun (capacity : ℕ) (entries : List (Bytes × Bytes)) :
    List CacheOp → List (Bytes × Bytes) × List CacheResult
  | [] => (entries, [])
  | op :: ops =>
    ((lruRun capacity (lruCall capacity entries op).1 ops).1,
      (lruCall capacity entries op).2 :: (lruRun capacity (lruCall capacity entries op).1 ops).2)

namespace Store

/-! ## Counting without wrap-around -/

/-- The counter is the sum of the sizes, and the capacity is not exceeded. -/
structure Exact (s : Store) : Prop where
  currentSize : s.currentSize.toInt = Lru.total List.length s.entries
  le_capacity : (Lru.total List.length s.entries : ℤ) ≤ s.capacity.toInt

/-- A difference of two counters that are not negative does not wrap. -/
lemma toInt_sub_of_nonneg {a b : Int32} (ha : 0 ≤ a.toInt) (hb : 0 ≤ b.toInt) :
    (a - b).toInt = a.toInt - b.toInt := by
  have ha' := a.toInt_lt
  have hb' := b.toInt_lt
  rw [Int32.toInt_sub]
  exact Int.bmod_eq_of_le (by omega) (by omega)

/-- A sum in the range of `int` does not wrap. -/
lemma toInt_add_of_lt {a b : Int32} (ha : 0 ≤ a.toInt) (hb : 0 ≤ b.toInt)
    (h : a.toInt + b.toInt < 2 ^ 31) : (a + b).toInt = a.toInt + b.toInt := by
  rw [Int32.toInt_add]
  exact Int.bmod_eq_of_le (by omega) (by omega)

/-- **The eviction loop drops the shortest prefix that makes room**, and its counter is then
the sum of the sizes that are left.

**Proof sketch.** Induction on the entries. While the sum of the sizes and the needed size exceed
the capacity the loop's test holds, since nothing wraps, and the first entry goes. -/
lemma evictWhile_eq_drop_shortest {capacity neededSize : Int32} {needed : ℕ}
    (hneeded : neededSize.toInt = needed) (hfits : (needed : ℤ) ≤ capacity.toInt)
    (entries : List (Bytes × Bytes)) :
    ∀ currentSize : Int32, currentSize.toInt = Lru.total List.length entries →
      (Lru.total List.length entries : ℤ) ≤ capacity.toInt →
      (evictWhile capacity neededSize currentSize entries).2 =
          entries.drop (Lru.shortest List.length capacity.toInt.toNat needed entries) ∧
        (evictWhile capacity neededSize currentSize entries).1.toInt =
          Lru.total List.length (evictWhile capacity neededSize currentSize entries).2 := by
  induction entries with
  | nil =>
    intro currentSize hcur _
    exact ⟨by simp [evictWhile], by simpa [evictWhile] using hcur⟩
  | cons e entries ih =>
    intro currentSize hcur hcap
    have hlt := capacity.toInt_lt
    have hroom : capacity - currentSize < neededSize ↔
        ¬ Lru.total List.length (e :: entries) + needed ≤ capacity.toInt.toNat := by
      rw [Int32.lt_iff_toInt_lt, toInt_sub_of_nonneg (by omega) (by omega), hcur, hneeded]
      omega
    unfold evictWhile
    by_cases h : Lru.total List.length (e :: entries) + needed ≤ capacity.toInt.toNat
    · rw [if_neg (fun hlt => hroom.mp hlt h), Lru.shortest_of_fits h]
      exact ⟨rfl, hcur⟩
    · rw [if_pos (hroom.mpr h), Lru.shortest_cons h (by omega), List.drop_succ_cons]
      rw [Lru.total_cons] at hcur hcap
      have he : (Int32.ofNat e.2.length).toInt = e.2.length := Int32.toInt_ofNat_of_lt (by omega)
      refine ih _ ?_ (by push_cast at hcap; omega)
      rw [toInt_sub_of_nonneg (by omega) (by omega), hcur, he]
      push_cast
      omega

/-- The eviction loop makes room for whatever fits in the cache at all, and the counter stays
exact. -/
lemma Exact.evictWhile {s : Store} (h : s.Exact) {needed : ℕ}
    (hneeded : (Int32.ofNat needed).toInt = needed) (hle : needed ≤ s.capacity.toInt.toNat) :
    (Store.evictWhile s.capacity (Int32.ofNat needed) s.currentSize s.entries).2 =
        s.entries.drop (Lru.shortest List.length s.capacity.toInt.toNat needed s.entries) ∧
      (Store.evictWhile s.capacity (Int32.ofNat needed) s.currentSize s.entries).1.toInt =
        Lru.total List.length
          (Store.evictWhile s.capacity (Int32.ofNat needed) s.currentSize s.entries).2 ∧
      Lru.total List.length
          (Store.evictWhile s.capacity (Int32.ofNat needed) s.currentSize s.entries).2 + needed ≤
        s.capacity.toInt.toNat := by
  have hcap := h.le_capacity
  obtain ⟨hdrop, hcount⟩ := evictWhile_eq_drop_shortest hneeded (by omega) s.entries
    s.currentSize h.currentSize hcap
  refine ⟨hdrop, hcount, ?_⟩
  rw [hdrop]
  exact Lru.total_drop_shortest_add_le hle

/-! ## The refinement -/

variable {s : Store}

/-- Removing a stored entry and putting it at the end keeps the sum of the sizes. -/
lemma total_others_concat {id data : Bytes} {E : List (Bytes × Bytes)}
    (hnodup : (E.map Prod.fst).Nodup) (h : E.lookup id = some data) :
    Lru.total List.length (others id E ++ [(id, data)]) = Lru.total List.length E := by
  obtain ⟨E₁, E₂, rfl, -⟩ := List.lookup_eq_some_iff.mp h
  rw [Cache.others_eq hnodup]
  simp only [Lru.total_append, Lru.total_cons, Lru.total_nil]
  omega

/-- One call: as long as the counter is exact, the list model and the abstract store give the
same result and keep the same entries, and the counter stays exact.

**Proof sketch.** A load that hits moves an entry and keeps the sum of the sizes. The length of what
is inserted fits in an `Int32`, so the guard compares the numbers themselves. While room is made the
counter stays the sum of what is left (`Exact.evictWhile`); then it is at most the capacity, and
adding the new length does not overflow. -/
lemma Exact.call (h : s.Exact) {op : CacheOp} (hop : op.Small) :
    (s.call op).1.Exact ∧ (s.call op).1.capacity = s.capacity ∧
      lruCall s.capacity.toInt.toNat s.entries op = ((s.call op).1.entries, (s.call op).2) := by
  have hcap := h.le_capacity
  cases op with
  | tryLoad id destination now =>
    cases hid : s.lookup id with
    | none =>
      have hload : Lru.load s.entries id = (s.entries, none) := by
        simp only [Lru.load, show s.entries.lookup id = none from hid]
      simp only [Store.call, lruCall, load_of_none hid, hload, hid]
      exact ⟨h, trivial, by simp⟩
    | some data =>
      have hload : Lru.load s.entries id = (others id s.entries ++ [(id, data)], some data) := by
        simp only [Lru.load, show s.entries.lookup id = some data from hid, others]
      have htotal := total_others_concat s.nodup hid
      simp only [Store.call, lruCall, load_of_some hid, hload, hid]
      exact ⟨⟨h.currentSize.trans (by rw [htotal]), by rw [htotal]; exact hcap⟩, trivial, rfl⟩
  | tryInsert id source now =>
    have hsmall : source.length < 2 ^ 31 := hop
    have hneeded : (Int32.ofNat source.length).toInt = source.length :=
      Int32.toInt_ofNat_of_lt hsmall
    have hbig : Int32.ofNat source.length > s.capacity ↔
        s.capacity.toInt.toNat < source.length := by
      rw [gt_iff_lt, Int32.lt_iff_toInt_lt, hneeded]
      omega
    by_cases hid : s.lookup id = none
    · have hid' : (s.entries.lookup id).isSome = false := by
        rw [show s.entries.lookup id = none from hid]; rfl
      by_cases hle : s.capacity.toInt.toNat < source.length
      · simp only [Store.call, lruCall, Lru.insert, insert_of_gt hid (hbig.mpr hle),
          if_pos (Or.inr hle)]
        exact ⟨h, trivial, trivial⟩
      · obtain ⟨hdrop, hcount, hroom⟩ := h.evictWhile hneeded (not_lt.mp hle)
        have hlt := s.capacity.toInt_lt
        simp only [Store.call, lruCall, Lru.insert, insert_of_le hid (fun hb => hle (hbig.mp hb)),
          hid', Bool.false_eq_true, false_or, if_neg hle]
        refine ⟨⟨?_, ?_⟩, trivial, ?_⟩
        · rw [toInt_add_of_lt (by omega) (by omega) (by omega), hcount, hneeded]
          simp
        · simp only [Lru.total_append, Lru.total_cons, Lru.total_nil]
          omega
        · rw [hdrop]
    · have hid' : (s.entries.lookup id).isSome = true := Option.isSome_iff_ne_none.mpr hid
      simp only [Store.call, lruCall, Lru.insert, insert_of_some hid, if_pos (Or.inl hid')]
      exact ⟨h, trivial, trivial⟩
  | clear =>
    simp only [Store.call, clear, lruCall]
    exact ⟨⟨by simp, by simp only [Lru.total_nil]; omega⟩, trivial, trivial⟩

/-- Whole runs of the list model. -/
lemma Exact.run (ops : List CacheOp) :
    ∀ {s : Store}, s.Exact → (∀ op ∈ ops, op.Small) →
      lruRun s.capacity.toInt.toNat s.entries ops = ((s.run ops).1.entries, (s.run ops).2) := by
  induction ops with
  | nil => intro s _ _; rfl
  | cons op ops ih =>
    intro s h hops
    obtain ⟨hexact, hcap, hcall⟩ := h.call (hops op (by simp))
    have hrest := ih hexact fun op' hop' => hops op' (by simp [hop'])
    rw [hcap] at hrest
    simp only [lruRun, Store.run, hcall, hrest]

end Store

/-- **The cache refines the abstract store.** From a new cache whose capacity is not negative,
any finite sequence of calls that store only resources shorter than `2^31` bytes returns exactly
the results, the contents of the destinations and the entries in recency order of the abstract
least-recently-used store. -/
theorem Cache.run_refines_lru (A : Allocator) (capacity : Int32) (hcapacity : 0 ≤ capacity)
    (now₁ now₂ : UInt64) (ops : List CacheOp) (hops : ∀ op ∈ ops, op.Small) :
    ∃ c, (Cache.make A capacity now₁ now₂).run A ops =
        .ok (c, (lruRun capacity.toInt.toNat [] ops).2) ∧
      c.contents = (lruRun capacity.toInt.toNat [] ops).1 := by
  have hexact : (Store.make capacity).Exact :=
    ⟨by simp [Store.make], by simpa [Store.make] using Int32.le_iff_toInt_le.mp hcapacity⟩
  have hlru := hexact.run ops hops
  obtain ⟨c, hc, hr⟩ := (Cache.refines_make A capacity now₁ now₂).run A ops
  rw [show lruRun capacity.toInt.toNat [] ops = _ from hlru]
  exact ⟨c, hc, hr.contents_eq⟩

/-- A cache of four bytes: storing the third entry evicts the second, which a load of the first
has made the least recently used one. -/
theorem Cache.run_refines_lru_four :
    (0 : Int32) ≤ 4 ∧
    ∃ c, (Cache.make Allocator.bump 4 0 0).run Allocator.bump
        [.tryInsert [97] [1, 2] 1, .tryInsert [98] [3, 4] 2, .tryLoad [97] [] 3,
          .tryInsert [99] [5] 4] =
        .ok (c, (lruRun 4 [] [.tryInsert [97] [1, 2] 1, .tryInsert [98] [3, 4] 2,
          .tryLoad [97] [] 3, .tryInsert [99] [5] 4]).2) ∧
      c.contents = [([97], [1, 2]), ([99], [5])] := by
  obtain ⟨c, hrun, -⟩ := Cache.run_refines_lru Allocator.bump 4 (by decide) 0 0
    [.tryInsert [97] [1, 2] 1, .tryInsert [98] [3, 4] 2, .tryLoad [97] [] 3,
      .tryInsert [99] [5] 4] (by decide)
  have hcontents : ((Cache.make Allocator.bump 4 0 0).run Allocator.bump
      [.tryInsert [97] [1, 2] 1, .tryInsert [98] [3, 4] 2, .tryLoad [97] [] 3,
        .tryInsert [99] [5] 4]).toOption.map (fun r => r.1.contents) =
      some [([97], [1, 2]), ([99], [5])] := by
    decide
  refine ⟨by decide, c, hrun, ?_⟩
  rw [hrun] at hcontents
  simpa [Except.toOption] using hcontents

end Icee
