import Icee.Core.CacheLru
import Icee.Lib.LruResidency

set_option relaxedAutoImplicit false
set_option autoImplicit false

/-!
# What stays in the cache

A resource is evicted only to make room for resources that have been used after it. So a page
stays in the cache as long as it and the pages that are asked for between two requests for it fit
together.

## Main definitions

* `Icee.CacheOp.Within` — the calls that use a resource or a working set of resources.

## Main results

* `Icee.Cache.resident` — a resource stays as long as it and the working set fit.
-/

namespace Icee

/-- The call is about the resource or about one of the working set, and what it stores is no larger
than allotted. -/
def CacheOp.Within (I : Finset Bytes) (w : Bytes → ℕ) (id : Bytes) : CacheOp → Prop
  | .tryLoad j _ _ => j = id ∨ j ∈ I
  | .tryInsert j source _ => (j = id ∨ j ∈ I) ∧ (j ∈ I → source.length ≤ w j)
  | .clear => False

instance (I : Finset Bytes) (w : Bytes → ℕ) (id : Bytes) : DecidablePred (CacheOp.Within I w id)
  | .tryLoad j _ _ => inferInstanceAs (Decidable (j = id ∨ j ∈ I))
  | .tryInsert j source _ =>
    inferInstanceAs (Decidable ((j = id ∨ j ∈ I) ∧ (j ∈ I → source.length ≤ w j)))
  | .clear => inferInstanceAs (Decidable False)

section

variable {I : Finset Bytes} {w : Bytes → ℕ} {id data : Bytes}

/-- **One call** that uses the resource or the working set leaves the resource where it is safe. -/
lemma Store.Exact.resident_call {s : Store} (h : s.Exact)
    (hresident : Lru.Resident List.length I w id data s.entries)
    (hfits : data.length + ∑ i ∈ I, w i ≤ s.capacity.toInt.toNat) {op : CacheOp} (hop : op.Small)
    (hwithin : op.Within I w id) :
    Lru.Resident List.length I w id data (s.call op).1.entries := by
  obtain ⟨-, -, hcall⟩ := h.call hop
  rw [show (s.call op).1.entries = (lruCall s.capacity.toInt.toNat s.entries op).1 by rw [hcall]]
  cases op with
  | tryLoad j destination now =>
    have hload := hresident.load (j := j) hwithin
    simp only [lruCall]
    split <;> next heq => rwa [heq] at hload
  | tryInsert j source now => exact hresident.insert hfits hwithin.1 hwithin.2
  | clear => exact hwithin.elim

/-- **Whole runs** of such calls. -/
lemma Store.Exact.resident_run (ops : List CacheOp) : ∀ {s : Store}, s.Exact →
    Lru.Resident List.length I w id data s.entries →
    data.length + ∑ i ∈ I, w i ≤ s.capacity.toInt.toNat → (∀ op ∈ ops, op.Small) →
    (∀ op ∈ ops, op.Within I w id) →
    Lru.Resident List.length I w id data (s.run ops).1.entries := by
  induction ops with
  | nil => intro s _ h _ _ _; exact h
  | cons op ops ih =>
    intro s hexact h hfits hsmall hwithin
    obtain ⟨hexact', hcapacity, -⟩ := hexact.call (hsmall op (by simp))
    exact ih hexact' (hexact.resident_call h hfits (hsmall op (by simp)) (hwithin op (by simp)))
      (hcapacity ▸ hfits) (fun op' hop' => hsmall op' (by simp [hop']))
      fun op' hop' => hwithin op' (by simp [hop'])

/-- The counter stays exact over a run. -/
lemma Store.Exact.of_run (ops : List CacheOp) : ∀ {s : Store}, s.Exact → (∀ op ∈ ops, op.Small) →
    (s.run ops).1.Exact ∧ (s.run ops).1.capacity = s.capacity := by
  induction ops with
  | nil => intro s h _; exact ⟨h, rfl⟩
  | cons op ops ih =>
    intro s h hsmall
    obtain ⟨hexact, hcapacity, -⟩ := h.call (hsmall op (by simp))
    obtain ⟨hexact', hcapacity'⟩ := ih hexact fun op' hop' => hsmall op' (by simp [hop'])
    exact ⟨hexact', hcapacity'.trans hcapacity⟩

/-- **A resource stays in the cache** as long as it and what is used with it fit. Let any calls have
been made on a new cache, after which the resource is the most recently used one. From there on,
let all calls be about the resource itself and about a set of other resources, none of them larger
than allotted, such that together they do not exceed the capacity. Then, however many calls there
are, the resource is still there with its bytes, and `TryLoad` finds it.

**Proof sketch.** The cache refines the store, whose counter is exact after the first calls. There
the resource is resident, with nothing behind it in the list, and every call of the second run keeps
it resident (`Store.Exact.resident_run`). The list of the cache is that of the store, and so are the
answers of `TryLoad`. -/
theorem Cache.resident (A : Allocator) {capacity : Int32} (hcapacity : 0 ≤ capacity)
    (now₁ now₂ : UInt64) {before after : List CacheOp} (hsmall : ∀ op ∈ before ++ after, op.Small)
    {c c' : Cache} {rs rs' : List CacheResult}
    (hbefore : (Cache.make A capacity now₁ now₂).run A before = .ok (c, rs))
    {front : List (Bytes × Bytes)} (hlast : c.contents = front ++ [(id, data)]) (hid : id ∉ I)
    (hstored : ∀ e ∈ front, e.1 ∈ I → e.2.length ≤ w e.1)
    (hwithin : ∀ op ∈ after, op.Within I w id)
    (hfits : (data.length + ∑ i ∈ I, w i : ℤ) ≤ capacity.toInt)
    (hafter : c.run A after = .ok (c', rs')) :
    c'.contents.lookup id = some data ∧
      ∀ destination now, ∃ c'', c'.tryLoad id destination now =
        .ok (c'', destination ++ data, true) := by
  have hempty : (Store.make capacity).Exact :=
    ⟨by simp [Store.make], by simpa [Store.make] using Int32.le_iff_toInt_le.mp hcapacity⟩
  obtain ⟨c₁, hrun₁, hrefines₁⟩ := (Cache.refines_make A capacity now₁ now₂).run A before
  rw [hbefore] at hrun₁
  obtain ⟨rfl, -⟩ := Prod.mk.inj (Except.ok.inj hrun₁)
  obtain ⟨hexact, hcap⟩ := hempty.of_run before fun op hop => hsmall op (by simp [hop])
  obtain ⟨c₂, hrun₂, hrefines₂⟩ := hrefines₁.run A after
  rw [hafter] at hrun₂
  obtain ⟨rfl, -⟩ := Prod.mk.inj (Except.ok.inj hrun₂)
  rw [hrefines₁.contents_eq] at hlast
  have hresident :
      Lru.Resident List.length I w id data ((Store.make capacity).run before).1.entries := by
    refine ⟨((Store.make capacity).run before).1.nodup, ⟨front, [], hlast, by simp⟩,
      fun e he hI => ?_⟩
    rw [hlast] at he
    rcases List.mem_append.mp he with he | he
    · exact hstored e he hI
    · rw [List.mem_singleton.mp he] at hI
      exact absurd hI hid
  have hfits' : data.length + ∑ i ∈ I, w i ≤
      ((Store.make capacity).run before).1.capacity.toInt.toNat := by
    rw [hcap, show (Store.make capacity).capacity = capacity from rfl]
    omega
  have hlookup := (hexact.resident_run after hresident hfits'
    (fun op hop => hsmall op (by simp [hop])) hwithin).lookup
  refine ⟨by rw [hrefines₂.contents_eq]; exact hlookup, fun destination now => ?_⟩
  obtain ⟨c'', hload, -⟩ := hrefines₂.tryLoad id destination now
  rw [show (((Store.make capacity).run before).1.run after).1.lookup id = some data from hlookup]
    at hload
  exact ⟨c'', hload⟩

/-- A cache of four bytes, filled by a page of two bytes and by another one after it. Pages of one
byte each then take the place of the older of the two; the other one stays. -/
theorem Cache.resident_four :
    ∃ c c' rs rs', (Cache.make Allocator.bump 4 0 0).run Allocator.bump
        [.tryInsert [120] [9, 9] 1, .tryInsert [97] [1, 2] 2] = .ok (c, rs) ∧
      c.run Allocator.bump [.tryInsert [98] [3] 3, .tryLoad [98] [] 4, .tryInsert [99] [4] 5] =
        .ok (c', rs') ∧
      c.contents.lookup [120] = some [9, 9] ∧ c'.contents.lookup [120] = none ∧
      c'.contents.lookup [97] = some [1, 2] ∧
      ∀ destination now, ∃ c'', c'.tryLoad [97] destination now =
        .ok (c'', destination ++ [1, 2], true) := by
  have hseen : ((Cache.make Allocator.bump 4 0 0).run Allocator.bump
      [.tryInsert [120] [9, 9] 1, .tryInsert [97] [1, 2] 2]).toOption.bind
      (fun r => (r.1.run Allocator.bump
        [.tryInsert [98] [3] 3, .tryLoad [98] [] 4, .tryInsert [99] [4] 5]).toOption.map
        fun r' => (r.1.contents, r'.1.contents.lookup [120])) =
      some ([([120], [9, 9]), ([97], [1, 2])], none) := by
    decide
  obtain ⟨⟨c, rs⟩, hbefore, hrest⟩ := Option.bind_eq_some_iff.mp hseen
  obtain ⟨⟨c', rs'⟩, hafter, hlater⟩ := Option.map_eq_some_iff.mp hrest
  obtain ⟨hcontents, hgone⟩ := Prod.mk.inj hlater
  have hlast : c.contents = [([120], [9, 9])] ++ [([97], [1, 2])] := hcontents
  refine ⟨c, c', rs, rs', eq_ok_of_toOption hbefore, eq_ok_of_toOption hafter, ?_, hgone, ?_⟩
  · rw [hlast]
    rfl
  · exact Cache.resident (I := {[98], [99]}) (w := fun _ => 1) Allocator.bump (by decide) 0 0
      (by decide) (eq_ok_of_toOption hbefore) hlast (by decide) (by decide) (by decide)
      (by decide) (eq_ok_of_toOption hafter)

end

end Icee
