import Icee.Core.Cache
import Icee.Lib.Links

set_option relaxedAutoImplicit false
set_option autoImplicit false

/-!
# The representation invariant of the cache

The linked list of the cache and its hash map hold the same nodes. `Cache.Shape` is the pointer
half of this, `Cache.Rep` adds the hash map; both allow for *detached* nodes, which a caller has
taken out of the list and not yet put back. Every operation is specified once against them.

## Main definitions

* `Icee.Cache.nextOf`, `Icee.Cache.prevOf`, `Icee.Cache.entryOf` — the fields of the nodes as
  partial functions of the address.
* `Icee.Cache.Shape`, `Icee.Cache.Rep` — the invariant.
* `Icee.Cache.Intact` — what a caller sees of it between calls.
* `Icee.Cache.SameData` — two caches that differ in nothing but pointers and timestamps.

## Main results

* `Icee.Cache.Shape.removeFromList`, `Icee.Cache.Shape.appendToEndOfList` — the two surgeries.
* `Icee.Cache.Rep.tryLoad_found`, `Icee.Cache.Rep.evitOne`, `Icee.Cache.Rep.append_new`,
  `Icee.Cache.Rep.clear` — what the operations do to the invariant.
-/

namespace Icee

namespace Cache

open Links

variable {c c' : Cache} {a b n : Addr} {nodes D : List Addr}

/-! ## The fields of the nodes -/

/-- The `next_` pointers. -/
def nextOf (c : Cache) (a : Addr) : Option Addr := (c.heap.lookup a).bind CacheNode.next

/-- The `prev_` pointers. -/
def prevOf (c : Cache) (a : Addr) : Option Addr := (c.heap.lookup a).bind CacheNode.prev

/-- The identifier and the data of a node. -/
def entryOf (c : Cache) (a : Addr) : Option (Bytes × Bytes) :=
  (c.heap.lookup a).map fun n => (n.identifier, n.data)

/-- The identifier of a node. -/
def identifierOf (c : Cache) (a : Addr) : Option Bytes := (c.entryOf a).map Prod.fst

/-- The two caches have the same entries at the same addresses and the same hash map. -/
structure SameData (c c' : Cache) : Prop where
  entryOf : c'.entryOf = c.entryOf
  mapping : c'.mapping = c.mapping
  capacity : c'.capacity = c.capacity
  currentSize : c'.currentSize = c.currentSize
  dummyHeader : c'.dummyHeader = c.dummyHeader
  dummyTailer : c'.dummyTailer = c.dummyTailer

/-- Keeping the data is transitive. -/
lemma SameData.trans {c₁ c₂ c₃ : Cache} (h : SameData c₁ c₂) (h' : SameData c₂ c₃) :
    SameData c₁ c₃ :=
  ⟨h'.entryOf.trans h.entryOf, h'.mapping.trans h.mapping, h'.capacity.trans h.capacity,
    h'.currentSize.trans h.currentSize, h'.dummyHeader.trans h.dummyHeader,
    h'.dummyTailer.trans h.dummyTailer⟩

/-- Keeping the data keeps the identifiers. -/
lemma SameData.identifierOf (h : SameData c c') (a : Addr) :
    c'.identifierOf a = c.identifierOf a := by
  rw [Cache.identifierOf, Cache.identifierOf, h.entryOf]

/-! ## Single writes -/

/-- The node at an address after a write. -/
lemma lookup_update (c : Cache) (a : Addr) (f : CacheNode → CacheNode) (b : Addr) :
    (c.update a f).heap.lookup b =
      if b = a then (c.heap.lookup a).map f else c.heap.lookup b := by
  unfold update
  cases h : c.heap.lookup a with
  | none =>
    by_cases hb : b = a
    · subst hb; simp [h]
    · simp [hb]
  | some n =>
    by_cases hb : b = a
    · subst hb; simp
    · simp [hb, AList.lookup_insert_ne hb]

/-- A write allocates and frees nothing. -/
@[simp] lemma mem_update (c : Cache) (a : Addr) (f : CacheNode → CacheNode) (b : Addr) :
    b ∈ (c.update a f).heap ↔ b ∈ c.heap := by
  rw [← AList.lookup_isSome, ← AList.lookup_isSome, lookup_update]
  by_cases hb : b = a
  · subst hb; simp
  · simp [hb]

/-- A write that keeps identifier and data keeps the data of the cache. -/
lemma sameData_update (c : Cache) (a : Addr) {f : CacheNode → CacheNode}
    (hf : ∀ n, ((f n).identifier, (f n).data) = (n.identifier, n.data)) :
    SameData c (c.update a f) := by
  refine ⟨?_, ?_, ?_, ?_, ?_, ?_⟩
  · funext b
    unfold entryOf
    rw [lookup_update]
    by_cases hb : b = a
    · subst hb
      cases c.heap.lookup b with
      | none => simp
      | some n => simpa using hf n
    · rw [if_neg hb]
  all_goals unfold update; cases c.heap.lookup a <;> rfl

/-- The `next_` pointers after `ptr->next_ = v`. -/
lemma nextOf_update_next (ha : a ∈ c.heap) (v : Option Addr) :
    (c.update a fun n => { n with next := v }).nextOf = Function.update c.nextOf a v := by
  funext b
  obtain ⟨n, hn⟩ := Option.isSome_iff_exists.mp (AList.lookup_isSome.mpr ha)
  unfold nextOf
  rw [lookup_update]
  by_cases hb : b = a
  · subst hb; simp [hn]
  · rw [if_neg hb, Function.update_of_ne hb]

/-- The `prev_` pointers after `ptr->next_ = v`. -/
lemma prevOf_update_next (a : Addr) (v : Option Addr) :
    (c.update a fun n => { n with next := v }).prevOf = c.prevOf := by
  funext b
  unfold prevOf
  rw [lookup_update]
  by_cases hb : b = a
  · subst hb; cases h : c.heap.lookup b <;> simp
  · rw [if_neg hb]

/-- The `prev_` pointers after `ptr->prev_ = v`. -/
lemma prevOf_update_prev (ha : a ∈ c.heap) (v : Option Addr) :
    (c.update a fun n => { n with prev := v }).prevOf = Function.update c.prevOf a v := by
  funext b
  obtain ⟨n, hn⟩ := Option.isSome_iff_exists.mp (AList.lookup_isSome.mpr ha)
  unfold prevOf
  rw [lookup_update]
  by_cases hb : b = a
  · subst hb; simp [hn]
  · rw [if_neg hb, Function.update_of_ne hb]

/-- The `next_` pointers after `ptr->prev_ = v`. -/
lemma nextOf_update_prev (a : Addr) (v : Option Addr) :
    (c.update a fun n => { n with prev := v }).nextOf = c.nextOf := by
  funext b
  unfold nextOf
  rw [lookup_update]
  by_cases hb : b = a
  · subst hb; cases h : c.heap.lookup b <;> simp
  · rw [if_neg hb]

/-- `ptr->next_ = v` on an allocated node. -/
lemma setNext_spec (ha : a ∈ c.heap) (v : Option Addr) :
    ∃ c', c.setNext (some a) v = .ok c' ∧ SameData c c' ∧ (∀ b, b ∈ c'.heap ↔ b ∈ c.heap) ∧
      c'.nextOf = Function.update c.nextOf a v ∧ c'.prevOf = c.prevOf :=
  ⟨_, if_pos ha, sameData_update c a fun _ => rfl, fun b => mem_update c a _ b,
    nextOf_update_next ha v, prevOf_update_next a v⟩

/-- `ptr->prev_ = v` on an allocated node. -/
lemma setPrev_spec (ha : a ∈ c.heap) (v : Option Addr) :
    ∃ c', c.setPrev (some a) v = .ok c' ∧ SameData c c' ∧ (∀ b, b ∈ c'.heap ↔ b ∈ c.heap) ∧
      c'.nextOf = c.nextOf ∧ c'.prevOf = Function.update c.prevOf a v :=
  ⟨_, if_pos ha, sameData_update c a fun _ => rfl, fun b => mem_update c a _ b,
    nextOf_update_prev a v, prevOf_update_prev ha v⟩

/-- `UpdateTimeStamp` on an allocated node. -/
lemma updateTimeStamp_spec (ha : a ∈ c.heap) (now : UInt64) :
    ∃ c', c.modify (some a) (CacheNode.updateTimeStamp now) = .ok c' ∧ SameData c c' ∧
      (∀ b, b ∈ c'.heap ↔ b ∈ c.heap) ∧ c'.nextOf = c.nextOf ∧ c'.prevOf = c.prevOf := by
  refine ⟨_, if_pos ha, sameData_update c a fun _ => rfl, fun b => mem_update c a _ b, ?_, ?_⟩
  all_goals
    funext b
    simp only [nextOf, prevOf, lookup_update]
    by_cases hb : b = a
    · subst hb; cases h : c.heap.lookup b <;> simp [CacheNode.updateTimeStamp]
    · rw [if_neg hb]

/-- Reading an allocated node gives its fields. -/
lemma deref_spec (ha : a ∈ c.heap) :
    ∃ n, c.deref (some a) = .ok n ∧ c.heap.lookup a = some n ∧ n.next = c.nextOf a ∧
      n.prev = c.prevOf a ∧ c.entryOf a = some (n.identifier, n.data) := by
  obtain ⟨n, hn⟩ := Option.isSome_iff_exists.mp (AList.lookup_isSome.mpr ha)
  exact ⟨n, by simp [deref, hn], hn, by simp [nextOf, hn], by simp [prevOf, hn],
    by simp [entryOf, hn]⟩

/-! ## The invariant -/

/-- The pointer half of the invariant: between the two dummy nodes the list runs through
`nodes`, and the allocated nodes are these and the detached ones `D`. -/
structure Shape (c : Cache) (nodes D : List Addr) : Prop where
  linked : Linked c.nextOf c.prevOf (c.dummyHeader :: nodes ++ [c.dummyTailer])
  nodup : (c.dummyHeader :: nodes ++ c.dummyTailer :: D).Nodup
  live : ∀ a, a ∈ c.heap ↔ a ∈ c.dummyHeader :: nodes ++ c.dummyTailer :: D

/-- The representation invariant: the hash map holds exactly the nodes of the list and the
detached ones, each under its own identifier. -/
structure Rep (c : Cache) (nodes D : List Addr) : Prop extends Shape c nodes D where
  mapped : ∀ id a, c.mapping.lookup id = some a ↔ a ∈ nodes ++ D ∧ c.identifierOf a = some id

/-- What a caller can observe of a cache that no call is working on: `next_` leads from the header
through the nodes to the tailer, `prev_` leads back through the same nodes, no node occurs twice,
and the hash map holds exactly these nodes, each under its own identifier. -/
structure Intact (c : Cache) (nodes : List Addr) : Prop where
  forward : Visits c.nextOf c.dummyHeader nodes c.dummyTailer
  backward : Visits c.prevOf c.dummyTailer nodes.reverse c.dummyHeader
  nodup : (c.dummyHeader :: nodes ++ [c.dummyTailer]).Nodup
  mapped : ∀ id a, c.mapping.lookup id = some a ↔ a ∈ nodes ∧ c.identifierOf a = some id

/-- The invariant without detached nodes is the observable one. -/
lemma Rep.intact (h : Rep c nodes []) : Intact c nodes :=
  ⟨h.linked.visits, h.linked.visits_reverse, h.nodup, fun id a => by
    rw [h.mapped, List.append_nil]⟩

/-- The invariant is about the pointers, the addresses and the data only. -/
lemma Shape.of_sameData (h : Shape c nodes D) (hs : SameData c c')
    (hl : ∀ b, b ∈ c'.heap ↔ b ∈ c.heap) (hn : c'.nextOf = c.nextOf) (hp : c'.prevOf = c.prevOf) :
    Shape c' nodes D := by
  refine ⟨?_, ?_, ?_⟩
  · rw [hn, hp, hs.dummyHeader, hs.dummyTailer]; exact h.linked
  · rw [hs.dummyHeader, hs.dummyTailer]; exact h.nodup
  · intro b; rw [hl, hs.dummyHeader, hs.dummyTailer]; exact h.live b

/-- The pointer half of the invariant reads the heap and the dummy nodes. -/
lemma Shape.of_heap_eq (h : Shape c nodes D) (hheap : c'.heap = c.heap)
    (hheader : c'.dummyHeader = c.dummyHeader) (htailer : c'.dummyTailer = c.dummyTailer) :
    Shape c' nodes D := by
  have hn : c'.nextOf = c.nextOf := by funext b; rw [nextOf, nextOf, hheap]
  have hp : c'.prevOf = c.prevOf := by funext b; rw [prevOf, prevOf, hheap]
  refine ⟨?_, ?_, ?_⟩
  · rw [hn, hp, hheader, htailer]; exact h.linked
  · rw [hheader, htailer]; exact h.nodup
  · intro b; rw [hheap, hheader, htailer]; exact h.live b

/-- The hash map half survives whatever keeps the data and the set of nodes. -/
lemma mapped_of_sameData {nodes' D' : List Addr}
    (h : ∀ id a, c.mapping.lookup id = some a ↔ a ∈ nodes ++ D ∧ c.identifierOf a = some id)
    (hs : SameData c c') (hmem : ∀ a, a ∈ nodes' ++ D' ↔ a ∈ nodes ++ D) (id : Bytes) (a : Addr) :
    c'.mapping.lookup id = some a ↔ a ∈ nodes' ++ D' ∧ c'.identifierOf a = some id := by
  rw [hs.mapping, hs.identifierOf, hmem]
  exact h id a

/-- A node of the list has a predecessor and a successor, possibly the dummy nodes. -/
lemma exists_neighbours (h : Addr) (l₁ l₂ : List Addr) (t : Addr) :
    ∃ p x y q, h :: l₁ = p ++ [x] ∧ l₂ ++ [t] = y :: q := by
  obtain ⟨p, x, hx⟩ : ∃ p x, h :: l₁ = p ++ [x] :=
    ⟨_, _, (List.dropLast_append_getLast (List.cons_ne_nil h l₁)).symm⟩
  obtain ⟨y, q, hy⟩ := List.exists_cons_of_ne_nil (show l₂ ++ [t] ≠ [] by simp)
  exact ⟨p, x, y, q, hx, hy⟩

/-- `Cache::RemoveFromList` on a node of the list takes it out and leaves it detached.

**Proof sketch.** The node has a predecessor `x` and a successor `y`, which the dummy nodes
guarantee. The call points `x` and `y` at each other, which is `Linked.unlink`. -/
lemma Shape.removeFromList {l₁ l₂ : List Addr} (h : Shape c (l₁ ++ n :: l₂) D) :
    ∃ c', c.removeFromList n = .ok c' ∧ SameData c c' ∧ Shape c' (l₁ ++ l₂) (n :: D) := by
  obtain ⟨p, x, y, q, hx, hy⟩ := exists_neighbours c.dummyHeader l₁ l₂ c.dummyTailer
  have hlist : c.dummyHeader :: (l₁ ++ n :: l₂) ++ [c.dummyTailer] = p ++ x :: n :: y :: q := by
    calc c.dummyHeader :: (l₁ ++ n :: l₂) ++ [c.dummyTailer]
        = (c.dummyHeader :: l₁) ++ n :: (l₂ ++ [c.dummyTailer]) := by simp
      _ = p ++ x :: n :: y :: q := by rw [hx, hy]; simp
  have hlist' : c.dummyHeader :: (l₁ ++ l₂) ++ [c.dummyTailer] = p ++ x :: y :: q := by
    calc c.dummyHeader :: (l₁ ++ l₂) ++ [c.dummyTailer]
        = (c.dummyHeader :: l₁) ++ (l₂ ++ [c.dummyTailer]) := by simp
      _ = p ++ x :: y :: q := by rw [hx, hy]; simp
  have hall : ∀ D', c.dummyHeader :: (l₁ ++ n :: l₂) ++ c.dummyTailer :: D' =
      (p ++ x :: n :: y :: q) ++ D' := by
    intro D'; rw [← hlist]; simp
  have hlinked := h.linked
  have hnodup := h.nodup
  have hlive := h.live
  rw [hlist] at hlinked
  rw [hall] at hnodup
  simp only [hall] at hlive
  have hd : (p ++ x :: n :: y :: q).Nodup := hnodup.of_append_left
  have hlinked' : Linked c.nextOf c.prevOf ((p ++ [x]) ++ n :: y :: q) := by simpa using hlinked
  obtain ⟨m, hm, -, hmn, hmp, -⟩ := deref_spec (c := c) (a := n) ((hlive n).mpr (by simp))
  have hnext : m.next = some y := hmn.trans hlinked'.next_eq
  have hprev : m.prev = some x := hmp.trans hlinked.prev_eq
  obtain ⟨c₁, h₁, hs₁, hl₁, hn₁, hp₁⟩ :=
    setNext_spec (c := c) (a := x) ((hlive x).mpr (by simp)) (some y)
  obtain ⟨c₂, h₂, hs₂, hl₂, hn₂, hp₂⟩ :=
    setPrev_spec (c := c₁) (a := y) ((hl₁ y).mpr ((hlive y).mpr (by simp))) (some x)
  have hs := hs₁.trans hs₂
  refine ⟨c₂, ?_, hs, ?_, ?_, ?_⟩
  · simp only [Cache.removeFromList, hm, hnext, hprev, bind, Except.bind, h₁, h₂]
  · rw [hs.dummyHeader, hs.dummyTailer, hlist', hn₂, hp₂, hn₁, hp₁]
    exact hlinked.unlink hd
  · rw [hs.dummyHeader, hs.dummyTailer]
    refine (List.Perm.nodup_iff (List.perm_iff_count.mpr fun b => ?_)).mp h.nodup
    simp only [List.count_append, List.count_cons]
    omega
  · intro b
    rw [hl₂, hl₁, h.live, hs.dummyHeader, hs.dummyTailer]
    simp only [List.mem_append, List.mem_cons]
    tauto

/-- `Cache::AppendToEndOfList` on a detached node puts it at the end of the list.

**Proof sketch.** The predecessor `x` of the tailer is the last node, or the header. The four
writes are a splice between `x` and the tailer, `Linked.splice`. -/
lemma Shape.appendToEndOfList {D₁ D₂ : List Addr} (h : Shape c nodes (D₁ ++ n :: D₂)) :
    ∃ c', c.appendToEndOfList n = .ok c' ∧ SameData c c' ∧ Shape c' (nodes ++ [n]) (D₁ ++ D₂) := by
  obtain ⟨p, x, -, -, hx, -⟩ := exists_neighbours c.dummyHeader nodes [] c.dummyTailer
  have hlist : c.dummyHeader :: nodes ++ [c.dummyTailer] = p ++ x :: c.dummyTailer :: [] := by
    rw [hx]; simp
  have hlist' : c.dummyHeader :: (nodes ++ [n]) ++ [c.dummyTailer] =
      p ++ x :: n :: c.dummyTailer :: [] := by
    calc c.dummyHeader :: (nodes ++ [n]) ++ [c.dummyTailer]
        = (c.dummyHeader :: nodes) ++ [n, c.dummyTailer] := by simp
      _ = p ++ x :: n :: c.dummyTailer :: [] := by rw [hx]; simp
  have hall : c.dummyHeader :: nodes ++ c.dummyTailer :: (D₁ ++ n :: D₂) =
      (p ++ x :: c.dummyTailer :: []) ++ (D₁ ++ n :: D₂) := by
    rw [← hlist]; simp
  have hlinked := h.linked
  have hnodup := h.nodup
  have hlive := h.live
  rw [hlist] at hlinked
  rw [hall] at hnodup
  simp only [hall] at hlive
  have hd : (p ++ x :: c.dummyTailer :: []).Nodup := hnodup.of_append_left
  have hnotMem : n ∉ p ++ x :: c.dummyTailer :: [] := fun hmem =>
    List.disjoint_of_nodup_append hnodup hmem (by simp)
  obtain ⟨m, hm, -, -, hmp, -⟩ :=
    deref_spec (c := c) (a := c.dummyTailer) ((hlive _).mpr (by simp))
  have hprev : m.prev = some x := hmp.trans hlinked.prev_eq
  obtain ⟨c₁, h₁, hs₁, hl₁, hn₁, hp₁⟩ :=
    setPrev_spec (c := c) (a := n) ((hlive n).mpr (by simp)) (some x)
  obtain ⟨c₂, h₂, hs₂, hl₂, hn₂, hp₂⟩ :=
    setNext_spec (c := c₁) (a := n) ((hl₁ n).mpr ((hlive n).mpr (by simp))) (some c.dummyTailer)
  obtain ⟨c₃, h₃, hs₃, hl₃, hn₃, hp₃⟩ :=
    setNext_spec (c := c₂) (a := x) ((hl₂ x).mpr ((hl₁ x).mpr ((hlive x).mpr (by simp)))) (some n)
  obtain ⟨c₄, h₄, hs₄, hl₄, hn₄, hp₄⟩ :=
    setPrev_spec (c := c₃) (a := c.dummyTailer)
      ((hl₃ _).mpr ((hl₂ _).mpr ((hl₁ _).mpr ((hlive _).mpr (by simp))))) (some n)
  have hs := ((hs₁.trans hs₂).trans hs₃).trans hs₄
  refine ⟨c₄, ?_, hs, ?_, ?_, ?_⟩
  · simp only [Cache.appendToEndOfList, hm, hprev, bind, Except.bind, h₁, hs₁.dummyTailer, h₂, h₃,
      hs₃.dummyTailer, hs₂.dummyTailer, h₄]
  · rw [hs.dummyHeader, hs.dummyTailer, hlist', hn₄, hp₄, hn₃, hp₃, hn₂, hp₂, hn₁, hp₁]
    exact hlinked.splice hd hnotMem
  · rw [hs.dummyHeader, hs.dummyTailer]
    refine (List.Perm.nodup_iff (List.perm_iff_count.mpr fun b => ?_)).mp h.nodup
    simp only [List.count_append, List.count_cons, List.count_nil]
    omega
  · intro b
    rw [hl₄, hl₃, hl₂, hl₁, h.live, hs.dummyHeader, hs.dummyTailer]
    simp only [List.mem_append, List.mem_cons]
    tauto

/-- Freeing a detached node. -/
lemma Shape.free (h : Shape c nodes (n :: D)) : Shape (c.free n) nodes D := by
  have hperm : (c.dummyHeader :: nodes ++ c.dummyTailer :: n :: D).Perm
      (n :: (c.dummyHeader :: nodes ++ c.dummyTailer :: D)) := by
    refine List.perm_iff_count.mpr fun b => ?_
    simp only [List.count_append, List.count_cons]
    omega
  obtain ⟨hn, hnodup⟩ := List.nodup_cons.mp (hperm.nodup_iff.mp h.nodup)
  have hne : ∀ b ∈ c.dummyHeader :: nodes ++ c.dummyTailer :: D, b ≠ n :=
    fun b hb => ne_of_mem_of_not_mem hb hn
  have hlookup : ∀ b ∈ c.dummyHeader :: nodes ++ c.dummyTailer :: D,
      (c.free n).heap.lookup b = c.heap.lookup b := fun b hb => AList.lookup_erase_ne (hne b hb)
  refine ⟨h.linked.frame ?_ ?_, hnodup, ?_⟩
  · intro x hx
    have hx : x ∈ c.dummyHeader :: nodes ++ c.dummyTailer :: D := by
      have := List.dropLast_subset _ hx
      simp only [List.mem_append, List.mem_cons, List.not_mem_nil] at this ⊢
      tauto
    rw [nextOf, hlookup x hx]; rfl
  · intro y hy
    have hy : y ∈ c.dummyHeader :: nodes ++ c.dummyTailer :: D := by
      have := List.mem_of_mem_tail hy
      simp only [List.mem_append, List.mem_cons, List.not_mem_nil] at this ⊢
      tauto
    rw [prevOf, hlookup y hy]; rfl
  · intro b
    have hmem : b ∈ (c.free n).heap ↔ b ≠ n ∧ b ∈ c.heap := AList.mem_erase
    have hcons : b ∈ c.heap ↔ b ∈ n :: (c.dummyHeader :: nodes ++ c.dummyTailer :: D) :=
      (h.live b).trans hperm.mem_iff
    rw [hmem, hcons, List.mem_cons]
    exact ⟨fun hb => hb.2.resolve_left hb.1, fun hb => ⟨hne b hb, Or.inr hb⟩⟩

/-- Freeing a node leaves the data of the others alone. -/
lemma entryOf_free (h : b ≠ n) : (c.free n).entryOf b = c.entryOf b := by
  rw [entryOf, entryOf, Cache.free, AList.lookup_erase_ne h]

/-! ## The operations -/

/-- The nodes of a cache that keeps its invariant have different identifiers. -/
lemma Rep.identifierOf_inj (h : Rep c nodes D) {id : Bytes} (ha : a ∈ nodes ++ D)
    (hb : b ∈ nodes ++ D) (hia : c.identifierOf a = some id) (hib : c.identifierOf b = some id) :
    a = b :=
  Option.some.inj (((h.mapped id a).mpr ⟨ha, hia⟩).symm.trans ((h.mapped id b).mpr ⟨hb, hib⟩))

/-- Every node of the list has its data. -/
lemma Shape.exists_entryOf (h : Shape c nodes D) (ha : a ∈ nodes) :
    ∃ id data, c.entryOf a = some (id, data) := by
  have hmem : a ∈ c.heap := (h.live a).mpr (by simp [ha])
  obtain ⟨m, -, -, -, -, he⟩ := deref_spec hmem
  exact ⟨m.identifier, m.data, he⟩

/-- So the identifiers along the list are pairwise different. -/
lemma Rep.nodup_identifierOf (h : Rep c nodes D) : (nodes.map c.identifierOf).Nodup := by
  have hnodes : nodes.Nodup := h.nodup.sublist
    ((List.sublist_append_left nodes _).trans (List.sublist_cons_self _ _))
  refine (List.nodup_map_iff_inj_on hnodes).mpr fun a ha b hb hab => ?_
  obtain ⟨id, data, he⟩ := h.toShape.exists_entryOf ha
  have hia : c.identifierOf a = some id := by rw [identifierOf, he]; rfl
  exact h.identifierOf_inj (List.mem_append_left _ ha) (List.mem_append_left _ hb) hia (hab ▸ hia)

/-- `Cache::RemoveFromList` under the invariant. -/
lemma Rep.removeFromList {l₁ l₂ : List Addr} (h : Rep c (l₁ ++ n :: l₂) D) :
    ∃ c', c.removeFromList n = .ok c' ∧ SameData c c' ∧ Rep c' (l₁ ++ l₂) (n :: D) := by
  obtain ⟨c', hc', hs, hshape⟩ := h.toShape.removeFromList
  refine ⟨c', hc', hs, hshape, mapped_of_sameData h.mapped hs fun a => ?_⟩
  simp only [List.mem_append, List.mem_cons]
  tauto

/-- `Cache::AppendToEndOfList` under the invariant. -/
lemma Rep.appendToEndOfList {D₁ D₂ : List Addr} (h : Rep c nodes (D₁ ++ n :: D₂)) :
    ∃ c', c.appendToEndOfList n = .ok c' ∧ SameData c c' ∧ Rep c' (nodes ++ [n]) (D₁ ++ D₂) := by
  obtain ⟨c', hc', hs, hshape⟩ := h.toShape.appendToEndOfList
  refine ⟨c', hc', hs, hshape, mapped_of_sameData h.mapped hs fun a => ?_⟩
  simp only [List.mem_append, List.mem_cons]
  tauto

/-- `UpdateTimeStamp` under the invariant. -/
lemma Rep.updateTimeStamp (h : Rep c nodes D) (ha : a ∈ nodes ++ D) (now : UInt64) :
    ∃ c', c.modify (some a) (CacheNode.updateTimeStamp now) = .ok c' ∧ SameData c c' ∧
      Rep c' nodes D := by
  have hmem : a ∈ c.heap := by
    rw [h.live]
    simp only [List.mem_append, List.mem_cons] at ha ⊢
    tauto
  obtain ⟨c', hc', hs, hl, hn, hp⟩ := updateTimeStamp_spec hmem now
  exact ⟨c', hc', hs, h.toShape.of_sameData hs hl hn hp,
    mapped_of_sameData h.mapped hs fun _ => Iff.rfl⟩

/-- `Cache::TryLoad` of a stored identifier: the data is appended to the destination and the
node becomes the last one of the list. -/
lemma Rep.tryLoad_found {l₁ l₂ : List Addr} {id data : Bytes} (h : Rep c (l₁ ++ n :: l₂) [])
    (he : c.entryOf n = some (id, data)) (destination : Bytes) (now : UInt64) :
    ∃ c', c.tryLoad id destination now = .ok (c', destination ++ data, true) ∧ SameData c c' ∧
      Rep c' (l₁ ++ l₂ ++ [n]) [] := by
  have hlookup : c.mapping.lookup id = some n :=
    (h.mapped id n).mpr ⟨by simp, by simp [identifierOf, he]⟩
  obtain ⟨m, hm, -, -, -, hme⟩ := deref_spec (c := c) (a := n) ((h.live n).mpr (by simp))
  have hdata : m.data = data := congrArg Prod.snd (Option.some.inj (hme.symm.trans he))
  obtain ⟨c₁, h₁, hs₁, hrep₁⟩ := h.removeFromList
  obtain ⟨c₂, h₂, hs₂, hrep₂⟩ :=
    (show Rep c₁ (l₁ ++ l₂) ([] ++ n :: []) from hrep₁).appendToEndOfList
  obtain ⟨c₃, h₃, hs₃, hrep₃⟩ := hrep₂.updateTimeStamp (a := n) (by simp) now
  refine ⟨c₃, ?_, (hs₁.trans hs₂).trans hs₃, hrep₃⟩
  simp only [Cache.tryLoad, hlookup, hm, h₁, h₂, h₃, bind, Except.bind, pure, Except.pure,
    CacheNode.serialize, hdata]

/-- `Cache::TryLoad` of an identifier that is not stored does nothing. -/
lemma tryLoad_absent {id : Bytes} (h : c.mapping.lookup id = none) (destination : Bytes)
    (now : UInt64) : c.tryLoad id destination now = .ok (c, destination, false) := by
  simp only [Cache.tryLoad, h, pure, Except.pure]

/-- `Cache::EvitOne` on a cache that is not empty passes both assertions and removes the first
node.

**Proof sketch.** The node behind the dummy header is `n`, which is not the dummy tailer, and its
identifier is mapped to it. So both assertions pass and `RemoveFromList` takes it out. What is freed
and unmapped then is `n` alone: another identifier is mapped to another node, since no two nodes in
the list have the same identifier. -/
lemma Rep.evitOne {id data : Bytes} (h : Rep c (n :: nodes) [])
    (he : c.entryOf n = some (id, data)) :
    ∃ c', c.evitOne = .ok c' ∧ Rep c' nodes [] ∧ (∀ b ∈ nodes, c'.entryOf b = c.entryOf b) ∧
      c'.mapping = c.mapping.erase id ∧ c'.capacity = c.capacity ∧
      c'.currentSize = c.currentSize - Int32.ofNat data.length := by
  have hlookup : c.mapping.lookup id = some n :=
    (h.mapped id n).mpr ⟨by simp, by simp [identifierOf, he]⟩
  have hnotMem : n ∉ nodes ∧ n ≠ c.dummyTailer := by
    have := h.nodup
    simp only [List.cons_append, List.nodup_cons, List.mem_append, List.mem_cons] at this
    tauto
  obtain ⟨m, hm, -, hmn, -, -⟩ :=
    deref_spec (c := c) (a := c.dummyHeader) ((h.live _).mpr (by simp))
  have hfirst : m.next = some n := hmn.trans (Linked.visits h.linked).1
  obtain ⟨f, hf, -, -, -, hfe⟩ := deref_spec (c := c) (a := n) ((h.live n).mpr (by simp))
  obtain ⟨rfl, rfl⟩ := Prod.mk.inj (Option.some.inj (he.symm.trans hfe))
  obtain ⟨c₁, h₁, hs₁, hrep₁⟩ : ∃ c', c.removeFromList n = .ok c' ∧ SameData c c' ∧
      Rep c' nodes [n] := (show Rep c ([] ++ n :: nodes) [] from h).removeFromList
  refine ⟨{ c₁.free n with
    mapping := c₁.mapping.erase f.identifier
    currentSize := c₁.currentSize - Int32.ofNat f.data.length }, ?_, ⟨?_, ?_⟩, ?_, ?_, ?_, ?_⟩
  · have hne : ¬ (some n = some c.dummyTailer) := fun e => hnotMem.2 (Option.some.inj e)
    simp only [Cache.evitOne, hm, hfirst, hf, hlookup, h₁, bind, Except.bind, pure,
      Except.pure, if_neg hne, CacheNode.size, Cache.free]
  · exact hrep₁.toShape.free.of_heap_eq rfl rfl rfl
  · intro id' b
    change (c₁.mapping.erase f.identifier).lookup id' = some b ↔ b ∈ nodes ++ [] ∧
      ((c₁.free n).entryOf b).map Prod.fst = some id'
    rw [List.append_nil]
    by_cases hid' : id' = f.identifier
    · subst hid'
      rw [AList.lookup_erase]
      refine ⟨fun hb => (by cases hb), fun hb => absurd ?_ hnotMem.1⟩
      have hbn : b ≠ n := ne_of_mem_of_not_mem hb.1 hnotMem.1
      rw [entryOf_free hbn] at hb
      exact hrep₁.identifierOf_inj (b := n) (by simp [hb.1]) (by simp) hb.2
        (by rw [hs₁.identifierOf, identifierOf, he]; rfl) ▸ hb.1
    · rw [AList.lookup_erase_ne hid', hrep₁.mapped]
      refine ⟨fun hb => ?_, fun hb => ?_⟩
      · have hbn : b ≠ n := by
          rintro rfl
          rw [hs₁.identifierOf, identifierOf, he] at hb
          exact hid' (Option.some.inj hb.2).symm
        refine ⟨by simpa [hbn] using hb.1, ?_⟩
        rw [entryOf_free hbn]
        exact hb.2
      · have hbn : b ≠ n := ne_of_mem_of_not_mem hb.1 hnotMem.1
        rw [entryOf_free hbn] at hb
        exact ⟨by simp [hb.1], hb.2⟩
  · intro b hb
    change (c₁.free n).entryOf b = c.entryOf b
    rw [entryOf_free (ne_of_mem_of_not_mem hb hnotMem.1), hs₁.entryOf]
  · change c₁.mapping.erase f.identifier = _
    rw [hs₁.mapping]
  · exact hs₁.capacity
  · change c₁.currentSize - _ = _
    rw [hs₁.currentSize]

/-- The end of `Cache::TryInsert`: a freshly allocated node under a new identifier is appended
to the list and entered in the hash map.

**Proof sketch.** The new node is at an address that was not live, so every link and every entry of
the list is as before, and the shape is that of the old list with one node taken out.
`AppendToEndOfList` puts it at the end. The new identifier is mapped to the new node only, because
it was not mapped; the other identifiers are mapped as before. -/
lemma Rep.append_new {id : Bytes} (h : Rep c nodes []) (hid : c.mapping.lookup id = none)
    (hn : n ∉ c.heap) (data : Bytes) (now : UInt64) :
    ∃ c', Cache.appendToEndOfList
        { c with heap := c.heap.insert n (CacheNode.make id data now) } n = .ok c' ∧
      Rep { c' with mapping := c'.mapping.insert id n } (nodes ++ [n]) [] ∧
      (∀ b ∈ nodes, c'.entryOf b = c.entryOf b) ∧ c'.entryOf n = some (id, data) ∧
      c'.capacity = c.capacity ∧ c'.currentSize = c.currentSize := by
  have hnotMem : n ∉ c.dummyHeader :: nodes ++ c.dummyTailer :: [] := by rwa [← h.live]
  set c₀ : Cache := { c with heap := c.heap.insert n (CacheNode.make id data now) } with hc₀
  have hlookup : ∀ b, b ≠ n → c₀.heap.lookup b = c.heap.lookup b :=
    fun b hb => AList.lookup_insert_ne hb
  have hentry : ∀ b, b ≠ n → c₀.entryOf b = c.entryOf b := by
    intro b hb; rw [entryOf, entryOf, hlookup b hb]
  have hnew : c₀.entryOf n = some (id, data) := by
    rw [entryOf, hc₀, AList.lookup_insert]; rfl
  have hshape : Shape c₀ nodes ([] ++ n :: []) := by
    refine ⟨h.linked.frame ?_ ?_, ?_, ?_⟩
    · intro x hx
      rw [nextOf, hlookup x (ne_of_mem_of_not_mem (List.dropLast_subset _ hx) hnotMem)]; rfl
    · intro y hy
      rw [prevOf, hlookup y (ne_of_mem_of_not_mem (List.mem_of_mem_tail hy) hnotMem)]; rfl
    · have hperm : (c.dummyHeader :: nodes ++ c.dummyTailer :: ([] ++ n :: [])).Perm
          (n :: (c.dummyHeader :: nodes ++ c.dummyTailer :: [])) := by
        refine List.perm_iff_count.mpr fun b => ?_
        simp only [List.count_append, List.count_cons, List.count_nil]
        omega
      exact hperm.nodup_iff.mpr (List.nodup_cons.mpr ⟨hnotMem, h.nodup⟩)
    · intro b
      have hmem : b ∈ c₀.heap ↔ b = n ∨ b ∈ c.heap := AList.mem_insert _
      rw [hmem, h.live]
      change _ ↔ b ∈ c.dummyHeader :: nodes ++ c.dummyTailer :: ([] ++ n :: [])
      simp only [List.mem_append, List.mem_cons]
      tauto
  obtain ⟨c', hc', hs, hshape'⟩ := hshape.appendToEndOfList
  have hne : ∀ b ∈ nodes, b ≠ n := fun b hb => ne_of_mem_of_not_mem
    (by simp [hb] : b ∈ c.dummyHeader :: nodes ++ c.dummyTailer :: []) hnotMem
  refine ⟨c', hc', ⟨hshape'.of_heap_eq rfl rfl rfl, ?_⟩, ?_, ?_, hs.capacity, hs.currentSize⟩
  · intro id' b
    change (c'.mapping.insert id n).lookup id' = some b ↔ b ∈ nodes ++ [n] ++ [] ∧
      c'.identifierOf b = some id'
    rw [hs.mapping, hs.identifierOf, List.append_nil]
    by_cases hid' : id' = id
    · subst hid'
      rw [AList.lookup_insert]
      refine ⟨fun hb => ?_, fun ⟨hb, hib⟩ => ?_⟩
      · obtain rfl := Option.some.inj hb
        exact ⟨by simp, by rw [identifierOf, hnew]; rfl⟩
      · rcases List.mem_append.mp hb with hb | hb
        · rw [identifierOf, hentry b (hne b hb)] at hib
          have := (h.mapped id' b).mpr ⟨by simpa using hb, hib⟩
          rw [hid] at this
          cases this
        · rw [List.mem_singleton.mp hb]
    · rw [AList.lookup_insert_ne hid']
      change c.mapping.lookup id' = some b ↔ _
      rw [h.mapped, List.append_nil]
      refine ⟨fun ⟨hb, hib⟩ => ⟨by simp [hb], ?_⟩, fun ⟨hb, hib⟩ => ?_⟩
      · rw [identifierOf, hentry b (hne b hb)]; exact hib
      · rcases List.mem_append.mp hb with hb | hb
        · rw [identifierOf, hentry b (hne b hb)] at hib
          exact ⟨hb, hib⟩
        · rw [List.mem_singleton.mp hb, identifierOf, hnew] at hib
          exact absurd (Option.some.inj hib).symm hid'
  · intro b hb
    rw [hs.entryOf, hentry b (hne b hb)]
  · rw [hs.entryOf, hnew]

/-- Freeing a list of nodes. -/
lemma lookup_foldl_free (l : List Addr) (c : Cache) (b : Addr) :
    (l.foldl free c).heap.lookup b = if b ∈ l then none else c.heap.lookup b := by
  induction l generalizing c with
  | nil => simp
  | cons a l ih =>
    rw [List.foldl_cons, ih]
    by_cases hl : b ∈ l
    · simp [hl]
    · by_cases hb : b = a
      · subst hb; simp [hl, Cache.free]
      · simp [hl, hb, Cache.free, AList.lookup_erase_ne hb]

/-- Freeing nodes changes nothing but the heap. -/
lemma foldl_free_fields (l : List Addr) (c : Cache) :
    (l.foldl free c).capacity = c.capacity ∧ (l.foldl free c).dummyHeader = c.dummyHeader ∧
      (l.foldl free c).dummyTailer = c.dummyTailer := by
  induction l generalizing c with
  | nil => exact ⟨rfl, rfl, rfl⟩
  | cons a l ih => exact ih (c.free a)

/-- `Cache::Clear` leaves an empty list and an empty hash map. -/
lemma Rep.clear (h : Rep c nodes []) :
    ∃ c', c.clear = .ok c' ∧ Rep c' [] [] ∧ c'.capacity = c.capacity ∧ c'.currentSize = 0 := by
  obtain ⟨c₁, h₁, hs₁, hl₁, hn₁, hp₁⟩ := setPrev_spec (c := c) (a := c.dummyTailer)
    ((h.live _).mpr (by simp)) (some c.dummyHeader)
  obtain ⟨c₂, h₂, hs₂, hl₂, hn₂, hp₂⟩ := setNext_spec (c := c₁) (a := c.dummyHeader)
    ((hl₁ _).mpr ((h.live _).mpr (by simp))) (some c.dummyTailer)
  have hs := hs₁.trans hs₂
  set freed := c₂.mapping.keys.filterMap c₂.mapping.lookup with hfreed
  -- the freed nodes are the nodes of the list
  have hmem : ∀ b, b ∈ freed ↔ b ∈ nodes := by
    intro b
    rw [hfreed, List.mem_filterMap]
    refine ⟨fun ⟨id, _, hb⟩ => ?_, fun hb => ?_⟩
    · rw [hs.mapping] at hb
      simpa using ((h.mapped id b).mp hb).1
    · obtain ⟨id, data, he⟩ := h.toShape.exists_entryOf hb
      have hlookup : c₂.mapping.lookup id = some b := by
        rw [hs.mapping]
        exact (h.mapped id b).mpr ⟨by simpa using hb, by simp [identifierOf, he]⟩
      exact ⟨id, AList.mem_keys.mp (AList.lookup_isSome.mp (by simp [hlookup])), hlookup⟩
  have hnodup := h.nodup
  simp only [List.cons_append, List.nodup_cons, List.mem_append, List.mem_cons,
    List.nodup_append] at hnodup
  have hheader : c.dummyHeader ∉ freed := by rw [hmem]; tauto
  have htailer : c.dummyTailer ∉ freed := by
    rw [hmem]
    intro hb
    exact hnodup.2.2.2 _ hb _ (Or.inl rfl) rfl
  obtain ⟨hcap, hhead, htail⟩ := foldl_free_fields freed c₂
  refine ⟨{ freed.foldl free c₂ with mapping := ∅, currentSize := 0 }, ?_, ⟨⟨?_, ?_, ?_⟩, ?_⟩,
    hcap.trans hs.capacity, rfl⟩
  · simp only [Cache.clear, h₁, hs₁.dummyHeader, hs₁.dummyTailer, h₂, bind, Except.bind, pure,
      Except.pure, hfreed]
  · refine List.isChain_cons_cons.mpr ⟨⟨?_, ?_⟩, List.isChain_singleton _⟩
    · change ((freed.foldl free c₂).heap.lookup (freed.foldl free c₂).dummyHeader).bind _ = some _
      rw [hhead, hs.dummyHeader, lookup_foldl_free, if_neg hheader]
      change c₂.nextOf c.dummyHeader = some (freed.foldl free c₂).dummyTailer
      rw [htail, hs.dummyTailer, hn₂, Function.update_self]
    · change ((freed.foldl free c₂).heap.lookup (freed.foldl free c₂).dummyTailer).bind _ = some _
      rw [htail, hs.dummyTailer, lookup_foldl_free, if_neg htailer]
      change c₂.prevOf c.dummyTailer = some (freed.foldl free c₂).dummyHeader
      rw [hhead, hs.dummyHeader, hp₂, hp₁, Function.update_self]
  · change [(freed.foldl free c₂).dummyHeader, (freed.foldl free c₂).dummyTailer].Nodup
    rw [hhead, htail, hs.dummyHeader, hs.dummyTailer]
    simp only [List.nodup_cons, List.mem_singleton, List.not_mem_nil, not_false_iff,
      List.nodup_nil, and_true]
    tauto
  · intro b
    change b ∈ (freed.foldl free c₂).heap ↔
      b ∈ [(freed.foldl free c₂).dummyHeader, (freed.foldl free c₂).dummyTailer]
    rw [hhead, htail, hs.dummyHeader, hs.dummyTailer, ← AList.lookup_isSome, lookup_foldl_free]
    by_cases hb : b ∈ freed
    · have hb₁ : b ≠ c.dummyHeader := ne_of_mem_of_not_mem hb hheader
      have hb₂ : b ≠ c.dummyTailer := ne_of_mem_of_not_mem hb htailer
      simp [hb, hb₁, hb₂]
    · rw [if_neg hb, AList.lookup_isSome, hl₂, hl₁, h.live]
      rw [hmem] at hb
      simp [hb]
  · intro id b
    change (∅ : AList fun _ : Bytes => Addr).lookup id = some b ↔ b ∈ [] ++ [] ∧ _
    simp

/-- `Cache::Cache(capacity)` establishes the invariant. -/
lemma make_rep (A : Allocator) (capacity : Int32) (now₁ now₂ : UInt64) :
    Rep (make A capacity now₁ now₂) [] [] := by
  set header := A.next []
  set tailer := A.next [header]
  have hne : header ≠ tailer := fun e => A.next_notMem [header] (List.mem_singleton.mpr e.symm)
  refine ⟨⟨List.isChain_cons_cons.mpr ⟨⟨?_, ?_⟩, List.isChain_singleton _⟩, ?_, ?_⟩, ?_⟩
  · change ((AList.insert tailer _ (AList.insert header _ ∅)).lookup header).bind _ = some tailer
    rw [AList.lookup_insert_ne hne, AList.lookup_insert]
    rfl
  · change ((AList.insert tailer _ (AList.insert header _ ∅)).lookup tailer).bind _ = some header
    rw [AList.lookup_insert]
    rfl
  · change [header, tailer].Nodup
    simp [hne]
  · intro b
    change b ∈ AList.insert tailer _ (AList.insert header _ ∅) ↔ b ∈ [header, tailer]
    rw [AList.mem_insert, AList.mem_insert, List.mem_cons, List.mem_singleton]
    have : b ∉ (∅ : AList fun _ : Addr => CacheNode) := AList.notMem_empty b
    tauto
  · intro id b
    change (∅ : AList fun _ : Bytes => Addr).lookup id = some b ↔ b ∈ [] ++ [] ∧ _
    simp

end Cache

end Icee
