import Icee.Core.CacheAccounting

set_option relaxedAutoImplicit false
set_option autoImplicit false

/-!
# The time stamps of the cache

Every node of the cache has the time of its last access, which `UpdateTimeStamp` takes from a
64-bit clock and stores in an `int`, and `GetTimeStamp` returns as a `uint64_t`. The list of the
cache is in the order of the accesses. This file is about whether the time stamps are in that order
too.

## Main definitions

* `Icee.Cache.timeStamps` — the time stamps along the list.
* `Icee.Cache.timeOf` — the time that is stored for an identifier.
* `Icee.Cache.stays` — the entries that a call leaves in the list in front of the one it stamps.
* `Icee.Cache.NotBehind` — the clock, modulo `2^32`, is not behind the times that stay.

## Main results

* `Icee.Cache.Refines.call_times` — what a call does to the times.
* `Icee.Cache.timeStamps_ordered_iff` — the time stamps are in the order of the list throughout a
  run exactly if the clock is never behind.

## Design

The low 32 bits of a reading are all that is stored of it, and the order of the time stamps is the
order of these bits: both the conversion to `int` and the sign extension keep it.
-/

namespace Icee

/-- The clock reading of a call. -/
def CacheOp.now : CacheOp → Option UInt64
  | .tryLoad _ _ now => some now
  | .tryInsert _ _ now => some now
  | .clear => none

namespace Cache

open Links

/-- `GetTimeStamp` of the nodes met on the way from `p` to the tailer, along `next_`. -/
def timeStampsFrom (c : Cache) : ℕ → Option Addr → List UInt64
  | 0, _ => []
  | _ + 1, none => []
  | fuel + 1, some a =>
    if a = c.dummyTailer then []
    else match c.heap.lookup a with
      | none => []
      | some n => n.getTimeStamp :: c.timeStampsFrom fuel n.next

/-- The time stamps as the linked list has them, least recently used first. -/
def timeStamps (c : Cache) : List UInt64 :=
  c.timeStampsFrom c.heap.keys.length ((c.heap.lookup c.dummyHeader).bind CacheNode.next)

/-- The times of last access. -/
def accessOf (c : Cache) (a : Addr) : Option Int32 :=
  (c.heap.lookup a).map CacheNode.lastAccessTime

/-- The time of last access of the node stored under an identifier. -/
def timeOf (c : Cache) (id : Bytes) : Int32 := ((c.mapping.lookup id).bind c.accessOf).getD 0

/-- The entries that a call leaves in the list in front of the one whose node reads the clock. There
are none if no node does. -/
def stays (c : Cache) : CacheOp → List (Bytes × Bytes)
  | .tryLoad identifier _ _ =>
    if (c.mapping.lookup identifier).isSome then Store.others identifier c.contents else []
  | .tryInsert resourceIdentifier source _ =>
    let neededSize := Int32.ofNat source.length
    if (c.mapping.lookup resourceIdentifier).isSome ∨ neededSize > c.capacity then []
    else (Store.evictWhile c.capacity neededSize c.currentSize c.contents).2
  | .clear => []

/-- **The clock is not behind**: modulo `2^32` the reading of the call is at least the time of every
entry that stays. -/
def NotBehind (c : Cache) (op : CacheOp) : Prop :=
  ∀ now ∈ op.now, ∀ e ∈ c.stays op, (c.timeOf e.1).toUInt32.toNat ≤ now.toNat % 2 ^ 32

instance (c : Cache) (op : CacheOp) : Decidable (c.NotBehind op) :=
  inferInstanceAs (Decidable (∀ now ∈ op.now, ∀ e ∈ c.stays op, _))

/-- The time stamps are in the order of the list. -/
def Ordered (c : Cache) : Prop := c.timeStamps.Pairwise (· ≤ ·)

/-! ## The order of time stamps -/

/-- `GetTimeStamp`, as a function of the `int`. -/
def stampOf (time : Int32) : UInt64 := UInt64.ofNat (sizeOfInt time)

/-- **Sign extension keeps the order** of the bits. -/
lemma stampOf_le_iff (t t' : Int32) :
    stampOf t ≤ stampOf t' ↔ t.toUInt32.toNat ≤ t'.toUInt32.toNat := by
  have hstamp : ∀ t : Int32, (stampOf t).toNat = (t.toInt % 2 ^ 64).toNat := fun t => by
    rw [stampOf, UInt64.toNat_ofNat', sizeOfInt]
    omega
  have hbits : ∀ t : Int32, t.toInt = (t.toUInt32.toNat : ℤ).bmod (2 ^ 32) := fun t => by
    rw [← Int32.toNat_toBitVec]
    exact BitVec.toInt_eq_toNat_bmod t.toBitVec
  have hlt := t.toUInt32.toNat_lt
  have hlt' := t'.toUInt32.toNat_lt
  rw [UInt64.le_iff_toNat_le, hstamp, hstamp, hbits t, hbits t', Int.bmod_def, Int.bmod_def]
  omega

/-- The bits of a reading that are stored. -/
lemma toNat_toUInt32_ofNat (now : UInt64) :
    (Int32.ofNat now.toNat).toUInt32.toNat = now.toNat % 2 ^ 32 := by
  rw [Int32.toUInt32_ofNat', UInt32.toNat_ofNat']

/-! ## Times that are left alone -/

variable {A : Allocator} {c c' c'' : Cache} {s : Store} {nodes : List Addr}
  {E : List (Bytes × Bytes)} {p v : Option Addr} {a b : Addr}

/-- A call has changed no time and has entered nothing in the hash map, though it may have removed
nodes. -/
structure Keeps (c c' : Cache) : Prop where
  accessOf : ∀ a t, c'.accessOf a = some t → c.accessOf a = some t
  mapping : ∀ id a, c'.mapping.lookup id = some a → c.mapping.lookup id = some a

lemma Keeps.refl (c : Cache) : Keeps c c := ⟨fun _ _ h => h, fun _ _ h => h⟩

lemma Keeps.trans (h : Keeps c c') (h' : Keeps c' c'') : Keeps c c'' :=
  ⟨fun a t ht => h.accessOf a t (h'.accessOf a t ht),
    fun id a ha => h.mapping id a (h'.mapping id a ha)⟩

/-- A write through a pointer is an update of the node it points to. -/
lemma modify_inv {f : CacheNode → CacheNode} (h : c.modify p f = .ok c') :
    ∃ a ∈ c.heap, p = some a ∧ c' = c.update a f := by
  cases p with
  | none => cases h
  | some a =>
    simp only [modify] at h
    split at h
    · next ha => exact ⟨a, ha, rfl, (Except.ok.inj h).symm⟩
    · cases h

/-- The hash map after a write. -/
@[simp] lemma mapping_update (c : Cache) (a : Addr) (f : CacheNode → CacheNode) :
    (c.update a f).mapping = c.mapping := by
  unfold update
  split <;> rfl

/-- The times after a write. -/
lemma accessOf_update (c : Cache) (a : Addr) (f : CacheNode → CacheNode) (b : Addr) :
    (c.update a f).accessOf b =
      if b = a then (c.heap.lookup a).map fun n => (f n).lastAccessTime else c.accessOf b := by
  rw [accessOf, lookup_update]
  split
  · rw [Option.map_map]
    rfl
  · rfl

/-- A write that is not about the time. -/
lemma Keeps.modify {f : CacheNode → CacheNode} (hf : ∀ n, (f n).lastAccessTime = n.lastAccessTime)
    (h : c.modify p f = .ok c') : Keeps c c' := by
  obtain ⟨a, -, -, rfl⟩ := modify_inv h
  refine ⟨fun b t hb => ?_, fun id b hb => by simpa using hb⟩
  rw [accessOf_update] at hb
  split at hb
  · next hba =>
    simp only [hf] at hb
    rwa [hba]
  · exact hb

lemma Keeps.setNext (h : c.setNext p v = .ok c') : Keeps c c' :=
  Keeps.modify (f := fun n => { n with next := v }) (fun _ => rfl) h

lemma Keeps.setPrev (h : c.setPrev p v = .ok c') : Keeps c c' :=
  Keeps.modify (f := fun n => { n with prev := v }) (fun _ => rfl) h

lemma Keeps.removeFromList (h : c.removeFromList a = .ok c') : Keeps c c' := by
  obtain ⟨n, -, h⟩ := exists_of_bind_eq_ok h
  obtain ⟨c₁, h₁, h⟩ := exists_of_bind_eq_ok h
  exact (Keeps.setNext h₁).trans (Keeps.setPrev h)

lemma Keeps.appendToEndOfList (h : c.appendToEndOfList a = .ok c') : Keeps c c' := by
  obtain ⟨tailer, -, h⟩ := exists_of_bind_eq_ok h
  obtain ⟨c₁, h₁, h⟩ := exists_of_bind_eq_ok h
  obtain ⟨c₂, h₂, h⟩ := exists_of_bind_eq_ok h
  obtain ⟨c₃, h₃, h⟩ := exists_of_bind_eq_ok h
  exact (((Keeps.setPrev h₁).trans (Keeps.setNext h₂)).trans (Keeps.setNext h₃)).trans
    (Keeps.setPrev h)

/-- `EvitOne` removes a node and its identifier. -/
lemma Keeps.evitOne (h : c.evitOne = .ok c') : Keeps c c' := by
  obtain ⟨header, -, h⟩ := exists_of_bind_eq_ok h
  split at h
  · cases h
  obtain ⟨firstNode, -, h⟩ := exists_of_bind_eq_ok h
  split at h
  · cases h
  · next iter _ =>
    obtain ⟨c₁, h₁, h⟩ := exists_of_bind_eq_ok h
    obtain rfl := Except.ok.inj h
    refine (Keeps.removeFromList h₁).trans ⟨fun a t ha => ?_, fun id a ha => ?_⟩
    · change ((c₁.heap.erase iter).lookup a).map _ = some t at ha
      by_cases hai : a = iter
      · rw [hai, AList.lookup_erase] at ha
        cases ha
      · rwa [AList.lookup_erase_ne hai] at ha
    · change (c₁.mapping.erase firstNode.identifier).lookup id = some a at ha
      by_cases hid : id = firstNode.identifier
      · rw [hid, AList.lookup_erase] at ha
        cases ha
      · rwa [AList.lookup_erase_ne hid] at ha

lemma Keeps.evictWhile {neededSize : Int32} : ∀ (fuel : ℕ) {c c' : Cache},
    c.evictWhile neededSize fuel = .ok c' → Keeps c c' := by
  intro fuel
  induction fuel with
  | zero => intro c c' h; cases h
  | succ fuel ih =>
    intro c c' h
    unfold Cache.evictWhile at h
    split at h
    · obtain ⟨c₁, h₁, h⟩ := exists_of_bind_eq_ok h
      exact (Keeps.evitOne h₁).trans (ih h)
    · rw [← Except.ok.inj h]
      exact Keeps.refl c

/-! ## Times that are stored -/

/-- A call has stored a reading in the node of one identifier, and otherwise keeps the times. -/
structure Stamped (c c' : Cache) (id : Bytes) (index : Addr) (now : UInt64) : Prop where
  accessOf : ∀ a t, c'.accessOf a = some t →
    if a = index then t = Int32.ofNat now.toNat else c.accessOf a = some t
  mapping : ∀ id' a, c'.mapping.lookup id' = some a →
    if id' = id then a = index else c.mapping.lookup id' = some a

/-- `TryLoad` of a stored identifier. -/
lemma stamped_tryLoad {id destination destination' : Bytes} {now : UInt64}
    (h : c.tryLoad id destination now = .ok (c', destination', true)) :
    ∃ index, Stamped c c' id index now := by
  unfold Cache.tryLoad at h
  split at h
  · cases h
  · next index hindex =>
    obtain ⟨n, -, h⟩ := exists_of_bind_eq_ok h
    obtain ⟨c₁, h₁, h⟩ := exists_of_bind_eq_ok h
    obtain ⟨c₂, h₂, h⟩ := exists_of_bind_eq_ok h
    obtain ⟨c₃, h₃, h⟩ := exists_of_bind_eq_ok h
    obtain rfl := (Prod.mk.inj (Except.ok.inj h)).1
    have hkeeps := (Keeps.removeFromList h₁).trans (Keeps.appendToEndOfList h₂)
    obtain ⟨_, -, ⟨rfl⟩, rfl⟩ := modify_inv h₃
    refine ⟨index, fun a t ha => ?_, fun id' a ha => ?_⟩
    · rw [accessOf_update] at ha
      split at ha
      · next hai =>
        obtain ⟨n', -, rfl⟩ := Option.map_eq_some_iff.mp ha
        rw [if_pos hai]
        rfl
      · next hai =>
        rw [if_neg hai]
        exact hkeeps.accessOf a t ha
    · rw [mapping_update] at ha
      have hlookup := hkeeps.mapping id' a ha
      split
      · next hid =>
        rw [hid, hindex] at hlookup
        exact (Option.some.inj hlookup).symm
      · exact hlookup

/-- `TryInsert` of an identifier that is not stored. -/
lemma stamped_tryInsert {id source : Bytes} {now : UInt64}
    (h : c.tryInsert A id source now = .ok (c', true)) : ∃ index, Stamped c c' id index now := by
  simp only [Cache.tryInsert] at h
  split at h
  · cases h
  split at h
  · cases h
  obtain ⟨c₁, h₁, h⟩ := exists_of_bind_eq_ok h
  obtain ⟨c₂, h₂, h⟩ := exists_of_bind_eq_ok h
  obtain rfl := (Prod.mk.inj (Except.ok.inj h)).1
  have hevicted := Keeps.evictWhile _ h₁
  have happended := Keeps.appendToEndOfList h₂
  refine ⟨A.next c₁.heap.keys, fun a t ha => ?_, fun id' a ha => ?_⟩
  · have ha' := happended.accessOf a t ha
    change ((c₁.heap.insert _ _).lookup a).map _ = some t at ha'
    split
    · next hnew =>
      rw [hnew, AList.lookup_insert] at ha'
      exact (Option.some.inj ha').symm
    · next hnew =>
      rw [AList.lookup_insert_ne hnew] at ha'
      exact hevicted.accessOf a t ha'
  · change (c₂.mapping.insert id _).lookup id' = some a at ha
    split
    · next hid =>
      rw [hid, AList.lookup_insert] at ha
      exact (Option.some.inj ha).symm
    · next hid =>
      rw [AList.lookup_insert_ne hid] at ha
      exact hevicted.mapping id' a (happended.mapping id' a ha)

/-! ## The times of entries -/

/-- An entry is stored at a node of its own, which has a time. -/
lemma Carries.exists_accessOf (h : Carries c nodes E) {e : Bytes × Bytes} (he : e ∈ E) :
    ∃ a t, c.mapping.lookup e.1 = some a ∧ c.accessOf a = some t ∧ c.entryOf a = some e := by
  have hmem : some e ∈ nodes.map c.entryOf := by
    rw [h.entries]
    exact List.mem_map_of_mem he
  obtain ⟨a, ha, hentry⟩ := List.mem_map.mp hmem
  obtain ⟨n, hn, -⟩ := Option.map_eq_some_iff.mp hentry
  have hid : c.identifierOf a = some e.1 := by rw [identifierOf, hentry]; rfl
  exact ⟨a, n.lastAccessTime, (h.mapped e.1 a).mpr ⟨by simpa using ha, hid⟩,
    by rw [accessOf, hn]; rfl, hentry⟩

/-- The time of an entry. -/
lemma timeOf_eq {id : Bytes} {t : Int32} (hlookup : c.mapping.lookup id = some a)
    (haccess : c.accessOf a = some t) : c.timeOf id = t := by
  rw [timeOf, hlookup, Option.bind_some, haccess, Option.getD_some]

/-- The times of entries after a call that has stamped one of them. -/
lemma Stamped.timeOf {id data : Bytes} {index : Addr} {now : UInt64}
    (h : Stamped c c' id index now) (hcarries : Carries c' nodes E) (hmem : (id, data) ∈ E)
    {e : Bytes × Bytes} (he : e ∈ E) :
    c'.timeOf e.1 = if e.1 = id then Int32.ofNat now.toNat else c.timeOf e.1 := by
  obtain ⟨a, t, hlookup, haccess, hentry⟩ := hcarries.exists_accessOf he
  obtain ⟨a₀, t₀, hlookup₀, -, hentry₀⟩ := hcarries.exists_accessOf hmem
  have hindex : a₀ = index := by simpa using h.mapping id a₀ hlookup₀
  have hmapping := h.mapping e.1 a hlookup
  have htime := h.accessOf a t haccess
  rw [timeOf_eq hlookup haccess]
  by_cases hid : e.1 = id
  · rw [if_pos hid] at hmapping ⊢
    rwa [if_pos hmapping] at htime
  · rw [if_neg hid] at hmapping ⊢
    have hne : a ≠ index := by
      intro hai
      rw [hai, ← hindex, hentry₀] at hentry
      exact hid (congrArg Prod.fst (Option.some.inj hentry)).symm
    rw [if_neg hne] at htime
    exact (timeOf_eq hmapping htime).symm

/-- Reading the time stamps from the first node on. -/
lemma timeStampsFrom_eq (c : Cache) :
    ∀ (nodes : List Addr) (E : List (Bytes × Bytes)) (a : Addr) (fuel : ℕ),
      Visits c.nextOf a nodes c.dummyTailer → c.dummyTailer ∉ nodes →
      nodes.map c.entryOf = E.map some →
      (∀ n ∈ nodes, ∀ id, c.identifierOf n = some id → c.mapping.lookup id = some n) →
      nodes.length < fuel →
      c.timeStampsFrom fuel (c.nextOf a) = E.map fun e => stampOf (c.timeOf e.1) := by
  intro nodes
  induction nodes with
  | nil =>
    intro E a fuel hv _ hE _ hfuel
    obtain ⟨fuel, rfl⟩ : ∃ k, fuel = k + 1 := ⟨fuel - 1, by omega⟩
    rw [show c.nextOf a = some c.dummyTailer from hv]
    have hE : E = [] := by simpa using hE.symm
    simp [timeStampsFrom, hE]
  | cons n nodes ih =>
    intro E a fuel hv ht hE hmapped hfuel
    obtain ⟨fuel, rfl⟩ : ∃ k, fuel = k + 1 := ⟨fuel - 1, by omega⟩
    obtain ⟨e, E', rfl, hn, hE'⟩ := List.map_eq_cons_iff.mp hE.symm
    obtain ⟨m, hm, rfl⟩ := Option.map_eq_some_iff.mp hn.symm
    have hnt : n ≠ c.dummyTailer := fun e => ht (by simp [e])
    have hnext : m.next = c.nextOf n := by rw [nextOf, hm]; rfl
    have htime : c.timeOf m.identifier = m.lastAccessTime :=
      timeOf_eq (hmapped n (by simp) m.identifier (by simp [identifierOf, entryOf, hm]))
        (by rw [accessOf, hm]; rfl)
    rw [hv.1]
    simp only [timeStampsFrom, if_neg hnt, hm, hnext, List.map_cons, htime]
    rw [ih E' n fuel hv.2 (fun h => ht (List.mem_cons_of_mem _ h)) hE'.symm
      (fun n' hn' => hmapped n' (List.mem_cons_of_mem _ hn')) (by simpa using hfuel)]
    rfl

/-- The time stamps are the ones of the entries. -/
lemma Carries.timeStamps_eq (h : Carries c nodes E) :
    c.timeStamps = E.map fun e => stampOf (c.timeOf e.1) := by
  obtain ⟨hlen, htailer⟩ := h.length_lt
  exact timeStampsFrom_eq c nodes E c.dummyHeader _ h.linked.visits htailer h.entries
    (fun n hn id hid => (h.mapped id n).mpr ⟨by simpa using hn, hid⟩) hlen

/-- The bits of the times in the order of the entries. -/
lemma Refines.ordered_iff (h : Refines c s) :
    c.Ordered ↔ s.entries.Pairwise fun e e' =>
      (c.timeOf e.1).toUInt32.toNat ≤ (c.timeOf e'.1).toUInt32.toNat := by
  obtain ⟨nodes, hc⟩ := h.carries
  rw [Ordered, hc.timeStamps_eq, List.pairwise_map]
  simp only [stampOf_le_iff]

/-! ## One call -/

/-- The last entry has been stamped, and the entries in front of it keep their times. -/
lemma Stamped.timeOf_concat {id data : Bytes} {index : Addr} {now : UInt64}
    (h : Stamped c c' id index now) (hrefines : Refines c' s)
    (hentries : s.entries = E ++ [(id, data)]) :
    c'.timeOf id = Int32.ofNat now.toNat ∧ ∀ e ∈ E, c'.timeOf e.1 = c.timeOf e.1 := by
  obtain ⟨nodes, hc⟩ := hrefines.carries
  have hmem : (id, data) ∈ s.entries := by simp [hentries]
  constructor
  · have htime := h.timeOf hc hmem hmem
    rwa [if_pos rfl] at htime
  · intro e he
    have hnodup := s.nodup
    rw [hentries, List.map_append, List.nodup_append] at hnodup
    have hne : e.1 ≠ id := hnodup.2.2 _ (List.mem_map_of_mem he) _ (by simp)
    have htime := h.timeOf hc hmem (e := e) (by simp [hentries, he])
    rwa [if_neg hne] at htime

/-- What stays has been there before, in the same order. -/
lemma Refines.stays_sublist (h : Refines c s) (op : CacheOp) :
    (c.stays op).Sublist s.entries := by
  rw [← h.contents_eq]
  cases op with
  | tryLoad id destination now =>
    simp only [stays]
    split
    · exact List.filter_sublist
    · exact List.nil_sublist _
  | tryInsert id source now =>
    simp only [stays]
    split
    · exact List.nil_sublist _
    · exact (Store.evictWhile_suffix _ _ _ _).sublist
  | clear => exact List.nil_sublist _

/-- A node reads the clock in a call and is the last one of the list then, behind the entries that
stay, which keep their times. -/
def Reads (c c' : Cache) (s' : Store) (op : CacheOp) : Prop :=
  ∃ now ∈ op.now, ∃ e, s'.entries = c.stays op ++ [e] ∧
    c'.timeOf e.1 = Int32.ofNat now.toNat ∧ ∀ e' ∈ c.stays op, c'.timeOf e'.1 = c.timeOf e'.1

/-- No node reads the clock in a call, which leaves the cache as it is or without entries. -/
def ReadsNot (c c' : Cache) (s s' : Store) (op : CacheOp) : Prop :=
  c.stays op = [] ∧ (c' = c ∧ s' = s ∨ s'.entries = [])

/-- `TryLoad` and the times. -/
lemma Refines.tryLoad_times (h : Refines c s) {id destination destination' : Bytes} {now : UInt64}
    (hload : c.tryLoad id destination now = .ok (c', destination', (s.lookup id).isSome))
    (h' : Refines c' (s.load id).1) :
    Reads c c' (s.load id).1 (.tryLoad id destination now) ∨
      ReadsNot c c' s (s.load id).1 (.tryLoad id destination now) := by
  obtain ⟨nodes, hc⟩ := h.carries
  cases hid : s.lookup id with
  | none =>
    have hnone := hc.lookup_eq_none.mpr hid
    rw [tryLoad_absent hnone] at hload
    rw [Store.load_of_none hid]
    exact .inr ⟨by simp [stays, hnone], .inl ⟨(Prod.mk.inj (Except.ok.inj hload)).1.symm, rfl⟩⟩
  | some data =>
    rw [hid] at hload
    rw [Store.load_of_some hid] at h' ⊢
    have hsome : (c.mapping.lookup id).isSome = true := by
      rw [Option.isSome_iff_ne_none, ne_eq, hc.lookup_eq_none]
      exact fun hnone => by rw [Store.lookup, hnone] at hid; cases hid
    have hstays : c.stays (.tryLoad id destination now) = Store.others id s.entries := by
      rw [stays, if_pos hsome, h.contents_eq]
    obtain ⟨index, hstamped⟩ := stamped_tryLoad hload
    obtain ⟨htime, hkeep⟩ := hstamped.timeOf_concat h' rfl
    exact .inl ⟨now, rfl, (id, data), by rw [hstays], htime, by rwa [hstays]⟩

/-- `TryInsert` and the times. -/
lemma Refines.tryInsert_times (h : Refines c s) {id source : Bytes} {now : UInt64}
    (hinsert : c.tryInsert A id source now = .ok (c', (s.insert id source).2))
    (h' : Refines c' (s.insert id source).1) :
    Reads c c' (s.insert id source).1 (.tryInsert id source now) ∨
      ReadsNot c c' s (s.insert id source).1 (.tryInsert id source now) := by
  obtain ⟨nodes, hc⟩ := h.carries
  have hfound : (c.mapping.lookup id).isSome = true ↔ s.lookup id ≠ none := by
    rw [Option.isSome_iff_ne_none, ne_eq, hc.lookup_eq_none, Store.lookup]
  by_cases hdown : (c.mapping.lookup id).isSome = true ∨ Int32.ofNat source.length > c.capacity
  · have hsame : s.insert id source = (s, false) := by
      by_cases hid : s.lookup id = none
      · rw [hfound, h.capacity] at hdown
        exact Store.insert_of_gt hid (hdown.resolve_left fun hno => hno hid)
      · exact Store.insert_of_some hid source
    rw [tryInsert_of_down hdown] at hinsert
    exact .inr ⟨if_pos hdown, .inl ⟨(Prod.mk.inj (Except.ok.inj hinsert)).1.symm, by rw [hsame]⟩⟩
  · have hnew := not_or.mp hdown
    rw [hfound, not_not, h.capacity] at hnew
    rw [Store.insert_of_le hnew.1 hnew.2] at hinsert h' ⊢
    have hstays : c.stays (.tryInsert id source now) =
        (Store.evictWhile s.capacity (Int32.ofNat source.length) s.currentSize s.entries).2 := by
      rw [← h.capacity, ← h.currentSize, ← h.contents_eq]
      exact if_neg hdown
    obtain ⟨index, hstamped⟩ := stamped_tryInsert hinsert
    obtain ⟨htime, hkeep⟩ := hstamped.timeOf_concat h' rfl
    exact .inl ⟨now, rfl, (id, source), by rw [hstays], htime, by rwa [hstays]⟩

/-- **What a call does to the times.** -/
lemma Refines.call_times (h : Refines c s) {op : CacheOp} (hstep : step A c op = some c') :
    ∃ s', Refines c' s' ∧ (Reads c c' s' op ∨ ReadsNot c c' s s' op) := by
  obtain ⟨hcall, h'⟩ := h.of_step hstep
  refine ⟨_, h', ?_⟩
  cases op with
  | tryLoad id destination now =>
    obtain ⟨⟨c₁, destination', found⟩, hload, hreturn⟩ := exists_of_bind_eq_ok hcall
    cases hreturn
    exact h.tryLoad_times hload h'
  | tryInsert id source now =>
    obtain ⟨⟨c₁, done⟩, hinsert, hreturn⟩ := exists_of_bind_eq_ok hcall
    cases hreturn
    exact h.tryInsert_times hinsert h'
  | clear => exact .inr ⟨rfl, .inr rfl⟩

/-- **One call** keeps the time stamps in the order of the list exactly if the clock is not
behind. -/
lemma Refines.ordered_step_iff (h : Refines c s) (hordered : c.Ordered) {op : CacheOp}
    (hstep : step A c op = some c') : c'.Ordered ↔ c.NotBehind op := by
  obtain ⟨s', h', hcases⟩ := h.call_times hstep
  rcases hcases with ⟨now, hnow, e, hentries, htime, hkeep⟩ | ⟨hnone, hsame⟩
  · -- the entries that stay are in order, and the last one has just been stamped
    have hstays := (h.ordered_iff.mp hordered).sublist (h.stays_sublist op)
    have hstays' : (c.stays op).Pairwise fun e e' =>
        (c'.timeOf e.1).toUInt32.toNat ≤ (c'.timeOf e'.1).toUInt32.toNat :=
      hstays.imp_of_mem fun he he' hle => by rwa [hkeep _ he, hkeep _ he']
    rw [h'.ordered_iff, hentries, List.pairwise_append]
    have hlast : ∀ e' ∈ c.stays op, (c'.timeOf e'.1).toUInt32.toNat ≤
        (c'.timeOf e.1).toUInt32.toNat ↔ (c.timeOf e'.1).toUInt32.toNat ≤ now.toNat % 2 ^ 32 := by
      intro e' he'
      rw [hkeep e' he', htime, toNat_toUInt32_ofNat]
    constructor
    · rintro ⟨-, -, hall⟩ now' hnow' e' he'
      obtain rfl : now' = now := Option.some.inj (hnow'.symm.trans hnow)
      exact (hlast e' he').mp (hall e' he' e (List.mem_singleton_self e))
    · intro hbehind
      refine ⟨hstays', List.pairwise_singleton _ _, fun e' he' e'' he'' => ?_⟩
      rw [List.mem_singleton.mp he'']
      exact (hlast e' he').mpr (hbehind now hnow e' he')
  · refine iff_of_true ?_ fun now _ e he => by rw [hnone] at he; cases he
    rcases hsame with ⟨rfl, -⟩ | hempty
    · exact hordered
    · rw [h'.ordered_iff, hempty]
      exact List.Pairwise.nil

/-! ## Runs -/

/-- **A clock that does not wrap** is never behind: it is enough that modulo `2^32` the readings do
not go backwards, from the times that are stored on.

**Proof sketch.** Induction on the calls. A time that is stored after the first call was stored
before it or is its reading, and is not above a later reading in either case. -/
lemma Refines.along_notBehind (ops : List CacheOp) : ∀ {c : Cache} {s : Store}, Refines c s →
    (∀ e ∈ s.entries, ∀ now ∈ ops.filterMap CacheOp.now,
      (c.timeOf e.1).toUInt32.toNat ≤ now.toNat % 2 ^ 32) →
    (ops.filterMap CacheOp.now).Pairwise
      (fun now now' => now.toNat % 2 ^ 32 ≤ now'.toNat % 2 ^ 32) →
    Transition.Along (step A) NotBehind c ops := by
  induction ops with
  | nil => intro c s _ _ _; trivial
  | cons op ops ih =>
    intro c s h hstored hreadings
    have hmem : ∀ now ∈ op.now, now ∈ (op :: ops).filterMap CacheOp.now := fun now hnow =>
      List.mem_filterMap.mpr ⟨op, List.mem_cons_self, hnow⟩
    have hsub : (ops.filterMap CacheOp.now).Sublist ((op :: ops).filterMap CacheOp.now) :=
      (List.sublist_cons_self op ops).filterMap CacheOp.now
    refine ⟨fun now hnow e he => ?_, fun c' hstep => ?_⟩
    · exact hstored e ((h.stays_sublist op).subset he) now (hmem now hnow)
    · obtain ⟨s', h', hcases⟩ := h.call_times hstep
      refine ih h' (fun e he later hlater => ?_) (hreadings.sublist hsub)
      rcases hcases with ⟨now, hnow, e', hentries, htime, hkeep⟩ | ⟨-, ⟨rfl, rfl⟩ | hempty⟩
      · rw [hentries] at he
        rcases List.mem_append.mp he with he | he
        · rw [hkeep e he]
          exact hstored e ((h.stays_sublist op).subset he) later (hsub.subset hlater)
        · rw [List.mem_singleton.mp he, htime, toNat_toUInt32_ofNat]
          rw [List.filterMap_cons_some hnow] at hreadings
          exact (List.pairwise_cons.mp hreadings).1 later hlater
      · exact hstored e he later (hsub.subset hlater)
      · rw [hempty] at he
        cases he

/-- **When the time stamps are in the order of the list.** In every state of a run of any calls on a
new cache, under any clock, the time stamps do not decrease from the least recently used node to the
most recently used one exactly if, whenever a node reads the clock, the reading modulo `2^32` is at
least the time of every entry that stays in the list. This is so if the clock never goes backwards
and all readings lie between the same two multiples of `2^32`. -/
theorem timeStamps_ordered_iff (A : Allocator) (capacity : Int32) (now₁ now₂ : UInt64)
    (ops : List CacheOp) :
    ((∀ front c, front <+: ops →
        Transition.exec (step A) (make A capacity now₁ now₂) front = some c →
          c.timeStamps.Pairwise (· ≤ ·)) ↔
      Transition.Along (step A) NotBehind (make A capacity now₁ now₂) ops) ∧
    ((ops.filterMap CacheOp.now).Pairwise (· ≤ ·) →
      (∃ k, ∀ now ∈ ops.filterMap CacheOp.now, now.toNat / 2 ^ 32 = k) →
        Transition.Along (step A) NotBehind (make A capacity now₁ now₂) ops) := by
  have hmake := refines_make A capacity now₁ now₂
  constructor
  · obtain ⟨c', hc'⟩ := exec_step A ops hmake
    have hordered : (make A capacity now₁ now₂).Ordered :=
      hmake.ordered_iff.mpr List.Pairwise.nil
    have hgood : ∀ c : Cache, (c.Ordered ∧ ∃ s, Refines c s) → c.Ordered := fun c h => h.1
    have hkeep : ∀ (c : Cache) (op : CacheOp) (c' : Cache), (c.Ordered ∧ ∃ s, Refines c s) →
        c.NotBehind op → step A c op = some c' → c'.Ordered ∧ ∃ s, Refines c' s := by
      rintro c op c' ⟨hordered, s, h⟩ hbehind hstep
      obtain ⟨s', h', -⟩ := h.call_times hstep
      exact ⟨(h.ordered_step_iff hordered hstep).mpr hbehind, s', h'⟩
    have hbreak : ∀ (c : Cache) (op : CacheOp) (c' : Cache), (c.Ordered ∧ ∃ s, Refines c s) →
        ¬ c.NotBehind op → step A c op = some c' → ¬ c'.Ordered := by
      rintro c op c' ⟨hordered, s, h⟩ hbehind hstep
      exact mt (h.ordered_step_iff hordered hstep).mp hbehind
    exact (Transition.along_iff hgood hkeep hbreak ops ⟨hordered, _, hmake⟩ hc').symm
  · rintro hclock ⟨k, hk⟩
    refine hmake.along_notBehind ops (fun e he => absurd he List.not_mem_nil) ?_
    refine hclock.imp_of_mem fun {now now'} hnow hnow' hle => ?_
    have hk₁ := hk now hnow
    have hk₂ := hk now' hnow'
    have hle' := UInt64.le_iff_toNat_le.mp hle
    omega

/-- Two resources are stored and the first one is loaded. -/
theorem timeStamps_ordered_iff_two :
    let ops : List CacheOp := [.tryInsert [97] [1, 2] 1717986918400,
      .tryInsert [98] [3] 1717986918401, .tryLoad [97] [] 1717986918402]
    ∀ front c, front <+: ops → Transition.exec (step Allocator.bump)
      (make Allocator.bump 10 1717986918400 1717986918400) front = some c →
        c.timeStamps.Pairwise (· ≤ ·) := by
  intro ops
  obtain ⟨hiff, hclock⟩ :=
    timeStamps_ordered_iff Allocator.bump 10 1717986918400 1717986918400 ops
  refine hiff.mpr (hclock (by decide) ⟨400, fun now hnow => ?_⟩)
  have hnow : now ∈ ([1717986918400, 1717986918401, 1717986918402] : List UInt64) := hnow
  simp only [List.mem_cons, List.not_mem_nil, or_false] at hnow
  rcases hnow with rfl | rfl | rfl <;> rfl

/-- Two resources that are stored one millisecond after the other, when the low 32 bits of the clock
wrap: the second node has the time stamp 0, and the first one `2^64 - 1`. -/
theorem timeStamps_decrease :
    let ops : List CacheOp :=
      [.tryInsert [97] [1, 2] 1717986918399, .tryInsert [98] [3] 1717986918400]
    (ops.filterMap CacheOp.now).Pairwise (· ≤ ·) ∧
      ∃ c, Transition.exec (step Allocator.bump)
        (make Allocator.bump 10 1717986918398 1717986918398) ops = some c ∧
        c.timeStamps = [18446744073709551615, 0] ∧ ¬ c.timeStamps.Pairwise (· ≤ ·) := by
  intro ops
  have hrun : ∃ c, Transition.exec (step Allocator.bump)
      (make Allocator.bump 10 1717986918398 1717986918398) ops = some c ∧
      c.timeStamps = [18446744073709551615, 0] := ⟨_, rfl, by decide +kernel⟩
  obtain ⟨c, hc, hstamps⟩ := hrun
  exact ⟨by decide, c, hc, hstamps, by rw [hstamps]; decide⟩

end Cache

end Icee
