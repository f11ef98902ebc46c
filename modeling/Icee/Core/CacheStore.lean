import Icee.Core.CacheInvariant

set_option relaxedAutoImplicit false
set_option autoImplicit false

/-!
# The cache as a list of entries

What the pointers of the cache amount to: a list of identifiers with their data, least recently
used first, and the two `int`s `capacity_` and `current_size_`. Nothing is idealised here: sizes
are still narrowed to `int` and the counter still wraps, for any capacity and any data. Every call
of the pointer-level model is matched by the same call on the list, and none of them faults.

## Main definitions

* `Icee.Store` — the list, with different identifiers, and the two counters.
* `Icee.Store.load`, `Icee.Store.insert`, `Icee.Store.clear`, `Icee.Store.run` — the operations.
* `Icee.Cache.Refines` — the cache holds exactly the entries of the store, in its order.

## Main results

* `Icee.Cache.Refines.tryLoad`, `Icee.Cache.Refines.tryInsert`, `Icee.Cache.Refines.clear` — the
  simulation, call by call.
* `Icee.Cache.Refines.run` — the simulation over whole runs.
* `Icee.Cache.run_list_invariant` — the invariant of the linked list over whole runs.
-/

namespace Icee

/-! ## The list model -/

/-- The contents of a cache: entries with different identifiers, least recently used first. -/
@[ext] structure Store where
  capacity : Int32
  currentSize : Int32
  entries : List (Bytes × Bytes)
  nodup : (entries.map Prod.fst).Nodup

namespace Store

/-- The data stored under an identifier. -/
def lookup (s : Store) (id : Bytes) : Option Bytes := s.entries.lookup id

/-- The entries under other identifiers. -/
def others (id : Bytes) (entries : List (Bytes × Bytes)) : List (Bytes × Bytes) :=
  entries.filter fun e => e.1 != id

/-- Putting an entry behind entries with other identifiers keeps the identifiers different. -/
lemma nodup_others_concat {entries : List (Bytes × Bytes)} (h : (entries.map Prod.fst).Nodup)
    (id data : Bytes) : ((others id entries ++ [(id, data)]).map Prod.fst).Nodup := by
  rw [List.map_append]
  refine List.nodup_append.mpr ⟨?_, List.nodup_singleton _, ?_⟩
  · exact (List.Sublist.map Prod.fst (List.filter_sublist)).nodup h
  · intro x hx y hy
    obtain ⟨e, he, rfl⟩ := List.mem_map.mp hx
    obtain rfl : y = id := by simpa using hy
    simpa using (List.mem_filter.mp he).2

/-- `TryLoad`: a stored entry becomes the most recently used one. -/
def load (s : Store) (id : Bytes) : Store × Option Bytes :=
  match s.lookup id with
  | none => (s, none)
  | some data =>
    ({ s with
        entries := others id s.entries ++ [(id, data)]
        nodup := nodup_others_concat s.nodup id data }, some data)

/-- Loading what is not stored. -/
lemma load_of_none {s : Store} {id : Bytes} (h : s.lookup id = none) : s.load id = (s, none) := by
  unfold load
  split
  · rfl
  · simp_all

/-- Loading what is stored. -/
lemma load_of_some {s : Store} {id data : Bytes} (h : s.lookup id = some data) :
    s.load id = ({ s with
      entries := others id s.entries ++ [(id, data)]
      nodup := nodup_others_concat s.nodup id data }, some data) := by
  unfold load
  split
  · simp_all
  · next data' h' =>
    obtain rfl : data = data' := Option.some.inj (h.symm.trans h')
    rfl

/-- The eviction loop of `TryInsert`, on the counter and the entries. -/
def evictWhile (capacity neededSize : Int32) :
    Int32 → List (Bytes × Bytes) → Int32 × List (Bytes × Bytes)
  | currentSize, [] => (currentSize, [])
  | currentSize, e :: entries =>
    if capacity - currentSize < neededSize then
      evictWhile capacity neededSize (currentSize - Int32.ofNat e.2.length) entries
    else
      (currentSize, e :: entries)

/-- Evicting leaves a suffix of the entries. -/
lemma evictWhile_suffix (capacity neededSize : Int32) (entries : List (Bytes × Bytes)) :
    ∀ currentSize, (evictWhile capacity neededSize currentSize entries).2 <:+ entries := by
  induction entries with
  | nil => intro currentSize; exact List.suffix_rfl
  | cons e entries ih =>
    intro currentSize
    unfold evictWhile
    split
    · exact (ih _).trans (List.suffix_cons e entries)
    · exact List.suffix_rfl

/-- A new entry behind what the eviction loop leaves. -/
lemma nodup_evictWhile_concat {entries : List (Bytes × Bytes)} (h : (entries.map Prod.fst).Nodup)
    {id : Bytes} (hid : entries.lookup id = none) (data : Bytes)
    (capacity neededSize currentSize : Int32) :
    (((evictWhile capacity neededSize currentSize entries).2 ++ [(id, data)]).map
      Prod.fst).Nodup := by
  have hsuffix := evictWhile_suffix capacity neededSize entries currentSize
  rw [List.map_append]
  refine List.nodup_append.mpr ⟨?_, List.nodup_singleton _, ?_⟩
  · exact (hsuffix.sublist.map Prod.fst).nodup h
  · intro x hx y hy
    obtain ⟨e, he, rfl⟩ := List.mem_map.mp hx
    obtain rfl : y = id := by simpa using hy
    have := List.lookup_eq_none_iff.mp hid e (hsuffix.subset he)
    exact fun heq => by simp [heq] at this

/-- `TryInsert`. -/
def insert (s : Store) (id data : Bytes) : Store × Bool :=
  if h : s.lookup id = none then
    let neededSize := Int32.ofNat data.length
    if neededSize > s.capacity then
      (s, false)
    else
      ({ capacity := s.capacity
         currentSize :=
          (evictWhile s.capacity neededSize s.currentSize s.entries).1 + neededSize
         entries :=
          (evictWhile s.capacity neededSize s.currentSize s.entries).2 ++ [(id, data)]
         nodup := nodup_evictWhile_concat s.nodup h data _ _ _ }, true)
  else
    (s, false)

/-- Inserting what is stored already. -/
lemma insert_of_some {s : Store} {id : Bytes} (h : s.lookup id ≠ none) (data : Bytes) :
    s.insert id data = (s, false) :=
  dif_neg h

/-- Inserting what the narrowed size test rejects. -/
lemma insert_of_gt {s : Store} {id data : Bytes} (hid : s.lookup id = none)
    (h : Int32.ofNat data.length > s.capacity) : s.insert id data = (s, false) := by
  unfold insert
  rw [dif_pos hid]
  exact if_pos h

/-- Inserting a new resource. -/
lemma insert_of_le {s : Store} {id data : Bytes} (hid : s.lookup id = none)
    (h : ¬ Int32.ofNat data.length > s.capacity) :
    s.insert id data = ({
      capacity := s.capacity
      currentSize :=
        (evictWhile s.capacity (Int32.ofNat data.length) s.currentSize s.entries).1 +
          Int32.ofNat data.length
      entries :=
        (evictWhile s.capacity (Int32.ofNat data.length) s.currentSize s.entries).2 ++ [(id, data)]
      nodup := nodup_evictWhile_concat s.nodup hid data _ _ _ }, true) := by
  unfold insert
  rw [dif_pos hid]
  exact if_neg h

/-- What is found is an entry. -/
lemma mem_of_lookup {s : Store} {id data : Bytes} (h : s.lookup id = some data) :
    (id, data) ∈ s.entries := by
  obtain ⟨E₁, E₂, hE, -⟩ := List.lookup_eq_some_iff.mp h
  rw [hE]
  simp

/-- Loading changes the order of the entries only. -/
lemma mem_of_mem_load {s : Store} {id : Bytes} {e : Bytes × Bytes}
    (h : e ∈ (s.load id).1.entries) : e ∈ s.entries := by
  cases hid : s.lookup id with
  | none => rwa [load_of_none hid] at h
  | some data =>
    rw [load_of_some hid] at h
    rcases List.mem_append.mp h with h | h
    · exact (List.mem_filter.mp h).1
    · rw [List.mem_singleton.mp h]
      exact mem_of_lookup hid

/-- Inserting brings in nothing but the new entry. -/
lemma mem_of_mem_insert {s : Store} {id data : Bytes} {e : Bytes × Bytes}
    (h : e ∈ (s.insert id data).1.entries) : e ∈ s.entries ∨ e = (id, data) := by
  by_cases hid : s.lookup id = none
  · by_cases hbig : Int32.ofNat data.length > s.capacity
    · rw [insert_of_gt hid hbig] at h
      exact .inl h
    · rw [insert_of_le hid hbig] at h
      rcases List.mem_append.mp h with h | h
      · exact .inl ((evictWhile_suffix _ _ _ _).subset h)
      · exact .inr (List.mem_singleton.mp h)
  · rw [insert_of_some hid] at h
    exact .inl h

/-- `Clear`. -/
def clear (s : Store) : Store := { s with currentSize := 0, entries := [], nodup := by simp }

/-- A new cache is empty. -/
def make (capacity : Int32) : Store where
  capacity := capacity
  currentSize := 0
  entries := []
  nodup := by simp

/-- One call, with its result. -/
def call (s : Store) : CacheOp → Store × CacheResult
  | .tryLoad id destination _ =>
    ((s.load id).1, .loaded (destination ++ (s.lookup id).getD []) (s.lookup id).isSome)
  | .tryInsert id source _ => ((s.insert id source).1, .inserted (s.insert id source).2)
  | .clear => (s.clear, .cleared)

/-- A finite sequence of calls, with all their results. -/
def run (s : Store) : List CacheOp → Store × List CacheResult
  | [] => (s, [])
  | op :: ops => (((s.call op).1.run ops).1, (s.call op).2 :: ((s.call op).1.run ops).2)

end Store

namespace Cache

open Links

variable {A : Allocator} {c c' : Cache} {s : Store} {nodes : List Addr}
  {E : List (Bytes × Bytes)}

/-! ## The refinement relation -/

/-- The nodes of the list carry the entries `E`, in this order. -/
structure Carries (c : Cache) (nodes : List Addr) (E : List (Bytes × Bytes)) : Prop extends
    Rep c nodes [] where
  entries : nodes.map c.entryOf = E.map some

/-- The cache keeps its invariant and holds exactly the entries of the store. -/
structure Refines (c : Cache) (s : Store) : Prop where
  carries : ∃ nodes, Carries c nodes s.entries
  capacity : c.capacity = s.capacity
  currentSize : c.currentSize = s.currentSize

/-- A stored entry sits at a node of the list, which the hash map knows. -/
lemma Carries.exists_of_lookup (h : Carries c nodes E) {id data : Bytes}
    (hid : E.lookup id = some data) :
    ∃ l₁ n l₂ E₁ E₂, nodes = l₁ ++ n :: l₂ ∧ E = E₁ ++ (id, data) :: E₂ ∧
      c.entryOf n = some (id, data) ∧ l₁.map c.entryOf = E₁.map some ∧
      l₂.map c.entryOf = E₂.map some ∧ c.mapping.lookup id = some n := by
  obtain ⟨E₁, E₂, rfl, -⟩ := List.lookup_eq_some_iff.mp hid
  have he := h.entries
  rw [List.map_append, List.map_cons] at he
  obtain ⟨l₁, l', rfl, hl₁, hl'⟩ := List.map_eq_append_iff.mp he
  obtain ⟨n, l₂, rfl, hn, hl₂⟩ := List.map_eq_cons_iff.mp hl'
  exact ⟨l₁, n, l₂, E₁, E₂, rfl, rfl, hn, hl₁, hl₂,
    (h.mapped id n).mpr ⟨by simp, by rw [identifierOf, hn]; rfl⟩⟩

/-- The hash map knows no identifier that is not stored. -/
lemma Carries.lookup_eq_none (h : Carries c nodes E) {id : Bytes} :
    c.mapping.lookup id = none ↔ E.lookup id = none := by
  constructor
  · intro hm
    cases hid : E.lookup id with
    | none => rfl
    | some data =>
      obtain ⟨_, n, _, _, _, _, _, _, _, _, hn⟩ := h.exists_of_lookup hid
      rw [hm] at hn
      cases hn
  · intro hid
    cases hm : c.mapping.lookup id with
    | none => rfl
    | some n =>
      obtain ⟨hn, hin⟩ := (h.mapped id n).mp hm
      obtain ⟨e, he, hen⟩ : ∃ e ∈ E, c.entryOf n = some e := by
        have : c.entryOf n ∈ E.map some := by
          rw [← h.entries]
          exact List.mem_map_of_mem (by simpa using hn)
        obtain ⟨e, he, hen⟩ := List.mem_map.mp this
        exact ⟨e, he, hen.symm⟩
      rw [identifierOf, hen] at hin
      have := List.lookup_eq_none_iff.mp hid e he
      simp only [Option.map_some, Option.some.injEq] at hin
      simp [hin] at this

/-- The hash map is empty exactly when nothing is stored. -/
lemma Carries.keys_eq_nil (h : Carries c nodes E) : c.mapping.keys = [] ↔ E = [] := by
  constructor
  · intro hk
    cases hE : E with
    | nil => rfl
    | cons e E' =>
      have hl : E.lookup e.1 = some e.2 := by
        rw [hE]
        simp [List.lookup]
      obtain ⟨_, n, _, _, _, _, _, _, _, _, hn⟩ := h.exists_of_lookup hl
      have hmem : e.1 ∈ c.mapping := AList.lookup_isSome.mp (by rw [hn]; rfl)
      rw [AList.mem_keys, hk] at hmem
      cases hmem
  · rintro rfl
    refine List.eq_nil_iff_forall_not_mem.mpr fun id hid => ?_
    have hnone : c.mapping.lookup id = none := h.lookup_eq_none.mpr rfl
    have hsome := AList.lookup_isSome.mpr (AList.mem_keys.mpr hid)
    rw [hnone] at hsome
    cases hsome

/-- Taking the stored entry out of the entries. -/
lemma others_eq {id data : Bytes} {E₁ E₂ : List (Bytes × Bytes)}
    (h : ((E₁ ++ (id, data) :: E₂).map Prod.fst).Nodup) :
    Store.others id (E₁ ++ (id, data) :: E₂) = E₁ ++ E₂ := by
  have hne : ∀ e ∈ E₁ ++ E₂, e.1 ≠ id := by
    intro e he hid
    have hperm : ((E₁ ++ (id, data) :: E₂).map Prod.fst).Perm
        (id :: (E₁ ++ E₂).map Prod.fst) := by
      simp
    have := (List.nodup_cons.mp (hperm.nodup_iff.mp h)).1
    exact this (hid ▸ List.mem_map_of_mem he)
  have hkeep : ∀ l : List (Bytes × Bytes), (∀ e ∈ l, e.1 ≠ id) → Store.others id l = l :=
    fun l hl => List.filter_eq_self.mpr fun e he => by simpa using hl e he
  have h₁ := hkeep E₁ fun e he => hne e (List.mem_append_left _ he)
  have h₂ := hkeep E₂ fun e he => hne e (List.mem_append_right _ he)
  unfold Store.others at h₁ h₂ ⊢
  rw [List.filter_append, List.filter_cons_of_neg (by simp), h₁, h₂]

/-- Reading the linked list from its first node on. -/
lemma contentsFrom_eq (c : Cache) :
    ∀ (nodes : List Addr) (E : List (Bytes × Bytes)) (a : Addr) (fuel : ℕ),
      Visits c.nextOf a nodes c.dummyTailer → c.dummyTailer ∉ nodes →
      nodes.map c.entryOf = E.map some → nodes.length < fuel →
      c.contentsFrom fuel (c.nextOf a) = E := by
  intro nodes
  induction nodes with
  | nil =>
    intro E a fuel hv _ hE hfuel
    obtain ⟨fuel, rfl⟩ : ∃ k, fuel = k + 1 := ⟨fuel - 1, by omega⟩
    rw [show c.nextOf a = some c.dummyTailer from hv]
    have hE : E = [] := by simpa using hE.symm
    simp [contentsFrom, hE]
  | cons n nodes ih =>
    intro E a fuel hv ht hE hfuel
    obtain ⟨fuel, rfl⟩ : ∃ k, fuel = k + 1 := ⟨fuel - 1, by omega⟩
    obtain ⟨e, E', rfl, hn, hE'⟩ := List.map_eq_cons_iff.mp hE.symm
    obtain ⟨m, hm, hme⟩ := Option.map_eq_some_iff.mp hn.symm
    have hnt : n ≠ c.dummyTailer := fun e => ht (by simp [e])
    have hnext : m.next = c.nextOf n := by rw [nextOf, hm]; rfl
    rw [hv.1]
    simp only [contentsFrom, if_neg hnt, hm, hme, hnext]
    rw [ih E' n fuel hv.2 (fun h => ht (List.mem_cons_of_mem _ h)) hE'.symm (by simpa using hfuel)]

/-- A walk along the list meets fewer nodes than there are, and not the tailer. -/
lemma Carries.length_lt (h : Carries c nodes E) :
    nodes.length < c.heap.keys.length ∧ c.dummyTailer ∉ nodes := by
  have hnodup : (c.dummyHeader :: nodes ++ [c.dummyTailer]).Nodup := h.nodup
  have hsub : c.dummyHeader :: nodes ++ [c.dummyTailer] ⊆ c.heap.keys :=
    fun a ha => AList.mem_keys.mp ((h.live a).mpr ha)
  have hlen := (List.subperm_of_subset hnodup hsub).length_le
  refine ⟨by simp at hlen; omega, fun hmem => ?_⟩
  simp only [List.cons_append, List.nodup_cons, List.nodup_append] at hnodup
  exact hnodup.2.2.2 _ hmem _ (by simp) rfl

/-- The linked list of the cache reads as the entries of the store. -/
lemma Refines.contents_eq (h : Refines c s) : c.contents = s.entries := by
  obtain ⟨nodes, hc⟩ := h.carries
  obtain ⟨hlen, htailer⟩ := hc.length_lt
  exact contentsFrom_eq c nodes s.entries c.dummyHeader _ hc.linked.visits htailer hc.entries hlen

/-- Every cache that keeps its invariant is described by a store. -/
lemma Rep.exists_refines (h : Rep c nodes []) : ∃ s, Refines c s := by
  have hE : ∃ E : List (Bytes × Bytes), nodes.map c.entryOf = E.map some := by
    refine ⟨nodes.filterMap c.entryOf, ?_⟩
    rw [List.map_filterMap_some_eq_filter_map_isSome]
    refine (List.filter_eq_self.mpr fun o ho => ?_).symm
    obtain ⟨a, ha, rfl⟩ := List.mem_map.mp ho
    obtain ⟨id, data, he⟩ := h.toShape.exists_entryOf ha
    rw [he]; rfl
  obtain ⟨E, hE⟩ := hE
  have hnodup : (E.map Prod.fst).Nodup := by
    have hsome : (E.map Prod.fst).map some = nodes.map c.identifierOf := by
      have : c.identifierOf = Option.map Prod.fst ∘ c.entryOf := rfl
      rw [this, ← List.map_map, hE, List.map_map, List.map_map]
      rfl
    refine List.Nodup.of_map some ?_
    rw [hsome]
    exact h.nodup_identifierOf
  exact ⟨⟨c.capacity, c.currentSize, E, hnodup⟩, ⟨nodes, h, hE⟩, rfl, rfl⟩

/-! ## The operations -/

/-- The hash map has no entry exactly for what the store does not hold. -/
lemma Refines.lookup_eq_none (h : Refines c s) {id : Bytes} :
    c.mapping.lookup id = none ↔ s.lookup id = none := by
  obtain ⟨nodes, hc⟩ := h.carries
  exact hc.lookup_eq_none

/-- `Cache::TryLoad` does what `Store.load` does. -/
lemma Refines.tryLoad (h : Refines c s) (id destination : Bytes) (now : UInt64) :
    ∃ c', c.tryLoad id destination now =
        .ok (c', destination ++ (s.lookup id).getD [], (s.lookup id).isSome) ∧
      Refines c' (s.load id).1 := by
  obtain ⟨nodes, hc⟩ := h.carries
  cases hid : s.lookup id with
  | none =>
    rw [Store.load_of_none hid]
    refine ⟨c, ?_, h⟩
    rw [tryLoad_absent (hc.lookup_eq_none.mpr hid)]
    simp
  | some data =>
    rw [Store.load_of_some hid]
    obtain ⟨l₁, n, l₂, E₁, E₂, rfl, hE, hn, h₁, h₂, -⟩ := hc.exists_of_lookup hid
    obtain ⟨c', hc', hs, hrep⟩ := hc.toRep.tryLoad_found hn destination now
    refine ⟨c', by simpa using hc', ⟨l₁ ++ l₂ ++ [n], hrep, ?_⟩, ?_, ?_⟩
    · have hnodup := s.nodup
      rw [hE] at hnodup
      simp only [hE, others_eq hnodup, List.map_append, hs.entryOf, h₁, h₂, List.map_cons,
        List.map_nil, hn]
    · exact hs.capacity.trans h.capacity
    · exact hs.currentSize.trans h.currentSize

/-- `Cache::EvitOne` drops the first entry and subtracts its size. -/
lemma Carries.evitOne {e : Bytes × Bytes} (h : Carries c nodes (e :: E)) :
    ∃ c' nodes', c.evitOne = .ok c' ∧ Carries c' nodes' E ∧
      c'.mapping.keys.length < c.mapping.keys.length ∧ c'.capacity = c.capacity ∧
      c'.currentSize = c.currentSize - Int32.ofNat e.2.length := by
  obtain ⟨n, l, rfl, hn, hl⟩ := List.map_eq_cons_iff.mp h.entries
  obtain ⟨c₁, h₁, hrep, hentry, hmap, hcap, hcur⟩ :=
    h.toRep.evitOne (show c.entryOf n = some (e.1, e.2) from hn)
  have hmem : e.1 ∈ c.mapping.keys := by
    have hlookup := (h.mapped e.1 n).mpr ⟨by simp, by rw [identifierOf, hn]; rfl⟩
    exact AList.mem_keys.mp (AList.lookup_isSome.mp (by rw [hlookup]; rfl))
  refine ⟨c₁, l, h₁, ⟨hrep, ?_⟩, ?_, hcap, hcur⟩
  · rw [← hl]
    exact List.map_congr_left hentry
  · have hpos := List.length_pos_of_mem hmem
    have herase := @List.length_erase_of_mem Bytes instBEqOfDecidableEq _ _ _ hmem
    rw [hmap, AList.keys_erase, herase]
    omega

/-- The eviction loop of `Cache::TryInsert` terminates, passes the assertions of `EvitOne` and
does what `Store.evictWhile` does.

**Proof sketch.** Induction on the fuel, which exceeds the number of entries of the hash map. A
turn of the loop removes the first node and erases its entry, so both go down by one. -/
lemma Carries.evictWhile (neededSize : Int32) :
    ∀ (fuel : ℕ) (c : Cache) (nodes : List Addr) (E : List (Bytes × Bytes)), Carries c nodes E →
      c.mapping.keys.length < fuel →
      ∃ c' nodes', c.evictWhile neededSize fuel = .ok c' ∧
        Carries c' nodes' (Store.evictWhile c.capacity neededSize c.currentSize E).2 ∧
        c'.capacity = c.capacity ∧
        c'.currentSize = (Store.evictWhile c.capacity neededSize c.currentSize E).1 := by
  intro fuel
  induction fuel with
  | zero => intro c nodes E _ hfuel; omega
  | succ fuel ih =>
    intro c nodes E h hfuel
    unfold Cache.evictWhile
    cases E with
    | nil =>
      have hkeys := h.keys_eq_nil.mpr rfl
      refine ⟨c, nodes, if_neg fun hcond => hcond.2 hkeys, h, rfl, rfl⟩
    | cons e E =>
      have hkeys : c.mapping.keys ≠ [] := fun hk => by simpa using h.keys_eq_nil.mp hk
      unfold Store.evictWhile
      by_cases hroom : c.capacity - c.currentSize < neededSize
      · obtain ⟨c₁, l, h₁, hcarries, hlen, hcap, hcur⟩ := h.evitOne
        obtain ⟨c', nodes', hc', hcar', hcap', hcur'⟩ := ih c₁ l E hcarries (by omega)
        rw [hcap, hcur] at hcar' hcur'
        refine ⟨c', nodes', ?_, ?_, hcap'.trans hcap, ?_⟩
        · rw [if_pos ⟨hroom, hkeys⟩]
          simpa only [h₁, bind, Except.bind] using hc'
        · rw [if_pos hroom]; exact hcar'
        · rw [if_pos hroom]; exact hcur'
      · refine ⟨c, nodes, if_neg fun hcond => hroom hcond.1, ?_, rfl, ?_⟩
        · rw [if_neg hroom]; exact h
        · rw [if_neg hroom]

/-- `Cache::TryInsert` turns down what is stored already and what the narrowed size test rejects. -/
lemma tryInsert_of_down {id source : Bytes} {now : UInt64}
    (h : (c.mapping.lookup id).isSome = true ∨ Int32.ofNat source.length > c.capacity) :
    c.tryInsert A id source now = .ok (c, false) := by
  unfold Cache.tryInsert
  split
  · rfl
  · next hnone => exact if_pos (h.resolve_left hnone)

/-- `Cache::TryInsert` does what `Store.insert` does.

**Proof sketch.** The guards read the same values on both sides. After them the loop of `EvitOne`
follows `Store.evictWhile`, which leaves a final segment of the entries, so the identifier is still
absent; and the node that is allocated is not live, so it can be appended (`Rep.append_new`). -/
lemma Refines.tryInsert (h : Refines c s) (A : Allocator) (id source : Bytes) (now : UInt64) :
    ∃ c', c.tryInsert A id source now = .ok (c', (s.insert id source).2) ∧
      Refines c' (s.insert id source).1 := by
  obtain ⟨nodes, hc⟩ := h.carries
  by_cases hid : s.lookup id = none
  · have hnone : c.mapping.lookup id = none := hc.lookup_eq_none.mpr hid
    by_cases hbig : Int32.ofNat source.length > s.capacity
    · rw [Store.insert_of_gt hid hbig]
      exact ⟨c, tryInsert_of_down (.inr (by rwa [h.capacity])), h⟩
    · rw [Store.insert_of_le hid hbig]
      obtain ⟨c₁, nodes₁, h₁, hcar₁, hcap₁, hcur₁⟩ := Carries.evictWhile
        (Int32.ofNat source.length) (c.mapping.keys.length + 1) c nodes s.entries hc (by omega)
      rw [h.capacity, h.currentSize] at hcar₁ hcur₁
      have hsuffix := Store.evictWhile_suffix s.capacity (Int32.ofNat source.length) s.entries
        s.currentSize
      have hnone₁ : c₁.mapping.lookup id = none := by
        rw [hcar₁.lookup_eq_none, List.lookup_eq_none_iff]
        exact fun e he => List.lookup_eq_none_iff.mp hid e (hsuffix.subset he)
      have hfresh : A.next c₁.heap.keys ∉ c₁.heap := fun hmem =>
        A.next_notMem _ (AList.mem_keys.mp hmem)
      obtain ⟨c₂, h₂, hrep₂, hentry₂, hnew₂, hcap₂, hcur₂⟩ :=
        hcar₁.toRep.append_new hnone₁ hfresh source now
      refine ⟨{ c₂ with
        currentSize := c₂.currentSize + Int32.ofNat source.length
        mapping := c₂.mapping.insert id (A.next c₁.heap.keys) }, ?_, ?_, ?_, ?_⟩
      · have hbig' : ¬ Int32.ofNat source.length > c.capacity := by rwa [h.capacity]
        simp only [Cache.tryInsert, hnone, Option.isSome_none, Bool.false_eq_true, if_false,
          if_neg hbig', h₁, h₂, bind, Except.bind, pure, Except.pure]
      · refine ⟨nodes₁ ++ [A.next c₁.heap.keys], ⟨hrep₂.toShape.of_heap_eq rfl rfl rfl, ?_⟩, ?_⟩
        · exact hrep₂.mapped
        · change (nodes₁ ++ [A.next c₁.heap.keys]).map c₂.entryOf = _
          rw [List.map_append, List.map_append, List.map_congr_left hentry₂, hcar₁.entries]
          simp [hnew₂]
      · exact hcap₂.trans (hcap₁.trans h.capacity)
      · change c₂.currentSize + _ = _
        rw [hcur₂, hcur₁]
  · rw [Store.insert_of_some hid]
    have hsome : (c.mapping.lookup id).isSome = true := by
      rw [← Option.ne_none_iff_isSome]
      exact fun hm => hid (hc.lookup_eq_none.mp hm)
    exact ⟨c, tryInsert_of_down (.inl hsome), h⟩

/-- `Cache::Clear` does what `Store.clear` does. -/
lemma Refines.clear (h : Refines c s) : ∃ c', c.clear = .ok c' ∧ Refines c' s.clear := by
  obtain ⟨nodes, hc⟩ := h.carries
  obtain ⟨c', hc', hrep, hcap, hcur⟩ := hc.toRep.clear
  exact ⟨c', hc', ⟨[], hrep, rfl⟩, hcap.trans h.capacity, hcur⟩

/-- A new cache is empty. -/
lemma refines_make (A : Allocator) (capacity : Int32) (now₁ now₂ : UInt64) :
    Refines (make A capacity now₁ now₂) (Store.make capacity) :=
  ⟨⟨[], make_rep A capacity now₁ now₂, rfl⟩, rfl, rfl⟩

/-- One call. -/
lemma Refines.call (h : Refines c s) (A : Allocator) (op : CacheOp) :
    ∃ c', c.call A op = .ok (c', (s.call op).2) ∧ Refines c' (s.call op).1 := by
  cases op with
  | tryLoad id destination now =>
    obtain ⟨c', hc', hr⟩ := h.tryLoad id destination now
    exact ⟨c', by simp only [Cache.call, hc']; rfl, hr⟩
  | tryInsert id source now =>
    obtain ⟨c', hc', hr⟩ := h.tryInsert A id source now
    exact ⟨c', by simp only [Cache.call, hc']; rfl, hr⟩
  | clear =>
    obtain ⟨c', hc', hr⟩ := h.clear
    exact ⟨c', by simp only [Cache.call, hc']; rfl, hr⟩

/-- **The simulation over whole runs**: no sequence of calls faults, and the cache gives the
results and keeps the entries of the list model. -/
lemma Refines.run (A : Allocator) (ops : List CacheOp) :
    ∀ {c : Cache} {s : Store}, Refines c s →
      ∃ c', c.run A ops = .ok (c', (s.run ops).2) ∧ Refines c' (s.run ops).1 := by
  induction ops with
  | nil => intro c s h; exact ⟨c, rfl, h⟩
  | cons op ops ih =>
    intro c s h
    obtain ⟨c₁, h₁, hr₁⟩ := h.call A op
    obtain ⟨c₂, h₂, hr₂⟩ := ih hr₁
    exact ⟨c₂, by simp only [Cache.run, h₁, bind, Except.bind, h₂]; rfl, hr₂⟩

/-- Every cache a program can hold is described by a store. -/
lemma Reachable.exists_refines (h : Reachable A c) : ∃ s, Refines c s := by
  obtain ⟨capacity, now₁, now₂, ops, rs, hrun⟩ := h
  obtain ⟨c', hc', hr⟩ := (refines_make A capacity now₁ now₂).run A ops
  rw [hrun] at hc'
  obtain ⟨rfl, -⟩ := Prod.mk.inj (Except.ok.inj hc')
  exact ⟨_, hr⟩

/-- **The linked list over whole runs.** From a new cache of any capacity, every finite sequence
of calls returns: no pointer is invalid, both assertions of `EvitOne` hold whenever `TryInsert`
calls it, and the eviction loop stops. Afterwards list and hash map agree, and the nodes have
different identifiers. -/
theorem run_list_invariant (A : Allocator) (capacity : Int32) (now₁ now₂ : UInt64)
    (ops : List CacheOp) :
    ∃ c rs nodes, (make A capacity now₁ now₂).run A ops = .ok (c, rs) ∧ Intact c nodes ∧
      (nodes.map c.identifierOf).Nodup := by
  obtain ⟨c, hc, hr⟩ := (refines_make A capacity now₁ now₂).run A ops
  obtain ⟨nodes, hcar⟩ := hr.carries
  exact ⟨c, _, nodes, hc, hcar.toRep.intact, hcar.toRep.nodup_identifierOf⟩

end Cache

end Icee
