import Icee.Lib.Lru

set_option relaxedAutoImplicit false
set_option autoImplicit false

/-!
# What a least-recently-used store keeps

An entry of a bounded store is evicted only for the sake of entries that have been used after it. So
it stays as long as it and the entries that have been used since its own last use fit together.

## Main definitions

* `Lru.Resident` — the entry, and behind it nothing but entries of a working set.

## Main results

* `Lru.Resident.load`, `Lru.Resident.insert` — the two operations, on keys of the working set.
-/

namespace Lru

variable {K V : Type*} {size : V → ℕ}

/-- The store holds the entry, the keys behind it are of the working set, and the values under keys
of the working set are no larger than allotted. -/
structure Resident (size : V → ℕ) (I : Finset K) (w : K → ℕ) (k : K) (v : V)
    (entries : List (K × V)) : Prop where
  nodup : (entries.map Prod.fst).Nodup
  split : ∃ front recent, entries = front ++ (k, v) :: recent ∧ ∀ e ∈ recent, e.1 ∈ I
  bounded : ∀ e ∈ entries, e.1 ∈ I → size e.2 ≤ w e.1

/-- An entry under a new key. -/
lemma nodup_concat {entries : List (K × V)} (hnodup : (entries.map Prod.fst).Nodup) {k : K} {v : V}
    (habsent : ∀ e ∈ entries, e.1 ≠ k) : ((entries ++ [(k, v)]).map Prod.fst).Nodup := by
  rw [List.map_append]
  refine List.nodup_append.mpr ⟨hnodup, List.nodup_singleton _, fun x hx y hy => ?_⟩
  obtain ⟨e, he, rfl⟩ := List.mem_map.mp hx
  obtain rfl : y = k := by simpa using hy
  exact habsent e he

/-- Entries with different keys of the working set are together no larger than it. -/
lemma total_le_of_subset {I : Finset K} {w : K → ℕ} {recent : List (K × V)}
    (hnodup : (recent.map Prod.fst).Nodup) (hI : ∀ e ∈ recent, e.1 ∈ I)
    (hw : ∀ e ∈ recent, size e.2 ≤ w e.1) : total size recent ≤ ∑ i ∈ I, w i := by
  classical
  have hsub : (recent.map Prod.fst).toFinset ⊆ I := by
    intro i hi
    obtain ⟨e, he, rfl⟩ := List.mem_map.mp (List.mem_toFinset.mp hi)
    exact hI e he
  calc total size recent ≤ (recent.map fun e => w e.1).sum := List.sum_le_sum hw
    _ = ((recent.map Prod.fst).map w).sum := by rw [List.map_map]; rfl
    _ = ∑ i ∈ (recent.map Prod.fst).toFinset, w i := (List.sum_toFinset w hnodup).symm
    _ ≤ ∑ i ∈ I, w i := Finset.sum_le_sum_of_subset hsub

variable [BEq K] [LawfulBEq K] {I : Finset K} {w : K → ℕ} {k : K} {v : V} {entries : List (K × V)}

/-- The entry is found. -/
lemma Resident.lookup (h : Resident size I w k v entries) : entries.lookup k = some v := by
  obtain ⟨front, recent, rfl, -⟩ := h.split
  refine List.lookup_eq_some_iff.mpr ⟨front, recent, rfl, fun e he => ?_⟩
  have hnodup := h.nodup
  rw [List.map_append, List.map_cons] at hnodup
  have hne := (List.nodup_append.mp hnodup).2.2 e.1 (List.mem_map_of_mem he) k (by simp)
  simpa using fun heq => hne heq.symm

/-- **Looking up** a key of the working set, or the key itself. -/
lemma Resident.load (h : Resident size I w k v entries) {j : K} (hj : j = k ∨ j ∈ I) :
    Resident size I w k v (Lru.load entries j).1 := by
  have hlookup := h.lookup
  unfold Lru.load
  cases hfound : entries.lookup j with
  | none => exact h
  | some u =>
    have hmem : (j, u) ∈ entries := by
      obtain ⟨l₁, l₂, rfl, -⟩ := List.lookup_eq_some_iff.mp hfound
      simp
    have hkeep : ∀ e ∈ entries.filter (fun e => e.1 != j) ++ [(j, u)], e ∈ entries := by
      intro e he
      rcases List.mem_append.mp he with he | he
      · exact (List.mem_filter.mp he).1
      · rw [List.mem_singleton.mp he]
        exact hmem
    refine ⟨?_, ?_, fun e he => h.bounded e (hkeep e he)⟩
    · refine nodup_concat ((List.filter_sublist.map Prod.fst).nodup h.nodup) fun e he => ?_
      simpa using (List.mem_filter.mp he).2
    · by_cases hjk : j = k
      · subst hjk
        obtain rfl : u = v := Option.some.inj (hfound.symm.trans hlookup)
        exact ⟨_, [], rfl, by simp⟩
      · obtain ⟨front, recent, rfl, hrecent⟩ := h.split
        refine ⟨front.filter fun e => e.1 != j, (recent.filter fun e => e.1 != j) ++ [(j, u)], ?_,
          fun e he => ?_⟩
        · rw [List.filter_append, List.filter_cons_of_pos (by simpa using fun heq => hjk heq.symm)]
          simp
        · rcases List.mem_append.mp he with he | he
          · exact hrecent e (List.mem_filter.mp he).1
          · rw [List.mem_singleton.mp he]
            exact hj.resolve_left hjk

/-- **Storing** a value under a key of the working set, if the working set and the entry fit: the
shortest prefix that has to go ends before the entry.

**Proof sketch.** What has been used since the entry and the new value are under different keys of
the working set, so next to the entry there is room for them in the capacity. Hence it is enough if
all that is in front of the entry goes, and the shortest prefix that has to go is no longer than
that. What is left still has the entry in it, with nothing but the working set behind it. -/
lemma Resident.insert (h : Resident size I w k v entries) {capacity : ℕ}
    (hfits : size v + ∑ i ∈ I, w i ≤ capacity) {j : K} (hj : j = k ∨ j ∈ I) {u : V}
    (hu : j ∈ I → size u ≤ w j) :
    Resident size I w k v (Lru.insert size capacity entries j u).1 := by
  have hlookup := h.lookup
  unfold Lru.insert
  split
  · exact h
  next hroom =>
    rw [not_or] at hroom
    have hnone : entries.lookup j = none := Option.not_isSome_iff_eq_none.mp hroom.1
    have hjI : j ∈ I := by
      refine hj.resolve_left ?_
      rintro rfl
      rw [hlookup] at hnone
      cases hnone
    have habsent : ∀ e ∈ entries, e.1 ≠ j := fun e he heq => by
      have := List.lookup_eq_none_iff.mp hnone e he
      simp [heq] at this
    obtain ⟨front, recent, rfl, hrecent⟩ := h.split
    -- what has been used since, with the new value, fits behind the entry
    have hnodup : ((recent ++ [(j, u)]).map Prod.fst).Nodup := by
      have hall := h.nodup
      rw [List.map_append, List.map_cons] at hall
      exact nodup_concat (List.nodup_cons.mp (List.nodup_append.mp hall).2.1).2
        fun e he => habsent e (by simp [he])
    have htotal : total size (recent ++ [(j, u)]) ≤ ∑ i ∈ I, w i := by
      refine total_le_of_subset hnodup (fun e he => ?_) fun e he => ?_
      · rcases List.mem_append.mp he with he | he
        · exact hrecent e he
        · rw [List.mem_singleton.mp he]
          exact hjI
      · rcases List.mem_append.mp he with he | he
        · exact h.bounded e (by simp [he]) (hrecent e he)
        · rw [List.mem_singleton.mp he]
          exact hu hjI
    have hshort : shortest size capacity (size u) (front ++ (k, v) :: recent) ≤ front.length := by
      refine Nat.sInf_le ?_
      simp only [Set.mem_ofPred_eq, List.drop_left, total_cons]
      simp only [total_append, total_cons, total_nil] at htotal
      omega
    have hdrop : (front ++ (k, v) :: recent).drop
        (shortest size capacity (size u) (front ++ (k, v) :: recent)) =
          front.drop (shortest size capacity (size u) (front ++ (k, v) :: recent)) ++
            (k, v) :: recent := List.drop_append_of_le_length hshort
    have hkeep := List.drop_suffix
      (shortest size capacity (size u) (front ++ (k, v) :: recent)) (front ++ (k, v) :: recent)
    refine ⟨?_, ⟨front.drop (shortest size capacity (size u) (front ++ (k, v) :: recent)),
      recent ++ [(j, u)], ?_, fun e he => ?_⟩, fun e he hI => ?_⟩
    · exact nodup_concat ((hkeep.sublist.map Prod.fst).nodup h.nodup)
        fun e he => habsent e (hkeep.subset he)
    · rw [hdrop]
      simp
    · rcases List.mem_append.mp he with he | he
      · exact hrecent e he
      · rw [List.mem_singleton.mp he]
        exact hjI
    · rcases List.mem_append.mp he with he | he
      · exact h.bounded e (hkeep.subset he) hI
      · rw [List.mem_singleton.mp he] at hI ⊢
        exact hu hI

end Lru
