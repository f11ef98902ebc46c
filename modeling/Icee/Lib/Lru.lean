import Mathlib

set_option relaxedAutoImplicit false
set_option autoImplicit false

/-!
# Bounded stores with least-recently-used eviction

A store is a list of keys with their values, least recently used first. Looking a key up moves
its entry to the end; a new entry goes to the end after the shortest prefix has been dropped that
makes room for it. Keys and values are of arbitrary types, with a size for every value.

## Main definitions

* `Lru.total` — the sum of the sizes.
* `Lru.shortest` — the length of the shortest prefix whose removal makes room.
* `Lru.load`, `Lru.insert` — the two operations.

## Main results

* `Lru.shortest_of_fits`, `Lru.shortest_cons` — evicting one entry at a time from the front
  until the new one fits drops exactly the shortest prefix.
* `Lru.total_drop_shortest_add_le` — afterwards it fits.
-/

namespace Lru

variable {K V : Type*} (size : V → ℕ)

/-- The sum of the sizes of the values. -/
def total (entries : List (K × V)) : ℕ := (entries.map fun e => size e.2).sum

/-- The total of a nonempty list. -/
@[simp] lemma total_cons (e : K × V) (entries : List (K × V)) :
    total size (e :: entries) = size e.2 + total size entries := by
  simp [total]

/-- The total of the empty list. -/
@[simp] lemma total_nil : total size ([] : List (K × V)) = 0 := rfl

/-- Totals add up. -/
@[simp] lemma total_append (l₁ l₂ : List (K × V)) :
    total size (l₁ ++ l₂) = total size l₁ + total size l₂ := by
  simp [total]

/-- The length of the shortest prefix of the entries whose removal leaves room for a value of
the given size. -/
noncomputable def shortest (capacity needed : ℕ) (entries : List (K × V)) : ℕ :=
  sInf {k | total size (entries.drop k) + needed ≤ capacity}

variable {size} {capacity needed : ℕ} {e : K × V} {entries : List (K × V)}

/-- Nothing is removed when there is room. -/
lemma shortest_of_fits (h : total size entries + needed ≤ capacity) :
    shortest size capacity needed entries = 0 :=
  Nat.sInf_eq_zero.mpr (Or.inl h)

/-- Without room the first entry goes, and then the shortest prefix of the rest.

**Proof sketch.** No room with nothing removed means that the shortest prefix is not empty. Its
first entry is the head of the list, and what it removes further is as short as possible for the
tail, since dropping `k + 1` entries of the list drops `k` of its tail. -/
lemma shortest_cons (h : ¬ total size (e :: entries) + needed ≤ capacity) (hn : needed ≤ capacity) :
    shortest size capacity needed (e :: entries) = shortest size capacity needed entries + 1 := by
  have hne : {k | total size (entries.drop k) + needed ≤ capacity}.Nonempty :=
    ⟨entries.length, by simpa using hn⟩
  have hmem : total size (entries.drop (shortest size capacity needed entries)) + needed ≤
      capacity := Nat.sInf_mem hne
  apply le_antisymm
  · exact Nat.sInf_le (by simpa using hmem)
  · have hne' : {k | total size ((e :: entries).drop k) + needed ≤ capacity}.Nonempty :=
      ⟨shortest size capacity needed entries + 1, by simpa using hmem⟩
    have hmem' : total size ((e :: entries).drop (shortest size capacity needed (e :: entries))) +
        needed ≤ capacity := Nat.sInf_mem hne'
    cases hk : shortest size capacity needed (e :: entries) with
    | zero =>
      rw [hk] at hmem'
      exact absurd (by simpa using hmem') h
    | succ k =>
      rw [hk] at hmem'
      have hle : shortest size capacity needed entries ≤ k := Nat.sInf_le (by simpa using hmem')
      omega

/-- After the shortest prefix is gone the new value fits. -/
lemma total_drop_shortest_add_le (hn : needed ≤ capacity) :
    total size (entries.drop (shortest size capacity needed entries)) + needed ≤ capacity :=
  Nat.sInf_mem (s := {k | total size (entries.drop k) + needed ≤ capacity})
    ⟨entries.length, by simpa using hn⟩

variable [BEq K]

/-- Looking up a key makes its entry the most recently used one. -/
def load (entries : List (K × V)) (k : K) : List (K × V) × Option V :=
  match entries.lookup k with
  | none => (entries, none)
  | some v => (entries.filter (fun e => e.1 != k) ++ [(k, v)], some v)

variable (size) in
/-- A value under a new key is stored, if it fits at all, behind what is left after the shortest
prefix has been dropped that makes room for it. -/
noncomputable def insert (capacity : ℕ) (entries : List (K × V)) (k : K) (v : V) :
    List (K × V) × Bool :=
  if (entries.lookup k).isSome ∨ capacity < size v then
    (entries, false)
  else
    (entries.drop (shortest size capacity (size v) entries) ++ [(k, v)], true)

end Lru
