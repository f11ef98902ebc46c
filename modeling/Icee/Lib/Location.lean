import Mathlib.Data.List.Infix
import Mathlib.Tactic.TypeStar
import Mathlib.Tactic.Lemma

set_option relaxedAutoImplicit false
set_option autoImplicit false

/-!
# Walks in a tree of names

A place in a tree whose edges carry names is the list of the names on the way to it from the root.
A walk goes down by a name, goes up, or stays; going up from the root stays there. Where a walk
ends up depends on where it starts only through its net effect: so many steps up, and then down
along certain names.

## Main definitions

* `Location.Component`, `Location.step`, `Location.walk` — walks and where they end up.
* `Location.Net`, `Location.net` — the net effect of a walk.

## Main results

* `Location.walk_eq_apply` — a walk ends up where its net effect leads.
* `Location.prefix_apply_iff` — when that is at or below a given place.
-/

namespace Location

variable {ν : Type*}

/-- One component of a walk. -/
inductive Component (ν : Type*)
  | stay
  | up
  | name (n : ν)
  deriving DecidableEq

/-- One step from a place. -/
def step (place : List ν) : Component ν → List ν
  | .stay => place
  | .up => place.dropLast
  | .name n => place ++ [n]

/-- The place where a walk ends up. -/
def walk (place : List ν) (cs : List (Component ν)) : List ν := cs.foldl step place

/-- A net effect: so many steps up, and then down along some names. -/
structure Net (ν : Type*) where
  climbed : ℕ
  names : List ν
  deriving DecidableEq

namespace Net

/-- One more step behind a net effect: a step up takes back a name, if there is one. -/
def step : Net ν → Component ν → Net ν
  | net, .stay => net
  | ⟨climbed, []⟩, .up => ⟨climbed + 1, []⟩
  | ⟨climbed, n :: names⟩, .up => ⟨climbed, (n :: names).dropLast⟩
  | ⟨climbed, names⟩, .name n => ⟨climbed, names ++ [n]⟩

/-- Where a net effect leads from a place. -/
def apply (net : Net ν) (place : List ν) : List ν :=
  place.take (place.length - net.climbed) ++ net.names

/-- A step behind a net effect. -/
lemma apply_step (net : Net ν) (c : Component ν) (place : List ν) :
    (net.step c).apply place = Location.step (net.apply place) c := by
  obtain ⟨climbed, names⟩ := net
  cases c with
  | stay => rfl
  | up =>
    cases names with
    | nil =>
      simp only [step, apply, Location.step, List.append_nil]
      rw [List.dropLast_eq_take, List.take_take, List.length_take]
      congr 1
      omega
    | cons n names => simp [step, apply, Location.step, List.dropLast_append_of_ne_nil]
  | name n => simp [step, apply, Location.step]

end Net

/-- The net effect of a walk. -/
def net (cs : List (Component ν)) : Net ν := cs.foldl Net.step ⟨0, []⟩

/-- **A walk ends up where its net effect leads.** -/
lemma walk_eq_apply (place : List ν) (cs : List (Component ν)) :
    walk place cs = (net cs).apply place := by
  have hfold : ∀ (cs : List (Component ν)) (eff : Net ν),
      cs.foldl step (eff.apply place) = (cs.foldl Net.step eff).apply place := by
    intro cs
    induction cs with
    | nil => intro eff; rfl
    | cons c cs ih =>
      intro eff
      rw [List.foldl_cons, List.foldl_cons, ← ih, Net.apply_step]
  unfold walk net
  rw [← hfold]
  simp [Net.apply]

/-- A walk after a walk. -/
lemma walk_append (place : List ν) (cs ds : List (Component ν)) :
    walk place (cs ++ ds) = walk (walk place cs) ds :=
  List.foldl_append

/-- A step leads to a place above or below. -/
lemma prefix_or_prefix_step (place : List ν) (c : Component ν) :
    step place c <+: place ∨ place <+: step place c := by
  cases c with
  | stay => exact .inl (List.prefix_refl _)
  | up => exact .inl (List.dropLast_prefix _)
  | name n => exact .inr (List.prefix_append _ _)

/-- What a text begins with, if one of its two parts is known to begin with it or the other way
round. -/
lemma prefix_append_iff {d x names : List ν} (h : d <+: x ∨ x <+: d) :
    d <+: x ++ names ↔ d.drop x.length <+: names := by
  rcases h with h | ⟨rest, rfl⟩
  · refine iff_of_true (h.trans (List.prefix_append _ _)) ?_
    rw [List.drop_eq_nil_of_le h.length_le]
    exact List.nil_prefix
  · rw [List.prefix_append_right_inj, List.drop_left]

/-- **A net effect leads to a place at or below a given one**, which is itself above or below the
start, exactly if the names it descends along begin with those it has climbed out of. -/
lemma prefix_apply_iff {goal place : List ν} (h : goal <+: place ∨ place <+: goal) (eff : Net ν) :
    goal <+: eff.apply place ↔ goal.drop (place.length - eff.climbed) <+: eff.names := by
  have htake : place.take (place.length - eff.climbed) <+: place := List.take_prefix _ _
  have hcomparable : goal <+: place.take (place.length - eff.climbed) ∨
      place.take (place.length - eff.climbed) <+: goal := by
    rcases h with h | h
    · exact List.prefix_or_prefix_of_prefix h htake
    · exact .inr (htake.trans h)
  have hlength : (place.take (place.length - eff.climbed)).length =
      place.length - eff.climbed := by
    rw [List.length_take]
    omega
  unfold Net.apply
  rw [prefix_append_iff hcomparable, hlength]

end Location
