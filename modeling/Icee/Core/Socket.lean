import Icee.Core.Basic
import Icee.Lib.Ownership
import Icee.Lib.Transition

set_option relaxedAutoImplicit false
set_option autoImplicit false

/-!
# Sockets and their descriptors

`src/core/socket.cc`: a `Socket` owns the descriptor in its `fd_`, which its special members pass
on, close, or set to -1.

## Main definitions

* `Icee.Socket.State` — any number of sockets, and the descriptors that are open.
* `Icee.Socket.Op`, `Icee.Socket.step` — the members that touch `fd_`.
* `Icee.Socket.Owned` — descriptors have one owner, and it has them open.
* `Icee.Socket.Vacant` — no assignment is made to a socket that has a descriptor.

## Main results

* `Icee.Socket.Owned.step` — what keeps descriptors owned.
* `Icee.Socket.owned_iff` — they are owned throughout a run exactly if all assignments in it are
  made to sockets without a descriptor.

## Design

The operating system is the guard of the members that open a descriptor: it may give out any number
that is not open. `close` on a number that is not open does nothing, and on one that has been given
out again it closes what is open under that number now.
-/

namespace Icee

/-- File descriptors. -/
abbrev Fd := ℤ

namespace Socket

/-- The `fd_` of a socket without a descriptor. -/
def noFd : Fd := -1

/-- The sockets that exist, with their `fd_`, the descriptors that are open, and whether a failing
assertion has ended the process. -/
structure State (ι : Type) where
  sockets : ι → Option Fd
  opened : Finset Fd
  aborted : Bool

/-- The members that touch `fd_`. The descriptor is what the operating system answers to
`socket`. -/
inductive Op (ι : Type)
  /-- `Socket()`. -/
  | make (i : ι)
  /-- `Socket(fd)` with a descriptor that has just been opened. -/
  | makeFrom (i : ι) (fd : Fd)
  /-- `Connect`. -/
  | connect (i : ι) (fd : Fd)
  /-- `Bind`. -/
  | bind (i : ι) (setReusable : Bool) (fd : Fd)
  /-- `Socket(Socket &&)`. -/
  | moveFrom (i other : ι)
  /-- `operator=(Socket &&)`. -/
  | assign (i other : ι)
  /-- `~Socket`. -/
  | destroy (i : ι)
  deriving DecidableEq

variable {ι : Type} [DecidableEq ι]

namespace State

/-- No socket exists yet. -/
def start (opened : Finset Fd) : State ι := { sockets := fun _ => none, opened, aborted := false }

/-- `fd_` of a socket is set. -/
def setFd (s : State ι) (i : ι) (fd : Fd) : State ι :=
  { s with sockets := Function.update s.sockets i (some fd) }

/-- `if (fd_ != -1) close(fd_)`. -/
def closeFd (s : State ι) (fd : Fd) : State ι :=
  if fd ≠ noFd then { s with opened := s.opened.erase fd } else s

/-- The operating system opens a descriptor, which becomes the `fd_` of a socket. -/
def openFd (s : State ι) (i : ι) (fd : Fd) : Option (State ι) :=
  if 0 ≤ fd ∧ fd ∉ s.opened then some { s.setFd i fd with opened := insert fd s.opened } else none

/-- `CreateByProtocol`; it throws if there is no descriptor to be had. -/
def createByProtocol (s : State ι) (i : ι) (fd : Fd) : Option (State ι) :=
  if fd = noFd then some (s.setFd i noFd) else s.openFd i fd

/-- `SetReusable` asserts `fd_ != 1`. -/
def setReusable (s : State ι) (i : ι) : State ι :=
  { s with aborted := s.aborted || s.sockets i = some 1 }

/-- The beginning of `Connect` and `Bind`. -/
def create (s : State ι) (i : ι) (fd : Fd) : Option (State ι) :=
  match s.sockets i with
  | none => none
  | some fd' => if fd' = noFd then s.createByProtocol i fd else some s

/-- A member is called, on sockets that exist; a constructor makes one that does not. -/
def call (s : State ι) : Op ι → Option (State ι)
  | .make i => if s.sockets i = none then some (s.setFd i noFd) else none
  | .makeFrom i fd => if s.sockets i = none then s.openFd i fd else none
  | .connect i fd => s.create i fd
  | .bind i reusable fd => (s.create i fd).map fun s => if reusable then s.setReusable i else s
  | .moveFrom i other =>
    match s.sockets i, s.sockets other with
    | none, some fd => some ((s.setFd i fd).setFd other noFd)
    | _, _ => none
  | .assign i other =>
    match s.sockets i, s.sockets other with
    | some fd, some otherFd =>
      -- the descriptor is closed, and then `std::swap` hands it to the other socket
      some (((s.closeFd fd).setFd i otherFd).setFd other fd)
    | _, _ => none
  | .destroy i =>
    match s.sockets i with
    | none => none
    | some fd => some { s.closeFd fd with sockets := Function.update s.sockets i none }

end State

/-- One call, as long as the process runs. -/
def step (s : State ι) (op : Op ι) : Option (State ι) := if s.aborted then none else s.call op

/-- **Descriptors have one owner**, and it has them open. -/
structure Owned (s : State ι) : Prop where
  unique : ∀ i j fd, s.sockets i = some fd → s.sockets j = some fd → fd ≠ noFd → i = j
  isOpen : ∀ i fd, s.sockets i = some fd → fd ≠ noFd → fd ∈ s.opened

/-- The socket whose `fd_` a member closes, if it has one. -/
def Op.closes : Op ι → Option ι
  | .assign i _ => some i
  | .destroy i => some i
  | .make _ | .makeFrom .. | .connect .. | .bind .. | .moveFrom .. => none

/-- The member does not call `close` on a descriptor that is closed already or that another socket
has got. -/
def ClosesOwn (s : State ι) (op : Op ι) : Prop :=
  ∀ i fd, op.closes = some i → s.sockets i = some fd → fd ≠ noFd →
    fd ∈ s.opened ∧ ∀ j, j ≠ i → s.sockets j ≠ some fd

/-- If the member is an assignment, the socket to which it is made has no descriptor. -/
def Vacant (s : State ι) : Op ι → Prop
  | .assign i _ => ∀ fd, s.sockets i = some fd → fd = noFd
  | .make _ | .makeFrom .. | .connect .. | .bind .. | .moveFrom .. | .destroy _ => True

instance (s : State ι) (op : Op ι) : Decidable (Vacant s op) :=
  match op with
  | .assign i _ => decidable_of_iff (∀ fd ∈ s.sockets i, fd = noFd) Iff.rfl
  | .make _ | .makeFrom .. | .connect .. | .bind .. | .moveFrom .. | .destroy _ => .isTrue trivial

/-! ## Descriptors and their owners -/

/-- The descriptors that sockets have. -/
def descriptors (sockets : ι → Option Fd) : ι → Option Fd :=
  fun i => (sockets i).filter (· ≠ noFd)

omit [DecidableEq ι] in
/-- What a socket has. -/
lemma descriptors_eq_some {sockets : ι → Option Fd} {i : ι} {fd : Fd} :
    descriptors sockets i = some fd ↔ sockets i = some fd ∧ fd ≠ noFd := by
  simp [descriptors, Option.filter_eq_some_iff]

/-- Setting one `fd_`. -/
lemma descriptors_update (sockets : ι → Option Fd) (i : ι) (x : Option Fd) :
    descriptors (Function.update sockets i x) =
      Function.update (descriptors sockets) i (x.filter (· ≠ noFd)) := by
  funext j
  by_cases hji : j = i
  · subst hji
    simp [descriptors]
  · simp [descriptors, Function.update_of_ne hji]

omit [DecidableEq ι] in
/-- Ownership of descriptors is exclusive ownership. -/
lemma owned_iff_exclusive (s : State ι) :
    Owned s ↔ Ownership.Exclusive (descriptors s.sockets) s.opened := by
  constructor
  · intro h
    refine ⟨fun i j fd hi hj => ?_, fun i fd hi => ?_⟩
    · obtain ⟨hi, hfd⟩ := descriptors_eq_some.mp hi
      exact h.unique i j fd hi (descriptors_eq_some.mp hj).1 hfd
    · obtain ⟨hi, hfd⟩ := descriptors_eq_some.mp hi
      exact h.isOpen i fd hi hfd
  · intro h
    refine ⟨fun i j fd hi hj hfd => ?_, fun i fd hi hfd => ?_⟩
    · exact h.inj i j fd (descriptors_eq_some.mpr ⟨hi, hfd⟩) (descriptors_eq_some.mpr ⟨hj, hfd⟩)
    · exact h.mem i fd (descriptors_eq_some.mpr ⟨hi, hfd⟩)

/-! ## One call -/

section Call

variable {s s' : State ι} {i other : ι} {fd : Fd}

/-- A socket loses its descriptor, which stays open. -/
lemma Owned.setFd_noFd (h : Owned s) (i : ι) : Owned (s.setFd i noFd) := by
  rw [owned_iff_exclusive] at h ⊢
  have hdrop := h.drop i
  rwa [State.setFd, descriptors_update, show (some noFd).filter (· ≠ noFd) = none from rfl]

/-- A socket gets a descriptor that has just been opened. -/
lemma Owned.openFd (h : Owned s) (hopen : s.openFd i fd = some s') : Owned s' := by
  rw [owned_iff_exclusive] at h ⊢
  unfold State.openFd at hopen
  split at hopen
  · next hfresh =>
    obtain ⟨hpos, hnew⟩ := hfresh
    cases hopen
    have hfd : fd ≠ noFd := by
      rintro rfl
      exact absurd hpos (by decide)
    have hacquire := h.acquire (show fd ∉ (s.opened : Set Fd) by simpa using hnew) i
    simpa [State.setFd, descriptors_update, Option.filter, hfd] using hacquire
  · cases hopen

/-- `CreateByProtocol` is called for a socket without a descriptor only. -/
lemma Owned.create (h : Owned s) (hcreate : s.create i fd = some s') : Owned s' := by
  unfold State.create at hcreate
  split at hcreate
  · cases hcreate
  · split at hcreate
    · unfold State.createByProtocol at hcreate
      split at hcreate
      · cases hcreate
        exact h.setFd_noFd i
      · exact h.openFd hcreate
    · cases hcreate
      exact h

/-- A descriptor passes from one socket to another. -/
lemma Owned.move (h : Owned s) (hother : s.sockets other = some fd) (i : ι) :
    Owned ((s.setFd i fd).setFd other noFd) := by
  rw [owned_iff_exclusive] at h ⊢
  have hmove := h.move i other
  have hdescriptor : descriptors s.sockets other = (some fd).filter (· ≠ noFd) := by
    rw [descriptors, hother]
  rw [hdescriptor] at hmove
  simpa only [State.setFd, descriptors_update,
    show (some noFd).filter (· ≠ noFd) = none from rfl] using hmove

/-- A socket goes, and its descriptor is closed. -/
lemma Owned.destroy (h : Owned s) (hi : s.sockets i = some fd) :
    Owned { s.closeFd fd with sockets := Function.update s.sockets i none } := by
  rw [owned_iff_exclusive] at h ⊢
  unfold State.closeFd
  by_cases hfd : fd = noFd
  · have hdrop := h.drop i
    simpa [descriptors_update, hfd] using hdrop
  · have hrelease := h.release (descriptors_eq_some.mpr ⟨hi, hfd⟩)
    simpa [descriptors_update, hfd] using hrelease

/-- **One call** keeps descriptors owned, unless it assigns to a socket that has one. -/
lemma Owned.step {op : Op ι} (h : Owned s) (hvacant : Vacant s op) (hstep : step s op = some s') :
    Owned s' := by
  unfold Socket.step at hstep
  split at hstep
  · cases hstep
  · cases op with
    | make i =>
      simp only [State.call] at hstep
      split at hstep
      · cases hstep
        exact h.setFd_noFd i
      · cases hstep
    | makeFrom i fd =>
      simp only [State.call] at hstep
      split at hstep
      · exact h.openFd hstep
      · cases hstep
    | connect i fd => exact h.create hstep
    | bind i reusable fd =>
      obtain ⟨s₁, hcreate, rfl⟩ := Option.map_eq_some_iff.mp hstep
      have h₁ := h.create hcreate
      cases reusable with
      | false => exact h₁
      | true => exact ⟨h₁.unique, h₁.isOpen⟩
    | moveFrom i other =>
      simp only [State.call] at hstep
      split at hstep
      · next fd hi hother =>
        cases hstep
        exact h.move hother i
      · cases hstep
    | assign i other =>
      simp only [State.call] at hstep
      split at hstep
      · next fd otherFd hi hother =>
        cases hstep
        obtain rfl : fd = noFd := hvacant fd hi
        exact h.move hother i
      · cases hstep
    | destroy i =>
      simp only [State.call] at hstep
      split at hstep
      · cases hstep
      · next fd hi =>
        cases hstep
        exact h.destroy hi

/-- **An assignment to a socket that has a descriptor** leaves the closed descriptor with the other
socket. -/
lemma not_owned_of_not_vacant {op : Op ι} (hvacant : ¬ Vacant s op) (hstep : step s op = some s') :
    ¬ Owned s' := by
  unfold Socket.step at hstep
  split at hstep
  · cases hstep
  · cases op with
    | assign i other =>
      simp only [State.call] at hstep
      split at hstep
      · next fd otherFd hi hother =>
        cases hstep
        have hfd : fd ≠ noFd := by
          intro hfd
          refine hvacant fun fd' hi' => ?_
          rw [hi] at hi'
          rw [← Option.some.inj hi', hfd]
        rw [owned_iff_exclusive]
        refine Ownership.not_exclusive_of_held (i := other) (k := fd) ?_ ?_
        · exact descriptors_eq_some.mpr ⟨by simp [State.setFd], hfd⟩
        · simp [State.setFd, State.closeFd, hfd]
      · cases hstep
    | make i => exact absurd trivial hvacant
    | makeFrom i fd => exact absurd trivial hvacant
    | connect i fd => exact absurd trivial hvacant
    | bind i reusable fd => exact absurd trivial hvacant
    | moveFrom i other => exact absurd trivial hvacant
    | destroy i => exact absurd trivial hvacant

omit [DecidableEq ι] in
/-- As long as descriptors are owned, only own ones are closed. -/
lemma Owned.closesOwn (h : Owned s) (op : Op ι) : ClosesOwn s op := by
  intro i fd _ hi hfd
  obtain ⟨hopen, hother⟩ :=
    ((owned_iff_exclusive s).mp h).sole (descriptors_eq_some.mpr ⟨hi, hfd⟩)
  exact ⟨hopen, fun j hji hj => hother j hji (descriptors_eq_some.mpr ⟨hj, hfd⟩)⟩

end Call

/-! ## Runs -/

/-- **When descriptors have one owner and are closed once.** In a run of any calls on any number of
sockets, under an operating system that may give out any descriptor that is not open: in every state
no two sockets hold the same descriptor and every descriptor held is open, and `close` is never
called on one that is closed already or that another socket has got, exactly if every assignment
`operator=(Socket &&)` is made to a socket that has no descriptor. -/
theorem owned_iff (opened : Finset Fd) {ops : List (Op ι)} {s : State ι}
    (hrun : Transition.exec step (State.start opened) ops = some s) :
    ((∀ front t, front <+: ops → Transition.exec step (State.start opened) front = some t →
        Owned t) ∧
      Transition.Along step ClosesOwn (State.start opened) ops) ↔
    Transition.Along step Vacant (State.start opened) ops := by
  have hstart : Owned (State.start opened : State ι) := ⟨by simp [State.start], by simp [State.start]⟩
  have hiff := Transition.along_iff (fun s h => h)
    (fun s op s' h hvacant hstep => Owned.step h hvacant hstep)
    (fun s op s' _ hvacant hstep => not_owned_of_not_vacant hvacant hstep) ops hstart hrun
  constructor
  · rintro ⟨howned, -⟩
    exact hiff.mpr howned
  · intro hvacant
    have howned := hiff.mp hvacant
    exact ⟨howned, Transition.along_of_forall (fun s op h => h.closesOwn op) ops howned⟩

/-- A socket that has been made without a descriptor gets one by assignment, and another one gets
its own by `Bind`. -/
theorem owned_iff_default :
    let ops : List (Op ℕ) := [.make 0, .makeFrom 1 3, .assign 0 1, .bind 1 true 4, .destroy 0,
      .moveFrom 2 1, .destroy 1, .destroy 2]
    (∃ s, Transition.exec step (State.start {0, 1, 2}) ops = some s ∧ s.opened = {0, 1, 2}) ∧
      ∀ front t, front <+: ops → Transition.exec step (State.start {0, 1, 2}) front = some t →
        Owned t := by
  intro ops
  have hrun : ∃ s, Transition.exec step (State.start {0, 1, 2}) ops = some s ∧
      s.opened = {0, 1, 2} := ⟨_, rfl, by decide⟩
  obtain ⟨s, hs, -⟩ := hrun
  exact ⟨⟨_, rfl, by decide⟩, ((owned_iff {0, 1, 2} hs).mpr (by decide)).1⟩

/-- Two sockets with the descriptors 3 and 4, of which the second is assigned to the first. The
descriptor 3 is closed but stays with the second socket. It is given out again to a third one, and
the destructor of the second socket closes it there. -/
theorem assigned_from_closes_again :
    let before : List (Op ℕ) := [.makeFrom 0 3, .makeFrom 1 4, .assign 0 1, .makeFrom 2 3]
    (∃ s, Transition.exec step (State.start ∅) before = some s ∧
      s.sockets 1 = some 3 ∧ s.sockets 2 = some 3 ∧ ¬ Owned s ∧ ¬ ClosesOwn s (.destroy 1)) ∧
    ∃ s, Transition.exec step (State.start ∅) (before ++ [.destroy 1]) = some s ∧
      s.sockets 2 = some 3 ∧ 3 ∉ s.opened := by
  refine ⟨⟨_, rfl, rfl, rfl, ?_, ?_⟩, _, rfl, rfl, by decide⟩
  · intro h
    exact absurd (h.unique 1 2 3 rfl rfl (by decide)) (by decide)
  · intro h
    exact (h 1 3 rfl rfl (by decide)).2 2 (by decide) rfl

end Socket

end Icee
