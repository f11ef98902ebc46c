import Icee.Core.IceeServer

set_option relaxedAutoImplicit false
set_option autoImplicit false

/-!
# The size of the server

The constructor of `IceeServer` is given a number of threads, by default one less than
`std::thread::hardware_concurrency()`. It makes the thread pool, as many reactors as `GetSize` says,
and an acceptor that chooses one of the reactors for every connection by `rand() % size()`. The
number passes through `unsigned`, `int`, `uint32_t` and `size_t` on its way.

## Main definitions

* `Icee.IceeServer.defaultConcurrentNumber` — the default argument.
* `Icee.ThreadPool.make`, `Icee.IceeServer.make` — the loops of the two constructors.
* `Icee.Acceptor.chooseLooper` — the index in `BaseAcceptCallback`.
* `Icee.IceeServer.Sizes.Safe` — what a server must be like.

## Main results

* `Icee.IceeServer.make_eq` — the numbers of threads and reactors, for every argument.
* `Icee.IceeServer.default_safe_iff` — for which machines the default is safe.

## Design

The system may refuse to start a thread, which makes the constructor throw. The counters of the
loops are `int`s and wrap, where the language leaves it open what happens.
-/

namespace Icee

/-- Why a constructor does not return. -/
inductive NotConstructed
  /-- `std::runtime_error("add thread error")`. -/
  | addThreadError
  /-- A loop has not stopped within the iterations it can need. -/
  | endless
  deriving DecidableEq, Repr

namespace ThreadPool

/-- The loop of `ThreadPool(thread_num)`, for at most `fuel` tests of its condition. The system
starts the thread behind the first `threads` ones or does not. For the test, the counter is
converted to `uint32_t`. -/
def addThreads (starts : ℕ → Bool) (threadNum : UInt32) :
    ℕ → Int32 → ℕ → Except NotConstructed ℕ
  | 0, _, _ => .error .endless
  | fuel + 1, i, threads =>
    if i.toUInt32 < threadNum then
      if starts threads then addThreads starts threadNum fuel (i + 1) (threads + 1)
      else .error .addThreadError
    else .ok threads

/-- `ThreadPool(thread_num)`: the number of its threads. -/
def make (starts : ℕ → Bool) (threadNum : UInt32) : Except NotConstructed ℕ :=
  addThreads starts threadNum (threadNum.toNat + 1) 0 0

/-- `GetSize`. -/
def getSize (threads : ℕ) : Int32 := Int32.ofNat threads

end ThreadPool

/-- The index that `BaseAcceptCallback` computes from what `rand` returns, unless it divides by
zero. -/
def Acceptor.chooseLooper (rand : Int32) (eventLoopers : ℕ) : Option Int32 :=
  if eventLoopers = 0 then none else some (Int32.ofNat (sizeOfInt rand % eventLoopers))

namespace IceeServer

/-- The default argument: `hardware_concurrency() - 1` is computed as an `unsigned`. -/
def defaultConcurrentNumber (hardwareConcurrency : UInt32) : Int32 :=
  (hardwareConcurrency - 1).toInt32

/-- The numbers of threads and of reactors. -/
structure Sizes where
  threads : ℕ
  reactors : ℕ
  deriving DecidableEq, Repr

/-- The loop that makes the reactors, for at most `fuel` tests of its condition. -/
def addReactors (size : Int32) : ℕ → Int32 → ℕ → Except NotConstructed ℕ
  | 0, _, _ => .error .endless
  | fuel + 1, i, reactors =>
    if i < size then addReactors size fuel (i + 1) (reactors + 1) else .ok reactors

/-- `IceeServer(server_address, concurrent_number)`. The number is converted to `uint32_t` for the
pool. -/
def make (starts : ℕ → Bool) (concurrentNumber : Int32) : Except NotConstructed Sizes := do
  let threads ← ThreadPool.make starts concurrentNumber.toUInt32
  let size := ThreadPool.getSize threads
  let reactors ← addReactors size (size.toInt.toNat + 1) 0 0
  return { threads, reactors }

/-- The server has at least one thread and no more than the machine, it has as many reactors as
threads, and the acceptor always finds a reactor for a connection. -/
def Sizes.Safe (sizes : Sizes) (hardwareConcurrency : UInt32) : Prop :=
  1 ≤ sizes.threads ∧ sizes.threads ≤ max hardwareConcurrency.toNat 1 ∧
    sizes.reactors = sizes.threads ∧
    ∀ rand, ∃ index, Acceptor.chooseLooper rand sizes.reactors = some index ∧
      sizeOfInt index < sizes.reactors

/-! ## The loops -/

/-- The counter counts. -/
lemma ofNat_add_one (k : ℕ) : Int32.ofNat k + 1 = Int32.ofNat (k + 1) := by
  rw [Int32.ofNat_add]
  rfl

/-- The test of the loop in `ThreadPool`. -/
lemma toUInt32_ofNat_lt_iff {k : ℕ} (hk : k < 2 ^ 32) (n : UInt32) :
    (Int32.ofNat k).toUInt32 < n ↔ k < n.toNat := by
  rw [UInt32.lt_iff_toNat_lt, show (Int32.ofNat k).toUInt32 = UInt32.ofNat k from rfl,
    UInt32.toNat_ofNat', Nat.mod_eq_of_lt hk]

/-- The loop of `ThreadPool`, if the system starts all threads that are still missing. -/
lemma addThreads_eq {starts : ℕ → Bool} {threadNum : UInt32} : ∀ (fuel k : ℕ),
    k ≤ threadNum.toNat → threadNum.toNat - k < fuel →
    (∀ i, k ≤ i → i < threadNum.toNat → starts i = true) →
      ThreadPool.addThreads starts threadNum fuel (Int32.ofNat k) k = .ok threadNum.toNat := by
  intro fuel
  induction fuel with
  | zero => intro k _ hfuel; omega
  | succ fuel ih =>
    intro k hk hfuel hstarts
    have htest := toUInt32_ofNat_lt_iff (Nat.lt_of_le_of_lt hk threadNum.toNat_lt) threadNum
    unfold ThreadPool.addThreads
    by_cases hnext : k < threadNum.toNat
    · rw [if_pos (htest.mpr hnext), if_pos (hstarts k le_rfl hnext), ofNat_add_one]
      exact ih (k + 1) hnext (by omega) fun i hi => hstarts i (by omega)
    · rw [if_neg (mt htest.mp hnext), show k = threadNum.toNat by omega]

/-- The loop of `ThreadPool`, if the system does not start one of the threads that are missing. -/
lemma addThreads_error {starts : ℕ → Bool} {threadNum : UInt32} : ∀ (fuel k : ℕ),
    threadNum.toNat - k < fuel → (∃ i, k ≤ i ∧ i < threadNum.toNat ∧ starts i = false) →
      ThreadPool.addThreads starts threadNum fuel (Int32.ofNat k) k = .error .addThreadError := by
  intro fuel
  induction fuel with
  | zero => intro k hfuel; omega
  | succ fuel ih =>
    rintro k hfuel ⟨i, hki, hi, hrefused⟩
    have hnext : k < threadNum.toNat := Nat.lt_of_le_of_lt hki hi
    have htest := toUInt32_ofNat_lt_iff (hnext.trans threadNum.toNat_lt) threadNum
    unfold ThreadPool.addThreads
    rw [if_pos (htest.mpr hnext)]
    cases hstart : starts k with
    | false => rfl
    | true =>
      have hne : k ≠ i := by
        rintro rfl
        rw [hstart] at hrefused
        cases hrefused
      rw [if_pos rfl, ofNat_add_one]
      exact ih (k + 1) (by omega) ⟨i, by omega, hi, hrefused⟩

/-- The loop that makes the reactors. A negative size makes none. -/
lemma addReactors_eq {size : Int32} : ∀ (fuel k : ℕ), k ≤ size.toInt.toNat →
    size.toInt.toNat - k < fuel →
      addReactors size fuel (Int32.ofNat k) k = .ok size.toInt.toNat := by
  intro fuel
  induction fuel with
  | zero => intro k _ hfuel; omega
  | succ fuel ih =>
    intro k hk hfuel
    have hlt := size.toInt_lt
    have htest : Int32.ofNat k < size ↔ k < size.toInt.toNat := by
      rw [Int32.lt_iff_toInt_lt, Int32.toInt_ofNat_of_lt (by omega)]
      omega
    unfold addReactors
    by_cases hnext : k < size.toInt.toNat
    · rw [if_pos (htest.mpr hnext), ofNat_add_one]
      exact ih (k + 1) hnext (by omega)
    · rw [if_neg (mt htest.mp hnext), show k = size.toInt.toNat by omega]

/-! ## The numbers -/

/-- **What the constructor makes** of its argument: as many threads as the argument says when it is
read as a `uint32_t`, and as many reactors as it says when it is read as an `int`. -/
theorem make_eq {starts : ℕ → Bool} {concurrentNumber : Int32}
    (hstarts : ∀ i < concurrentNumber.toUInt32.toNat, starts i = true) :
    make starts concurrentNumber = .ok
      { threads := concurrentNumber.toUInt32.toNat
        reactors := concurrentNumber.toInt.toNat } := by
  have hthreads : ThreadPool.make starts concurrentNumber.toUInt32 =
      .ok concurrentNumber.toUInt32.toNat :=
    addThreads_eq _ 0 (Nat.zero_le _) (by omega) fun i _ hi => hstarts i hi
  have hsize : ThreadPool.getSize concurrentNumber.toUInt32.toNat = concurrentNumber :=
    congrArg UInt32.toInt32 UInt32.ofNat_toNat
  have hreactors : addReactors concurrentNumber (concurrentNumber.toInt.toNat + 1) 0 0 =
      .ok concurrentNumber.toInt.toNat := addReactors_eq _ 0 (Nat.zero_le _) (by omega)
  simp only [make, hthreads, hsize, hreactors, bind, Except.bind, pure, Except.pure]

/-- The constructor throws if the system does not start one of the threads. -/
lemma make_error {starts : ℕ → Bool} {concurrentNumber : Int32} {i : ℕ}
    (hi : i < concurrentNumber.toUInt32.toNat) (hrefused : starts i = false) :
    make starts concurrentNumber = .error .addThreadError := by
  have hthreads : ThreadPool.make starts concurrentNumber.toUInt32 = .error .addThreadError :=
    addThreads_error _ 0 (by omega) ⟨i, Nat.zero_le _, hi, hrefused⟩
  simp only [make, hthreads, bind, Except.bind]

/-- **The acceptor finds a reactor** among any number of reactors that an `int` can tell, unless
there is none. -/
lemma chooseLooper_spec {eventLoopers : ℕ} (hsome : 0 < eventLoopers)
    (hlt : eventLoopers < 2 ^ 31) (rand : Int32) :
    ∃ index, Acceptor.chooseLooper rand eventLoopers = some index ∧
      sizeOfInt index < eventLoopers := by
  have hmod := Nat.mod_lt (sizeOfInt rand) hsome
  refine ⟨_, if_neg (by omega), ?_⟩
  rw [sizeOfInt_ofNat (by omega)]
  exact hmod

/-- The default argument as a `uint32_t` and as an `int`. -/
lemma defaultConcurrentNumber_spec (h : UInt32) :
    (defaultConcurrentNumber h).toUInt32.toNat = (4294967295 + h.toNat) % 4294967296 ∧
      (defaultConcurrentNumber h).toInt =
        (((4294967295 + h.toNat) % 4294967296 : ℕ) : ℤ).bmod 4294967296 := by
  have hsub : (h - 1).toNat = (4294967295 + h.toNat) % 4294967296 := by
    simpa using UInt32.toNat_sub h 1
  have hcast : (h - 1).toInt32 = Int32.ofNat (h - 1).toNat := by
    rw [← UInt32.toInt32_ofNat', UInt32.ofNat_toNat]
  refine ⟨hsub, ?_⟩
  calc (h - 1).toInt32.toInt
      = (Int32.ofNat (h - 1).toNat).toInt := by rw [hcast]
    _ = (((h - 1).toNat : ℕ) : ℤ).bmod 4294967296 := Int32.toInt_ofNat'
    _ = _ := by rw [hsub]

/-- **On which machines the default is safe**: a server is built, with at least one thread and no
more than the machine has, as many reactors as threads, and a reactor for every connection, exactly
if the machine has at least two threads and at most `2^31`, and the system starts all the threads
but one that it is asked for. -/
theorem default_safe_iff (starts : ℕ → Bool) (hardwareConcurrency : UInt32) :
    (∃ sizes, make starts (defaultConcurrentNumber hardwareConcurrency) = .ok sizes ∧
      sizes.Safe hardwareConcurrency) ↔
    (2 ≤ hardwareConcurrency.toNat ∧ hardwareConcurrency.toNat ≤ 2 ^ 31) ∧
      ∀ i < hardwareConcurrency.toNat - 1, starts i = true := by
  obtain ⟨hthreads, hreactors⟩ := defaultConcurrentNumber_spec hardwareConcurrency
  have hlt := hardwareConcurrency.toNat_lt
  constructor
  · rintro ⟨sizes, hmake, hsafe⟩
    have hstarts : ∀ i < (defaultConcurrentNumber hardwareConcurrency).toUInt32.toNat,
        starts i = true := by
      intro i hi
      by_contra hrefused
      rw [make_error hi (by simpa using hrefused)] at hmake
      cases hmake
    rw [make_eq hstarts] at hmake
    cases hmake
    obtain ⟨hone, hmax, hsame, -⟩ := hsafe
    dsimp only at hone hmax hsame
    rw [hthreads] at hone hmax hsame hstarts
    rw [hreactors] at hsame
    rw [Int.bmod_def] at hsame
    have hbounds : 2 ≤ hardwareConcurrency.toNat ∧ hardwareConcurrency.toNat ≤ 2 ^ 31 := by omega
    exact ⟨hbounds, fun i hi => hstarts i (by omega)⟩
  · rintro ⟨⟨htwo, hbound⟩, hstarts⟩
    have hsub : (4294967295 + hardwareConcurrency.toNat) % 4294967296 =
        hardwareConcurrency.toNat - 1 := by omega
    rw [hsub] at hthreads hreactors
    have hint : (defaultConcurrentNumber hardwareConcurrency).toInt.toNat =
        hardwareConcurrency.toNat - 1 := by
      rw [hreactors, Int.bmod_def]
      omega
    refine ⟨_, make_eq (by rwa [hthreads]), ?_⟩
    rw [hthreads, hint]
    refine ⟨?_, ?_, rfl, chooseLooper_spec ?_ ?_⟩
    all_goals dsimp only
    all_goals omega

/-- A machine with one thread: the server has no thread and no reactor, and the first connection
divides by zero. -/
theorem one_thread_divides_by_zero :
    ∃ sizes, make (fun _ => true) (defaultConcurrentNumber 1) = .ok sizes ∧
      sizes = { threads := 0, reactors := 0 } ∧ ¬ sizes.Safe 1 ∧
      Acceptor.chooseLooper 7 sizes.reactors = none := by
  refine ⟨{ threads := 0, reactors := 0 }, by decide, rfl, ?_, rfl⟩
  intro h
  exact absurd h.1 (by decide)

end IceeServer

end Icee
