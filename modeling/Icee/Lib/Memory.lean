import Mathlib.Data.Nat.Digits.Defs
import Mathlib.Tactic.Lemma

set_option relaxedAutoImplicit false
set_option autoImplicit false

/-!
# Memory as a function from addresses to bytes

A piece of code stores byte strings at addresses, one after the other, and reads ranges back. What a
range holds afterwards is decided by the last store that touches it, if that store covers it.

## Main definitions

* `Memory.read`, `Memory.write`, `Memory.Store`, `Memory.run` — ranges, stores, and stores in turn.
* `Memory.Store.Covers`, `Memory.Store.Within`, `Memory.Store.Apart` — the addresses that a store
  touches.
* `Memory.ByteOrder.encode`, `Memory.ByteOrder.decode` — numbers as byte strings of a fixed length.

## Main results

* `Memory.read_write_of_apart`, `Memory.read_write_inside` — a store and a range.
* `Memory.read_run_of_apart`, `Memory.read_run_of_last` — stores in turn and a range.
* `Memory.ByteOrder.decode_encode` — numbers are read back as they are stored.
-/

namespace Memory

variable {β : Type*}

/-- The contents of a range. -/
def read (m : ℕ → β) (address length : ℕ) : List β := (List.range' address length).map m

/-- A byte string is stored at an address. -/
def write (m : ℕ → β) (address : ℕ) (bs : List β) : ℕ → β :=
  fun x => if x < address then m x else bs[x - address]?.getD (m x)

/-- A store. -/
structure Store (β : Type*) where
  address : ℕ
  bytes : List β
  deriving DecidableEq, Repr

/-- Stores in turn. -/
def run (m : ℕ → β) (stores : List (Store β)) : ℕ → β :=
  stores.foldl (fun m s => write m s.address s.bytes) m

/-- The addresses that a store touches. -/
def Store.Covers (s : Store β) (x : ℕ) : Prop := s.address ≤ x ∧ x < s.address + s.bytes.length

/-- A store touches nothing outside of a range. -/
def Store.Within (s : Store β) (address length : ℕ) : Prop :=
  ∀ x, s.Covers x → address ≤ x ∧ x < address + length

/-- A store does not touch a range. -/
def Store.Apart (s : Store β) (address length : ℕ) : Prop :=
  s.address + s.bytes.length ≤ address ∨ address + length ≤ s.address

variable {m : ℕ → β} {address length : ℕ} {s : Store β}

/-! ## One store -/

@[simp] lemma length_read (m : ℕ → β) (address length : ℕ) :
    (read m address length).length = length := by
  simp [read]

/-- The bytes of a range. -/
lemma getElem?_read {i : ℕ} (hi : i < length) :
    (read m address length)[i]? = some (m (address + i)) := by
  simp [read, hi]

/-- Ranges are equal if their bytes are. -/
lemma read_congr {m' : ℕ → β} (h : ∀ x, address ≤ x → x < address + length → m x = m' x) :
    read m address length = read m' address length := by
  refine List.map_congr_left fun x hx => ?_
  obtain ⟨hle, hlt⟩ := List.mem_range'_1.mp hx
  exact h x hle hlt

/-- A range of a range. -/
lemma take_drop_read {i n : ℕ} (h : i + n ≤ length) :
    ((read m address length).drop i).take n = read m (address + i) n := by
  refine List.ext_getElem? fun j => ?_
  by_cases hj : j < n
  · rw [List.getElem?_take_of_lt hj, List.getElem?_drop, getElem?_read (by omega), getElem?_read hj,
      Nat.add_assoc]
  · rw [List.getElem?_eq_none (by simp; omega), List.getElem?_eq_none (by simpa using hj)]

/-- A range, and the range behind it. -/
lemma read_append (m : ℕ → β) (address i n : ℕ) :
    read m address i ++ read m (address + i) n = read m address (i + n) := by
  simp [read, ← List.map_append, List.range'_append_1]

/-- A store does not change what it does not touch. -/
lemma write_of_not_covers {x : ℕ} (hx : ¬ s.Covers x) : write m s.address s.bytes x = m x := by
  unfold write
  split
  · rfl
  · next hle =>
    rw [List.getElem?_eq_none (by unfold Store.Covers at hx; omega), Option.getD_none]

/-- **The frame of a store.** -/
lemma read_write_of_apart (h : s.Apart address length) :
    read (write m s.address s.bytes) address length = read m address length := by
  refine read_congr fun x hle hlt => write_of_not_covers ?_
  unfold Store.Covers
  unfold Store.Apart at h
  omega

/-- What a range holds after a store into it depends on nothing but what it held before. -/
lemma read_write_congr {m' : ℕ → β} {address' : ℕ}
    (h : read m address length = read m' address' length) (k : ℕ) (bs : List β) :
    read (write m (address + k) bs) address length =
      read (write m' (address' + k) bs) address' length := by
  refine List.ext_getElem? fun i => ?_
  by_cases hi : i < length
  · have hbyte : m (address + i) = m' (address' + i) := by
      have hget := congrArg (·[i]?) h
      simp only [getElem?_read hi, Option.some.injEq] at hget
      exact hget
    simp only [getElem?_read hi, write, hbyte, Nat.add_lt_add_iff_left, Nat.add_sub_add_left]
  · rw [List.getElem?_eq_none (by simpa using hi), List.getElem?_eq_none (by simpa using hi)]

/-- **A range inside of a store** holds what the store has there. -/
lemma read_write_inside (hle : s.address ≤ address)
    (hlt : address + length ≤ s.address + s.bytes.length) :
    read (write m s.address s.bytes) address length =
      (s.bytes.drop (address - s.address)).take length := by
  refine List.ext_getElem? fun i => ?_
  by_cases hi : i < length
  · rw [getElem?_read hi, List.getElem?_take_of_lt hi, List.getElem?_drop]
    unfold write
    have hin : address + i - s.address < s.bytes.length := by omega
    rw [if_neg (by omega), show address - s.address + i = address + i - s.address by omega,
      List.getElem?_eq_getElem hin, Option.getD_some]
  · rw [List.getElem?_eq_none (by simpa using hi), List.getElem?_eq_none]
    rw [List.length_take]
    omega

/-- A store stays within a range if both its ends do. -/
lemma Store.within_of_le (hle : address ≤ s.address)
    (hlt : s.address + s.bytes.length ≤ address + length) : s.Within address length := by
  rintro x ⟨hxle, hxlt⟩
  omega

/-! ## Stores in turn -/

/-- The frame of stores. -/
lemma read_run_of_apart {stores : List (Store β)} (h : ∀ s ∈ stores, s.Apart address length) :
    read (run m stores) address length = read m address length := by
  induction stores generalizing m with
  | nil => rfl
  | cons s stores ih =>
    calc read (run (write m s.address s.bytes) stores) address length
        = read (write m s.address s.bytes) address length :=
          ih fun s hs => h s (List.mem_cons_of_mem _ hs)
      _ = read m address length := read_write_of_apart (h s List.mem_cons_self)

/-- Stores do not change what they do not touch. -/
lemma run_of_not_covers {stores : List (Store β)} {x : ℕ} (h : ∀ s ∈ stores, ¬ s.Covers x) :
    run m stores x = m x := by
  induction stores generalizing m with
  | nil => rfl
  | cons s stores ih =>
    calc run (write m s.address s.bytes) stores x
        = write m s.address s.bytes x := ih fun s hs => h s (List.mem_cons_of_mem _ hs)
      _ = m x := write_of_not_covers (h s List.mem_cons_self)

/-- **A range inside of the last store that touches it** holds what that store has there. -/
lemma read_run_of_last {stores : List (Store β)} {i : ℕ} (hi : stores[i]? = some s)
    (hle : s.address ≤ address) (hlt : address + length ≤ s.address + s.bytes.length)
    (hback : ∀ t ∈ stores.drop (i + 1), t.Apart address length) :
    read (run m stores) address length = (s.bytes.drop (address - s.address)).take length := by
  obtain ⟨hlen, hs⟩ := List.getElem?_eq_some_iff.mp hi
  have hsplit : stores = stores.take i ++ s :: stores.drop (i + 1) := by
    rw [← hs, ← List.drop_eq_getElem_cons hlen, List.take_append_drop]
  have hrun : run m stores =
      run (write (run m (stores.take i)) s.address s.bytes) (stores.drop (i + 1)) := by
    conv_lhs => rw [hsplit, run, List.foldl_append, List.foldl_cons]
    rfl
  rw [hrun, read_run_of_apart hback, read_write_inside hle hlt]

/-- A range that is the last store that touches it. -/
lemma read_run_self {stores : List (Store β)} {i : ℕ} (hi : stores[i]? = some s)
    (hlength : s.bytes.length = length)
    (hback : ∀ t ∈ stores.drop (i + 1), t.Apart s.address length) :
    read (run m stores) s.address length = s.bytes := by
  subst hlength
  rw [read_run_of_last hi le_rfl le_rfl hback, Nat.sub_self, List.drop_zero, List.take_length]

/-! ## Numbers -/

/-- Which byte of a number comes first. -/
inductive ByteOrder
  | little
  | big
  deriving DecidableEq, Repr

/-- The lowest byte first. -/
def encodeLittle : ℕ → ℕ → List UInt8
  | 0, _ => []
  | width + 1, n => UInt8.ofNat n :: encodeLittle width (n / 256)

/-- The lowest byte first. -/
def decodeLittle (bs : List UInt8) : ℕ := Nat.ofDigits 256 (bs.map UInt8.toNat)

@[simp] lemma length_encodeLittle (width n : ℕ) : (encodeLittle width n).length = width := by
  induction width generalizing n with
  | zero => rfl
  | succ width ih => rw [encodeLittle, List.length_cons, ih]

lemma decodeLittle_encodeLittle {width n : ℕ} (h : n < 256 ^ width) :
    decodeLittle (encodeLittle width n) = n := by
  induction width generalizing n with
  | zero =>
    rw [pow_zero] at h
    rw [Nat.lt_one_iff.mp h]
    rfl
  | succ width ih =>
    have hrest : n / 256 < 256 ^ width := Nat.div_lt_of_lt_mul (by rwa [← Nat.pow_succ'])
    calc decodeLittle (encodeLittle (width + 1) n)
        = (UInt8.ofNat n).toNat + 256 * decodeLittle (encodeLittle width (n / 256)) := rfl
      _ = n % 256 + 256 * (n / 256) := by rw [ih hrest, UInt8.toNat_ofNat']
      _ = n := Nat.mod_add_div n 256

namespace ByteOrder

/-- The bytes of a number. -/
def encode (order : ByteOrder) (width n : ℕ) : List UInt8 :=
  match order with
  | .little => encodeLittle width n
  | .big => (encodeLittle width n).reverse

/-- The number with these bytes. -/
def decode (order : ByteOrder) (bs : List UInt8) : ℕ :=
  match order with
  | .little => decodeLittle bs
  | .big => decodeLittle bs.reverse

@[simp] lemma length_encode (order : ByteOrder) (width n : ℕ) :
    (order.encode width n).length = width := by
  cases order <;> simp [encode]

/-- **Numbers are read back** as they are stored. -/
lemma decode_encode (order : ByteOrder) {width n : ℕ} (h : n < 256 ^ width) :
    order.decode (order.encode width n) = n := by
  cases order with
  | little => exact decodeLittle_encodeLittle h
  | big => rw [encode, decode, List.reverse_reverse, decodeLittle_encodeLittle h]

end ByteOrder

end Memory
