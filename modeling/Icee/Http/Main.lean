import Icee.Http.Client

set_option relaxedAutoImplicit false
set_option autoImplicit false

/-!
# How the server is started

`main` in `src/http/http_server.cc` takes a port and a directory from the command line. The port is
read by `strtol` and then cast to `uint16_t`, so that white space in front of the number and
anything behind it is passed over, and the number counts modulo 65536.

## Main definitions

* `Icee.Http.strtol` — the function of the C library, for the base ten.
* `Icee.Http.main` — the command line, up to the start of the server.
* `Icee.Http.Denotes` — the number that a text begins with.

## Main results

* `Icee.Http.main_serves_iff` — for which arguments the server is started, and on which port.
-/

namespace Icee.Http

/-- `isspace` in the locale `"C"`. -/
def isSpace (c : UInt8) : Bool := c = 32 ∨ 9 ≤ c ∧ c ≤ 13

/-- `isdigit`. -/
def isDigit (c : UInt8) : Bool := 48 ≤ c ∧ c ≤ 57

/-- The loop of `strtol`: the value of the digits that the text begins with, behind those read
before. -/
def readDigits (n : ℕ) : Bytes → ℕ
  | [] => n
  | c :: text => if isDigit c then readDigits (10 * n + (c.toNat - 48)) text else n

/-- A number in the range of `long`, or the end of the range next to it. -/
def clampLong (z : ℤ) : ℤ := max (-2 ^ 63) (min z (2 ^ 63 - 1))

/-- `strtol(text, nullptr, 10)`. -/
def strtol (text : Bytes) : ℤ :=
  clampLong <| match text.dropWhile isSpace with
    | 45 :: text => -(readDigits 0 text : ℤ)
    | 43 :: text => readDigits 0 text
    | text => readDigits 0 text

/-- `static_cast<uint16_t>` of a `long`. -/
def castPort (z : ℤ) : UInt16 := UInt16.ofNat (z % 2 ^ 16).toNat

/-- What becomes of the process. -/
inductive Started
  /-- It prints a message and the usage, and exits. -/
  | failure (message : Bytes)
  /-- The server is made for this address, and its handler serves this directory. -/
  | server (ip : Bytes) (port : UInt16) (directory : Bytes)
  deriving DecidableEq

/-- `main`, up to the construction of the server. -/
def main (fs : FileSystem) (argv : List Bytes) : Started :=
  if argv.length > 3 then .failure (bytes "The number of argument error\n")
  else
    match argv with
    | _ :: portText :: rest =>
      let port := castPort (strtol portText)
      if port = 0 then .failure (bytes "port error\n")
      else
        match rest with
        | [] => .server (bytes "0.0.0.0") port (bytes "../http_dir/")
        | directory :: _ =>
          if isDirectoryExists fs directory then .server (bytes "0.0.0.0") port directory
          else .failure (bytes "directory error\n")
    | _ => .server (bytes "127.0.0.1") 12138 (bytes "../http_dir/")

/-- The text begins, behind white space, with a numeral for the number, and the numeral does not go
on. -/
inductive Denotes (text : Bytes) : ℤ → Prop
  | plain {ws digits rest : Bytes} {n : ℕ} (eq : text = ws ++ (digits ++ rest))
    (space : ∀ c ∈ ws, isSpace c = true) (value : Client.decimal digits = some n)
    (stop : ∀ c ∈ rest.head?, isDigit c = false) : Denotes text n
  | plus {ws digits rest : Bytes} {n : ℕ} (eq : text = ws ++ 43 :: (digits ++ rest))
    (space : ∀ c ∈ ws, isSpace c = true) (value : Client.decimal digits = some n)
    (stop : ∀ c ∈ rest.head?, isDigit c = false) : Denotes text n
  | minus {ws digits rest : Bytes} {n : ℕ} (eq : text = ws ++ 45 :: (digits ++ rest))
    (space : ∀ c ∈ ws, isSpace c = true) (value : Client.decimal digits = some n)
    (stop : ∀ c ∈ rest.head?, isDigit c = false) : Denotes text (-n)

/-! ## Reading a number -/

/-- The value of a numeral. -/
lemma decimal_eq_some_iff {digits : Bytes} {n : ℕ} : Client.decimal digits = some n ↔
    digits ≠ [] ∧ (∀ c ∈ digits, isDigit c = true) ∧
      n = Nat.ofDigits 10 (digits.reverse.map fun c => c.toNat - 48) := by
  simp only [Client.decimal, isDigit, decide_eq_true_eq, Option.ite_none_right_eq_some,
    Option.some.injEq, and_assoc, @eq_comm _ n]

/-- **The loop reads a numeral** to its end. -/
lemma readDigits_append {digits rest : Bytes} (hdigits : ∀ c ∈ digits, isDigit c = true)
    (hstop : ∀ c ∈ rest.head?, isDigit c = false) (n : ℕ) :
    readDigits n (digits ++ rest) = 10 ^ digits.length * n +
      Nat.ofDigits 10 (digits.reverse.map fun c => c.toNat - 48) := by
  induction digits generalizing n with
  | nil =>
    cases rest with
    | nil => simp [readDigits]
    | cons c rest => simp [readDigits, hstop c rfl]
  | cons c digits ih =>
    have hvalue : Nat.ofDigits 10 ((c :: digits).reverse.map fun c => c.toNat - 48) =
        Nat.ofDigits 10 (digits.reverse.map fun c => c.toNat - 48) +
          10 ^ digits.length * (c.toNat - 48) := by
      simp [Nat.ofDigits_append]
    rw [List.cons_append, readDigits, if_pos (hdigits c List.mem_cons_self),
      ih fun d hd => hdigits d (List.mem_cons_of_mem _ hd), hvalue, List.length_cons, pow_succ]
    ring

/-- A text that begins with a numeral. -/
lemma readDigits_of_decimal {digits rest : Bytes} {n : ℕ}
    (hvalue : Client.decimal digits = some n) (hstop : ∀ c ∈ rest.head?, isDigit c = false) :
    readDigits 0 (digits ++ rest) = n := by
  obtain ⟨-, hdigits, rfl⟩ := decimal_eq_some_iff.mp hvalue
  rw [readDigits_append hdigits hstop, Nat.mul_zero, Nat.zero_add]

/-- A text that does not begin with a numeral has the value zero. -/
lemma readDigits_cases (text : Bytes) : readDigits 0 text = 0 ∨
    ∃ digits rest n, text = digits ++ rest ∧ Client.decimal digits = some n ∧
      ∀ c ∈ rest.head?, isDigit c = false := by
  have hsplit := (List.takeWhile_append_dropWhile (p := isDigit) (l := text)).symm
  have hstop : ∀ c ∈ (text.dropWhile isDigit).head?, isDigit c = false := fun c hc => by
    have := List.head?_dropWhile_not isDigit text
    rw [Option.mem_def.mp hc] at this
    simpa using this
  by_cases hempty : text.takeWhile isDigit = []
  · left
    rw [hempty, List.nil_append] at hsplit
    rw [hsplit]
    exact readDigits_append (List.forall_mem_nil _) hstop 0
  · exact .inr ⟨_, _, _, hsplit,
      decimal_eq_some_iff.mpr ⟨hempty, fun c hc => List.mem_takeWhile_imp hc, rfl⟩, hstop⟩

/-- White space is passed over. -/
lemma dropWhile_space {ws : Bytes} (hws : ∀ c ∈ ws, isSpace c = true) {c : UInt8}
    (hc : isSpace c = false) (text : Bytes) : (ws ++ c :: text).dropWhile isSpace = c :: text := by
  rw [List.dropWhile_append_of_pos hws, List.dropWhile_cons_of_neg (by simp [hc])]

/-- What a numeral begins with is neither white space nor a sign. -/
lemma first_digit {c : UInt8} (h : isDigit c = true) : isSpace c = false ∧ c ≠ 45 ∧ c ≠ 43 := by
  simp only [isDigit, decide_eq_true_eq, UInt8.le_iff_toNat_le] at h
  obtain ⟨hle, -⟩ := h
  have hne : ∀ d : UInt8, d.toNat < 48 → c ≠ d := by
    rintro d hd rfl
    exact absurd hle (not_le.mpr hd)
  refine ⟨?_, hne 45 (by decide), hne 43 (by decide)⟩
  simp only [isSpace, decide_eq_false_iff_not, not_or, not_and]
  refine ⟨hne 32 (by decide), fun _ hthirteen => ?_⟩
  rw [UInt8.le_iff_toNat_le] at hthirteen
  exact absurd (hle.trans hthirteen) (by decide)

/-- **A text that begins with a numeral** is read as its number, or as the end of the range. -/
lemma strtol_of_denotes {text : Bytes} {z : ℤ} (h : Denotes text z) :
    strtol text = clampLong z := by
  cases h with
  | @plain ws digits rest n eq space value stop =>
    obtain ⟨hne, hdigits, -⟩ := decimal_eq_some_iff.mp value
    obtain ⟨c, ds, rfl⟩ := List.exists_cons_of_ne_nil hne
    obtain ⟨hspace, hminus, hplus⟩ := first_digit (hdigits c List.mem_cons_self)
    have hread := readDigits_of_decimal value stop
    rw [List.cons_append] at eq hread
    rw [strtol, eq, dropWhile_space space hspace]
    split
    · next text heq => exact absurd (List.cons.inj heq).1 hminus
    · next text heq => exact absurd (List.cons.inj heq).1 hplus
    · rw [hread]
  | @plus ws digits rest n eq space value stop =>
    rw [strtol, eq, dropWhile_space space (by decide)]
    simp only [readDigits_of_decimal value stop]
  | @minus ws digits rest n eq space value stop =>
    rw [strtol, eq, dropWhile_space space (by decide)]
    simp only [readDigits_of_decimal value stop]

/-- **A text that begins with no numeral** is read as zero. -/
lemma exists_denotes {text : Bytes} (h : strtol text ≠ 0) : ∃ z, Denotes text z := by
  have hsplit := (List.takeWhile_append_dropWhile (p := isSpace) (l := text)).symm
  have hspace : ∀ c ∈ text.takeWhile isSpace, isSpace c = true :=
    fun c hc => List.mem_takeWhile_imp hc
  have hzero : clampLong 0 = 0 := by decide
  unfold strtol at h
  split at h
  · next body heq =>
    rw [heq] at hsplit
    rcases readDigits_cases body with hread | ⟨digits, rest, n, rfl, value, stop⟩
    · rw [hread] at h
      exact absurd hzero h
    · exact ⟨_, .minus hsplit hspace value stop⟩
  · next body heq =>
    rw [heq] at hsplit
    rcases readDigits_cases body with hread | ⟨digits, rest, n, rfl, value, stop⟩
    · rw [hread] at h
      exact absurd hzero h
    · exact ⟨_, .plus hsplit hspace value stop⟩
  · rcases readDigits_cases (text.dropWhile isSpace) with
      hread | ⟨digits, rest, n, heq, value, stop⟩
    · rw [hread] at h
      exact absurd hzero h
    · rw [heq] at hsplit
      exact ⟨_, .plain hsplit hspace value stop⟩

/-! ## The port -/

/-- The port that a number is cast to. -/
lemma toNat_castPort (z : ℤ) : ((castPort z).toNat : ℤ) = z % 2 ^ 16 := by
  have hnonneg := Int.emod_nonneg z (show (2 ^ 16 : ℤ) ≠ 0 by decide)
  have hlt := Int.emod_lt_of_pos z (show (0 : ℤ) < 2 ^ 16 by decide)
  rw [castPort, UInt16.toNat_ofNat', Nat.mod_eq_of_lt (by omega), Int.toNat_of_nonneg hnonneg]

/-- What `main` does with a port, and a directory or none. -/
lemma main_eq_iff (fs : FileSystem) (program text : Bytes)
    (directory : Option Bytes) (p : UInt16) :
    main fs (program :: text :: directory.toList) =
        .server (bytes "0.0.0.0") p (directory.getD (bytes "../http_dir/")) ↔
      castPort (strtol text) = p ∧ p ≠ 0 ∧ ∀ d ∈ directory, isDirectoryExists fs d = true := by
  cases directory with
  | none =>
    have hmain : main fs [program, text] =
        if castPort (strtol text) = 0 then .failure (bytes "port error\n")
        else .server (bytes "0.0.0.0") (castPort (strtol text)) (bytes "../http_dir/") := rfl
    rw [Option.toList_none, hmain, Option.getD_none]
    split
    · next hport => exact iff_of_false (by rintro ⟨⟩) fun h => h.2.1 (h.1.symm.trans hport)
    · next hport => simpa [and_comm] using fun h => h ▸ hport
  | some d =>
    have hmain : main fs [program, text, d] =
        if castPort (strtol text) = 0 then .failure (bytes "port error\n")
        else if isDirectoryExists fs d then .server (bytes "0.0.0.0") (castPort (strtol text)) d
        else .failure (bytes "directory error\n") := rfl
    rw [Option.toList_some, hmain, Option.getD_some]
    split
    · next hport => exact iff_of_false (by rintro ⟨⟩) fun h => h.2.1 (h.1.symm.trans hport)
    · next hport =>
      split
      · next hd => simpa [hd] using fun h => h ▸ hport
      · next hd => simp [hd]

/-- **For which arguments the server is started.** Given a port, and a directory or none: the server
is started for the port `p` if and only if `p` is not zero, the directory is one, and the text of
the port begins, behind white space, with a numeral for a number that, cut down to the range of
`long`, is `p` modulo 65536. -/
theorem main_serves_iff (fs : FileSystem) (program text : Bytes)
    (directory : Option Bytes) (p : UInt16) :
    main fs (program :: text :: directory.toList) =
        .server (bytes "0.0.0.0") p (directory.getD (bytes "../http_dir/")) ↔
      p ≠ 0 ∧ (∀ d ∈ directory, isDirectoryExists fs d = true) ∧
        ∃ z, Denotes text z ∧ (p.toNat : ℤ) = clampLong z % 2 ^ 16 := by
  rw [main_eq_iff]
  constructor
  · rintro ⟨hport, hp, hdirectory⟩
    have hne : strtol text ≠ 0 := by
      intro hzero
      rw [hzero] at hport
      exact hp (hport.symm.trans (by decide))
    obtain ⟨z, hz⟩ := exists_denotes hne
    rw [strtol_of_denotes hz] at hport
    exact ⟨hp, hdirectory, z, hz, by rw [← hport, toNat_castPort]⟩
  · rintro ⟨hp, hdirectory, z, hz, heq⟩
    refine ⟨?_, hp, hdirectory⟩
    rw [strtol_of_denotes hz]
    exact UInt16.toNat_inj.mp (Int.ofNat_inj.mp (toNat_castPort (clampLong z) ▸ heq.symm))

/-- A port is read as it is written: white space in front of it and text behind it do not matter. -/
theorem main_toDecimal (fs : FileSystem) (program : Bytes) {ws rest : Bytes}
    (hws : ∀ c ∈ ws, isSpace c = true) (hrest : ∀ c ∈ rest.head?, isDigit c = false) {p : UInt16}
    (hp : p ≠ 0) :
    main fs [program, ws ++ (toDecimal p.toNat ++ rest)] =
      .server (bytes "0.0.0.0") p (bytes "../http_dir/") := by
  refine (main_eq_iff fs program _ none p).mpr ⟨?_, hp, by simp⟩
  rw [strtol_of_denotes (.plain rfl hws (Client.decimal_toDecimal p.toNat) hrest)]
  have hlt := p.toNat_lt
  refine UInt16.toNat_inj.mp (Int.ofNat_inj.mp ?_)
  rw [toNat_castPort, clampLong]
  omega

end Icee.Http
