import Mathlib.Data.Int.Notation
import Mathlib.Data.List.DropRight

/-!
# Texts and numbers in Java and Kotlin

The library functions through which a text typed into the app becomes a number. A
text is the list of its characters, and an exception is `none`. A character outside
the basic plane is two `char`s of a Java string, neither of which is a digit.
-/

namespace HeptaVcn.Java

/-- The zeros of the decimal digits that are a single `char`; nine digits follow each. -/
def digitZeros : List ℕ :=
  [0x30, 0x660, 0x6f0, 0x7c0, 0x966, 0x9e6, 0xa66, 0xae6, 0xb66, 0xbe6, 0xc66, 0xce6, 0xd66,
    0xde6, 0xe50, 0xed0, 0xf20, 0x1040, 0x1090, 0x17e0, 0x1810, 0x1946, 0x19d0, 0x1a80, 0x1a90,
    0x1b50, 0x1bb0, 0x1c40, 0x1c50, 0xa620, 0xa8d0, 0xa900, 0xa9d0, 0xa9f0, 0xaa50, 0xabf0, 0xff10]

/-- `Character.digit(c, 10)` -/
def digit (c : Char) : Option ℕ :=
  (digitZeros.find? fun z => z ≤ c.toNat && c.toNat ≤ z + 9).map (c.toNat - ·)

/-- The value of a nonempty list of decimal digits. -/
def digitsValue (digits : List Char) : Option ℕ :=
  if digits = [] then none else digits.foldlM (fun n c => (digit c).map (10 * n + ·)) 0

def intMin : ℤ := -2147483648
def intMax : ℤ := 2147483647

/-- `Integer.parseInt`: an optional sign and decimal digits whose value fits into 32 bits. -/
def parseInt (s : List Char) : Option ℤ := do
  let n ← match s with
    | '-' :: digits => (digitsValue digits).map fun n => -(n : ℤ)
    | '+' :: digits => (digitsValue digits).map fun n => (n : ℤ)
    | digits => (digitsValue digits).map fun n => (n : ℤ)
  if intMin ≤ n ∧ n ≤ intMax then some n else none

/-- `String.split` at a character: a text without it is left whole, and empty fields at
the end are dropped. -/
def split (sep : Char) (s : List Char) : List (List Char) :=
  if sep ∈ s then (s.splitOn sep).rdropWhile (· = []) else [s]

/-- The 32-bit result of an `int` operation. -/
def wrap (n : ℤ) : ℤ := n.bmod 4294967296

/-- The cast of a number to `int` keeps what is in range. -/
def clamp (n : ℤ) : ℤ := max intMin (min intMax n)

/-- The text that `+` appends for an `int`. -/
def intText : ℤ → List Char
  | .ofNat n => Nat.toDigits 10 n
  | .negSucc n => '-' :: Nat.toDigits 10 (n + 1)

/-- The text of an `int` has digits and a minus sign only. -/
theorem mem_intText {n : ℤ} {c : Char} (hc : c ∈ intText n) : c = '-' ∨ c.isDigit = true := by
  cases n with
  | ofNat n => exact Or.inr (Nat.isDigit_of_mem_toDigits (by decide) (by decide) hc)
  | negSucc n =>
    rcases List.mem_cons.mp hc with hsign | hdigit
    · exact Or.inl hsign
    · exact Or.inr (Nat.isDigit_of_mem_toDigits (by decide) (by decide) hdigit)

/-- Of the integers only the natural numbers are written in digits alone. -/
theorem ofDigitChars_intText {n : ℤ} (h : (intText n).all Char.isDigit = true) :
    (Nat.ofDigitChars 10 (intText n) 0 : ℤ) = n := by
  cases n with
  | ofNat n => simp [intText]
  | negSucc n => simp [intText] at h

/-- An ASCII digit has its place after `0` for a value. -/
theorem digit_of_isDigit {c : Char} (hc : c.isDigit = true) :
    digit c = some (c.toNat - '0'.toNat) := by
  have hrange : 48 ≤ c.toNat ∧ c.toNat ≤ 57 := by
    simp only [Char.isDigit, Bool.and_eq_true, decide_eq_true_eq, ge_iff_le,
      UInt32.le_iff_toNat_le] at hc
    exact hc
  have hfind : digitZeros.find? (fun z => z ≤ c.toNat && c.toNat ≤ z + 9) = some 0x30 := by
    rw [digitZeros, List.find?_cons_of_pos]
    simpa using hrange
  rw [digit, hfind]
  rfl

/-- Digits alone are read as the number they are written for. -/
theorem digitsValue_eq {digits : List Char} (hne : digits ≠ [])
    (hdigits : ∀ c ∈ digits, c.isDigit = true) :
    digitsValue digits = some (Nat.ofDigitChars 10 digits 0) := by
  have hfold (n : ℕ) : digits.foldlM (fun n c => (digit c).map (10 * n + ·)) n =
      some (Nat.ofDigitChars 10 digits n) := by
    clear hne
    induction digits generalizing n with
    | nil => rfl
    | cons c digits ih =>
      rw [List.foldlM_cons, digit_of_isDigit (hdigits c List.mem_cons_self),
        Nat.ofDigitChars_cons]
      exact ih (fun c hc => hdigits c (List.mem_cons_of_mem _ hc)) _
  rw [digitsValue, if_neg hne, hfold]

/-- `parseInt` of digits alone throws only when the number is too large. -/
theorem parseInt_of_isDigit {digits : List Char} (hne : digits ≠ [])
    (hdigits : ∀ c ∈ digits, c.isDigit = true) :
    parseInt digits =
      if (Nat.ofDigitChars 10 digits 0 : ℤ) ≤ intMax then
        some (Nat.ofDigitChars 10 digits 0 : ℤ)
      else none := by
  have hvalue := digitsValue_eq hne hdigits
  have hmin : intMin ≤ (Nat.ofDigitChars 10 digits 0 : ℤ) := by
    simp only [intMin]
    omega
  unfold parseInt
  split
  case h_1 => cases hdigits '-' List.mem_cons_self
  case h_2 => cases hdigits '+' List.mem_cons_self
  case h_3 => simp [hvalue, hmin]

/-- After a minus sign the number is negated. -/
theorem parseInt_minus {digits : List Char} (hne : digits ≠ [])
    (hdigits : ∀ c ∈ digits, c.isDigit = true) {n : ℤ}
    (hn : -(Nat.ofDigitChars 10 digits 0 : ℤ) = n) (hmin : intMin ≤ n) :
    parseInt ('-' :: digits) = some n := by
  have hvalue := digitsValue_eq hne hdigits
  have hmax : n ≤ intMax := by
    simp only [intMax]
    omega
  unfold parseInt
  simp [hvalue, hn, hmin, hmax]

/-- Whatever `parseInt` returns fits into an `int`. -/
theorem range_of_parseInt {s : List Char} {n : ℤ} (h : parseInt s = some n) :
    intMin ≤ n ∧ n ≤ intMax := by
  have hchecked (o : Option ℤ)
      (ho : (o.bind fun m => if intMin ≤ m ∧ m ≤ intMax then some m else none) = some n) :
      intMin ≤ n ∧ n ≤ intMax := by
    obtain ⟨m, _, hm⟩ := Option.bind_eq_some_iff.mp ho
    obtain ⟨hrange, rfl⟩ := Option.ite_none_right_eq_some.mp hm |>.imp_right Option.some.inj
    exact hrange
  unfold parseInt at h
  dsimp only at h
  split at h
  · exact hchecked _ h
  · exact hchecked _ h
  · exact hchecked _ h

/-- `parseInt` reads every `int` that `+` appended. -/
theorem parseInt_intText {n : ℤ} (hmin : intMin ≤ n) (hmax : n ≤ intMax) :
    parseInt (intText n) = some n := by
  have hdigits (n : ℕ) : ∀ c ∈ Nat.toDigits 10 n, c.isDigit = true := fun c hc =>
    Nat.isDigit_of_mem_toDigits (by decide) (by decide) hc
  cases n with
  | ofNat n =>
    rw [intText, parseInt_of_isDigit Nat.toDigits_ne_nil (hdigits n),
      Nat.ofDigitChars_ten_toDigits]
    exact if_pos hmax
  | negSucc n =>
    refine parseInt_minus Nat.toDigits_ne_nil (hdigits (n + 1)) ?_ hmin
    rw [Nat.ofDigitChars_ten_toDigits]
    rfl

end HeptaVcn.Java
