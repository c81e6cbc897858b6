import Mathlib.Algebra.Order.Ring.Int
import Mathlib.Data.List.TakeWhile

/-! Decimal numbers at the front of a text, and the two library functions that read one: the one of
C says where it stopped, the one of Qt wants the whole text. -/
namespace Numerals

def isSpace (c : Char) : Bool := c.toNat = 32 || (9 ≤ c.toNat && c.toNat ≤ 13)

def sign : List Char → Bool × List Char
  | '-' :: rest => (true, rest)
  | '+' :: rest => (false, rest)
  | text => (false, text)

/-- White space, a sign, at least one digit: the number and the text behind it. -/
def scan (text : List Char) : Option (ℤ × List Char) :=
  let signed := sign (text.dropWhile isSpace)
  let digits := signed.2.takeWhile Char.isDigit
  if digits = [] then none
  else
    let value : ℤ := Nat.ofDigitChars 10 digits 0
    some (if signed.1 then -value else value, signed.2.dropWhile Char.isDigit)

/-- `strtol` in base ten for a `long` of 64 bits: the number, as far as it fits, and the text where
it stopped, which is the whole text if there was no number. -/
def strtol (text : List Char) : ℤ × List Char :=
  match scan text with
  | none => (0, text)
  | some (n, rest) => (max (-2 ^ 63) (min n (2 ^ 63 - 1)), rest)

/-- `QByteArray::toInt` in base ten, with `none` for a conversion that fails. Behind the number
there is nothing, or white space in a version of Qt that `skips` it. -/
def toInt (skips : Bool) (text : List Char) : Option ℤ :=
  match scan text with
  | none => none
  | some (n, rest) =>
    if (rest = [] ∨ (skips ∧ rest.all isSpace)) ∧ -2 ^ 31 ≤ n ∧ n ≤ 2 ^ 31 - 1 then some n else none

theorem sign_length (text : List Char) : (sign text).2.length ≤ text.length := by
  unfold sign
  split
  · exact Nat.le_succ _
  · exact Nat.le_succ _
  · exact Nat.le_refl _

theorem scan_shorter {text rest : List Char} {n : ℤ} (found : scan text = some (n, rest)) :
    rest.length < text.length := by
  simp only [scan] at found
  split at found
  · cases found
  · rename_i some_
    obtain ⟨-, rfl⟩ := Prod.mk.inj (Option.some.inj found)
    have spaces := List.length_dropWhile_le isSpace text
    have signs := sign_length (text.dropWhile isSpace)
    have parts := congrArg List.length
      (List.takeWhile_append_dropWhile (p := Char.isDigit) (l := (sign (text.dropWhile isSpace)).2))
    have digits := List.length_pos_iff.mpr some_
    simp only [List.length_append] at parts
    omega

theorem strtol_whole (text : List Char) (n bound : ℤ) (fits : bound < 2 ^ 63 - 1) :
    ((strtol text).2 ≠ text ∧ (strtol text).2 = [] ∧ 0 ≤ (strtol text).1 ∧
      (strtol text).1 ≤ bound ∧ (strtol text).1 = n) ↔
      scan text = some (n, []) ∧ 0 ≤ n ∧ n ≤ bound := by
  unfold strtol
  cases found : scan text with
  | none => simp
  | some number =>
    obtain ⟨m, rest⟩ := number
    have shorter := scan_shorter found
    have other : rest ≠ text := by
      intro same
      rw [same] at shorter
      exact Nat.lt_irrefl _ shorter
    simp only [Option.some.injEq, Prod.mk.injEq, other, ne_eq, not_false_iff, true_and]
    constructor
    · rintro ⟨rfl, low, high, rfl⟩
      refine ⟨⟨?_, rfl⟩, low, high⟩
      omega
    · rintro ⟨⟨rfl, rfl⟩, low, high⟩
      refine ⟨rfl, ?_, ?_, ?_⟩ <;> omega

theorem toInt_eq_some {skips : Bool} {text : List Char} {n : ℤ} :
    toInt skips text = some n ↔ ∃ rest, scan text = some (n, rest) ∧
      (rest = [] ∨ (skips = true ∧ rest.all isSpace = true)) ∧ -2 ^ 31 ≤ n ∧ n ≤ 2 ^ 31 - 1 := by
  unfold toInt
  cases scan text with
  | none => simp only [reduceCtorEq, false_and, exists_false]
  | some number =>
    obtain ⟨m, rest⟩ := number
    simp only [Option.some.injEq, Prod.mk.injEq]
    constructor
    · intro read
      split at read
      · rename_i accepted
        cases read
        exact ⟨rest, ⟨rfl, rfl⟩, accepted⟩
      · cases read
    · rintro ⟨other, ⟨rfl, rfl⟩, accepted⟩
      exact if_pos accepted

end Numerals
