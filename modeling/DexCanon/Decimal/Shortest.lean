/-!
# Shortest decimals

A binary floating-point number stands for all reals that round to it. Of the decimals among them,
the shortest one is chosen: with the fewest digits, of those the nearest to the number itself, and
of two equally near the larger.

Everything is computed exactly, in natural numbers.
-/

set_option autoImplicit false

namespace DexCanon.Decimal

/-- How the bits of a number are divided: a sign, the exponent, the fraction. -/
structure Format where
  exponentBits : Nat
  fractionBits : Nat
  deriving DecidableEq, Repr

def single : Format := ⟨8, 23⟩

def double : Format := ⟨11, 52⟩

/-- A finite number that is not negative, `mantissa * 2 ^ exponent`. -/
structure Binary where
  mantissa : Nat
  exponent : Int
  /-- The gap to the number below is half as wide as the gap to the number above. -/
  narrowBelow : Bool
  deriving DecidableEq, Repr

inductive Meaning where
  | notANumber
  | infinite (negative : Bool)
  | finite (negative : Bool) (magnitude : Binary)
  deriving DecidableEq, Repr

def Format.read (format : Format) (bits : Nat) : Meaning :=
  let fraction := bits % Nat.pow 2 format.fractionBits
  let exponent := bits / Nat.pow 2 format.fractionBits % Nat.pow 2 format.exponentBits
  let negative := bits / Nat.pow 2 (format.fractionBits + format.exponentBits) % 2 = 1
  let least : Int := 2 - Nat.pow 2 (format.exponentBits - 1) - format.fractionBits
  if exponent = Nat.pow 2 format.exponentBits - 1 then
    if fraction = 0 then .infinite negative else .notANumber
  else if exponent = 0 then .finite negative ⟨fraction, least, false⟩
  else
    .finite negative
      ⟨Nat.pow 2 format.fractionBits + fraction, least + (exponent - 1),
        fraction = 0 ∧ 1 < exponent⟩

/-- The decimal `digits * 10 ^ exponent`. -/
structure Scientific where
  digits : Nat
  exponent : Int
  deriving DecidableEq, Repr

/-- Compares `a * 10 ^ i` with `n * 2 ^ j`. -/
def compareScaled (a : Nat) (i : Int) (n : Nat) (j : Int) : Ordering :=
  compare (a * Nat.pow 10 i.toNat * Nat.pow 2 (-j).toNat)
    (n * Nat.pow 2 j.toNat * Nat.pow 10 (-i).toNat)

namespace Binary

/-- Whether a decimal is among the reals that round to a number. The halfway points to the
neighbours are among them if the mantissa is even. -/
def admits (x : Binary) (d : Scientific) : Bool :=
  let below := if x.narrowBelow then 4 * x.mantissa - 1 else 4 * x.mantissa - 2
  let above := 4 * x.mantissa + 2
  let low := compareScaled d.digits d.exponent below (x.exponent - 2)
  let high := compareScaled d.digits d.exponent above (x.exponent - 2)
  (low = .gt ∨ (low = .eq ∧ x.mantissa % 2 = 0)) ∧ (high = .lt ∨ (high = .eq ∧ x.mantissa % 2 = 0))

/-- How many decimal digits stand before the point; zeros behind the point count negatively. For a
positive number this is the least `k` such that the number is below `10 ^ k`. -/
def scale (x : Binary) : Int :=
  let numerator := x.mantissa * Nat.pow 2 x.exponent.toNat
  let denominator := Nat.pow 2 (-x.exponent).toNat
  if denominator ≤ numerator then (Nat.toDigits 10 (numerator / denominator)).length
  else 1 - (Nat.toDigits 10 ((denominator - 1) / numerator)).length

/-- The decimal of a given exponent that a number admits: one of its two neighbours among the
decimals of this exponent, the nearer one if both are admitted, the upper one on a tie. -/
def nearest? (x : Binary) (exponent : Int) : Option Scientific :=
  let numerator := x.mantissa * Nat.pow 2 x.exponent.toNat * Nat.pow 10 (-exponent).toNat
  let denominator := Nat.pow 2 (-x.exponent).toNat * Nat.pow 10 exponent.toNat
  let lower : Scientific := ⟨numerator / denominator, exponent⟩
  let upper : Scientific := ⟨numerator / denominator + 1, exponent⟩
  match decide (0 < lower.digits) && x.admits lower, x.admits upper with
  | true, true =>
    if 2 * numerator < (2 * lower.digits + 1) * denominator then some lower else some upper
  | true, false => some lower
  | false, true => some upper
  | false, false => none

def exact (x : Binary) : Scientific :=
  if 0 ≤ x.exponent then ⟨x.mantissa * Nat.pow 2 x.exponent.toNat, 0⟩
  else ⟨x.mantissa * Nat.pow 5 (-x.exponent).toNat, x.exponent⟩

/-- How many digits are tried before a number is written exactly. No number of 64 bits or fewer
needs more. -/
def mostDigits : Nat := 17

def shortest (x : Binary) : Scientific :=
  ((List.range mostDigits).findSome? fun (n : Nat) =>
    x.nearest? (x.scale - (n + 1 : Nat))).getD x.exact

end Binary

end DexCanon.Decimal
