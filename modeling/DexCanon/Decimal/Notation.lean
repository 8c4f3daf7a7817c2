import DexCanon.Decimal.Shortest

/-!
# Notation of floating-point numbers

A finite number is written with its shortest digits. If its leading digit stands for a power of ten
from `10 ^ -4` to `10 ^ 15`, it is written out with a point and at least one digit on either side
of it. Otherwise it is written with one digit before the point and an exponent, the point only if
another digit follows. Zero is written out and keeps its sign; what is not a number has none.
-/

set_option autoImplicit false

namespace DexCanon.Decimal

/-- Writes digits so that the first one stands for `10 ^ lead`. -/
def layOut (digits : List Char) (lead : Int) : String :=
  if lead < -4 ∨ 16 ≤ lead then
    let (front, back) := digits.splitAt 1
    String.ofList (front ++ if back = [] then [] else '.' :: back) ++ "e" ++ toString lead
  else if lead < 0 then
    String.ofList ('0' :: '.' :: List.replicate (-lead - 1).toNat '0' ++ digits)
  else
    let whole := lead.toNat + 1
    let front := digits.take whole ++ List.replicate (whole - digits.length) '0'
    let back := digits.drop whole
    String.ofList (front ++ '.' :: if back = [] then ['0'] else back)

def Binary.write (x : Binary) : String :=
  if x.mantissa = 0 then layOut ['0'] 0
  else
    let d := x.shortest
    let digits := Nat.toDigits 10 d.digits
    let trimmed := (digits.reverse.dropWhile (· = '0')).reverse
    layOut trimmed (d.exponent + (digits.length - 1 : Nat))

def Format.write (format : Format) (bits : Nat) : String :=
  match format.read bits with
  | .notANumber => "NaN"
  | .infinite negative => if negative then "-inf" else "inf"
  | .finite negative magnitude => (if negative then "-" else "") ++ magnitude.write

end DexCanon.Decimal
