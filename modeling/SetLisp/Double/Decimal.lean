import SetLisp.Double.Basic

namespace SetLisp

/-- The number `digits * 10 ^ exponent`. -/
structure Decimal where
  digits : Nat
  exponent : Int
deriving DecidableEq, Repr

namespace Double

/-- The double nearest to a decimal that is neither far past the grid nor far below a unit. -/
def ofDecimalExactly (negative : Bool) (d : Decimal) : Double :=
  nearest negative (d.digits * Nat.pow 10 d.exponent.toNat * unitsPerOne)
    (Nat.pow 10 (-d.exponent).toNat)

/-- The nearest double, past the end of the grid an infinity. A power of ten so large or so small
that the answer is plain is never computed. -/
def ofDecimal (negative : Bool) (d : Decimal) : Double :=
  if d.digits = 0 then zero negative
  else if 400 < d.exponent then .infinite negative
  else if d.exponent < -(d.digits.log2 + 400) then zero negative
  else ofDecimalExactly negative d

end Double

end SetLisp
