import SetLisp.Double.Shortest

namespace SetLisp

namespace Decimal

def digitChars (d : Decimal) : List Char :=
  Nat.toDigits 10 d.digits

/-- The digits written out in full, with a point only in front of a fraction. -/
def plain (d : Decimal) : List Char :=
  if 0 ≤ d.exponent then d.digitChars ++ List.replicate d.exponent.toNat '0'
  else
    let places := (-d.exponent).toNat
    let digits := List.replicate (places + 1 - d.digitChars.length) '0' ++ d.digitChars
    digits.take (digits.length - places) ++ '.' :: digits.drop (digits.length - places)

/-- The exponent of the first digit. -/
def leading (d : Decimal) : Int :=
  d.digitChars.length - 1 + d.exponent

/-- One digit, the others behind a point, and an exponent with its sign and at least two digits. -/
def scientific (d : Decimal) : List Char :=
  let exponent := Nat.toDigits 10 d.leading.natAbs
  let mantissa :=
    match d.digitChars with
    | first :: second :: rest => first :: '.' :: second :: rest
    | digits => digits
  mantissa ++ 'e' :: (if d.leading < 0 then '-' else '+') ::
    List.replicate (2 - exponent.length) '0' ++ exponent

/-- The form used for inspection. -/
def inspected (d : Decimal) : List Char :=
  if -4 ≤ d.leading ∧ d.leading < 16 then
    if 0 ≤ d.exponent then d.plain ++ ['.', '0'] else d.plain
  else d.scientific

end Decimal

namespace Double

def signChars (negative : Bool) : List Char :=
  if negative then ['-'] else []

def chars : Double → List Char
  | .nan _ => "NaN".toList
  | .infinite negative => signChars negative ++ "inf".toList
  | .finite negative units _ => signChars negative ++ (shortest units).plain

/-- The text of a number as a program shows it. -/
def text (x : Double) : String :=
  String.ofList x.chars

/-- The text of a number as an inspector shows it. -/
def inspect : Double → String
  | .nan _ => "nan"
  | .infinite negative => String.ofList (signChars negative ++ "inf".toList)
  | .finite negative units _ => String.ofList (signChars negative ++ (shortest units).inspected)

end Double

end SetLisp
