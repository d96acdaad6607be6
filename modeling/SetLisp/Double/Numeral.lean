import SetLisp.Double.Decimal
import SetLisp.Text.Blank

namespace SetLisp

namespace Text

/-- The zeros of the scripts with decimal digits of their own (Unicode 14, category Nd). The ten
digits of a script have consecutive code points in ascending value. -/
def digitZeros : List Nat :=
  [0x30, 0x660, 0x6F0, 0x7C0, 0x966, 0x9E6, 0xA66, 0xAE6, 0xB66, 0xBE6, 0xC66, 0xCE6, 0xD66,
    0xDE6, 0xE50, 0xED0, 0xF20, 0x1040, 0x1090, 0x17E0, 0x1810, 0x1946, 0x19D0, 0x1A80, 0x1A90,
    0x1B50, 0x1BB0, 0x1C40, 0x1C50, 0xA620, 0xA8D0, 0xA900, 0xA9D0, 0xA9F0, 0xAA50, 0xABF0,
    0xFF10, 0x104A0, 0x10D30, 0x11066, 0x110F0, 0x11136, 0x111D0, 0x112F0, 0x11450, 0x114D0,
    0x11650, 0x116C0, 0x11730, 0x118E0, 0x11950, 0x11C50, 0x11D50, 0x11DA0, 0x16A60, 0x16AC0,
    0x16B50, 0x1D7CE, 0x1D7D8, 0x1D7E2, 0x1D7EC, 0x1D7F6, 0x1E140, 0x1E2F0, 0x1E950, 0x1FBF0]

/-- The value of a decimal digit of any script. -/
def digitValue? (c : Char) : Option Nat :=
  (digitZeros.find? fun start => start ≤ c.toNat && c.toNat < start + 10).map (c.toNat - ·)

end Text

/-- The written form of numbers: an optional sign, then digits of any script with at most one point
among them and an optional exponent, or one of the words for infinity and for what is not a number,
in any case. -/
inductive Numeral where
  | notANumber
  | infinity (negative : Bool)
  | decimal (negative : Bool) (value : Decimal)
deriving DecidableEq, Repr

namespace Numeral

/-- The blanks that may surround a numeral; the four ASCII separators are not among them. -/
def isNumeralBlank (c : Char) : Bool :=
  Text.isBlank c && !(0x1C ≤ c.toNat && c.toNat ≤ 0x1F)

def bare (text : List Char) : List Char :=
  ((text.dropWhile isNumeralBlank).reverse.dropWhile isNumeralBlank).reverse

/-- The digits in front of the text and what follows them. -/
def takeDigits : List Char → List Nat × List Char
  | [] => ([], [])
  | c :: rest =>
      match Text.digitValue? c with
      | some digit =>
          let (digits, rest) := takeDigits rest
          (digit :: digits, rest)
      | none => ([], c :: rest)

def takeSign : List Char → Bool × List Char
  | '-' :: rest => (true, rest)
  | '+' :: rest => (false, rest)
  | text => (false, text)

/-- The fraction behind a point, if there is a point. -/
def takeFraction : List Char → List Nat × List Char
  | '.' :: rest => takeDigits rest
  | text => ([], text)

def ofDigits (digits : List Nat) : Nat :=
  digits.foldl (fun value digit => 10 * value + digit) 0

/-- The exponent that fills the rest of the text; an absent one is zero. -/
def exponent? : List Char → Option Int
  | [] => some 0
  | c :: rest =>
      if c == 'e' || c == 'E' then
        let (negative, rest) := takeSign rest
        match takeDigits rest with
        | ([], _) => none
        | (digits, []) => some (if negative then -ofDigits digits else ofDigits digits)
        | _ => none
      else none

def unsigned? (negative : Bool) (text : List Char) : Option Numeral :=
  let word := text.map Char.toLower
  if word = "inf".toList ∨ word = "infinity".toList then some (.infinity negative)
  else if word = "nan".toList then some .notANumber
  else
    let (whole, rest) := takeDigits text
    let (fraction, rest) := takeFraction rest
    if whole.isEmpty && fraction.isEmpty then none
    else
      (exponent? rest).map fun exponent =>
        .decimal negative ⟨ofDigits (whole ++ fraction), exponent - fraction.length⟩

def read? (text : List Char) : Option Numeral :=
  let (negative, rest) := takeSign (bare text)
  unsigned? negative rest

/-- Takes out underscores that stand between two digits; there may be none elsewhere. -/
def ungrouped? (afterDigit : Bool) : List Char → Option (List Char)
  | [] => some []
  | '_' :: next :: rest =>
      if afterDigit && (Text.digitValue? next).isSome then
        (ungrouped? true rest).map (next :: ·)
      else none
  | c :: rest =>
      if c == '_' then none
      else (ungrouped? (Text.digitValue? c).isSome rest).map (c :: ·)

/-- Reads a numeral whose digits may be grouped by underscores. -/
def readGrouped? (text : List Char) : Option Numeral :=
  (ungrouped? false text).bind read?

/-- The number a numeral stands for. -/
def value (payload : Nat) : Numeral → Double
  | .notANumber => .nan payload
  | .infinity negative => .infinite negative
  | .decimal negative d => .ofDecimal negative d

end Numeral

end SetLisp
