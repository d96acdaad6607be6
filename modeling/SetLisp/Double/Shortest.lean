import SetLisp.Double.Decimal

/-!
# Shortest digits

Among the decimals that read back as a given double the one with the fewest digits identifies it.
Grids of one to seventeen digits are tried in turn. On each, the two neighbours of the exact value
are read; of two that both read back the nearer is taken, and the even one of two equally near.
-/

namespace SetLisp

/-- The same number without zeros at the end of its digits. -/
def Decimal.stripped (d : Decimal) : Decimal :=
  let zeros := ((Nat.toDigits 10 d.digits).reverse.takeWhile (· == '0')).length
  ⟨d.digits / Nat.pow 10 zeros, d.exponent + zeros⟩

namespace Double

/-- The exponent of the first significant digit of a positive magnitude. -/
def leadingExponent (units : Nat) : Int :=
  (Nat.toDigits 10 (units * Nat.pow 10 330 / unitsPerOne)).length - 331

def readsBack (units : Nat) (d : Decimal) : Bool :=
  ofDecimal false d == ofUnits false units

/-- How many steps of `10 ^ exponent` fit into the magnitude. -/
def stepsBelow (units : Nat) (exponent : Int) : Nat :=
  units * Nat.pow 10 (-exponent).toNat / (Nat.pow 10 exponent.toNat * unitsPerOne)

/-- Compares the magnitude with the point halfway above `steps`. -/
def compareHalfway (units : Nat) (exponent : Int) (steps : Nat) : Ordering :=
  compare (2 * units * Nat.pow 10 (-exponent).toNat)
    ((2 * steps + 1) * (Nat.pow 10 exponent.toNat * unitsPerOne))

/-- Of two neighbours the one that reads back; `order` tells which of two is the nearer, and of two
equally near ones the even one is taken. -/
def readable? (below above : Decimal) (order : Ordering) : Bool → Bool → Option Decimal
  | false, false => none
  | true, false => some below
  | false, true => some above
  | true, true =>
      match order with
      | .lt => some below
      | .gt => some above
      | .eq => some (if below.digits % 2 = 0 then below else above)

/-- The neighbour of the magnitude on the grid of `10 ^ exponent` that reads back. -/
def neighbour? (units : Nat) (exponent : Int) : Option Decimal :=
  let steps := stepsBelow units exponent
  let below : Decimal := ⟨steps, exponent⟩
  let above : Decimal := ⟨steps + 1, exponent⟩
  readable? below above (compareHalfway units exponent steps) (readsBack units below)
    (readsBack units above)

def exactDecimal (units : Nat) : Decimal :=
  ⟨units * Nat.pow 5 1074, -1074⟩

/-- The decimal with the fewest digits that reads back as the magnitude. -/
def shortest (units : Nat) : Decimal :=
  if units = 0 then ⟨0, 0⟩
  else
    let leading := leadingExponent units
    let found := (List.range 17).findSome? fun (more : Nat) => neighbour? units (leading - more)
    (found.getD (exactDecimal units)).stripped

end Double

end SetLisp
