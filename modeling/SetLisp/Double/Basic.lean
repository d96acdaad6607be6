/-!
# Double-precision numbers

Every finite double is a whole number of units, one unit being 2^-1074, the distance between the
smallest doubles. A magnitude is on the grid when it needs no more than 53 significant bits and
stays below 2^1024. Results are computed exactly in units and rounded once, to the nearest point
of the grid and to the even one of two.
-/

namespace SetLisp

/-- The distance between neighbouring doubles around the magnitude `units`. -/
def spacing (units : Nat) : Nat :=
  Nat.pow 2 (units.log2 - 52)

def unitsPerOne : Nat := Nat.pow 2 1074

/-- The least magnitude past the end of the grid. -/
def gridEnd : Nat := Nat.pow 2 2098

def OnGrid (units : Nat) : Prop :=
  units < gridEnd ∧ spacing units ∣ units

instance (units : Nat) : Decidable (OnGrid units) :=
  inferInstanceAs (Decidable (_ ∧ _))

/-- A double-precision number. What is not a number carries a payload that tells one such result
from another. -/
inductive Double where
  | nan (payload : Nat)
  | infinite (negative : Bool)
  | finite (negative : Bool) (units : Nat) (onGrid : OnGrid units)
deriving DecidableEq

namespace Double

/-- The double of a magnitude on the grid; past its end, infinity. -/
def ofUnits (negative : Bool) (units : Nat) : Double :=
  if h : OnGrid units then .finite negative units h else .infinite negative

def zero (negative : Bool) : Double :=
  ofUnits negative 0

/-- The whole number nearest to a quotient, an exact half going to the even neighbour. -/
def roundQuotient (numerator denominator : Nat) : Nat :=
  let quotient := numerator / denominator
  match compare (2 * (numerator % denominator)) denominator with
  | .lt => quotient
  | .gt => quotient + 1
  | .eq => if quotient % 2 = 0 then quotient else quotient + 1

/-- The double nearest to `numerator / denominator` units. -/
def nearest (negative : Bool) (numerator denominator : Nat) : Double :=
  let step := spacing (numerator / denominator)
  ofUnits negative (step * roundQuotient numerator (step * denominator))

def isZero : Double → Bool
  | .finite _ units _ => units == 0
  | _ => false

def isNaN : Double → Bool
  | .nan _ => true
  | _ => false

/-- Whether the number has a minus sign; zeros and infinities have signs as well. -/
def isNegative : Double → Bool
  | .nan _ => false
  | .infinite negative => negative
  | .finite negative _ _ => negative

def isInfinite : Double → Bool
  | .infinite _ => true
  | _ => false

def signed (negative : Bool) (magnitude : Nat) : Int :=
  if negative then -magnitude else magnitude

/-- The place on the number line, in units; the infinities stand where the grid ends. -/
def position? : Double → Option Int
  | .nan _ => none
  | .infinite negative => some (signed negative gridEnd)
  | .finite negative units _ => some (signed negative units)

/-- Compares places on the number line, so that both zeros are equal; no comparison holds of what
is not a number. -/
def comparing (holds : Int → Int → Bool) (x y : Double) : Bool :=
  match x.position?, y.position? with
  | some a, some b => holds a b
  | _, _ => false

def equal : Double → Double → Bool :=
  comparing fun a b => a == b

def less : Double → Double → Bool :=
  comparing fun a b => a < b

def lessOrEqual : Double → Double → Bool :=
  comparing fun a b => a ≤ b

end Double

end SetLisp
