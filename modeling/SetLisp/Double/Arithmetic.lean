import SetLisp.Double.Basic

/-!
# Arithmetic

Each operation rounds its exact result once. A result that is not a number takes the payload
handed in as the first argument. There is no quotient by a zero, nor a remainder by a zero or of an
infinity: who divides has to rule these out.
-/

namespace SetLisp.Double

def neg : Double → Double
  | .nan payload => .nan payload
  | .infinite negative => .infinite !negative
  | .finite negative units onGrid => .finite (!negative) units onGrid

/-- The sum. Opposite numbers add up to the positive zero. -/
def add (payload : Nat) : Double → Double → Double
  | .nan _, _ => .nan payload
  | _, .nan _ => .nan payload
  | .infinite s, .infinite t => if s = t then .infinite s else .nan payload
  | .infinite s, .finite .. => .infinite s
  | .finite .., .infinite t => .infinite t
  | .finite s m _, .finite t n _ =>
      if s = t then nearest s (m + n) 1
      else if m = n then zero false
      else if n < m then nearest s (m - n) 1
      else nearest t (n - m) 1

def sub (payload : Nat) (x y : Double) : Double :=
  add payload x y.neg

def mul (payload : Nat) : Double → Double → Double
  | .nan _, _ => .nan payload
  | _, .nan _ => .nan payload
  | .infinite s, .infinite t => .infinite (s ^^ t)
  | .infinite s, .finite t n _ => if n = 0 then .nan payload else .infinite (s ^^ t)
  | .finite s m _, .infinite t => if m = 0 then .nan payload else .infinite (s ^^ t)
  | .finite s m _, .finite t n _ => nearest (s ^^ t) (m * n) unitsPerOne

/-- The quotient by a divisor that is not zero. -/
def div (payload : Nat) : (x y : Double) → y.isZero = false → Double
  | .nan _, _, _ => .nan payload
  | _, .nan _, _ => .nan payload
  | .infinite _, .infinite _, _ => .nan payload
  | .infinite s, .finite t _ _, _ => .infinite (s ^^ t)
  | .finite s _ _, .infinite t, _ => zero (s ^^ t)
  | .finite s m _, .finite t n _, _ => nearest (s ^^ t) (m * unitsPerOne) n

/-- The remainder of the quotient cut off toward zero, by a divisor that is not zero and of a
dividend that is not infinite; its sign is that of the dividend. -/
def rem (payload : Nat) : (x y : Double) → x.isInfinite = false → y.isZero = false → Double
  | .nan _, _, _, _ => .nan payload
  | _, .nan _, _, _ => .nan payload
  | .infinite _, _, hfinite, _ => nomatch hfinite
  | .finite s m h, .infinite _, _, _ => .finite s m h
  | .finite s m _, .finite _ n _, _, _ => ofUnits s (m % n)

end SetLisp.Double
