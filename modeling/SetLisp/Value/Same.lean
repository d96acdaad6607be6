import SetLisp.Value

/-!
# Sameness

A set holds no two values that are the same. Booleans and numbers are compared by value and never
with each other, lists item by item, sets without regard to order. Functions and foreign data are
the same only as one object, and so is what is not a number.
-/

namespace SetLisp

/-- Whether two numbers are one member of a set: the same object, or numerically equal. -/
def Double.same : Double → Double → Bool
  | .nan p, .nan q => p == q
  | x, y => x.equal y

namespace Value

mutual

/-- Whether two values are one member of a set. No two members of a set are the same, so of two
sets of one size it is enough that each member of the first is in the second. -/
def same : Value → Value → Bool
  | boolean a, boolean b => a == b
  | number x, number y => x.same y
  | symbol a, symbol b => a == b
  | list xs, list ys => sameItems xs ys
  | set xs, set ys => xs.length == ys.length && eachIn xs ys
  | builtin f, builtin g => f == g
  | lambda i _ _, lambda j _ _ => i == j
  | foreign _ .nothing, foreign _ .nothing => true
  | foreign i a, foreign j b => i == j && a == b
  | _, _ => false

def sameItems : List Value → List Value → Bool
  | [], [] => true
  | x :: xs, y :: ys => same x y && sameItems xs ys
  | _, _ => false

/-- Each of the first values is the same as one of the second. -/
def eachIn : List Value → List Value → Bool
  | [], _ => true
  | x :: xs, ys => ys.any (same x) && eachIn xs ys

end

mutual

/-- Whether lists nest too deeply in the value for it to become a member of a set. The members of
a set inside it have been admitted before, so the nesting starts anew at sets. -/
def tooDeepForMember : Nat → Value → Bool
  | 0, _ => true
  | room + 1, list items => someTooDeepForMember room items
  | _ + 1, _ => false

def someTooDeepForMember : Nat → List Value → Bool
  | _, [] => false
  | room, value :: rest => tooDeepForMember room value || someTooDeepForMember room rest

end

end Value

end SetLisp
