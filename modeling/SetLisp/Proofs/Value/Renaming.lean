import Mathlib.Logic.Function.Basic
import SetLisp.Builtin.Result
import SetLisp.Value.Text

/-!
# Renaming identities

Which identity a lambda, foreign data or what is not a number carries does not matter, only what
else carries the same one. Renaming identities, no two to one, changes no text and no sameness, and
builtins answer to renamed arguments with the renamed answer.
-/

namespace SetLisp

open Function

variable {ρ : Nat → Nat}

namespace Double

def renamed (ρ : Nat → Nat) : Double → Double
  | .nan payload => .nan (ρ payload)
  | x => x

theorem renamed_nan (payload : Nat) : (nan payload).renamed ρ = nan (ρ payload) := rfl

theorem renamed_infinite (negative : Bool) :
    (infinite negative).renamed ρ = infinite negative := rfl

theorem renamed_finite (negative : Bool) (units : Nat) (hgrid : OnGrid units) :
    (finite negative units hgrid).renamed ρ = finite negative units hgrid := rfl

theorem renamed_ofUnits (negative : Bool) (units : Nat) :
    (ofUnits negative units).renamed ρ = ofUnits negative units := by
  unfold ofUnits
  split <;> rfl

theorem renamed_zero (negative : Bool) : (zero negative).renamed ρ = zero negative :=
  renamed_ofUnits negative 0

theorem renamed_nearest (negative : Bool) (numerator denominator : Nat) :
    (nearest negative numerator denominator).renamed ρ = nearest negative numerator denominator :=
  renamed_ofUnits negative _

theorem chars_renamed (x : Double) : (x.renamed ρ).chars = x.chars := by
  cases x <;> rfl

theorem position?_renamed (x : Double) : (x.renamed ρ).position? = x.position? := by
  cases x <;> rfl

theorem comparing_renamed (holds : Int → Int → Bool) (x y : Double) :
    comparing holds (x.renamed ρ) (y.renamed ρ) = comparing holds x y := by
  rw [comparing, position?_renamed, position?_renamed, comparing]

theorem same_renamed (hρ : Injective ρ) (x y : Double) :
    (x.renamed ρ).same (y.renamed ρ) = x.same y := by
  cases x <;> cases y
  case nan.nan p q => simp [renamed, same, hρ.eq_iff]
  all_goals rfl

theorem isZero_renamed (x : Double) : (x.renamed ρ).isZero = x.isZero := by
  cases x <;> rfl

theorem isNaN_renamed (x : Double) : (x.renamed ρ).isNaN = x.isNaN := by
  cases x <;> rfl

theorem isNegative_renamed (x : Double) : (x.renamed ρ).isNegative = x.isNegative := by
  cases x <;> rfl

theorem isInfinite_renamed (x : Double) : (x.renamed ρ).isInfinite = x.isInfinite := by
  cases x <;> rfl

theorem neg_renamed (x : Double) : (x.renamed ρ).neg = x.neg.renamed ρ := by
  cases x <;> rfl

theorem add_renamed (payload : Nat) (x y : Double) :
    add (ρ payload) (x.renamed ρ) (y.renamed ρ) = (add payload x y).renamed ρ := by
  cases x <;> cases y <;> simp only [renamed_nan, renamed_infinite, renamed_finite, add]
  case infinite.infinite s t => split <;> rfl
  case finite.finite s m hm t n hn =>
    split
    · rw [renamed_nearest]
    · split
      · rw [renamed_zero]
      · split <;> rw [renamed_nearest]

theorem sub_renamed (payload : Nat) (x y : Double) :
    sub (ρ payload) (x.renamed ρ) (y.renamed ρ) = (sub payload x y).renamed ρ := by
  rw [sub, neg_renamed, add_renamed, sub]

theorem mul_renamed (payload : Nat) (x y : Double) :
    mul (ρ payload) (x.renamed ρ) (y.renamed ρ) = (mul payload x y).renamed ρ := by
  cases x <;> cases y <;> simp only [renamed_nan, renamed_infinite, renamed_finite, mul]
  case infinite.finite s t n hn => split <;> rfl
  case finite.infinite s m hm t => split <;> rfl
  case finite.finite s m hm t n hn => rw [renamed_nearest]

theorem div_renamed (payload : Nat) (x y : Double) (hy : y.isZero = false)
    (hy' : (y.renamed ρ).isZero = false) :
    div (ρ payload) (x.renamed ρ) (y.renamed ρ) hy' = (div payload x y hy).renamed ρ := by
  cases x <;> cases y <;> simp only [renamed_nan, renamed_infinite, renamed_finite, div]
  case finite.infinite s m hm t => rw [renamed_zero]
  case finite.finite s m hm t n hn => rw [renamed_nearest]

theorem rem_renamed (payload : Nat) (x y : Double) (hx : x.isInfinite = false)
    (hy : y.isZero = false) (hx' : (x.renamed ρ).isInfinite = false)
    (hy' : (y.renamed ρ).isZero = false) :
    rem (ρ payload) (x.renamed ρ) (y.renamed ρ) hx' hy' = (rem payload x y hx hy).renamed ρ := by
  cases x
  case infinite s => cases hx
  all_goals cases y <;> simp only [renamed_nan, renamed_infinite, renamed_finite, rem]
  case finite.finite s m hm t n hn => rw [renamed_ofUnits]

end Double

namespace Value

mutual

def renamed (ρ : Nat → Nat) : Value → Value
  | number x => number (x.renamed ρ)
  | list items => list (renamedItems ρ items)
  | set members => set (renamedItems ρ members)
  | lambda id parameters body => lambda (ρ id) parameters (renamed ρ body)
  | foreign id datum => foreign (ρ id) datum
  | value => value

def renamedItems (ρ : Nat → Nat) : List Value → List Value
  | [] => []
  | item :: rest => renamed ρ item :: renamedItems ρ rest

end

theorem renamedItems_eq_map (items : List Value) :
    renamedItems ρ items = items.map (renamed ρ) := by
  induction items with
  | nil => rfl
  | cons item rest ih => rw [renamedItems, ih, List.map_cons]

mutual

theorem renamed_id : ∀ value : Value, value.renamed id = value
  | number x => by cases x <;> rfl
  | list items => congrArg list (renamedItems_id items)
  | set members => congrArg set (renamedItems_id members)
  | lambda identity parameters body => congrArg (lambda identity parameters) (renamed_id body)
  | boolean _ | symbol _ | builtin _ | foreign .. => rfl

theorem renamedItems_id : ∀ items : List Value, renamedItems id items = items
  | [] => rfl
  | item :: rest => by rw [renamedItems, renamed_id item, renamedItems_id rest]

end

theorem renamed_list (items : List Value) :
    (list items).renamed ρ = list (items.map (renamed ρ)) :=
  congrArg list (renamedItems_eq_map items)

theorem renamed_set (members : List Value) :
    (set members).renamed ρ = set (members.map (renamed ρ)) :=
  congrArg set (renamedItems_eq_map members)

theorem renamed_lambda (id : Nat) (parameters : List String) (body : Value) :
    (lambda id parameters body).renamed ρ = lambda (ρ id) parameters (body.renamed ρ) := rfl

theorem boolean?_renamed (value : Value) : (value.renamed ρ).boolean? = value.boolean? := by
  cases value <;> rfl

theorem number?_renamed (value : Value) :
    (value.renamed ρ).number? = value.number?.map (Double.renamed ρ) := by
  cases value <;> rfl

theorem set?_renamed (value : Value) :
    (value.renamed ρ).set? = value.set?.map (List.map (renamed ρ)) := by
  cases value
  case set members => exact congrArg set? (renamed_set members)
  all_goals rfl

theorem isFunction_renamed (value : Value) : (value.renamed ρ).isFunction = value.isFunction := by
  cases value <;> rfl

mutual

/-- Identities are not shown. -/
theorem chars_renamed : ∀ value : Value, (value.renamed ρ).chars = value.chars
  | number x => Double.chars_renamed x
  | list items => congrArg (fun inner => '(' :: inner ++ [')']) (charsOfItems_renamed items)
  | set members =>
      congrArg (fun inner => '\x7b' :: inner ++ ['\x7d']) (charsOfItems_renamed members)
  | lambda id parameters body => by
      rw [renamed_lambda, chars_lambda, chars_lambda, chars_renamed body]
  | boolean _ | symbol _ | builtin _ => rfl
  | foreign _ datum => (rfl : datum.chars = datum.chars)

theorem charsOfItems_renamed :
    ∀ items : List Value, charsOfItems (renamedItems ρ items) = charsOfItems items
  | [] => rfl
  | item :: rest => by
      rw [renamedItems, charsOfItems, charsOfItems, chars_renamed item, charsOfMore_renamed rest]

theorem charsOfMore_renamed :
    ∀ items : List Value, charsOfMore (renamedItems ρ items) = charsOfMore items
  | [] => rfl
  | item :: rest => by
      rw [renamedItems, charsOfMore, charsOfMore, chars_renamed item, charsOfMore_renamed rest]

end

theorem text_renamed (value : Value) : (value.renamed ρ).text = value.text :=
  congrArg String.ofList (chars_renamed value)

mutual

theorem textFault?_renamed :
    ∀ (room : Nat) (value : Value), (value.renamed ρ).textFault? room = value.textFault? room
  | 0, value => by rw [textFault?, textFault?]
  | room + 1, list items | room + 1, set items => textFaultOfItems?_renamed room items
  | room + 1, lambda _ _ body => textFault?_renamed room body
  | _ + 1, foreign _ datum => by cases datum <;> simp only [renamed, textFault?]
  | _ + 1, boolean _ | _ + 1, number _ | _ + 1, symbol _ | _ + 1, builtin _ => rfl

theorem textFaultOfItems?_renamed :
    ∀ (room : Nat) (items : List Value),
      textFaultOfItems? room (renamedItems ρ items) = textFaultOfItems? room items
  | _, [] => rfl
  | room, item :: rest => by
      rw [renamedItems, textFaultOfItems?, textFaultOfItems?, textFault?_renamed room item,
        textFaultOfItems?_renamed room rest]

end

mutual

theorem tooDeepForMember_renamed :
    ∀ (room : Nat) (value : Value),
      (value.renamed ρ).tooDeepForMember room = value.tooDeepForMember room
  | 0, value => by rw [tooDeepForMember, tooDeepForMember]
  | room + 1, list items => someTooDeepForMember_renamedItems room items
  | _ + 1, boolean _ | _ + 1, number _ | _ + 1, symbol _ | _ + 1, set _ | _ + 1, builtin _
  | _ + 1, lambda .. | _ + 1, foreign .. => rfl

theorem someTooDeepForMember_renamedItems :
    ∀ (room : Nat) (items : List Value),
      someTooDeepForMember room (renamedItems ρ items) = someTooDeepForMember room items
  | _, [] => rfl
  | room, item :: rest => by
      rw [renamedItems, someTooDeepForMember, someTooDeepForMember,
        tooDeepForMember_renamed room item, someTooDeepForMember_renamedItems room rest]

end

theorem someTooDeepForMember_renamed (room : Nat) (items : List Value) :
    someTooDeepForMember room (items.map (renamed ρ)) = someTooDeepForMember room items := by
  rw [← renamedItems_eq_map, someTooDeepForMember_renamedItems]

mutual

theorem same_renamed (hρ : Injective ρ) :
    ∀ first second : Value, (first.renamed ρ).same (second.renamed ρ) = first.same second
  | number x, second => by
      cases second
      case number y => exact Double.same_renamed hρ x y
      all_goals rfl
  | list xs, second => by
      cases second
      case list ys => exact sameItems_renamed hρ xs ys
      all_goals rfl
  | set xs, second => by
      cases second
      case set ys =>
        rw [renamed, renamed, same, same, eachIn_renamed hρ xs ys, renamedItems_eq_map,
          renamedItems_eq_map, List.length_map, List.length_map]
      all_goals rfl
  | lambda i _ _, second => by
      cases second
      case lambda j _ _ => simp [renamed, same, hρ.eq_iff]
      all_goals rfl
  | foreign i a, second => by
      cases second
      case foreign j b =>
        have hid : (ρ i == ρ j) = (i == j) := by
          rw [Bool.eq_iff_iff, beq_iff_eq, beq_iff_eq, hρ.eq_iff]
        cases a <;> cases b <;> simp only [renamed, same, hid]
      all_goals cases a <;> rfl
  | boolean _, second | symbol _, second | builtin _, second => by cases second <;> rfl

theorem sameItems_renamed (hρ : Injective ρ) :
    ∀ xs ys : List Value, sameItems (renamedItems ρ xs) (renamedItems ρ ys) = sameItems xs ys
  | [], [] | [], _ :: _ | _ :: _, [] => rfl
  | x :: xs, y :: ys => by
      rw [renamedItems, renamedItems, sameItems, sameItems, same_renamed hρ x y,
        sameItems_renamed hρ xs ys]

theorem eachIn_renamed (hρ : Injective ρ) :
    ∀ xs ys : List Value, eachIn (renamedItems ρ xs) (renamedItems ρ ys) = eachIn xs ys
  | [], ys => rfl
  | x :: xs, ys => by
      rw [renamedItems, eachIn, eachIn, eachIn_renamed hρ xs ys, renamedItems_eq_map ys,
        List.any_map]
      congr 2
      funext y
      exact same_renamed hρ x y

end

end Value

namespace Members

open Value

theorem has_renamed (hρ : Injective ρ) (members : Members) (value : Value) :
    has (members.map (renamed ρ)) (value.renamed ρ) = has members value := by
  rw [has, List.any_map, has]
  congr 1
  funext member
  exact same_renamed hρ member value

theorem insertAll_renamed (hρ : Injective ρ) (members values : List Value) :
    insertAll (members.map (renamed ρ)) (values.map (renamed ρ)) =
      (insertAll members values).map (renamed ρ) := by
  induction values generalizing members with
  | nil => rfl
  | cons value rest ih =>
      have hinsert : insert (members.map (renamed ρ)) (value.renamed ρ) =
          (insert members value).map (renamed ρ) := by
        rw [insert, has_renamed hρ, insert]
        split
        · rfl
        · rw [List.map_append, List.map_singleton]
      change insertAll (insert (members.map (renamed ρ)) (value.renamed ρ)) _ = _
      rw [hinsert, ih]
      rfl

theorem inter_renamed (hρ : Injective ρ) (first second : Members) :
    inter (first.map (renamed ρ)) (second.map (renamed ρ)) =
      (inter first second).map (renamed ρ) := by
  rw [inter, List.filter_map, inter]
  congr 2
  funext member
  exact has_renamed hρ second member

end Members

/-! ### Builtins -/

namespace Builtin

open Value

theorem seed_map {α : Type} {accept : Value → Option α} {f : Value → Value} {g : α → α}
    (haccept : ∀ value, accept (f value) = (accept value).map g) {initial : α}
    (hinitial : g initial = initial) (first : Value) :
    seed accept initial (f first) = g (seed accept initial first) := by
  rw [seed, haccept, seed]
  cases accept first with
  | none => exact hinitial.symm
  | some x => rfl

theorem accumulate_map {α : Type} {accept : Value → Option α} {f : Value → Value} {g : α → α}
    (haccept : ∀ value, accept (f value) = (accept value).map g) {op op' : α → α → α}
    (hop : ∀ x y, op' (g x) (g y) = g (op x y)) {initial : α} (hinitial : g initial = initial)
    (args : List Value) :
    accumulate accept op' initial (args.map f) = g (accumulate accept op initial args) := by
  cases args with
  | nil => exact hinitial.symm
  | cons first rest =>
      have hrest : (rest.map f).filterMap accept = (rest.filterMap accept).map g := by
        rw [List.filterMap_map, List.map_filterMap]
        congr 1
        funext value
        exact haccept value
      rw [List.map_cons, accumulate, accumulate, seed_map haccept hinitial, hrest,
        List.foldl_map]
      generalize seed accept initial first = start
      induction rest.filterMap accept generalizing start with
      | nil => rfl
      | cons x xs ih => rw [List.foldl_cons, List.foldl_cons, hop, ih]

theorem foldNumbers_renamed {op op' : Double → Double → Double}
    (hop : ∀ x y, op' (x.renamed ρ) (y.renamed ρ) = (op x y).renamed ρ) (args : List Value) :
    foldNumbers op' (args.map (renamed ρ)) = (foldNumbers op args).renamed ρ :=
  congrArg number (accumulate_map number?_renamed hop (Double.renamed_zero false) args)

theorem foldBooleans_renamed (op : Bool → Bool → Bool) (args : List Value) :
    foldBooleans op (args.map (renamed ρ)) = foldBooleans op args := by
  have haccept (value : Value) : (value.renamed ρ).boolean? = value.boolean?.map id := by
    rw [boolean?_renamed, Option.map_id, id]
  have hop (x y : Bool) : op (id x) (id y) = id (op x y) := rfl
  exact congrArg boolean (accumulate_map haccept hop rfl args)

theorem compareAdjacent_renamed {relation : Double → Double → Bool}
    (hrelation : ∀ x y, relation (x.renamed ρ) (y.renamed ρ) = relation x y) (args : List Value) :
    compareAdjacent relation (args.map (renamed ρ)) = compareAdjacent relation args := by
  cases args with
  | nil => rfl
  | cons first rest =>
      have hseed := seed_map (@number?_renamed ρ) (Double.renamed_zero false) first
      have hrest : (rest.map (renamed ρ)).filterMap Value.number? =
          (rest.filterMap Value.number?).map (Double.renamed ρ) := by
        rw [List.filterMap_map, List.map_filterMap]
        congr 1
        funext value
        exact number?_renamed value
      rw [List.map_cons, compareAdjacent, compareAdjacent, hseed, hrest, List.foldl_map]
      generalize seed Value.number? (.zero false) first = start
      generalize false = last
      induction rest.filterMap Value.number? generalizing start last with
      | nil => rfl
      | cons x xs ih => rw [List.foldl_cons, List.foldl_cons, hrelation, ih]

theorem quotient_renamed (hzero : ρ 0 = 0) (fresh : Nat) (x y : Double) :
    quotient (ρ fresh) (x.renamed ρ) (y.renamed ρ) = (quotient fresh x y).renamed ρ := by
  simp only [quotient, Double.isZero_renamed, Double.isNaN_renamed, Double.isNegative_renamed]
  split
  · split
    · rw [Double.renamed, sharedPayload, hzero]
    · rfl
  · exact Double.div_renamed fresh x y _ _

theorem remainder_renamed (hzero : ρ 0 = 0) (fresh : Nat) (x y : Double) :
    remainder (ρ fresh) (x.renamed ρ) (y.renamed ρ) = (remainder fresh x y).renamed ρ := by
  simp only [remainder, Double.isZero_renamed, Double.isInfinite_renamed]
  split
  · rw [Double.renamed, sharedPayload, hzero]
  · exact Double.rem_renamed fresh x y _ _ _ _

theorem negation_renamed (args : List Value) :
    negation (args.map (renamed ρ)) = (negation args).map (renamed ρ) := by
  cases args with
  | nil => rfl
  | cons first rest => cases first <;> rfl

theorem onlyList_renamed (function : Builtin) (args : List Value) :
    onlyList function (args.map (renamed ρ)) =
      (onlyList function args).map (List.map (renamed ρ)) := by
  match args with
  | [] => rfl
  | [value] =>
      cases value
      case list items => exact congrArg Except.ok (renamedItems_eq_map items)
      all_goals rfl
  | first :: second :: rest => cases first <;> rfl

theorem headOf_renamed (items : List Value) :
    headOf (items.map (renamed ρ)) = (headOf items).map (renamed ρ) := by
  cases items <;> rfl

theorem construct_renamed (args : List Value) :
    construct (args.map (renamed ρ)) = (construct args).map (renamed ρ) := by
  match args with
  | [] | [_] => rfl
  | [first, second] => cases second <;> rfl
  | first :: second :: third :: rest => cases second <;> rfl

theorem joinLists_renamed (args : List Value) :
    joinLists (args.map (renamed ρ)) = (joinLists args).map (List.map (renamed ρ)) := by
  induction args with
  | nil => rfl
  | cons first rest ih =>
      cases first
      case list items =>
        rw [List.map_cons, renamed_list, joinLists, ih, joinLists]
        cases joinLists rest with
        | error error => rfl
        | ok others => exact congrArg Except.ok (List.map_append ..).symm
      all_goals rfl

theorem allSets_renamed (function : Builtin) (args : List Value) :
    allSets function (args.map (renamed ρ)) =
      (allSets function args).map (List.map (List.map (renamed ρ))) := by
  induction args with
  | nil => rfl
  | cons first rest ih =>
      cases first
      case set members =>
        rw [List.map_cons, renamed_set, allSets, ih, allSets]
        cases allSets function rest <;> rfl
      all_goals rfl

theorem someSets_renamed (function : Builtin) (args : List Value) :
    someSets function (args.map (renamed ρ)) =
      (someSets function args).map (List.map (List.map (renamed ρ))) := by
  rw [someSets, allSets_renamed, List.isEmpty_map, someSets]
  split <;> rfl

theorem unionAll_renamed (hρ : Injective ρ) (sets : List Members) :
    unionAll (sets.map (List.map (renamed ρ))) = (unionAll sets).map (renamed ρ) := by
  have hfold (start : Members) :
      (sets.map (List.map (renamed ρ))).foldl Members.union (start.map (renamed ρ)) =
        (sets.foldl Members.union start).map (renamed ρ) := by
    induction sets generalizing start with
    | nil => rfl
    | cons first rest ih =>
        rw [List.map_cons, List.foldl_cons, List.foldl_cons, Members.union,
          Members.insertAll_renamed hρ]
        exact ih _
  exact hfold []

theorem interAll_renamed (hρ : Injective ρ) (sets : List Members) :
    interAll (sets.map (List.map (renamed ρ))) = (interAll sets).map (renamed ρ) := by
  cases sets with
  | nil => rfl
  | cons first rest =>
      rw [List.map_cons, interAll, interAll]
      induction rest generalizing first with
      | nil => rfl
      | cons second rest ih =>
          rw [List.map_cons, List.foldl_cons, List.foldl_cons, Members.inter_renamed hρ]
          exact ih _

/-- **Builtins look at no identity.** -/
theorem result_renamed (hρ : Injective ρ) (hzero : ρ 0 = 0) (fresh : Nat) (function : Builtin)
    (args : List Value) :
    function.result (ρ fresh) (args.map (renamed ρ)) =
      (function.result fresh args).map (renamed ρ) := by
  cases function
  case add => exact congrArg Except.ok (foldNumbers_renamed (Double.add_renamed fresh) args)
  case sub => exact congrArg Except.ok (foldNumbers_renamed (Double.sub_renamed fresh) args)
  case mul => exact congrArg Except.ok (foldNumbers_renamed (Double.mul_renamed fresh) args)
  case div => exact congrArg Except.ok (foldNumbers_renamed (quotient_renamed hzero fresh) args)
  case rem => exact congrArg Except.ok (foldNumbers_renamed (remainder_renamed hzero fresh) args)
  case equal | less | lessOrEqual =>
    exact congrArg (Except.ok ∘ boolean)
      (compareAdjacent_renamed (Double.comparing_renamed _) args)
  case greater | greaterOrEqual =>
    exact congrArg (Except.ok ∘ boolean)
      (compareAdjacent_renamed (fun x y => Double.comparing_renamed _ y x) args)
  case not => exact negation_renamed args
  case and | or => exact congrArg Except.ok (foldBooleans_renamed _ args)
  case list => exact congrArg Except.ok (renamed_list args).symm
  case set =>
    have hmembers : Members.ofList (args.map (renamed ρ)) =
        (Members.ofList args).map (renamed ρ) := Members.insertAll_renamed hρ [] args
    simp only [result, hmembers, Except.map, renamed_set]
  case head =>
    rw [result, onlyList_renamed, result]
    cases onlyList head args with
    | error error => rfl
    | ok items => exact headOf_renamed items
  case tail =>
    rw [result, onlyList_renamed, result]
    cases onlyList tail args with
    | error error => rfl
    | ok items => simp [Except.map, renamed_list, List.map_tail]
  case cons => exact construct_renamed args
  case concat =>
    rw [result, joinLists_renamed, result]
    cases joinLists args with
    | error error => rfl
    | ok items => simp [Except.map, renamed_list]
  case union =>
    rw [result, someSets_renamed, result]
    cases someSets union args with
    | error error => rfl
    | ok sets => simp [Except.map, renamed_set, unionAll_renamed hρ]
  case inter =>
    rw [result, someSets_renamed, result]
    cases someSets inter args with
    | error error => rfl
    | ok sets => simp [Except.map, renamed_set, interAll_renamed hρ]
  case print =>
    match args with
    | [] | [_] | _ :: _ :: _ => rfl

theorem newMembers_renamed (function : Builtin) (args : List Value) :
    function.newMembers (.list (args.map (renamed ρ))) =
      (function.newMembers (.list args)).map (renamed ρ) := by
  have hsets : (args.map (renamed ρ)).flatMap (fun arg => arg.set?.getD []) =
      (args.flatMap fun arg => arg.set?.getD []).map (renamed ρ) := by
    rw [List.flatMap_map, List.map_flatMap]
    congr 1
    funext arg
    rw [set?_renamed]
    cases arg.set? <;> rfl
  cases function
  case union | inter => exact hsets
  all_goals rfl

end Builtin

end SetLisp
