import SetLisp.Proofs.Reading.Printing
import SetLisp.Proofs.Value.Renaming

namespace SetLisp

open Value

variable {ρ : Nat → Nat}

theorem renamed_ofDecimal (negative : Bool) (value : Decimal) :
    (Double.ofDecimal negative value).renamed ρ = Double.ofDecimal negative value := by
  unfold Double.ofDecimal
  split
  · exact Double.renamed_zero negative
  · split
    · rfl
    · split
      · exact Double.renamed_zero negative
      · exact Double.renamed_nearest negative _ _

theorem Numeral.renamed_value (payload : Nat) (numeral : Numeral) :
    (numeral.value payload).renamed ρ = numeral.value (ρ payload) := by
  cases numeral with
  | notANumber => rfl
  | infinity negative => rfl
  | decimal negative value => exact renamed_ofDecimal negative value

theorem renamed_atomOfToken (place : Nat) (token : String) :
    (atomOfToken place token).renamed ρ = atomOfToken (ρ place) token := by
  have hnumber : (numberOfToken? place token).map (Double.renamed ρ) =
      numberOfToken? (ρ place) token := by
    unfold numberOfToken?
    split
    · rfl
    · rw [Option.map_map]
      congr 1
      funext numeral
      exact numeral.renamed_value place
  unfold atomOfToken
  split
  · rfl
  · split
    · rfl
    · rw [← hnumber]
      cases numberOfToken? place token <;> rfl

theorem renamed_call (name : String) (items : List Value) :
    (list (symbol name :: items)).renamed ρ = list (symbol name :: items.map (renamed ρ)) :=
  renamed_list (symbol name :: items)

mutual

/-- The tokens spell the renamed expression where their places have the new names. -/
theorem Derives.renamed {start place : Nat} {tokens : List String} {expr : Value}
    (h : Derives start tokens expr) (hρ : ∀ i < tokens.length, ρ (start + i) = place + i) :
    Derives place tokens (expr.renamed ρ) := by
  cases h with
  | @atom _ token htoken =>
      have hplace := hρ 0 Nat.one_pos
      rw [Nat.add_zero, Nat.add_zero] at hplace
      rw [renamed_atomOfToken, hplace]
      exact .atom htoken
  | @round _ tokens items hitems =>
      rw [renamed_list]
      refine .round (hitems.renamed fun i hi => ?_)
      rw [Nat.add_assoc, Nat.add_assoc]
      refine hρ (1 + i) ?_
      simp only [List.length_append, List.length_cons, List.length_nil]
      omega
  | @curly _ tokens items hitems =>
      rw [renamed_call]
      refine .curly (hitems.renamed fun i hi => ?_)
      rw [Nat.add_assoc, Nat.add_assoc]
      refine hρ (1 + i) ?_
      simp only [List.length_append, List.length_cons, List.length_nil]
      omega
  | @quoted _ tokens items hitems =>
      rw [renamed_call]
      refine .quoted (hitems.renamed fun i hi => ?_)
      rw [Nat.add_assoc, Nat.add_assoc]
      refine hρ (2 + i) ?_
      simp only [List.length_append, List.length_cons, List.length_nil]
      omega

theorem DerivesEach.renamed {start place : Nat} {tokens : List String} {exprs : List Value}
    (h : DerivesEach start tokens exprs) (hρ : ∀ i < tokens.length, ρ (start + i) = place + i) :
    DerivesEach place tokens (exprs.map (Value.renamed ρ)) := by
  cases h with
  | nil => exact .nil
  | @cons _ tokens more expr exprs hexpr hexprs =>
      rw [List.length_append] at hρ
      refine .cons (hexpr.renamed fun i hi => hρ i (by omega)) (hexprs.renamed fun i hi => ?_)
      rw [Nat.add_assoc, Nat.add_assoc]
      exact hρ (tokens.length + i) (by omega)

end

namespace Value

mutual

theorem nesting_renamed : ∀ value : Value, (value.renamed ρ).nesting = value.nesting
  | list items => congrArg (· + 1) (nestingOfItems_renamed items)
  | boolean _ | number _ | symbol _ | set _ | builtin _ | lambda .. | foreign .. => rfl

theorem nestingOfItems_renamed :
    ∀ items : List Value, nestingOfItems (renamedItems ρ items) = nestingOfItems items
  | [] => rfl
  | item :: rest => by
      rw [renamedItems, nestingOfItems, nestingOfItems, nesting_renamed item,
        nestingOfItems_renamed rest]

end

end Value

theorem parseAll_renamed {limit start place : Nat} {tokens : List String} {exprs : List Value}
    (h : parseAll limit start tokens = .ok exprs)
    (hρ : ∀ i < tokens.length, ρ (start + i) = place + i) :
    parseAll limit place tokens = .ok (exprs.map (renamed ρ)) := by
  obtain ⟨hexprs, hnesting⟩ := parseAll_eq_ok_iff.mp h
  refine parseAll_eq_ok_iff.mpr ⟨hexprs.renamed hρ, fun expr hexpr => ?_⟩
  obtain ⟨other, hother, rfl⟩ := List.mem_map.mp hexpr
  rw [nesting_renamed]
  exact hnesting other hother

theorem Value.IsExpression.unmarked_renamed {expr : Value} (h : expr.IsExpression) :
    (expr.renamed ρ).unmarked = expr.unmarked := by
  induction h with
  | boolean | symbol => rfl
  | number x => cases x <;> rfl
  | @list items _ ih =>
      rw [renamed_list, Value.unmarked, Value.unmarked, unmarkedItems_eq_map,
        unmarkedItems_eq_map, List.map_map]
      exact congrArg Value.list (List.map_congr_left ih)

/-- Counting the places from elsewhere changes nothing but marks. -/
theorem parseAll_restart {limit start : Nat} {text : String} {exprs : List Value}
    (h : parseAll limit start (tokenize text) = .ok exprs) (place : Nat) :
    ∃ exprs', parseAll limit place (tokenize text) = .ok exprs' ∧
      exprs'.map unmarked = exprs.map unmarked := by
  have hmoved : ∀ i < (tokenize text).length, place + (start + i - start) = place + i := by
    intro i _
    rw [Nat.add_sub_cancel_left]
  refine ⟨_, @parseAll_renamed (fun id => place + (id - start)) _ _ _ _ _ h hmoved, ?_⟩
  rw [List.map_map]
  refine List.map_congr_left fun expr hexpr => ?_
  exact IsExpression.unmarked_renamed
    ((parseAll_eq_ok_iff.mp h).1.isExpression (fun token htoken => mem_tokenize htoken) expr hexpr)

end SetLisp
