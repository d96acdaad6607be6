import SetLisp.Proofs.Number.Numeral
import SetLisp.Proofs.Reading.Parsing

namespace SetLisp

/-- A run of characters that neither end a token nor are one. -/
def IsWord (token : String) : Prop :=
  token.toList ≠ [] ∧ ∀ c ∈ token.toList, isBracket c = false ∧ Text.isBlank c = false

/-- The tokens that the brackets are. -/
def bracketTokens : List String :=
  ["(", ")", "\x7b", "\x7d"]

namespace Token

theorem mem_bracketTokens {c : Char} (hc : isBracket c = true) :
    String.ofList [c] ∈ bracketTokens := by
  simp only [isBracket, Bool.or_eq_true, beq_iff_eq] at hc
  rcases hc with ((rfl | rfl) | rfl) | rfl <;> decide

theorem isWord_of_mem_ofRun {run token : List Char}
    (hrun : ∀ c ∈ run, isBracket c = false ∧ Text.isBlank c = false) (htoken : token ∈ ofRun run) :
    IsWord (String.ofList token) := by
  unfold ofRun at htoken
  split at htoken
  · cases htoken
  · next hne =>
      rw [List.eq_of_mem_singleton htoken, IsWord, String.toList_ofList]
      refine ⟨?_, fun c hc => hrun c (List.mem_reverse.mp hc)⟩
      simpa using hne

theorem mem_scanFrom {run text token : List Char}
    (hrun : ∀ c ∈ run, isBracket c = false ∧ Text.isBlank c = false)
    (htoken : token ∈ scanFrom run text) :
    String.ofList token ∈ bracketTokens ∨ IsWord (String.ofList token) := by
  induction text generalizing run with
  | nil => exact .inr (isWord_of_mem_ofRun hrun htoken)
  | cons c rest ih =>
      rw [scanFrom] at htoken
      split at htoken
      · next hbracket =>
          rcases List.mem_append.mp htoken with htoken | htoken
          · exact .inr (isWord_of_mem_ofRun hrun htoken)
          · rcases List.mem_cons.mp htoken with rfl | htoken
            · exact .inl (mem_bracketTokens hbracket)
            · exact ih (by simp) htoken
      · next hbracket =>
          split at htoken
          · rcases List.mem_append.mp htoken with htoken | htoken
            · exact .inr (isWord_of_mem_ofRun hrun htoken)
            · exact ih (by simp) htoken
          · next hblank =>
              refine ih ?_ htoken
              rintro d (_ | ⟨_, hd⟩)
              · exact ⟨eq_false_of_ne_true hbracket, eq_false_of_ne_true hblank⟩
              · exact hrun d hd

end Token

/-- A token of a text is a bracket or a word. -/
theorem mem_tokenize {text token : String} (htoken : token ∈ tokenize text) :
    token ∈ bracketTokens ∨ IsWord token := by
  obtain ⟨run, hrun, rfl⟩ := List.mem_map.mp htoken
  exact Token.mem_scanFrom (by simp) hrun

/-- A word that is read as a symbol. -/
structure IsName (name : String) : Prop where
  isWord : IsWord name
  not_reserved : name ∉ reservedTokens
  reads : ∀ payload, atomOfToken payload name = .symbol name

/-- What a text can be parsed to. -/
inductive Value.IsExpression : Value → Prop
  | boolean (value : Bool) : IsExpression (.boolean value)
  | number (value : Double) : IsExpression (.number value)
  | symbol {name : String} (hname : IsName name) : IsExpression (.symbol name)
  | list {items : List Value} (hitems : ∀ item ∈ items, IsExpression item) :
      IsExpression (.list items)

theorem Value.IsExpression.of_mem_list {items : List Value} (h : (Value.list items).IsExpression) :
    ∀ item ∈ items, item.IsExpression := by
  cases h with
  | list hitems => exact hitems

theorem numberOfToken?_eq_none_iff (token : String) (payload payload' : Nat) :
    numberOfToken? payload token = none ↔ numberOfToken? payload' token = none := by
  unfold numberOfToken?
  split
  · simp
  · rw [Option.map_eq_none_iff, Option.map_eq_none_iff]

theorem isExpression_atomOfToken {token : String} (hword : IsWord token)
    (htoken : token ∉ reservedTokens) (payload : Nat) :
    (atomOfToken payload token).IsExpression := by
  unfold atomOfToken
  split
  · exact .boolean true
  · next htrue =>
      split
      · exact .boolean false
      · next hfalse =>
          cases hnumber : numberOfToken? payload token with
          | some x => exact .number x
          | none =>
              refine .symbol ⟨hword, htoken, fun other => ?_⟩
              rw [atomOfToken, if_neg htrue, if_neg hfalse,
                (numberOfToken?_eq_none_iff token other payload).mpr hnumber]

theorem isName_of_read?_eq_none {name : String} (hne : name.toList ≠ [])
    (hchars : ∀ c ∈ name.toList, isBracket c = false ∧ Text.isBlank c = false)
    (hreserved : name ∉ reservedTokens) (hbooleans : name ≠ "true" ∧ name ≠ "false")
    (hnumber : Numeral.read? name.toList = none) : IsName name := by
  refine ⟨⟨hne, hchars⟩, hreserved, fun payload => ?_⟩
  have hnone : numberOfToken? payload name = none := by
    simp [numberOfToken?, hnumber]
  rw [atomOfToken, if_neg hbooleans.1, if_neg hbooleans.2, hnone]

theorem isName_set : IsName "set" :=
  isName_of_read?_eq_none (by decide) (forall_mem_of_all (by decide)) (by decide) (by decide)
    (by decide)

theorem isName_list : IsName "list" :=
  isName_of_read?_eq_none (by decide) (forall_mem_of_all (by decide)) (by decide) (by decide)
    (by decide)

theorem Value.IsExpression.call {name : String} {items : List Value} (hname : IsName name)
    (hitems : ∀ item ∈ items, item.IsExpression) :
    (Value.list (.symbol name :: items)).IsExpression := by
  refine .list ?_
  rintro item (_ | ⟨_, hitem⟩)
  · exact .symbol hname
  · exact hitems item hitem

mutual

/-- What is spelled by brackets, words and quotes is an expression. -/
theorem Derives.isExpression {start : Nat} {tokens : List String} {expr : Value}
    (h : Derives start tokens expr)
    (htokens : ∀ token ∈ tokens, token ∈ bracketTokens ∨ IsWord token) :
    expr.IsExpression := by
  cases h with
  | @atom _ token htoken =>
      rcases htokens _ List.mem_cons_self with hbracket | hword
      · refine absurd ?_ htoken
        simp only [bracketTokens, reservedTokens, List.mem_cons, List.not_mem_nil] at hbracket ⊢
        tauto
      · exact isExpression_atomOfToken hword htoken start
  | round hitems =>
      exact .list (hitems.isExpression fun token htoken =>
        htokens token (List.mem_cons_of_mem _ (List.mem_append_left _ htoken)))
  | curly hitems =>
      exact .call isName_set (hitems.isExpression fun token htoken =>
        htokens token (List.mem_cons_of_mem _ (List.mem_append_left _ htoken)))
  | quoted hitems =>
      exact .call isName_list (hitems.isExpression fun token htoken => htokens token
        (List.mem_cons_of_mem _ (List.mem_cons_of_mem _ (List.mem_append_left _ htoken))))

theorem DerivesEach.isExpression {start : Nat} {tokens : List String} {exprs : List Value}
    (h : DerivesEach start tokens exprs)
    (htokens : ∀ token ∈ tokens, token ∈ bracketTokens ∨ IsWord token) :
    ∀ expr ∈ exprs, expr.IsExpression := by
  cases h with
  | nil => simp
  | cons hexpr hexprs =>
      rintro expr (_ | ⟨_, hmem⟩)
      · exact hexpr.isExpression fun token htoken =>
          htokens token (List.mem_append_left _ htoken)
      · exact hexprs.isExpression
          (fun token htoken => htokens token (List.mem_append_right _ htoken)) expr hmem

end

/-- An expression of some text that the parser accepts under the limit. -/
def Value.Parsed (limit : Nat) (expr : Value) : Prop :=
  ∃ payload text exprs, parseAll limit payload (tokenize text) = .ok exprs ∧ expr ∈ exprs

theorem Value.Parsed.isExpression {limit : Nat} {expr : Value} (h : expr.Parsed limit) :
    expr.IsExpression ∧ expr.nesting ≤ limit := by
  obtain ⟨payload, text, exprs, hparse, hexpr⟩ := h
  obtain ⟨hderives, hnesting⟩ := parseAll_eq_ok_iff.mp hparse
  exact ⟨hderives.isExpression (fun token htoken => mem_tokenize htoken) expr hexpr,
    hnesting expr hexpr⟩

end SetLisp
