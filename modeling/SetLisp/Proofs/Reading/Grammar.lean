import SetLisp.Parser

/-!
# The grammar of expressions

Which tokens spell which expression, without a parser. A token with no part of its own in the
grammar spells an atom, a pair of brackets a list of what stands between them. Braces and a quoted
pair of parentheses are sugar for the calls of `set` and `list`.

The place of the first token is kept, because it marks a number that is not a number.
-/

namespace SetLisp

/-- The tokens that spell no atom. -/
def reservedTokens : List String :=
  ["(", ")", "\x7b", "\x7d", "'"]

mutual

/-- The tokens, the first of them at place `start`, spell the expression. -/
inductive Derives : Nat → List String → Value → Prop
  | atom {start : Nat} {token : String} (htoken : token ∉ reservedTokens) :
      Derives start [token] (atomOfToken start token)
  | round {start : Nat} {tokens : List String} {items : List Value}
      (hitems : DerivesEach (start + 1) tokens items) :
      Derives start ("(" :: tokens ++ [")"]) (.list items)
  | curly {start : Nat} {tokens : List String} {items : List Value}
      (hitems : DerivesEach (start + 1) tokens items) :
      Derives start ("\x7b" :: tokens ++ ["\x7d"]) (.list (.symbol "set" :: items))
  | quoted {start : Nat} {tokens : List String} {items : List Value}
      (hitems : DerivesEach (start + 2) tokens items) :
      Derives start ("'" :: "(" :: tokens ++ [")"]) (.list (.symbol "list" :: items))

/-- The tokens spell the expressions one after the other. -/
inductive DerivesEach : Nat → List String → List Value → Prop
  | nil {start : Nat} : DerivesEach start [] []
  | cons {start : Nat} {tokens more : List String} {expr : Value} {exprs : List Value}
      (hexpr : Derives start tokens expr)
      (hexprs : DerivesEach (start + tokens.length) more exprs) :
      DerivesEach start (tokens ++ more) (expr :: exprs)

end

namespace Value

mutual

/-- How deeply lists nest in the expression. -/
def nesting : Value → Nat
  | list items => nestingOfItems items + 1
  | _ => 0

def nestingOfItems : List Value → Nat
  | [] => 0
  | item :: rest => max (nesting item) (nestingOfItems rest)

end

theorem nestingOfItems_le_iff {items : List Value} {bound : Nat} :
    nestingOfItems items ≤ bound ↔ ∀ item ∈ items, item.nesting ≤ bound := by
  induction items with
  | nil => simp [nestingOfItems]
  | cons item rest ih => rw [nestingOfItems, Nat.max_le, ih, List.forall_mem_cons]

/-- Sugar for a call nests no deeper than what it is sugar for. -/
theorem nestingOfItems_symbol_cons (name : String) (items : List Value) :
    nestingOfItems (symbol name :: items) = nestingOfItems items := by
  simp [nestingOfItems, nesting]

theorem nesting_atomOfToken (mark : Nat) (token : String) :
    (atomOfToken mark token).nesting = 0 := by
  unfold atomOfToken
  split
  · rfl
  · split
    · rfl
    · split <;> rfl

end Value

theorem Derives.ne_nil {start : Nat} {tokens : List String} {expr : Value}
    (h : Derives start tokens expr) : tokens ≠ [] := by
  cases h <;> simp

theorem DerivesEach.snoc {start : Nat} {tokens more : List String} {exprs : List Value}
    {expr : Value} (hexprs : DerivesEach start tokens exprs)
    (hexpr : Derives (start + tokens.length) more expr) :
    DerivesEach start (tokens ++ more) (exprs ++ [expr]) := by
  induction exprs generalizing start tokens with
  | nil =>
      cases hexprs
      simpa using DerivesEach.cons hexpr .nil
  | cons first rest ih =>
      cases hexprs with
      | cons hfirst hrest =>
          rw [List.append_assoc]
          refine .cons hfirst (ih hrest ?_)
          rwa [Nat.add_assoc, ← List.length_append]

theorem derivesEach_singleton {start : Nat} {tokens : List String} {expr : Value}
    (h : Derives start tokens expr) : DerivesEach start tokens [expr] := by
  simpa using DerivesEach.cons h .nil

mutual

/-- The place of the tokens marks numbers and shapes nothing. -/
theorem Derives.restart {start : Nat} {tokens : List String} {expr : Value}
    (h : Derives start tokens expr) (place : Nat) :
    ∃ expr', Derives place tokens expr' ∧ expr'.nesting = expr.nesting := by
  cases h with
  | atom htoken =>
      refine ⟨_, .atom htoken, ?_⟩
      rw [Value.nesting_atomOfToken, Value.nesting_atomOfToken]
  | round hitems =>
      obtain ⟨items, hitems', hnesting⟩ := hitems.restart (place + 1)
      exact ⟨_, .round hitems', by rw [Value.nesting, Value.nesting, hnesting]⟩
  | curly hitems =>
      obtain ⟨items, hitems', hnesting⟩ := hitems.restart (place + 1)
      refine ⟨_, .curly hitems', ?_⟩
      simp only [Value.nesting, Value.nestingOfItems_symbol_cons, hnesting]
  | quoted hitems =>
      obtain ⟨items, hitems', hnesting⟩ := hitems.restart (place + 2)
      refine ⟨_, .quoted hitems', ?_⟩
      simp only [Value.nesting, Value.nestingOfItems_symbol_cons, hnesting]

theorem DerivesEach.restart {start : Nat} {tokens : List String} {exprs : List Value}
    (h : DerivesEach start tokens exprs) (place : Nat) :
    ∃ exprs', DerivesEach place tokens exprs' ∧
      Value.nestingOfItems exprs' = Value.nestingOfItems exprs := by
  cases h with
  | nil => exact ⟨[], .nil, rfl⟩
  | @cons _ tokens _ _ _ hexpr hexprs =>
      obtain ⟨expr, hexpr', hnesting⟩ := hexpr.restart place
      obtain ⟨exprs, hexprs', hnestings⟩ := hexprs.restart (place + tokens.length)
      exact ⟨expr :: exprs, .cons hexpr' hexprs',
        by rw [Value.nestingOfItems, Value.nestingOfItems, hnesting, hnestings]⟩

end

/-- Tokens that spell expressions fall into pieces that spell one each. -/
theorem DerivesEach.exists_pieces {start bound : Nat} {tokens : List String} {exprs : List Value}
    (h : DerivesEach start tokens exprs) (hnesting : ∀ expr ∈ exprs, expr.nesting ≤ bound)
    (place : Nat) :
    ∃ pieces : List (List String), tokens = pieces.flatten ∧
      ∀ piece ∈ pieces, ∃ expr, Derives place piece expr ∧ expr.nesting ≤ bound := by
  induction exprs generalizing start tokens with
  | nil =>
      cases h
      exact ⟨[], rfl, by simp⟩
  | cons expr rest ih =>
      cases h with
      | @cons _ piece _ _ _ hexpr hexprs =>
          obtain ⟨pieces, rfl, hpieces⟩ :=
            ih hexprs fun other hother => hnesting other (List.mem_cons_of_mem expr hother)
          obtain ⟨expr', hexpr', hsame⟩ := hexpr.restart place
          refine ⟨piece :: pieces, rfl, ?_⟩
          rintro other (_ | ⟨_, hother⟩)
          · exact ⟨expr', hexpr', hsame ▸ hnesting expr List.mem_cons_self⟩
          · exact hpieces other hother

/-- Pieces that spell one expression each spell expressions one after the other. -/
theorem derivesEach_of_pieces {place bound : Nat} {pieces : List (List String)}
    (hpieces : ∀ piece ∈ pieces, ∃ expr, Derives place piece expr ∧ expr.nesting ≤ bound)
    (start : Nat) :
    ∃ exprs, DerivesEach start pieces.flatten exprs ∧ ∀ expr ∈ exprs, expr.nesting ≤ bound := by
  induction pieces generalizing start with
  | nil => exact ⟨[], .nil, by simp⟩
  | cons piece rest ih =>
      obtain ⟨expr, hexpr, hnesting⟩ := hpieces piece List.mem_cons_self
      obtain ⟨expr', hexpr', hsame⟩ := hexpr.restart start
      obtain ⟨exprs, hexprs, hnestings⟩ :=
        ih (fun other hother => hpieces other (List.mem_cons_of_mem piece hother))
          (start + piece.length)
      refine ⟨expr' :: exprs, .cons hexpr' hexprs, ?_⟩
      rintro other (_ | ⟨_, hother⟩)
      · exact hsame ▸ hnesting
      · exact hnestings other hother

end SetLisp
