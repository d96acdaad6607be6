import SetLisp.Proofs.Reading.TermTokens

namespace SetLisp

open Token

/-- Brackets and words, as scanning yields them. -/
def Scanned (tokens : List String) : Prop :=
  ∀ token ∈ tokens, token ∈ bracketTokens ∨ IsWord token

theorem scanned_append {first second : List String} :
    Scanned (first ++ second) ↔ Scanned first ∧ Scanned second :=
  List.forall_mem_append

theorem scanned_texts (chars : List Char) : Scanned (texts chars) :=
  fun _ htoken => mem_texts htoken

theorem scanned_tokenize (text : String) : Scanned (tokenize text) :=
  scanned_texts text.toList

/-- Behind the tokens no bracket is open. -/
def Balanced (tokens : List String) : Prop :=
  openedAfter [] (tokens.flatMap String.toList) = some []

theorem isWord_of_not_reserved {token : String} (htoken : token ∉ reservedTokens)
    (hscanned : token ∈ bracketTokens ∨ IsWord token) : IsWord token := by
  refine hscanned.resolve_left fun hbracket => htoken ?_
  simp only [bracketTokens, reservedTokens, List.mem_cons, List.not_mem_nil] at hbracket ⊢
  tauto

theorem flatMap_toList_ne_nil {tokens : List String} (htokens : Scanned tokens)
    (hne : tokens ≠ []) : tokens.flatMap String.toList ≠ [] := by
  obtain ⟨token, rest, rfl⟩ := List.exists_cons_of_ne_nil hne
  have htoken : token.toList ≠ [] := by
    rcases htokens token List.mem_cons_self with hbracket | hword
    · intro hempty
      rw [String.toList_eq_nil_iff.mp hempty] at hbracket
      revert hbracket
      decide
    · exact hword.1
  simp [htoken]

theorem balanced_append_iff {first second : List String} (hfirst : Balanced first) :
    Balanced (first ++ second) ↔ Balanced second := by
  rw [Balanced] at hfirst
  rw [Balanced, List.flatMap_append, openedAfter_append, hfirst, Option.bind_some, Balanced]

theorem openedAfter_flatten_ofRun (opened : List Bracket) (run : List Char) :
    openedAfter opened (ofRun run).flatten = openedAfter opened run.reverse := by
  cases run <;> simp [ofRun]

/-- Blanks are no brackets, so the tokens of a text open the brackets of the text. -/
theorem openedAfter_flatten_scanFrom (opened : List Bracket) (run text : List Char) :
    openedAfter opened (scanFrom run text).flatten = openedAfter opened (run.reverse ++ text) := by
  induction text generalizing run opened with
  | nil => rw [scanFrom, openedAfter_flatten_ofRun, List.append_nil]
  | cons c rest ih =>
      rw [scanFrom]
      split
      · rw [List.flatten_append, List.flatten_cons, openedAfter_append, openedAfter_append,
          openedAfter_flatten_ofRun]
        congr 1
        funext after
        rw [openedAfter_append, openedAfter_cons, openedAfter_cons]
        cases openedBy after c with
        | none => rfl
        | some next => exact ih next []
      · next hbracket =>
          split
          · rw [List.flatten_append, openedAfter_append, openedAfter_append,
              openedAfter_flatten_ofRun]
            congr 1
            funext after
            rw [openedAfter_cons, openedBy_of_not_bracket (eq_false_of_ne_true hbracket)]
            exact ih after []
          · rw [ih, List.reverse_cons, List.append_assoc]
            rfl

theorem balanced_texts_iff {chars : List Char} :
    Balanced (texts chars) ↔ openedAfter [] chars = some [] := by
  have hchars : (texts chars).flatMap String.toList = (scan chars).flatten := by
    simp [texts, List.flatMap_map, List.flatMap_id']
  rw [Balanced, hchars, scan, openedAfter_flatten_scanFrom]
  rfl

/-- The brackets of a form are open all along it. -/
theorem openedAfter_front_formChars {opener closer : Bracket} {inner front back : List Char}
    (hinner : openedAfter [] inner = some []) (hfront : front ≠ []) (hback : back ≠ [])
    (h : formChars opener inner closer = front ++ back) : openedAfter [] front ≠ some [] := by
  obtain ⟨c, front, rfl⟩ := List.exists_cons_of_ne_nil hfront
  rcases List.eq_nil_or_concat back with rfl | ⟨back, d, rfl⟩
  · exact absurd rfl hback
  · rw [formChars, List.cons_append, List.concat_eq_append, ← List.append_assoc] at h
    obtain ⟨rfl, hrest⟩ := List.cons.inj h
    obtain ⟨rfl, -⟩ := List.append_inj' hrest rfl
    rw [openedAfter_append] at hinner
    obtain ⟨open', hopen, -⟩ := Option.bind_eq_some_iff.mp hinner
    have hinside : openedAfter [opener] front = some (open' ++ [opener]) :=
      openedAfter_append_opened hopen [opener]
    rw [openedAfter_cons, openedBy_opener, Option.bind_some, hinside]
    simp

/-- The characters of the tokens are those of a form. -/
def SpellsForm (tokens : List String) : Prop :=
  ∃ opener inner closer, openedAfter [] inner = some [] ∧
    tokens.flatMap String.toList = formChars opener inner closer

theorem SpellsForm.balanced {tokens : List String} (h : SpellsForm tokens) :
    Balanced tokens := by
  obtain ⟨opener, inner, closer, hinner, hchars⟩ := h
  rw [Balanced, hchars, openedAfter_formChars hinner]

theorem SpellsForm.not_balanced_front {front back : List String} (h : SpellsForm (front ++ back))
    (hscanned : Scanned (front ++ back)) (hfront : front ≠ []) (hback : back ≠ []) :
    ¬ Balanced front := by
  obtain ⟨hfrontScanned, hbackScanned⟩ := scanned_append.mp hscanned
  obtain ⟨opener, inner, closer, hinner, hchars⟩ := h
  rw [List.flatMap_append] at hchars
  exact openedAfter_front_formChars hinner (flatMap_toList_ne_nil hfrontScanned hfront)
    (flatMap_toList_ne_nil hbackScanned hback) hchars.symm

theorem balanced_quote_cons {tokens : List String} :
    Balanced ("'" :: tokens) ↔ Balanced tokens := by
  have hquote : Balanced ["'"] := by
    rw [Balanced]
    decide
  exact balanced_append_iff hquote

/-- How the tokens of one expression look. -/
inductive SpellsOne : List String → Prop
  | word {token : String} (hword : IsWord token) : SpellsOne [token]
  | form {tokens : List String} (hform : SpellsForm tokens) : SpellsOne tokens
  | quoted {tokens : List String} (hform : SpellsForm tokens) : SpellsOne ("'" :: tokens)

theorem SpellsOne.ne_nil {tokens : List String} (h : SpellsOne tokens) : tokens ≠ [] := by
  cases h with
  | word | quoted => simp
  | form hform =>
      obtain ⟨opener, inner, closer, -, hchars⟩ := hform
      rintro rfl
      cases hchars

theorem SpellsOne.balanced {tokens : List String} (h : SpellsOne tokens) : Balanced tokens := by
  cases h with
  | word hword =>
      rw [Balanced, List.flatMap_singleton]
      exact Plain.openedAfter hword.2 []
  | form hform => exact hform.balanced
  | quoted hform => exact balanced_quote_cons.mpr hform.balanced

theorem SpellsOne.not_balanced_front {front back : List String} (h : SpellsOne (front ++ back))
    (hscanned : Scanned (front ++ back)) (hfront : front ≠ []) (hback : back ≠ [])
    (hquote : front.getLast? ≠ some "'") : ¬ Balanced front := by
  generalize htokens : front ++ back = tokens at h hscanned
  cases h with
  | word =>
      rcases List.append_eq_singleton_iff.mp htokens with ⟨h, -⟩ | ⟨-, h⟩
      · exact absurd h hfront
      · exact absurd h hback
  | form hform =>
      subst htokens
      exact hform.not_balanced_front hscanned hfront hback
  | quoted hform =>
      obtain ⟨token, front, rfl⟩ := List.exists_cons_of_ne_nil hfront
      obtain ⟨rfl, rfl⟩ := List.cons.inj htokens
      have hmore : front ≠ [] := by
        rintro rfl
        exact hquote rfl
      rw [balanced_quote_cons]
      exact hform.not_balanced_front
        (fun token htoken => hscanned token (List.mem_cons_of_mem _ htoken)) hmore hback

theorem SpellsForm.of_items {tokens : List String} (bracket : Bracket)
    (htokens : Balanced tokens) :
    SpellsForm (openingTokens bracket false ++ (tokens ++ [closingToken bracket])) := by
  refine ⟨bracket, tokens.flatMap String.toList, bracket, htokens, ?_⟩
  cases bracket <;> simp [formChars, openingTokens, closingToken, Bracket.opener, Bracket.closer]

mutual

theorem Derives.spellsOne {start : Nat} {tokens : List String} {expr : Value}
    (h : Derives start tokens expr) (hscanned : Scanned tokens) : SpellsOne tokens := by
  cases h with
  | atom htoken =>
      exact .word (isWord_of_not_reserved htoken (hscanned _ List.mem_cons_self))
  | round hitems =>
      refine .form (.of_items .round (hitems.balanced fun token htoken => ?_))
      exact hscanned token (List.mem_cons_of_mem _ (List.mem_append_left _ htoken))
  | curly hitems =>
      refine .form (.of_items .curly (hitems.balanced fun token htoken => ?_))
      exact hscanned token (List.mem_cons_of_mem _ (List.mem_append_left _ htoken))
  | quoted hitems =>
      refine .quoted (.of_items .round (hitems.balanced fun token htoken => ?_))
      exact hscanned token
        (List.mem_cons_of_mem _ (List.mem_cons_of_mem _ (List.mem_append_left _ htoken)))

/-- Tokens that spell expressions balance. -/
theorem DerivesEach.balanced {start : Nat} {tokens : List String} {exprs : List Value}
    (h : DerivesEach start tokens exprs) (hscanned : Scanned tokens) : Balanced tokens := by
  cases h with
  | nil => rfl
  | cons hexpr hexprs =>
      obtain ⟨hfirst, hrest⟩ := scanned_append.mp hscanned
      rw [balanced_append_iff (hexpr.spellsOne hfirst).balanced]
      exact hexprs.balanced hrest

end

theorem Derives.getLast?_ne_quote {start : Nat} {tokens : List String} {expr : Value}
    (h : Derives start tokens expr) : tokens.getLast? ≠ some "'" := by
  cases h with
  | atom htoken =>
      intro hlast
      obtain rfl := Option.some.inj hlast
      exact htoken (by decide)
  | round | curly | quoted =>
      rw [List.getLast?_concat]
      decide

/-- A loose quote stands in one part, or it ends the first one. -/
theorem hasLooseQuote_append {first second : List String}
    (h : HasLooseQuote (first ++ second)) :
    HasLooseQuote first ∨ HasLooseQuote second ∨
      first.getLast? = some "'" ∧ ∃ token ∈ second.head?, token ∉ bracketTokens := by
  obtain ⟨before, token, after, htokens, htoken⟩ := h
  rcases List.append_eq_append_iff.mp htokens with ⟨front, rfl, hsecond⟩ | ⟨back, rfl, hback⟩
  · exact .inr (.inl ⟨front, token, after, hsecond, htoken⟩)
  · match back, hback with
    | [], hback => exact .inr (.inl ⟨[], token, after, hback.symm, htoken⟩)
    | [quote], hback =>
        obtain ⟨rfl, rfl⟩ := List.cons.inj hback
        exact .inr (.inr ⟨by simp, token, rfl, htoken⟩)
    | quote :: next :: back, hback =>
        obtain ⟨hquote, hback⟩ := List.cons.inj hback
        obtain ⟨hnext, rfl⟩ := List.cons.inj hback
        exact .inl ⟨before, token, back, by rw [hquote, hnext], htoken⟩

theorem not_hasLooseQuote_singleton (token : String) : ¬ HasLooseQuote [token] := by
  rintro ⟨before, next, after, htokens, -⟩
  have hlength := congrArg List.length htokens
  simp only [List.length_append, List.length_cons, List.length_nil] at hlength
  omega

theorem not_hasLooseQuote_openingTokens (bracket : Bracket) (quoted : Bool) :
    ¬ HasLooseQuote (openingTokens bracket quoted) := by
  match bracket, quoted with
  | .round, false | .curly, false | .curly, true => exact not_hasLooseQuote_singleton _
  | .round, true =>
      intro hloose
      rcases @hasLooseQuote_append ["'"] ["("] hloose with hquote | hopening |
        ⟨-, token, ⟨⟩, htoken⟩
      · exact not_hasLooseQuote_singleton _ hquote
      · exact not_hasLooseQuote_singleton _ hopening
      · exact htoken (by decide)

/-- Brackets around tokens loosen no quote. -/
theorem not_hasLooseQuote_form {tokens : List String} (h : ¬ HasLooseQuote tokens)
    (bracket : Bracket) (quoted : Bool) :
    ¬ HasLooseQuote (openingTokens bracket quoted ++ (tokens ++ [closingToken bracket])) := by
  intro hloose
  rcases hasLooseQuote_append hloose with hopening | hrest | ⟨hquote, -⟩
  · exact not_hasLooseQuote_openingTokens bracket quoted hopening
  · rcases hasLooseQuote_append hrest with htokens | hclosing | ⟨-, token, htoken, hbracket⟩
    · exact h htokens
    · exact not_hasLooseQuote_singleton _ hclosing
    · obtain rfl := Option.some.inj htoken
      exact hbracket (by cases bracket <;> decide)
  · revert hquote
    cases bracket <;> cases quoted <;> decide

mutual

theorem Derives.not_hasLooseQuote {start : Nat} {tokens : List String} {expr : Value}
    (h : Derives start tokens expr) : ¬ HasLooseQuote tokens := by
  cases h with
  | atom => exact not_hasLooseQuote_singleton _
  | round hitems => exact not_hasLooseQuote_form hitems.not_hasLooseQuote .round false
  | curly hitems => exact not_hasLooseQuote_form hitems.not_hasLooseQuote .curly false
  | quoted hitems => exact not_hasLooseQuote_form hitems.not_hasLooseQuote .round true

theorem DerivesEach.not_hasLooseQuote {start : Nat} {tokens : List String} {exprs : List Value}
    (h : DerivesEach start tokens exprs) : ¬ HasLooseQuote tokens := by
  cases h with
  | nil =>
      rintro ⟨before, token, after, htokens, -⟩
      simp at htokens
  | cons hexpr hexprs =>
      intro hloose
      rcases hasLooseQuote_append hloose with hfirst | hrest | ⟨hquote, -⟩
      · exact hexpr.not_hasLooseQuote hfirst
      · exact hexprs.not_hasLooseQuote hrest
      · exact hexpr.getLast?_ne_quote hquote

end

/-! ### Cutting derivations -/

/-- Where the tokens are cut into balanced parts, the expressions are cut as well. -/
theorem DerivesEach.split {start : Nat} {first second : List String} {exprs : List Value}
    (h : DerivesEach start (first ++ second) exprs) (hscanned : Scanned (first ++ second))
    (hfirst : Balanced first) (hquote : first.getLast? ≠ some "'") :
    ∃ front back, exprs = front ++ back ∧ DerivesEach start first front ∧
      DerivesEach (start + first.length) second back := by
  induction exprs generalizing start first with
  | nil =>
      generalize htokens : first ++ second = tokens at h
      cases h
      obtain ⟨rfl, rfl⟩ := List.append_eq_nil_iff.mp htokens
      exact ⟨[], [], rfl, .nil, .nil⟩
  | cons expr rest ih =>
      by_cases hne : first = []
      · subst hne
        exact ⟨[], expr :: rest, rfl, .nil, h⟩
      · generalize htokens : first ++ second = tokens at h hscanned
        cases h with
        | @cons _ piece more _ _ hexpr hexprs =>
            obtain ⟨hpiece, hmore⟩ := scanned_append.mp hscanned
            have hone := hexpr.spellsOne hpiece
            obtain ⟨middle, rfl, rfl⟩ :
                ∃ middle, first = piece ++ middle ∧ more = middle ++ second := by
              rcases List.append_eq_append_iff.mp htokens with ⟨back, rfl, rfl⟩ | hmiddle
              · by_cases hback : back = []
                · exact ⟨[], by simp [hback], by simp [hback]⟩
                · exact absurd hfirst (hone.not_balanced_front hpiece hne hback hquote)
              · exact hmiddle
            have hmiddle : middle.getLast? ≠ some "'" := by
              intro hlast
              rw [List.getLast?_append, hlast] at hquote
              exact hquote rfl
            obtain ⟨front, back, rfl, hfront, hback⟩ :=
              ih hexprs hmore ((balanced_append_iff hone.balanced).mp hfirst) hmiddle
            refine ⟨expr :: front, back, rfl, .cons hexpr hfront, ?_⟩
            rwa [List.length_append, ← Nat.add_assoc]

theorem DerivesEach.eq_nil {start : Nat} {exprs : List Value} (h : DerivesEach start [] exprs) :
    exprs = [] := by
  generalize htokens : [] = tokens at h
  cases h with
  | nil => rfl
  | cons hexpr => exact absurd (List.append_eq_nil_iff.mp htokens.symm).1 hexpr.ne_nil

/-- The tokens of one expression spell no more than one. -/
theorem DerivesEach.eq_singleton {start : Nat} {tokens : List String} {exprs : List Value}
    (h : DerivesEach start tokens exprs) (hscanned : Scanned tokens) (hone : SpellsOne tokens) :
    ∃ expr, exprs = [expr] := by
  cases h with
  | nil => exact absurd rfl hone.ne_nil
  | @cons _ piece more expr _ hexpr hexprs =>
      obtain ⟨hpiece, -⟩ := scanned_append.mp hscanned
      have hmore : more = [] := by
        by_contra hne
        exact hone.not_balanced_front hscanned hexpr.ne_nil hne hexpr.getLast?_ne_quote
          (hexpr.spellsOne hpiece).balanced
      rw [hmore] at hexprs
      exact ⟨expr, by rw [hexprs.eq_nil]⟩

end SetLisp
