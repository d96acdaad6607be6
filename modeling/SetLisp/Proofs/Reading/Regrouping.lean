import SetLisp.Proofs.Reading.Balance
import SetLisp.Proofs.Reading.Marks

namespace SetLisp

open Token TermReader

/-- A text that is read falls into words and forms, unless a lone quote ends it. -/
theorem isTerm_of_readTerms {lines : List (List Char)} {terms : List String}
    (h : readTerms lines = .ok terms) (hquote : terms.getLast? ≠ some "'") :
    ∀ term ∈ terms, IsTerm term.toList := by
  intro term hterm
  rcases fallsInto_of_readTerms h with hfalls | ⟨source, blanks, front, -, -, -, hterms⟩
  · exact hfalls.isTerm term (List.mem_reverse.mpr hterm)
  · refine absurd ?_ hquote
    rw [List.getLast?_eq_head?_reverse, hterms, List.head?_cons]

theorem IsTerm.balanced {term : String} (h : IsTerm term.toList) : Balanced (tokenize term) := by
  rw [tokenize_eq_texts, balanced_texts_iff]
  exact h.openedAfter

theorem DerivesEach.getLast?_ne_quote {start : Nat} {tokens : List String} {exprs : List Value}
    (h : DerivesEach start tokens exprs) : tokens.getLast? ≠ some "'" := by
  induction exprs generalizing start tokens with
  | nil =>
      cases h
      simp
  | cons expr rest ih =>
      cases h with
      | @cons _ piece more _ _ hexpr hexprs =>
          rw [List.getLast?_append]
          have hmore := ih hexprs
          cases hlast : more.getLast? with
          | none => exact hexpr.getLast?_ne_quote
          | some last => rwa [hlast] at hmore

theorem DerivesEach.append {start : Nat} {first second : List String} {front back : List Value}
    (hfront : DerivesEach start first front)
    (hback : DerivesEach (start + first.length) second back) :
    DerivesEach start (first ++ second) (front ++ back) := by
  induction front generalizing start first with
  | nil =>
      cases hfront
      exact hback
  | cons expr rest ih =>
      cases hfront with
      | cons hexpr hexprs =>
          rw [List.append_assoc]
          refine .cons hexpr (ih hexprs ?_)
          rwa [List.length_append, ← Nat.add_assoc] at hback

/-! ### Groups of forms -/

/-- The parser reads each term to a group of forms, counting the places of tokens on from term to
term. -/
inductive ReadsInGroups (limit : Nat) : Nat → List String → List (List Value) → Prop
  | nil {start : Nat} : ReadsInGroups limit start [] []
  | cons {start : Nat} {term : String} {terms : List String} {group : List Value}
      {groups : List (List Value)} (hterm : parseAll limit start (tokenize term) = .ok group)
      (hterms : ReadsInGroups limit (start + (tokenize term).length) terms groups) :
      ReadsInGroups limit start (term :: terms) (group :: groups)

theorem ReadsInGroups.unique {limit start : Nat} {terms : List String}
    {groups groups' : List (List Value)} (h : ReadsInGroups limit start terms groups)
    (h' : ReadsInGroups limit start terms groups') : groups = groups' := by
  induction h generalizing groups' with
  | nil =>
      cases h'
      rfl
  | cons hterm _ ih =>
      cases h' with
      | cons hterm' hterms' =>
          obtain rfl := Except.ok.inj (hterm.symm.trans hterm')
          rw [ih hterms']

theorem ReadsInGroups.length_eq {limit start : Nat} {terms : List String}
    {groups : List (List Value)} (h : ReadsInGroups limit start terms groups) :
    terms.length = groups.length := by
  induction h with
  | nil => rfl
  | cons _ _ ih => rw [List.length_cons, ih, List.length_cons]

theorem exists_readsInGroups {limit start : Nat} {terms : List String} {exprs : List Value}
    (h : DerivesEach start (terms.flatMap tokenize) exprs)
    (hnesting : ∀ expr ∈ exprs, expr.nesting ≤ limit)
    (hterms : ∀ term ∈ terms, IsTerm term.toList) :
    ∃ groups, ReadsInGroups limit start terms groups ∧ groups.flatten = exprs := by
  induction terms generalizing start exprs with
  | nil =>
      obtain rfl := h.eq_nil
      exact ⟨[], .nil, rfl⟩
  | cons term rest ih =>
      have hterm := hterms term List.mem_cons_self
      have hscanned : Scanned ((term :: rest).flatMap tokenize) := by
        intro token htoken
        obtain ⟨other, -, hother⟩ := List.mem_flatMap.mp htoken
        exact scanned_tokenize other token hother
      rw [List.flatMap_cons] at h hscanned
      obtain ⟨group, others, rfl, hgroup, hothers⟩ :=
        h.split hscanned hterm.balanced hterm.getLast?_texts
      obtain ⟨groups, hgroups, rfl⟩ := ih hothers
        (fun expr hexpr => hnesting expr (List.mem_append_right _ hexpr))
        fun other hother => hterms other (List.mem_cons_of_mem term hother)
      refine ⟨group :: groups, .cons (parseAll_eq_ok_iff.mpr ⟨hgroup, ?_⟩) hgroups, rfl⟩
      exact fun expr hexpr => hnesting expr (List.mem_append_left _ hexpr)

/-- Each term is read to its group from whatever place, up to marks. -/
theorem ReadsInGroups.restart {limit start : Nat} {terms : List String}
    {groups : List (List Value)} (h : ReadsInGroups limit start terms groups) (place : Nat) :
    List.Forall₂ (fun term group => ∃ exprs, parseAll limit place (tokenize term) = .ok exprs ∧
      exprs.map Value.unmarked = group.map Value.unmarked) terms groups := by
  induction h with
  | nil => exact .nil
  | cons hterm _ ih => exact .cons (parseAll_restart hterm place) ih

theorem ReadsInGroups.accepted {limit start : Nat} {terms : List String}
    {groups : List (List Value)} (h : ReadsInGroups limit start terms groups) (place : Nat) :
    ∀ term ∈ terms, ∃ group, parseAll limit place (tokenize term) = .ok group := by
  induction h with
  | nil => simp
  | cons hterm _ ih =>
      rintro term (_ | ⟨_, hmem⟩)
      · obtain ⟨group, hgroup, -⟩ := parseAll_restart hterm place
        exact ⟨group, hgroup⟩
      · exact ih term hmem

/-- The groups are what the tokens of the terms are read to in one go. -/
theorem ReadsInGroups.parseAll_eq {limit start : Nat} {terms : List String}
    {groups : List (List Value)} (h : ReadsInGroups limit start terms groups) :
    parseAll limit start (terms.flatMap tokenize) = .ok groups.flatten := by
  induction h with
  | nil => rfl
  | @cons start term terms group groups hterm _ ih =>
      obtain ⟨hfront, hnesting⟩ := parseAll_eq_ok_iff.mp hterm
      obtain ⟨hback, hnestings⟩ := parseAll_eq_ok_iff.mp ih
      rw [List.flatMap_cons, List.flatten_cons]
      refine parseAll_eq_ok_iff.mpr ⟨hfront.append hback, fun expr hexpr => ?_⟩
      rcases List.mem_append.mp hexpr with hexpr | hexpr
      · exact hnesting expr hexpr
      · exact hnestings expr hexpr

/-- Terms that the parser accepts one by one are accepted at the places they have in a text. -/
theorem exists_readsInGroups_of_accepted {limit payload : Nat} {terms : List String}
    (h : ∀ term ∈ terms, ∃ exprs, parseAll limit payload (tokenize term) = .ok exprs)
    (start : Nat) : ∃ groups, ReadsInGroups limit start terms groups := by
  induction terms generalizing start with
  | nil => exact ⟨[], .nil⟩
  | cons term rest ih =>
      obtain ⟨first, hfirst⟩ := h term List.mem_cons_self
      obtain ⟨group, hgroup, -⟩ := parseAll_restart hfirst start
      obtain ⟨groups, hgroups⟩ :=
        ih (fun other hother => h other (List.mem_cons_of_mem term hother))
          (start + (tokenize term).length)
      exact ⟨group :: groups, .cons hgroup hgroups⟩

/-- Terms that the parser accepts one by one are accepted one behind the other. -/
theorem exists_derivesEach_of_accepted {limit payload : Nat} {terms : List String}
    (h : ∀ term ∈ terms, ∃ exprs, parseAll limit payload (tokenize term) = .ok exprs)
    (start : Nat) :
    ∃ exprs, DerivesEach start (terms.flatMap tokenize) exprs ∧
      ∀ expr ∈ exprs, expr.nesting ≤ limit := by
  obtain ⟨groups, hgroups⟩ := exists_readsInGroups_of_accepted h start
  exact ⟨groups.flatten, parseAll_eq_ok_iff.mp hgroups.parseAll_eq⟩

section Text

variable {isBreak : Char → Bool} (hbreak : ∀ c, isBreak c = true → Text.isBlank c = true)
  {limit payload : Nat} {text : String}

include hbreak

/-- A text that the parser accepts is read, and its terms have its tokens. -/
theorem exists_terms {exprs : List Value} (h : DerivesEach payload (tokenize text) exprs) :
    ∃ terms, readTerms (Text.linesOf isBreak text.toList) = .ok terms ∧
      terms.flatMap tokenize = tokenize text ∧ ∀ term ∈ terms, IsTerm term.toList := by
  have hbalanced := h.balanced (scanned_tokenize text)
  rw [← texts_charsOf_linesOf hbreak, balanced_texts_iff] at hbalanced
  obtain ⟨terms, hterms⟩ := exists_readTerms hbalanced
  have htokens := flatMap_tokenize_of_readTerms hbreak hterms h.not_hasLooseQuote
  refine ⟨terms, hterms, htokens, isTerm_of_readTerms hterms fun hquote => ?_⟩
  obtain ⟨front, rfl⟩ := List.getLast?_eq_some_iff.mp hquote
  have hlone : tokenize "'" = ["'"] := by decide
  rw [List.flatMap_append, List.flatMap_singleton, hlone] at htokens
  refine h.getLast?_ne_quote ?_
  rw [← htokens, List.getLast?_concat]

/-- **The terms hold the forms of a text.** A text that the parser accepts is read, each of its
terms is accepted, and their forms, one term after the other, are those of the text. -/
theorem terms_hold_forms {exprs : List Value}
    (h : parseAll limit payload (tokenize text) = .ok exprs) :
    ∃ terms groups, readTerms (Text.linesOf isBreak text.toList) = .ok terms ∧
      ReadsInGroups limit payload terms groups ∧ groups.flatten = exprs ∧
      ∀ place, List.Forall₂ (fun term group =>
        ∃ exprs, parseAll limit place (tokenize term) = .ok exprs ∧
          exprs.map Value.unmarked = group.map Value.unmarked) terms groups := by
  obtain ⟨hderives, hnesting⟩ := parseAll_eq_ok_iff.mp h
  obtain ⟨terms, hread, htokens, hterms⟩ := exists_terms hbreak hderives
  rw [← htokens] at hderives
  obtain ⟨groups, hgroups, hflatten⟩ := exists_readsInGroups hderives hnesting hterms
  exact ⟨terms, groups, hread, hgroups, hflatten, hgroups.restart⟩

end Text

theorem isBlank_of_isTextBreak {c : Char} (hc : Text.isTextBreak c = true) :
    Text.isBlank c = true := by
  simp only [Text.isTextBreak, Bool.or_eq_true, beq_iff_eq] at hc
  rcases hc with (((((((hc | rfl) | rfl) | rfl) | rfl) | rfl) | rfl) | rfl) | rfl
  · exact isBlank_of_isFileBreak hc
  all_goals decide

/-- A quote goes over the end of its line to the form it quotes, and an atom stays with the form it
touches. -/
theorem terms_hold_forms_quoted :
    let exprs := [Value.list [.symbol "list", .symbol "a", .symbol "b"], .symbol "c",
      .list [.symbol "d"]]
    parseAll 2 1 (tokenize "' \n(a b)\nc(d)") = .ok exprs ∧
      ∃ groups, ReadsInGroups 2 1 ["'(a b)", "c(d)"] groups ∧ groups.flatten = exprs := by
  intro exprs
  have hparse : parseAll 2 1 (tokenize "' \n(a b)\nc(d)") = .ok exprs := rfl
  have hread : readTermsOfText "' \n(a b)\nc(d)" = .ok ["'(a b)", "c(d)"] := rfl
  obtain ⟨terms, groups, hterms, hgroups, hflatten, -⟩ :=
    terms_hold_forms (fun c hc => isBlank_of_isTextBreak hc) hparse
  obtain rfl := Except.ok.inj (hread.symm.trans hterms)
  exact ⟨hparse, groups, hgroups, hflatten⟩

section Text

variable {isBreak : Char → Bool} (hbreak : ∀ c, isBreak c = true → Text.isBlank c = true)
  {limit payload : Nat} {text : String}

include hbreak

/-- **Where terms deceive.** If the parser accepts every term of a text, it accepts the text unless
a quote in it stands in front of an atom; and without such a quote the terms have just the tokens of
the text. -/
theorem text_accepted_iff_of_terms {terms : List String}
    (hread : readTerms (Text.linesOf isBreak text.toList) = .ok terms)
    (haccepted : ∀ term ∈ terms, ∃ exprs, parseAll limit payload (tokenize term) = .ok exprs) :
    ((∃ exprs, parseAll limit payload (tokenize text) = .ok exprs) ↔
      ¬ HasLooseQuote (tokenize text)) ∧
    (¬ HasLooseQuote (tokenize text) → terms.flatMap tokenize = tokenize text) := by
  have htokens := flatMap_tokenize_of_readTerms hbreak hread
  refine ⟨⟨?_, fun hloose => ?_⟩, htokens⟩
  · rintro ⟨exprs, hexprs⟩
    exact (parseAll_eq_ok_iff.mp hexprs).1.not_hasLooseQuote
  · obtain ⟨exprs, hexprs⟩ := exists_derivesEach_of_accepted haccepted payload
    rw [htokens hloose] at hexprs
    exact ⟨exprs, parseAll_eq_ok_iff.mpr hexprs⟩

end Text

/-- The quote of a form goes over a blank to it, and is not loose. -/
theorem text_accepted_iff_of_terms_quoted :
    readTermsOfText "' (a)\nb" = .ok ["'(a)", "b"] ∧
      (∀ term ∈ ["'(a)", "b"], ∃ exprs, parseAll 1 1 (tokenize term) = .ok exprs) ∧
      ¬ HasLooseQuote (tokenize "' (a)\nb") ∧
      ["'(a)", "b"].flatMap tokenize = tokenize "' (a)\nb" := by
  have hread : readTermsOfText "' (a)\nb" = .ok ["'(a)", "b"] := rfl
  have haccepted : ∀ term ∈ ["'(a)", "b"], ∃ exprs, parseAll 1 1 (tokenize term) = .ok exprs := by
    rintro term (_ | ⟨_, _ | ⟨_, ⟨⟩⟩⟩)
    · exact ⟨[.list [.symbol "list", .symbol "a"]], rfl⟩
    · exact ⟨[.symbol "b"], rfl⟩
  obtain ⟨hiff, htokens⟩ :=
    text_accepted_iff_of_terms (fun c hc => isBlank_of_isTextBreak hc) hread haccepted
  have hloose := hiff.mp ⟨[.list [.symbol "list", .symbol "a"], .symbol "b"], rfl⟩
  exact ⟨hread, haccepted, hloose, htokens hloose⟩

/-- A quote in front of an atom on its own makes one term with it, which the parser accepts; the
text it refuses. -/
theorem accepted_terms_of_refused_text :
    ¬ ∀ text terms, readTermsOfText text = .ok terms →
      (∀ term ∈ terms, ∃ exprs, parseAll defaultLimit 1 (tokenize term) = .ok exprs) →
      ∃ exprs, parseAll defaultLimit 1 (tokenize text) = .ok exprs := by
  intro hall
  have hread : readTermsOfText "' x" = .ok ["'x"] := rfl
  obtain ⟨exprs, hexprs⟩ := hall "' x" ["'x"] hread fun term hterm => by
    rw [List.mem_singleton.mp hterm]
    exact ⟨[.symbol "'x"], rfl⟩
  have hrefused : parseAll defaultLimit 1 (tokenize "' x") =
      .error { fault := .error (.unexpectedToken "x"), position := 1 } := rfl
  rw [hrefused] at hexprs
  cases hexprs

/-- A word other than a lone quote directly in front of a form. -/
def TouchesForm (term : List Char) : Prop :=
  ∃ word opener inner closer, term = word ++ formChars opener inner closer ∧ Plain word ∧
    word ≠ [] ∧ word ≠ ['\x27'] ∧ openedAfter [] inner = some []

theorem spellsForm_texts {inner : List Char} (hinner : openedAfter [] inner = some [])
    (opener closer : Bracket) : SpellsForm (texts (formChars opener inner closer)) := by
  refine ⟨opener, (scan inner).flatten, closer, ?_, ?_⟩
  · rw [scan, openedAfter_flatten_scanFrom]
    exact hinner
  · have hclosing : scan (inner ++ [closer.closer]) = scan inner ++ [[closer.closer]] :=
      scan_append_bracket (isBracket_closer closer) inner []
    rw [texts, formChars, scan_bracket (isBracket_opener opener), hclosing]
    simp [formChars, List.flatMap_map, List.flatMap_id']

theorem IsTerm.spellsOne {term : List Char} (h : IsTerm term) (htouches : ¬ TouchesForm term) :
    SpellsOne (texts term) := by
  cases h with
  | word hword hne =>
      rw [texts_word hword hne]
      exact .word (by rw [IsWord, String.toList_ofList]; exact ⟨hne, hword⟩)
  | @form word inner hword opener closer hinner =>
      have hform := spellsForm_texts hinner opener closer
      by_cases hempty : word = []
      · rw [hempty]
        exact .form hform
      · by_cases hquote : word = ['\x27']
        · rw [hquote, texts_plain plain_quote (by simp) (delimits_formChars opener closer inner)]
          exact .quoted hform
        · exact absurd ⟨word, opener, inner, closer, rfl, hword, hempty, hquote, hinner⟩ htouches

/-- An atom and the form it touches are two expressions. -/
theorem DerivesEach.of_touchesForm {start : Nat} {term : List Char} {exprs : List Value}
    (h : DerivesEach start (texts term) exprs) (htouches : TouchesForm term) :
    ∃ atom form, exprs = [atom, form] := by
  obtain ⟨word, opener, inner, closer, rfl, hword, hne, hquote, hinner⟩ := htouches
  have hscanned := scanned_texts (word ++ formChars opener inner closer)
  have htexts : texts (word ++ formChars opener inner closer) =
      [String.ofList word] ++ texts (formChars opener inner closer) :=
    texts_plain hword hne (delimits_formChars opener closer inner)
  rw [htexts] at h hscanned
  obtain ⟨hfirst, hsecond⟩ := scanned_append.mp hscanned
  have hone : SpellsOne [String.ofList word] :=
    .word (by rw [IsWord, String.toList_ofList]; exact ⟨hne, hword⟩)
  have hlast : [String.ofList word].getLast? ≠ some "'" := by
    rw [List.getLast?_singleton]
    intro hlast
    have heq := congrArg String.toList (Option.some.inj hlast)
    rw [String.toList_ofList] at heq
    exact hquote heq
  obtain ⟨front, back, rfl, hfront, hback⟩ := h.split hscanned hone.balanced hlast
  obtain ⟨atom, rfl⟩ := hfront.eq_singleton hfirst hone
  obtain ⟨form, rfl⟩ := hback.eq_singleton hsecond (.form (spellsForm_texts hinner opener closer))
  exact ⟨atom, form, rfl⟩

/-- **One form, or an atom and the form it touches.** In a text that the parser accepts, each term
is one form, unless an atom stands directly in front of a form; then it is just these two. -/
theorem forms_of_terms {isBreak : Char → Bool}
    (hbreak : ∀ c, isBreak c = true → Text.isBlank c = true) {limit payload : Nat} {text : String}
    {exprs : List Value} (h : parseAll limit payload (tokenize text) = .ok exprs) :
    ∃ terms, readTerms (Text.linesOf isBreak text.toList) = .ok terms ∧
      ∀ term ∈ terms, ∃ group, parseAll limit payload (tokenize term) = .ok group ∧
        (¬ TouchesForm term.toList → ∃ form, group = [form]) ∧
        (TouchesForm term.toList → ∃ atom form, group = [atom, form]) := by
  obtain ⟨hderives, hnesting⟩ := parseAll_eq_ok_iff.mp h
  obtain ⟨terms, hread, htokens, hterms⟩ := exists_terms hbreak hderives
  rw [← htokens] at hderives
  obtain ⟨groups, hgroups, -⟩ := exists_readsInGroups hderives hnesting hterms
  refine ⟨terms, hread, fun term hterm => ?_⟩
  obtain ⟨group, hgroup⟩ := hgroups.accepted payload term hterm
  obtain ⟨hderives, -⟩ := parseAll_eq_ok_iff.mp hgroup
  refine ⟨group, hgroup, fun htouches => ?_, hderives.of_touchesForm⟩
  exact hderives.eq_singleton (scanned_tokenize term) ((hterms term hterm).spellsOne htouches)

/-- A term that is a quoted form, and a term of two forms. -/
theorem forms_of_terms_touching :
    parseAll 1 1 (tokenize "'(a) b(c)") =
        .ok [.list [.symbol "list", .symbol "a"], .symbol "b", .list [.symbol "c"]] ∧
      readTermsOfText "'(a) b(c)" = .ok ["'(a)", "b(c)"] ∧ TouchesForm "b(c)".toList ∧
      ∃ atom form, parseAll 1 1 (tokenize "b(c)") = .ok [atom, form] := by
  have hparse : parseAll 1 1 (tokenize "'(a) b(c)") =
      .ok [.list [.symbol "list", .symbol "a"], .symbol "b", .list [.symbol "c"]] := rfl
  have hread : readTermsOfText "'(a) b(c)" = .ok ["'(a)", "b(c)"] := rfl
  have htouches : TouchesForm "b(c)".toList :=
    ⟨['b'], .round, ['c'], .round, rfl, List.forall_mem_singleton.mpr ⟨rfl, rfl⟩, by simp, by simp,
      rfl⟩
  obtain ⟨terms, hterms, hforms⟩ := forms_of_terms (fun c hc => isBlank_of_isTextBreak hc) hparse
  obtain rfl := Except.ok.inj (hread.symm.trans hterms)
  obtain ⟨group, hgroup, -, htwo⟩ := hforms "b(c)" (List.mem_cons_of_mem _ List.mem_cons_self)
  obtain ⟨atom, form, rfl⟩ := htwo htouches
  exact ⟨hparse, hread, htouches, atom, form, hgroup⟩

/-- A text may be accepted and have a term with two forms. -/
theorem term_of_two_forms :
    ¬ ∀ text exprs terms, parseAll defaultLimit 1 (tokenize text) = .ok exprs →
      readTermsOfText text = .ok terms →
      ∀ term ∈ terms, ∃ form, parseAll defaultLimit 1 (tokenize term) = .ok [form] := by
  intro hall
  have hexprs : parseAll defaultLimit 1 (tokenize "x(f y)") =
      .ok [.symbol "x", .list [.symbol "f", .symbol "y"]] := rfl
  have hread : readTermsOfText "x(f y)" = .ok ["x(f y)"] := rfl
  obtain ⟨form, hform⟩ := hall _ _ _ hexprs hread "x(f y)" List.mem_cons_self
  rw [hexprs] at hform
  cases hform

end SetLisp
