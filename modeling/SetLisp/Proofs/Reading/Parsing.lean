import SetLisp.Proofs.Reading.Derivations

namespace SetLisp

theorem parse_eq_ok_iff {limit payload position : Nat} {tokens rest : List String}
    {expr : Value} :
    parse limit payload tokens = .ok { expr := expr, rest := rest, position := position } ↔
      ∃ read, tokens = read ++ rest ∧ Derives payload read expr ∧ expr.nesting ≤ limit ∧
        position = read.length := by
  constructor
  · intro hparse
    obtain ⟨read, htokens, hexpr, hnesting, hposition⟩ :=
      Parser.exists_derives_of_parse (Parser.hasRead_nil rfl rfl rfl rfl) hparse
    exact ⟨read, htokens, hexpr, hnesting, by simpa using hposition⟩
  · rintro ⟨read, rfl, hexpr, hnesting, rfl⟩
    have hparse := Parser.parse_of_derives
      { limit := limit, payload := payload, position := 0 } hexpr rfl rfl hnesting rest
    rwa [Nat.zero_add] at hparse

theorem parseAll_eq_ok_iff {limit payload : Nat} {tokens : List String} {exprs : List Value} :
    parseAll limit payload tokens = .ok exprs ↔
      DerivesEach payload tokens exprs ∧ ∀ expr ∈ exprs, expr.nesting ≤ limit := by
  constructor
  · exact Parser.derivesEach_of_parseAll (Parser.hasRead_nil rfl rfl rfl rfl)
  · rintro ⟨hexprs, hnesting⟩
    exact Parser.parseAll_of_derivesEach hexprs rfl rfl hnesting

/-- No tokens spell two expressions, and no expression is spelled by the front of tokens that
spell another. -/
theorem Derives.unique {start : Nat} {read read' rest rest' : List String} {expr expr' : Value}
    (h : Derives start read expr) (h' : Derives start read' expr')
    (htokens : read ++ rest = read' ++ rest') : read = read' ∧ expr = expr' := by
  let limit := max expr.nesting expr'.nesting
  have hparse : parse limit start (read ++ rest) = .ok ⟨expr, rest, read.length⟩ :=
    parse_eq_ok_iff.mpr ⟨read, rfl, h, Nat.le_max_left _ _, rfl⟩
  have hparse' : parse limit start (read' ++ rest') = .ok ⟨expr', rest', read'.length⟩ :=
    parse_eq_ok_iff.mpr ⟨read', rfl, h', Nat.le_max_right _ _, rfl⟩
  rw [htokens, hparse'] at hparse
  simp only [Except.ok.injEq, Parsed.mk.injEq] at hparse
  obtain ⟨rfl, rfl, -⟩ := hparse
  exact ⟨List.append_cancel_right htokens, rfl⟩

/-- **The parser accepts its grammar.** It takes exactly the tokens of one derivation, which are
neither none nor to be chosen, and does not look at what follows; all tokens are accepted exactly
when they fall into such pieces. -/
theorem parse_accepts_grammar (limit payload : Nat) :
    (∀ tokens rest expr position,
      parse limit payload tokens = .ok { expr := expr, rest := rest, position := position } ↔
        ∃ read, tokens = read ++ rest ∧ Derives payload read expr ∧ expr.nesting ≤ limit ∧
          position = read.length) ∧
    (∀ read expr, Derives payload read expr → read ≠ [] ∧
      ∀ read' expr' rest rest', Derives payload read' expr' → read ++ rest = read' ++ rest' →
        read = read' ∧ expr = expr') ∧
    (∀ read rest expr,
      parse limit payload (read ++ rest) =
          .ok { expr := expr, rest := rest, position := read.length } →
        ∀ rest', parse limit payload (read ++ rest') =
          .ok { expr := expr, rest := rest', position := read.length }) ∧
    (∀ tokens exprs, parseAll limit payload tokens = .ok exprs ↔
      DerivesEach payload tokens exprs ∧ ∀ expr ∈ exprs, expr.nesting ≤ limit) ∧
    (∀ tokens, (∃ exprs, parseAll limit payload tokens = .ok exprs) ↔
      ∃ pieces : List (List String), tokens = pieces.flatten ∧
        ∀ piece ∈ pieces, ∃ expr, Derives payload piece expr ∧ expr.nesting ≤ limit) := by
  refine ⟨fun _ _ _ _ => parse_eq_ok_iff, ?_, ?_, fun _ _ => parseAll_eq_ok_iff, ?_⟩
  · intro read expr hexpr
    exact ⟨hexpr.ne_nil, fun _ _ _ _ hexpr' htokens => hexpr.unique hexpr' htokens⟩
  · intro read rest expr hparse rest'
    obtain ⟨read', htokens, hexpr, hnesting, -⟩ := parse_eq_ok_iff.mp hparse
    obtain rfl : read = read' := List.append_cancel_right htokens
    exact parse_eq_ok_iff.mpr ⟨read, rfl, hexpr, hnesting, rfl⟩
  · intro tokens
    constructor
    · rintro ⟨exprs, hparse⟩
      obtain ⟨hexprs, hnesting⟩ := parseAll_eq_ok_iff.mp hparse
      exact hexprs.exists_pieces hnesting payload
    · rintro ⟨pieces, rfl, hpieces⟩
      obtain ⟨exprs, hexprs⟩ := derivesEach_of_pieces hpieces payload
      exact ⟨exprs, parseAll_eq_ok_iff.mpr hexprs⟩

/-- Braces in a quoted form: the parser takes both with their sugar and does not see whether an
atom or a stray bracket follows. -/
theorem parse_accepts_grammar_quoted :
    let read := ["'", "(", "a", "\x7b", "b", "\x7d", ")"]
    let expr := Value.list [.symbol "list", .symbol "a", .list [.symbol "set", .symbol "b"]]
    Derives 1 read expr ∧ read ≠ [] ∧
      parse 2 1 (read ++ ["c"]) = .ok { expr := expr, rest := ["c"], position := 7 } ∧
      parse 2 1 (read ++ [")"]) = .ok { expr := expr, rest := [")"], position := 7 } := by
  intro read expr
  obtain ⟨haccepts, hderives, hblind, -⟩ := parse_accepts_grammar 2 1
  have hparse : parse 2 1 (read ++ ["c"]) = .ok { expr := expr, rest := ["c"], position := 7 } :=
    rfl
  obtain ⟨read', htokens, hexpr, -⟩ := (haccepts _ _ _ _).mp hparse
  obtain rfl : read = read' := List.append_cancel_right htokens
  exact ⟨hexpr, (hderives read expr hexpr).1, hparse, hblind read ["c"] expr hparse [")"]⟩

end SetLisp
