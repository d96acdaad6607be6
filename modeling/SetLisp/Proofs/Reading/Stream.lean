import SetLisp.TokenStream
import SetLisp.Proofs.Reading.Places

namespace SetLisp

/-- What a caller can do with a stream. -/
inductive StreamStep where
  | peek
  | advance
  | remaining
  | atEnd
  | expr
  | all

namespace TokenStream

/-- The stream behind a step, whether the step fails or not. -/
def after (limit payload : Nat) (stream : TokenStream) : StreamStep → TokenStream
  | .peek | .remaining | .atEnd => stream
  | .advance => stream.advance.2
  | .expr => (stream.parseExpr limit payload).2
  | .all => (stream.parseAll limit payload).2

def run (limit payload : Nat) (stream : TokenStream) (steps : List StreamStep) : TokenStream :=
  steps.foldl (after limit payload) stream

variable {limit payload : Nat} {stream next later : TokenStream}

/-- One stream is the other further on, and not past the end. -/
structure MovesTo (stream later : TokenStream) : Prop where
  tokens_eq : later.tokens = stream.tokens
  position_le : stream.position ≤ later.position
  inside : later.position ≤ later.tokens.length

theorem MovesTo.refl (h : stream.position ≤ stream.tokens.length) : stream.MovesTo stream :=
  ⟨rfl, Nat.le_refl _, h⟩

theorem MovesTo.trans (h : stream.MovesTo next) (hlater : next.MovesTo later) :
    stream.MovesTo later :=
  ⟨hlater.tokens_eq.trans h.tokens_eq, Nat.le_trans h.position_le hlater.position_le,
    hlater.inside⟩

theorem MovesTo.position_le_length (h : stream.MovesTo later) :
    later.position ≤ stream.tokens.length :=
  h.tokens_eq ▸ h.inside

theorem atEnd_iff_peek? (stream : TokenStream) : stream.atEnd = true ↔ stream.peek? = none := by
  rw [atEnd, peek?, decide_eq_true_iff, List.getElem?_eq_none_iff]

theorem atEnd_iff_remaining (stream : TokenStream) :
    stream.atEnd = true ↔ stream.remaining = [] := by
  rw [atEnd, remaining, decide_eq_true_iff, List.drop_eq_nil_iff]

theorem movesTo_advance (h : stream.position ≤ stream.tokens.length) :
    stream.MovesTo stream.advance.2 := by
  unfold advance
  split
  · next token hpeek =>
      have hinside := (List.getElem?_eq_some_iff.mp hpeek).1
      exact ⟨rfl, Nat.le_succ _, hinside⟩
  · exact .refl h

theorem movesTo_moveTo {count : Nat} (h : count ≤ stream.remaining.length)
    (hinside : stream.position ≤ stream.tokens.length) :
    stream.MovesTo (stream.moveTo (stream.position + count)) := by
  rw [remaining, List.length_drop] at h
  refine ⟨rfl, Nat.le_add_right _ _, ?_⟩
  simp only [moveTo]
  omega

/-- The parser of a stream is one that begins with the tokens that remain, but for the places. -/
theorem parse_remaining (limit payload : Nat) (stream : TokenStream) :
    (stream.parser limit payload).parse stream.remaining =
      ((parse limit (payload + stream.position) stream.remaining).map
        (·.shifted stream.position)).mapError (·.shifted stream.position) :=
  @Parser.parse_shifted ⟨limit, payload + stream.position, 0, false, []⟩ _ _ rfl _

theorem parseExpr_of_ok {parsed : Parsed}
    (h : parse limit (payload + stream.position) stream.remaining = .ok parsed) :
    stream.parseExpr limit payload =
      (.ok parsed.expr, stream.moveTo (stream.position + parsed.position)) := by
  rw [parseExpr, parse_remaining, h]
  rfl

theorem parseExpr_of_error {failure : ParseFailure}
    (h : parse limit (payload + stream.position) stream.remaining = .error failure) :
    stream.parseExpr limit payload =
      (.error (failure.shifted stream.position),
        stream.moveTo (stream.position + failure.position)) := by
  rw [parseExpr, parse_remaining, h]
  rfl

/-- The stream goes past the tokens of the expression and no others. -/
theorem exists_read_of_ok {parsed : Parsed}
    (h : parse limit (payload + stream.position) stream.remaining = .ok parsed) :
    ∃ read, read ≠ [] ∧ stream.remaining = read ++ parsed.rest ∧
      stream.parseExpr limit payload =
        (.ok parsed.expr, stream.moveTo (stream.position + read.length)) := by
  obtain ⟨read, hread, hexpr, -, hlength⟩ := parse_eq_ok_iff.mp h
  exact ⟨read, hexpr.ne_nil, hread, hlength ▸ parseExpr_of_ok h⟩

/-- Where the stream is left by what it cannot read. -/
theorem place_of_error {failure : ParseFailure}
    (h : parse limit (payload + stream.position) stream.remaining = .error failure)
    (hinside : stream.position ≤ stream.tokens.length) :
    failure.fault = .tooDeep ∨
      ((failure.fault = .error .emptyInput ∨ failure.fault = .error .missingToken) ∧
        stream.position + failure.position = stream.tokens.length) ∨
      ∃ before token behind, failure.fault = .error (.unexpectedToken token) ∧
        stream.remaining = before ++ token :: behind ∧
        stream.position + failure.position = stream.position + before.length +
          if before.getLast? = some "'" then 0 else 1 := by
  rcases (Parser.stops_of_parse h).place rfl with
    hdeep | ⟨hmissing, hplace⟩ | ⟨before, token, behind, hfault, hsplit, hplace⟩
  · exact .inl hdeep
  · refine .inr (.inl ⟨hmissing, ?_⟩)
    rw [hplace, Nat.zero_add, remaining, List.length_drop, Nat.add_sub_cancel' hinside]
  · refine .inr (.inr ⟨before, token, behind, hfault, hsplit, ?_⟩)
    rw [hplace, Nat.zero_add, Nat.add_assoc]

theorem movesTo_parseExpr (h : stream.position ≤ stream.tokens.length) :
    stream.MovesTo (stream.parseExpr limit payload).2 := by
  cases hparse : parse limit (payload + stream.position) stream.remaining with
  | ok parsed =>
      obtain ⟨read, -, hread, hexpr⟩ := exists_read_of_ok hparse
      rw [hexpr]
      refine movesTo_moveTo ?_ h
      rw [hread, List.length_append]
      exact Nat.le_add_right _ _
  | error failure =>
      rw [parseExpr_of_error hparse]
      have hplace := (Parser.stops_of_parse hparse).position_le.2
      rw [Nat.zero_add] at hplace
      exact movesTo_moveTo hplace h

theorem movesTo_parseAll (h : stream.position ≤ stream.tokens.length) :
    stream.MovesTo (stream.parseAll limit payload).2 := by
  unfold parseAll
  split
  · exact ⟨rfl, h, Nat.le_refl _⟩
  · next failure hparse =>
      obtain ⟨hfrom, hto⟩ := Parser.position_le_of_parseAll rfl hparse
      refine ⟨rfl, hfrom, ?_⟩
      simp only [parser, remaining, List.length_drop, moveTo] at hto ⊢
      omega

/-- Reading all expressions is reading one as long as there are tokens left. -/
theorem parseAll_eq (limit payload : Nat) (h : stream.position ≤ stream.tokens.length) :
    stream.parseAll limit payload =
      if stream.atEnd then (.ok [], stream)
      else match stream.parseExpr limit payload with
        | (.ok expr, next) =>
            ((next.parseAll limit payload).1.map (expr :: ·), (next.parseAll limit payload).2)
        | (.error failure, next) => (.error failure, next) := by
  cases hend : stream.atEnd with
  | true =>
      have hnone := (atEnd_iff_remaining stream).mp hend
      have hlength : stream.tokens.length = stream.position :=
        Nat.le_antisymm (of_decide_eq_true hend) h
      rw [parseAll, hnone, hlength]
      rfl
  | false =>
      rw [if_neg Bool.false_ne_true]
      cases hparse : parse limit (payload + stream.position) stream.remaining with
      | error failure =>
          have hleft : stream.remaining ≠ [] := fun hnone => by
            rw [(atEnd_iff_remaining stream).mpr hnone] at hend
            cases hend
          have hfails := parse_remaining limit payload stream
          rw [hparse] at hfails
          rw [parseExpr_of_error hparse, parseAll,
            Parser.parseAll_of_parse_error hfails fun _ => hleft]
          rfl
      | ok parsed =>
          obtain ⟨read, hread, hexpr, hnesting, hlength⟩ := parse_eq_ok_iff.mp hparse
          let next := stream.moveTo (stream.position + parsed.position)
          have hnext : next.remaining = parsed.rest := by
            change stream.tokens.drop (stream.position + parsed.position) = parsed.rest
            rw [← List.drop_drop, hlength]
            change stream.remaining.drop read.length = parsed.rest
            rw [hread, List.drop_left]
          have hfirst := @Parser.parseAll_append_of_derivesEach (stream.parser limit payload) _ _ _
            (derivesEach_singleton hexpr) rfl rfl (List.forall_mem_singleton.mpr hnesting)
            parsed.rest
          have hparser : (stream.parser limit payload).moved read.length =
              next.parser limit payload := by
            rw [← hlength]
            rfl
          rw [← hread, hparser, ← hnext] at hfirst
          rw [parseExpr_of_ok hparse, parseAll, hfirst]
          change _ = ((next.parseAll limit payload).1.map (parsed.expr :: ·),
            (next.parseAll limit payload).2)
          rw [parseAll]
          cases (next.parser limit payload).parseAll next.remaining <;> rfl

theorem movesTo_after (h : stream.position ≤ stream.tokens.length) (step : StreamStep) :
    stream.MovesTo (stream.after limit payload step) := by
  cases step with
  | peek | remaining | atEnd => exact .refl h
  | advance => exact movesTo_advance h
  | expr => exact movesTo_parseExpr h
  | all => exact movesTo_parseAll h

theorem movesTo_run (h : stream.position ≤ stream.tokens.length) (steps : List StreamStep) :
    stream.MovesTo (stream.run limit payload steps) := by
  induction steps generalizing stream with
  | nil => exact .refl h
  | cons step rest ih =>
      have hstep := @movesTo_after limit payload stream h step
      exact hstep.trans (ih hstep.inside)

end TokenStream

/-- **Streams are cursors.** Whatever steps have been taken, with or without errors, the tokens are
the same, and no further steps bring the cursor back or past the end. Looking does not move it, and
the ways to tell the end agree. An expression is read as from the tokens that are left, and the
cursor goes past just those it takes, at least one. What fails there fails here with the same error:
something is missing and the cursor stands at the end, or a token is out of place and the cursor
stands behind it, or on it if what has just been read in front of it is a quote. The place is left
open only if the nesting is too deep, for which as many tokens as there are levels are not
enough. Reading all expressions is reading one after the other.

A number that is not one is marked with its place. The payload given to the parser of the tokens
left is the one with which these are marked as they are in the stream. -/
theorem streams_are_cursors (limit payload : Nat) (tokens : List String)
    (steps : List StreamStep) :
    let stream := TokenStream.run limit payload { tokens := tokens } steps
    let left := tokens.drop stream.position
    (∀ more, let later := stream.run limit payload more
      later.tokens = tokens ∧ stream.position ≤ later.position ∧
        later.position ≤ tokens.length) ∧
    (stream.after limit payload .peek = stream ∧
      stream.after limit payload .remaining = stream ∧
      stream.after limit payload .atEnd = stream) ∧
    stream.remaining = left ∧
    (stream.atEnd = true ↔ stream.peek? = none) ∧
    (stream.atEnd = true ↔ left = []) ∧
    (∀ parsed, parse limit (payload + stream.position) left = .ok parsed →
      ∃ read, read ≠ [] ∧ left = read ++ parsed.rest ∧ stream.parseExpr limit payload =
        (.ok parsed.expr, stream.moveTo (stream.position + read.length))) ∧
    (∀ failure, parse limit (payload + stream.position) left = .error failure →
      let place := stream.position + failure.position
      stream.parseExpr limit payload =
          (Parser.fail failure.fault place, stream.moveTo place) ∧
        (left.length ≤ limit → failure.fault ≠ .tooDeep) ∧
        (failure.fault = .tooDeep ∨
          ((failure.fault = .error .emptyInput ∨ failure.fault = .error .missingToken) ∧
            place = tokens.length) ∨
          ∃ before token behind, failure.fault = .error (.unexpectedToken token) ∧
            left = before ++ token :: behind ∧
            place = stream.position + before.length +
              if before.getLast? = some "'" then 0 else 1)) ∧
    stream.parseAll limit payload =
      if stream.atEnd then (.ok [], stream)
      else match stream.parseExpr limit payload with
        | (.ok expr, next) =>
            ((next.parseAll limit payload).1.map (expr :: ·), (next.parseAll limit payload).2)
        | (.error failure, next) => (.error failure, next) := by
  intro stream left
  have hrun : TokenStream.MovesTo { tokens := tokens } stream :=
    TokenStream.movesTo_run (Nat.zero_le _) steps
  have hleft : stream.remaining = left := by rw [TokenStream.remaining, hrun.tokens_eq]
  refine ⟨?_, ⟨rfl, rfl, rfl⟩, hleft, stream.atEnd_iff_peek?, ?_, ?_, ?_,
    TokenStream.parseAll_eq limit payload hrun.inside⟩
  · intro more
    have hmore := @TokenStream.movesTo_run limit payload stream hrun.inside more
    have hall := hrun.trans hmore
    exact ⟨hall.tokens_eq, hmore.position_le, hall.position_le_length⟩
  · rw [stream.atEnd_iff_remaining, hleft]
  · intro parsed hparse
    rw [← hleft] at hparse ⊢
    exact TokenStream.exists_read_of_ok hparse
  · intro failure hparse place
    have hroom (hlength : left.length ≤ limit) := parse_fault_ne_tooDeep hlength hparse
    rw [← hleft] at hparse
    have hplace := TokenStream.place_of_error hparse hrun.inside
    rw [hleft, hrun.tokens_eq] at hplace
    exact ⟨TokenStream.parseExpr_of_error hparse, hroom, hplace⟩

/-- The symbol behind the quote stops the first reading and is read by the second, for which no
quote stands in front of it. The brace is gone past, and what stands behind it is read. -/
theorem streams_are_cursors_behind_faults :
    let tokens := ["'", "x", "(", "a", "\x7d", "b"]
    let stream := TokenStream.run 4 0 { tokens := tokens }
    (stream []).parseExpr 4 0 =
        (Parser.fail (.error (.unexpectedToken "x")) 1, { tokens := tokens, position := 1 }) ∧
      (stream [.expr]).parseExpr 4 0 =
        (.ok (.symbol "x"), { tokens := tokens, position := 2 }) ∧
      (stream [.expr, .expr]).parseExpr 4 0 =
        (Parser.fail (.error (.unexpectedToken "\x7d")) 5, { tokens := tokens, position := 5 }) ∧
      (stream [.expr, .all]).parseExpr 4 0 =
        (.ok (.symbol "b"), { tokens := tokens, position := 6 }) := by
  intro tokens stream
  obtain ⟨-, -, -, -, -, -, hquoted, -⟩ := streams_are_cursors 4 0 tokens []
  obtain ⟨-, -, -, -, -, hsymbol, -⟩ := streams_are_cursors 4 0 tokens [.expr]
  obtain ⟨-, -, -, -, -, -, hbrace, -⟩ := streams_are_cursors 4 0 tokens [.expr, .expr]
  obtain ⟨-, -, -, -, -, hbehind, -⟩ := streams_are_cursors 4 0 tokens [.expr, .all]
  obtain ⟨hfirst, -⟩ := hquoted ⟨.error (.unexpectedToken "x"), 1⟩ rfl
  obtain ⟨read, -, hread, hsecond⟩ := hsymbol ⟨.symbol "x", ["(", "a", "\x7d", "b"], 1⟩ rfl
  obtain rfl : ["x"] = read := List.append_cancel_right hread
  obtain ⟨hthird, -⟩ := hbrace ⟨.error (.unexpectedToken "\x7d"), 3⟩ rfl
  obtain ⟨read, -, hread, hlast⟩ := hbehind ⟨.symbol "b", [], 1⟩ rfl
  obtain rfl : ["b"] = read := List.append_cancel_right hread
  exact ⟨hfirst, hsecond, hthird, hlast⟩

end SetLisp
