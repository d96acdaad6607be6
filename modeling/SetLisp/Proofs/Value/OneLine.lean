import SetLisp.Proofs.Reading.Splitting
import SetLisp.Proofs.Value.WellFormed
import SetLisp.Text.Lines

namespace SetLisp

/-- Each bracket is closed by one of its kind, behind text in which brackets match as well. -/
inductive Matched : List Char → Prop
  | nil : Matched []
  | plain {c : Char} {text : List Char} (hc : isBracket c = false) (htext : Matched text) :
      Matched (c :: text)
  | form (bracket : Bracket) {inner text : List Char} (hinner : Matched inner)
      (htext : Matched text) : Matched (bracket.opener :: (inner ++ bracket.closer :: text))

/-- Brackets match, and the only blanks are spaces. -/
structure Tidy (text : List Char) : Prop where
  matched : Matched text
  blank_eq_space : ∀ c ∈ text, Text.isBlank c = true → c = ' '

/-- A text to stand on a line of its own. -/
structure OneLine (text : List Char) : Prop extends Tidy text where
  ne_nil : text ≠ []

variable {first second text inner : List Char}

theorem Matched.append (hfirst : Matched first) (hsecond : Matched second) :
    Matched (first ++ second) := by
  induction hfirst with
  | nil => exact hsecond
  | plain hc _ ih => exact .plain hc ih
  | form bracket hinner _ _ ih =>
      rw [List.cons_append, List.append_assoc, List.cons_append]
      exact .form bracket hinner ih

theorem Matched.openedAfter (htext : Matched text) (opened : List Bracket) :
    openedAfter opened text = some opened := by
  induction htext generalizing opened with
  | nil => rfl
  | plain hc _ ih =>
      rw [openedAfter_cons, openedBy_of_not_bracket hc]
      exact ih opened
  | form bracket _ _ ihinner ihtext =>
      rw [openedAfter_cons, openedBy_opener, Option.bind_some, openedAfter_append, ihinner,
        Option.bind_some, openedAfter_cons, openedBy_closer]
      exact ihtext opened

theorem matched_of_not_bracket (htext : ∀ c ∈ text, isBracket c = false) : Matched text := by
  induction text with
  | nil => exact .nil
  | cons c rest ih =>
      obtain ⟨hc, hrest⟩ := List.forall_mem_cons.mp htext
      exact .plain hc (ih hrest)

namespace Tidy

theorem nil : Tidy [] :=
  ⟨.nil, nofun⟩

theorem append (hfirst : Tidy first) (hsecond : Tidy second) : Tidy (first ++ second) :=
  ⟨hfirst.matched.append hsecond.matched,
    List.forall_mem_append.mpr ⟨hfirst.blank_eq_space, hsecond.blank_eq_space⟩⟩

theorem of_plain (htext : Plain text) : Tidy text where
  matched := matched_of_not_bracket fun c hc => (htext c hc).1
  blank_eq_space c hc hblank := by
    rw [(htext c hc).2] at hblank
    cases hblank

theorem space (htext : Tidy text) : Tidy (' ' :: text) where
  matched := .plain (by decide) htext.matched
  blank_eq_space := List.forall_mem_cons.mpr ⟨fun _ => rfl, htext.blank_eq_space⟩

theorem form (bracket : Bracket) (hinner : Tidy inner) :
    Tidy (bracket.opener :: (inner ++ [bracket.closer])) where
  matched := .form bracket hinner.matched .nil
  blank_eq_space := by
    have hnot {c : Char} (hc : isBracket c = true) : Text.isBlank c = true → c = ' ' := by
      intro hblank
      rw [isBracket_of_isBlank hblank] at hc
      cases hc
    refine List.forall_mem_cons.mpr ⟨hnot (isBracket_opener bracket), ?_⟩
    exact List.forall_mem_append.mpr
      ⟨hinner.blank_eq_space, List.forall_mem_singleton.mpr (hnot (isBracket_closer bracket))⟩

end Tidy

namespace Value

theorem tidy_charsOfMore {items : List Value} (hitems : ∀ item ∈ items, Tidy item.chars) :
    Tidy (charsOfMore items) := by
  induction items with
  | nil => exact .nil
  | cons item rest ih =>
      obtain ⟨hitem, hrest⟩ := List.forall_mem_cons.mp hitems
      rw [charsOfMore_cons]
      exact (hitem.append (ih hrest)).space

theorem tidy_charsOfItems {items : List Value} (hitems : ∀ item ∈ items, Tidy item.chars) :
    Tidy (charsOfItems items) := by
  cases items with
  | nil => exact .nil
  | cons item rest =>
      obtain ⟨hitem, hrest⟩ := List.forall_mem_cons.mp hitems
      exact hitem.append (tidy_charsOfMore hrest)

theorem plain_of_isWord {value : Value} (hword : IsWord value.text) : Plain value.chars := by
  rw [← toList_text]
  exact hword.2

theorem IsExpression.tidy {expr : Value} (h : expr.IsExpression) : Tidy expr.chars := by
  induction h with
  | boolean value => exact .of_plain (plain_of_isWord (isWord_boolean value))
  | number value => exact .of_plain (plain_of_isWord (isWord_number value))
  | symbol hname => exact .of_plain hname.isWord.2
  | list _ ih => exact .form .round (tidy_charsOfItems ih)

theorem tidy_builtin (function : Builtin) : Tidy (builtin function).chars := by
  have hfront : Plain "<builtin".toList := forall_mem_of_all (by decide)
  have hname : Plain (function.name.toList ++ ['>']) := by
    cases function <;> exact forall_mem_of_all (by decide)
  exact (Tidy.of_plain hfront).append (Tidy.of_plain hname).space

/-- The text of a lambda is tidy if those of its parameters and its body are. -/
theorem tidy_lambda (id : Nat) {parameters : List String} {body : Value}
    (hparameters : ∀ name ∈ parameters, Tidy name.toList) (hbody : Tidy body.chars) :
    Tidy (lambda id parameters body).chars := by
  have hnames : Tidy (parameters.flatMap fun name => name.toList ++ [' ']) := by
    induction parameters with
    | nil => exact .nil
    | cons name rest ih =>
        obtain ⟨hname, hrest⟩ := List.forall_mem_cons.mp hparameters
        exact (hname.append Tidy.nil.space).append (ih hrest)
  have hhead : Plain "lambda".toList := forall_mem_of_all (by decide)
  have hinner := (Tidy.of_plain hhead).append (hnames.append hbody).space
  have hopen : "(lambda ".toList = '(' :: ("lambda".toList ++ [' ']) := rfl
  have hform := hinner.form .round
  rw [chars_lambda, hopen]
  simpa only [Bracket.opener, Bracket.closer, List.append_assoc, List.cons_append,
    List.nil_append] using hform

theorem WellFormed.tidy {value : Value} (h : value.WellFormed) : Tidy value.chars := by
  induction h with
  | boolean value => exact (IsExpression.boolean value).tidy
  | number value => exact (IsExpression.number value).tidy
  | list _ ih => exact .form .round (tidy_charsOfItems ih)
  | set _ ih => exact .form .curly (tidy_charsOfItems ih)
  | builtin function => exact tidy_builtin function
  | lambda hparameters hbody =>
      refine tidy_lambda _ (fun name hname => ?_) hbody.tidy
      obtain ⟨expr, hexpr, rfl⟩ := hparameters name hname
      rw [toList_text]
      exact hexpr.tidy

/-- **A value is shown on one line.** -/
theorem WellFormed.oneLine {value : Value} (h : value.WellFormed) : OneLine value.chars := by
  refine ⟨h.tidy, ?_⟩
  have hword {value : Value} (hword : IsWord value.text) : value.chars ≠ [] := by
    rw [← toList_text]
    exact hword.1
  cases h with
  | boolean value => exact hword (isWord_boolean value)
  | number value => exact hword (isWord_number value)
  | list | set | builtin | lambda => exact List.cons_ne_nil _ _

end Value

/-- What may end a line: the line feed, and of the other blanks any but the space. -/
structure EndsLines (isBreak : Char → Bool) : Prop where
  lineFeed : isBreak '\n' = true
  space : isBreak ' ' = false
  isBlank : ∀ c, isBreak c = true → Text.isBlank c = true

section Lines

variable {isBreak : Char → Bool}

theorem Tidy.not_break (htext : Tidy text) (hbreak : EndsLines isBreak) :
    ∀ c ∈ text, isBreak c = false := by
  intro c hc
  by_contra hends
  rw [Bool.not_eq_false] at hends
  rw [htext.blank_eq_space c hc (hbreak.isBlank c hends), hbreak.space] at hends
  cases hends

theorem Tidy.ne_carriageReturn (htext : Tidy text) : ∀ c ∈ text, c ≠ '\r' := by
  rintro c hc rfl
  exact absurd (htext.blank_eq_space '\r' hc (by decide)) (by decide)

theorem cutLines_lineFeed (hbreak : EndsLines isBreak) (line rest : List Char) :
    Text.cutLines isBreak line ('\n' :: rest) =
      line.reverse :: Text.cutLines isBreak [] rest := by
  rw [Text.cutLines, if_pos hbreak.lineFeed]
  nofun

/-- Text without a break goes onto the line. A carriage return is left out apart, for whoever cuts
lines takes it together with a line feed behind it. -/
theorem cutLines_append {line : List Char} (htext : ∀ c ∈ text, isBreak c = false)
    (hreturn : ∀ c ∈ text, c ≠ '\r') (rest : List Char) :
    Text.cutLines isBreak line (text ++ rest) =
      Text.cutLines isBreak (text.reverse ++ line) rest := by
  induction text generalizing line with
  | nil => rfl
  | cons c text ih =>
      obtain ⟨hc, htext⟩ := List.forall_mem_cons.mp htext
      obtain ⟨hcReturn, hreturn⟩ := List.forall_mem_cons.mp hreturn
      rw [List.cons_append, Text.cutLines, hc, if_neg Bool.false_ne_true, ih htext hreturn,
        List.reverse_cons, List.append_assoc, List.singleton_append]
      exact fun _ hcr _ => hcReturn hcr

/-- Tidy texts with a line feed behind each are the lines of what they make. -/
theorem linesOf_flatMap {texts : List (List Char)} (htexts : ∀ text ∈ texts, Tidy text)
    (hbreak : EndsLines isBreak) :
    Text.linesOf isBreak (texts.flatMap (· ++ ['\n'])) = texts := by
  induction texts with
  | nil => rfl
  | cons text rest ih =>
      obtain ⟨htext, hrest⟩ := List.forall_mem_cons.mp htexts
      rw [Text.linesOf] at ih
      rw [Text.linesOf, List.flatMap_cons, List.append_assoc, List.singleton_append,
        cutLines_append (htext.not_break hbreak) htext.ne_carriageReturn,
        cutLines_lineFeed hbreak, ih hrest, List.append_nil, List.reverse_reverse]

end Lines

end SetLisp
