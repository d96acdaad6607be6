import SetLisp.Proofs.Reading.Delimiters
import SetLisp.Proofs.Reading.Terms

/-!
# How a source falls into terms

What the term reader does to a source, said without the reader. Between the terms stand blanks. A
term is a word that a blank follows, or a word that may be empty with a form directly behind it. A
lone quote goes over to the next term, and the blanks behind it are lost.

The reader, wherever it stops, has cut what it read in this way; and it goes through every source
whose brackets balance.
-/

namespace SetLisp

theorem openerOf?_opener (bracket : Bracket) : openerOf? bracket.opener = some bracket := by
  cases bracket <;> decide

theorem openerOf?_closer (bracket : Bracket) : openerOf? bracket.closer = none := by
  cases bracket <;> decide

theorem closerOf?_closer (bracket : Bracket) : closerOf? bracket.closer = some bracket := by
  cases bracket <;> decide

theorem openerOf?_of_not_bracket {c : Char} (hc : isBracket c = false) : openerOf? c = none := by
  simp_all [isBracket, openerOf?]

theorem closerOf?_of_not_bracket {c : Char} (hc : isBracket c = false) : closerOf? c = none := by
  simp_all [isBracket, closerOf?]

theorem isBracket_opener (bracket : Bracket) : isBracket bracket.opener = true := by
  cases bracket <;> decide

theorem isBracket_closer (bracket : Bracket) : isBracket bracket.closer = true := by
  cases bracket <;> decide

/-- A character opens a bracket, closes one, or is none. -/
theorem bracket_cases (c : Char) :
    (∃ bracket : Bracket, c = bracket.opener) ∨ (∃ bracket : Bracket, c = bracket.closer) ∨
      isBracket c = false := by
  cases hc : isBracket c with
  | false => exact .inr (.inr rfl)
  | true =>
      simp only [isBracket, Bool.or_eq_true, beq_iff_eq] at hc
      rcases hc with ((rfl | rfl) | rfl) | rfl
      · exact .inl ⟨.round, rfl⟩
      · exact .inr (.inl ⟨.round, rfl⟩)
      · exact .inl ⟨.curly, rfl⟩
      · exact .inr (.inl ⟨.curly, rfl⟩)

/-- The brackets open behind a character, innermost first. A closing bracket closes the innermost
one, whatever its kind. -/
def openedBy (opened : List Bracket) (c : Char) : Option (List Bracket) :=
  match openerOf? c, closerOf? c with
  | some bracket, _ => some (bracket :: opened)
  | none, some _ => opened.tail?
  | none, none => some opened

/-- The brackets open behind the characters, if none of these closes a bracket where none is
open. -/
def openedAfter (opened : List Bracket) (chars : List Char) : Option (List Bracket) :=
  chars.foldlM openedBy opened

theorem openedBy_opener (opened : List Bracket) (bracket : Bracket) :
    openedBy opened bracket.opener = some (bracket :: opened) := by
  rw [openedBy, openerOf?_opener]

theorem openedBy_closer (opened : List Bracket) (bracket : Bracket) :
    openedBy opened bracket.closer = opened.tail? := by
  rw [openedBy, openerOf?_closer, closerOf?_closer]

theorem openedBy_of_not_bracket {c : Char} (hc : isBracket c = false) (opened : List Bracket) :
    openedBy opened c = some opened := by
  rw [openedBy, openerOf?_of_not_bracket hc, closerOf?_of_not_bracket hc]

theorem openedAfter_nil (opened : List Bracket) : openedAfter opened [] = some opened := rfl

theorem openedAfter_cons (opened : List Bracket) (c : Char) (rest : List Char) :
    openedAfter opened (c :: rest) = (openedBy opened c).bind (openedAfter · rest) := by
  rw [openedAfter, List.foldlM_cons]
  rfl

theorem openedAfter_append (opened : List Bracket) (first second : List Char) :
    openedAfter opened (first ++ second) =
      (openedAfter opened first).bind (openedAfter · second) := by
  rw [openedAfter, List.foldlM_append]
  rfl

theorem openedAfter_concat {opened middle : List Bracket} {chars : List Char}
    (h : openedAfter opened chars = some middle) (c : Char) :
    openedAfter opened (chars ++ [c]) = openedBy middle c := by
  rw [openedAfter_append, h, Option.bind_some, openedAfter_cons]
  cases openedBy middle c <;> rfl

theorem openedAfter_of_not_bracket {chars : List Char}
    (hchars : ∀ c ∈ chars, isBracket c = false) (opened : List Bracket) :
    openedAfter opened chars = some opened := by
  induction chars with
  | nil => rfl
  | cons c rest ih =>
      rw [openedAfter_cons, openedBy_of_not_bracket (hchars c List.mem_cons_self),
        Option.bind_some]
      exact ih fun d hd => hchars d (List.mem_cons_of_mem c hd)

theorem Plain.openedAfter {word : List Char} (hword : Plain word) (opened : List Bracket) :
    openedAfter opened word = some opened :=
  openedAfter_of_not_bracket (fun c hc => (hword c hc).1) opened

/-- Brackets that are open all along do not matter to those that open and close inside them. -/
theorem openedAfter_append_opened {opened after : List Bracket} {chars : List Char}
    (h : openedAfter opened chars = some after) (outer : List Bracket) :
    openedAfter (opened ++ outer) chars = some (after ++ outer) := by
  induction chars generalizing opened with
  | nil =>
      cases h
      rfl
  | cons c rest ih =>
      rw [openedAfter_cons] at h ⊢
      rcases bracket_cases c with ⟨bracket, rfl⟩ | ⟨bracket, rfl⟩ | hc
      · rw [openedBy_opener, Option.bind_some] at h ⊢
        exact ih h
      · rw [openedBy_closer] at h ⊢
        cases opened with
        | nil => cases h
        | cons inner opened => exact ih h
      · rw [openedBy_of_not_bracket hc, Option.bind_some] at h ⊢
        exact ih h

/-- What stands in front of the word of a term, in the source and in the term: nothing, or a lone
quote, the blanks behind which are lost. -/
inductive Lead : List Char → List Char → Prop
  | none : Lead [] []
  | quote {blanks : List Char} (hne : blanks ≠ [])
      (hblanks : ∀ c ∈ blanks, Text.isBlank c = true) : Lead ('\x27' :: blanks) ['\x27']

theorem Lead.plain {written lead : List Char} (h : Lead written lead) : Plain lead := by
  cases h with
  | none => exact plain_nil
  | quote => exact plain_quote

theorem Lead.concat_blank {written lead : List Char} (h : Lead written lead) {word : List Char}
    (hquote : lead ++ word = ['\x27']) {c : Char} (hc : Text.isBlank c = true) :
    Lead (written ++ (word ++ [c])) ['\x27'] := by
  cases h with
  | none =>
      rw [List.nil_append] at hquote
      subst hquote
      exact .quote (List.cons_ne_nil c []) (by simpa using hc)
  | @quote blanks hne hblanks =>
      obtain rfl : word = [] := by simpa using hquote
      refine .quote (by simp) ?_
      intro d hd
      rcases List.mem_append.mp hd with hd | hd
      · exact hblanks d hd
      · rw [List.mem_singleton.mp hd]
        exact hc

/-- A form with its brackets. -/
def formChars (opener : Bracket) (inner : List Char) (closer : Bracket) : List Char :=
  opener.opener :: (inner ++ [closer.closer])

/-- The source falls into the terms, last first. -/
inductive FallsInto : List Char → List String → Prop
  | nil : FallsInto [] []
  | blank {source : List Char} {terms : List String} {c : Char} (h : FallsInto source terms)
      (hc : Text.isBlank c = true) : FallsInto (source ++ [c]) terms
  | word {source written lead word : List Char} {terms : List String} {c : Char}
      (h : FallsInto source terms) (hlead : Lead written lead) (hword : Plain word)
      (hne : word ≠ []) (hquote : lead ++ word ≠ ['\x27']) (hc : Text.isBlank c = true) :
      FallsInto (source ++ (written ++ (word ++ [c]))) (String.ofList (lead ++ word) :: terms)
  | form {source written lead word inner : List Char} {terms : List String}
      (h : FallsInto source terms) (hlead : Lead written lead) (hword : Plain word)
      (opener closer : Bracket) (hinner : openedAfter [] inner = some []) :
      FallsInto (source ++ (written ++ (word ++ formChars opener inner closer)))
        (String.ofList (lead ++ (word ++ formChars opener inner closer)) :: terms)

namespace TermReader

theorem readChar_opener (reader : TermReader) (bracket : Bracket) :
    reader.readChar bracket.opener =
      .ok { reader.add bracket.opener with opened := bracket :: reader.opened } := by
  have hblank : Text.isBlank bracket.opener = false := by cases bracket <;> decide
  rw [readChar, hblank, Bool.and_false, if_neg Bool.false_ne_true, openerOf?_opener]

theorem readChar_closer (reader : TermReader) (bracket : Bracket) :
    reader.readChar bracket.closer =
      match reader.opened with
      | [] => .error (.unexpected bracket)
      | [_] => .ok { reader.add bracket.closer with opened := [] }.flush
      | _ :: outer => .ok { reader.add bracket.closer with opened := outer } := by
  have hblank : Text.isBlank bracket.closer = false := by cases bracket <;> decide
  rw [readChar, hblank, Bool.and_false, if_neg Bool.false_ne_true, openerOf?_closer]
  rcases reader.opened with _ | ⟨first, _ | ⟨second, outer⟩⟩ <;> rw [closerOf?_closer]

theorem readChar_blank {reader : TermReader} (hopened : reader.opened = []) {c : Char}
    (hc : Text.isBlank c = true) :
    reader.readChar c = .ok (if reader.quotePending then reader else reader.flush) := by
  rw [readChar, hopened, hc]
  rfl

/-- The end of a line is read like a space. -/
theorem readChar_space (reader : TermReader) : reader.readChar ' ' = .ok reader.endLine := by
  have hspace : Text.isBlank ' ' = true := by decide
  cases hopened : reader.opened with
  | nil => simp [readChar_blank hopened hspace, endLine, hopened]
  | cons bracket outer =>
      rw [readChar_of_plain (by decide) (by simp [hopened])]
      simp [endLine, hopened, addAll, add]

theorem opened_flush (reader : TermReader) : reader.flush.opened = reader.opened := by
  unfold flush
  split <;> rfl

theorem term_flush (reader : TermReader) : reader.flush.term = [] := by
  unfold flush
  split <;> rfl

/-- The brackets decide whether a character is taken. -/
theorem readChar_opened {reader : TermReader} {c : Char} {opened : List Bracket}
    (h : openedBy reader.opened c = some opened) :
    ∃ next, reader.readChar c = .ok next ∧ next.opened = opened := by
  rcases bracket_cases c with ⟨bracket, rfl⟩ | ⟨bracket, rfl⟩ | hc
  · rw [openedBy_opener, Option.some.injEq] at h
    exact ⟨_, readChar_opener reader bracket, h⟩
  · rw [openedBy_closer] at h
    rw [readChar_closer]
    match hopened : reader.opened, h with
    | [_], h =>
        cases h
        exact ⟨_, rfl, opened_flush _⟩
    | _ :: second :: outer, h =>
        cases h
        exact ⟨_, rfl, rfl⟩
  · rw [openedBy_of_not_bracket hc, Option.some.injEq] at h
    by_cases hblank : reader.opened = [] ∧ Text.isBlank c = true
    · refine ⟨_, readChar_blank hblank.1 hblank.2, ?_⟩
      rw [← h]
      split
      · rfl
      · exact opened_flush reader
    · refine ⟨_, readChar_of_plain hc fun hopened => ?_, h⟩
      exact eq_false_of_ne_true fun htrue => hblank ⟨hopened, htrue⟩

/-- Characters whose brackets close only what is open are read to the end. -/
theorem foldlM_readChar_opened {reader : TermReader} {chars : List Char} {opened : List Bracket}
    (h : openedAfter reader.opened chars = some opened) :
    ∃ next, chars.foldlM readChar reader = .ok next ∧ next.opened = opened := by
  induction chars generalizing reader with
  | nil => exact ⟨reader, rfl, by simpa [openedAfter] using h⟩
  | cons c rest ih =>
      rw [openedAfter_cons] at h
      obtain ⟨middle, hmiddle, hrest⟩ := Option.bind_eq_some_iff.mp h
      obtain ⟨next, hnext, rfl⟩ := readChar_opened hmiddle
      obtain ⟨last, hlast, hopened⟩ := ih hrest
      exact ⟨last, by rw [foldlM_cons_of_ok hnext, hlast], hopened⟩

/-! ### What has been read -/

/-- What the reader has read: a source that falls into its terms, and behind it the term that is
still open. -/
inductive HasRead : TermReader → List Char → Prop
  | outside {source written lead word : List Char} {terms : List String}
      (h : FallsInto source terms) (hlead : Lead written lead) (hword : Plain word) :
      HasRead ⟨terms, (lead ++ word).reverse, []⟩ (source ++ (written ++ word))
  | inside {source written lead word inner : List Char} {terms : List String}
      {outer : List Bracket} (h : FallsInto source terms) (hlead : Lead written lead)
      (hword : Plain word) (opener : Bracket) (hinner : openedAfter [] inner = some outer) :
      HasRead ⟨terms, (lead ++ (word ++ opener.opener :: inner)).reverse, outer ++ [opener]⟩
        (source ++ (written ++ (word ++ opener.opener :: inner)))

theorem hasRead_idle {source : List Char} {terms : List String} (h : FallsInto source terms) :
    HasRead ⟨terms, [], []⟩ source := by
  simpa using HasRead.outside h .none plain_nil

theorem flush_of_nonblank {terms : List String} {chars : List Char} {opened : List Bracket}
    (hne : chars ≠ []) (hhead : ∀ c ∈ chars.head?, Text.isBlank c = false)
    (hlast : ∀ c ∈ chars.getLast?, Text.isBlank c = false) :
    flush ⟨terms, chars.reverse, opened⟩ = ⟨String.ofList chars :: terms, [], opened⟩ := by
  have htrimmed : Text.trimmed chars = chars := dropWhile_both_ends hhead hlast
  obtain ⟨first, rest, rfl⟩ := List.exists_cons_of_ne_nil hne
  simp only [flush, List.reverse_reverse, htrimmed]

theorem flush_plain {terms : List String} {word : List Char} (hword : Plain word)
    (hne : word ≠ []) :
    flush ⟨terms, word.reverse, []⟩ = ⟨String.ofList word :: terms, [], []⟩ :=
  flush_of_nonblank hne (fun c hc => (hword c (List.mem_of_mem_head? hc)).2)
    fun c hc => (hword c (List.mem_of_getLast? hc)).2

theorem quotePending_iff {terms : List String} {chars : List Char} {opened : List Bracket} :
    quotePending ⟨terms, chars.reverse, opened⟩ = true ↔ chars = ['\x27'] := by
  rw [quotePending, beq_iff_eq, List.reverse_eq_iff]
  rfl

section Step

variable {source written lead word : List Char} {terms : List String} {next : TermReader}
  (h : FallsInto source terms) (hlead : Lead written lead) (hword : Plain word)

include h hlead hword

/-- A blank outside all brackets ends any term but a lone quote. -/
theorem fallsInto_flush (hquote : lead ++ word ≠ ['\x27']) {c : Char}
    (hc : Text.isBlank c = true) :
    ∃ more, flush ⟨terms, (lead ++ word).reverse, []⟩ = ⟨more, [], []⟩ ∧
      FallsInto (source ++ (written ++ (word ++ [c]))) more := by
  by_cases hne : word = []
  · subst hne
    cases hlead with
    | none => exact ⟨terms, rfl, by simpa using h.blank hc⟩
    | quote => simp at hquote
  · have hplain : Plain (lead ++ word) := plain_append.mpr ⟨hlead.plain, hword⟩
    exact ⟨_, flush_plain hplain (by simp [hne]), h.word hlead hword hne hquote hc⟩

/-- A blank outside all brackets leaves a lone quote as it is. -/
theorem hasRead_blank {c : Char} (hc : Text.isBlank c = true) :
    HasRead
      (if quotePending ⟨terms, (lead ++ word).reverse, []⟩ then ⟨terms, (lead ++ word).reverse, []⟩
      else flush ⟨terms, (lead ++ word).reverse, []⟩)
      (source ++ (written ++ (word ++ [c]))) := by
  by_cases hquote : lead ++ word = ['\x27']
  · rw [if_pos (quotePending_iff.mpr hquote), hquote]
    simpa using HasRead.outside h (hlead.concat_blank hquote hc) plain_nil
  · obtain ⟨more, hflush, hmore⟩ := fallsInto_flush h hlead hword hquote hc
    rw [if_neg fun hpending => hquote (quotePending_iff.mp hpending), hflush]
    exact hasRead_idle hmore

/-- The bracket that closes the outermost form ends the term. -/
theorem hasRead_form {inner : List Char} (opener closer : Bracket)
    (hinner : openedAfter [] inner = some []) :
    HasRead
      (flush ⟨terms, (lead ++ (word ++ formChars opener inner closer)).reverse, []⟩)
      (source ++ (written ++ (word ++ formChars opener inner closer))) := by
  have hopener : Text.isBlank opener.opener = false := by cases opener <;> decide
  have hcloser : Text.isBlank closer.closer = false := by cases closer <;> decide
  have hplain : Plain (lead ++ word) := plain_append.mpr ⟨hlead.plain, hword⟩
  rw [flush_of_nonblank]
  · exact hasRead_idle (h.form hlead hword opener closer hinner)
  · simp [formChars]
  · intro c hc
    rw [← List.append_assoc] at hc
    cases hfront : lead ++ word with
    | nil =>
        simp only [hfront, formChars, List.nil_append, List.head?_cons, Option.mem_some] at hc
        exact hc ▸ hopener
    | cons first rest =>
        simp only [hfront, List.cons_append, List.head?_cons, Option.mem_some] at hc
        exact hc ▸ (hplain first (hfront ▸ List.mem_cons_self)).2
  · intro c hc
    have hlast : (lead ++ (word ++ formChars opener inner closer)).getLast? =
        some closer.closer := by
      simp [formChars, List.getLast?_append, List.getLast?_cons]
    rw [hlast, Option.mem_some] at hc
    exact hc ▸ hcloser

end Step

/-- One character more. -/
theorem HasRead.step {reader next : TermReader} {read : List Char} {c : Char}
    (h : HasRead reader read) (hc : reader.readChar c = .ok next) : HasRead next (read ++ [c]) := by
  cases h with
  | @outside source written lead word terms hsource hlead hword =>
      simp only [List.append_assoc]
      rcases bracket_cases c with ⟨bracket, rfl⟩ | ⟨bracket, rfl⟩ | hplain
      · rw [readChar_opener] at hc
        cases hc
        have hopened := HasRead.inside hsource hlead hword bracket (openedAfter_nil [])
        simpa [add] using hopened
      · rw [readChar_closer] at hc
        cases hc
      · by_cases hblank : Text.isBlank c = true
        · rw [readChar_blank rfl hblank] at hc
          cases hc
          exact hasRead_blank hsource hlead hword hblank
        · rw [Bool.not_eq_true] at hblank
          rw [readChar_of_plain hplain fun _ => hblank] at hc
          cases hc
          have hmore : Plain (word ++ [c]) :=
            plain_append.mpr ⟨hword, by simp [Plain, hplain, hblank]⟩
          simpa [addAll] using HasRead.outside hsource hlead hmore
  | @inside source written lead word inner terms outer hsource hlead hword opener hinner =>
      simp only [List.append_assoc, List.cons_append]
      have hmore (after : List Bracket) (hafter : openedBy outer c = some after) :
          HasRead
            ⟨terms, (lead ++ (word ++ opener.opener :: (inner ++ [c]))).reverse, after ++ [opener]⟩
            (source ++ (written ++ (word ++ opener.opener :: (inner ++ [c])))) :=
        .inside hsource hlead hword opener ((openedAfter_concat hinner c).trans hafter)
      rcases bracket_cases c with ⟨bracket, rfl⟩ | ⟨bracket, rfl⟩ | hplain
      · rw [readChar_opener] at hc
        cases hc
        simpa [add] using hmore (bracket :: outer) (openedBy_opener outer bracket)
      · rw [readChar_closer] at hc
        cases outer with
        | nil =>
            cases hc
            have hform := hasRead_form hsource hlead hword opener bracket hinner
            simpa [formChars, add] using hform
        | cons inside outer =>
            have hafter := hmore outer (openedBy_closer (inside :: outer) bracket)
            cases outer <;> cases hc <;> simpa [add] using hafter
      · rw [readChar_of_plain hplain (by simp)] at hc
        cases hc
        simpa [addAll] using hmore outer (openedBy_of_not_bracket hplain outer)

theorem HasRead.foldlM {reader next : TermReader} {read chars : List Char}
    (h : HasRead reader read) (hchars : chars.foldlM readChar reader = .ok next) :
    HasRead next (read ++ chars) := by
  induction chars generalizing reader read with
  | nil =>
      cases hchars
      simpa using h
  | cons c rest ih =>
      cases hmiddle : reader.readChar c with
      | error error =>
          rw [List.foldlM_cons, hmiddle] at hchars
          cases hchars
      | ok middle =>
          rw [foldlM_cons_of_ok hmiddle] at hchars
          simpa using ih (h.step hmiddle) hchars

end TermReader

namespace TermReader

/-- The characters of the lines, a space standing for the end of each. -/
def charsOf (lines : List (List Char)) : List Char :=
  lines.flatMap fun line => withoutBreak line ++ [' ']

theorem charsOf_cons (line : List Char) (rest : List (List Char)) :
    charsOf (line :: rest) = withoutBreak line ++ ' ' :: charsOf rest := by
  simp [charsOf]

theorem foldlM_readLine_eq (lines : List (List Char)) (reader : TermReader) :
    lines.foldlM readLine reader = (charsOf lines).foldlM readChar reader := by
  induction lines generalizing reader with
  | nil => rfl
  | cons line rest ih =>
      rw [List.foldlM_cons, charsOf_cons, List.foldlM_append, readLine]
      cases (withoutBreak line).foldlM readChar reader with
      | error error => rfl
      | ok middle =>
          change rest.foldlM readLine middle.endLine = (' ' :: charsOf rest).foldlM readChar middle
          rw [ih, foldlM_cons_of_ok (readChar_space middle)]

end TermReader

open TermReader

theorem readTerms_eq (lines : List (List Char)) :
    readTerms lines = ((charsOf lines).foldlM readChar {}).bind finish := by
  rw [readTerms, foldlM_readLine_eq]

/-- The reader finishes when the brackets of the lines balance. -/
theorem exists_readTerms {lines : List (List Char)}
    (h : openedAfter [] (charsOf lines) = some []) : ∃ terms, readTerms lines = .ok terms := by
  obtain ⟨last, hlast, hopened⟩ := @foldlM_readChar_opened {} _ _ h
  refine ⟨last.flush.terms.reverse, ?_⟩
  rw [readTerms_eq, hlast, Except.bind, finish, hopened]

/-- What is read are the terms of a reader that the lines leave outside all forms. -/
theorem exists_last_of_readTerms {lines : List (List Char)} {terms : List String}
    (h : readTerms lines = .ok terms) :
    ∃ last, (charsOf lines).foldlM readChar {} = .ok last ∧ last.opened = [] ∧
      last.flush.terms.reverse = terms := by
  rw [readTerms_eq] at h
  cases hlast : (charsOf lines).foldlM readChar {} with
  | error error =>
      rw [hlast] at h
      cases h
  | ok last =>
      rw [hlast, Except.bind, finish] at h
      cases hopened : last.opened with
      | nil =>
          rw [hopened] at h
          exact ⟨last, rfl, hopened, Except.ok.inj h⟩
      | cons bracket outer =>
          rw [hopened] at h
          cases h

/-- The lines fall into the terms that are read; only a lone quote may be left over at the end. -/
theorem fallsInto_of_readTerms {lines : List (List Char)} {terms : List String}
    (h : readTerms lines = .ok terms) :
    FallsInto (charsOf lines ++ [' ']) terms.reverse ∨
      ∃ source blanks front, charsOf lines = source ++ '\x27' :: blanks ∧
        (∀ c ∈ blanks, Text.isBlank c = true) ∧ FallsInto source front ∧
        terms.reverse = "'" :: front := by
  obtain ⟨last, hlast, hopened, rfl⟩ := exists_last_of_readTerms h
  have hread := (hasRead_idle .nil).foldlM hlast
  rw [List.nil_append] at hread
  generalize charsOf lines = chars at hread
  rw [List.reverse_reverse]
  cases hread with
  | inside => exact absurd hopened (List.concat_ne_nil _ _)
  | @outside source written lead word front hsource hlead hword =>
      by_cases hquote : lead ++ word = ['\x27']
      · right
        have hterms : (flush ⟨front, (lead ++ word).reverse, []⟩).terms = "'" :: front := by
          rw [hquote, flush_plain plain_quote (by simp)]
        cases hlead with
        | none =>
            rw [List.nil_append] at hquote
            exact ⟨source, [], front, by simp [hquote], by simp, hsource, hterms⟩
        | @quote blanks hne hblanks =>
            obtain rfl : word = [] := by simpa using hquote
            exact ⟨source, blanks, front, by simp, hblanks, hsource, hterms⟩
      · left
        obtain ⟨more, hflush, hmore⟩ :=
          fallsInto_flush hsource hlead hword hquote (c := ' ') (by decide)
        rw [hflush]
        simpa using hmore

end SetLisp
