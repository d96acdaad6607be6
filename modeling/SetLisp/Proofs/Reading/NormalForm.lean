import SetLisp.Proofs.Reading.Outcome

/-!
# Terms as a normal form

The terms of a source, one on a line, are a source with the same terms. They can stand for it
whatever lines follow, as both leave the reader in one state: outside all forms, at the end of a
line, a term is open only if it is a lone quote. What is finished does not matter to what is read
next, so unless a lone quote is left the lines that follow are read as from the start.
-/

namespace SetLisp

namespace TermReader

/-- The reader with more terms finished before its own, last first. -/
def behind (earlier : List String) (reader : TermReader) : TermReader :=
  { reader with terms := reader.terms ++ earlier }

section Behind

variable (earlier : List String) (reader : TermReader)

theorem flush_behind : (reader.behind earlier).flush = reader.flush.behind earlier := by
  unfold flush behind
  dsimp only
  split <;> rfl

/-- **One character.** It is read without a look at the finished terms. -/
theorem readChar_behind (c : Char) :
    (reader.behind earlier).readChar c = (reader.readChar c).map (behind earlier) := by
  have hopened : (reader.behind earlier).opened = reader.opened := rfl
  rcases bracket_cases c with ⟨bracket, rfl⟩ | ⟨bracket, rfl⟩ | hplain
  · rw [readChar_opener, readChar_opener]
    rfl
  · rw [readChar_closer, readChar_closer, hopened]
    match reader.opened with
    | [] => rfl
    | [_] =>
        exact congrArg Except.ok
          (flush_behind earlier { reader.add bracket.closer with opened := [] })
    | _ :: _ :: _ => rfl
  · by_cases hblank : reader.opened = [] ∧ Text.isBlank c = true
    · have hpending : (reader.behind earlier).quotePending = reader.quotePending := rfl
      rw [readChar_blank (hopened.trans hblank.1) hblank.2, readChar_blank hblank.1 hblank.2,
        hpending, flush_behind]
      split <;> rfl
    · have hinside (hnil : reader.opened = []) : Text.isBlank c = false :=
        eq_false_of_ne_true fun htrue => hblank ⟨hnil, htrue⟩
      have hbehind := @readChar_of_plain (reader.behind earlier) c hplain hinside
      rw [hbehind, readChar_of_plain hplain hinside]
      rfl

theorem foldlM_readChar_behind (chars : List Char) :
    chars.foldlM readChar (reader.behind earlier) =
      (chars.foldlM readChar reader).map (behind earlier) := by
  induction chars generalizing reader with
  | nil => rfl
  | cons c rest ih =>
      rw [List.foldlM_cons, List.foldlM_cons, readChar_behind]
      cases reader.readChar c with
      | error error => rfl
      | ok next => exact ih next

theorem finish_behind :
    (reader.behind earlier).finish = reader.finish.map (earlier.reverse ++ ·) := by
  have hopened : (reader.behind earlier).opened = reader.opened := rfl
  rw [finish, finish, hopened, flush_behind]
  cases reader.opened with
  | nil => exact congrArg Except.ok List.reverse_append
  | cons bracket outer => rfl

end Behind

/-- Outside all forms no term is open but a lone quote. -/
def AtLineEnd (reader : TermReader) : Prop :=
  reader.opened = [] → reader.term = [] ∨ reader.term = ['\x27']

theorem atLineEnd_endLine (reader : TermReader) : reader.endLine.AtLineEnd := by
  intro hnil
  unfold endLine at hnil ⊢
  split
  · split
    · next hpending => exact .inr (beq_iff_eq.mp hpending)
    · exact .inl (term_flush reader)
  · next hopened =>
      rw [if_neg hopened] at hnil
      exact absurd (List.isEmpty_iff.mpr hnil) hopened

theorem atLineEnd_of_readLine {reader next : TermReader} {line : List Char}
    (h : reader.readLine line = .ok next) : next.AtLineEnd := by
  rw [readLine] at h
  cases hline : (withoutBreak line).foldlM readChar reader with
  | error error =>
      rw [hline] at h
      cases h
  | ok last =>
      rw [hline] at h
      cases h
      exact atLineEnd_endLine last

theorem AtLineEnd.foldlM_readLine {reader next : TermReader} (hreader : reader.AtLineEnd)
    {lines : List (List Char)} (h : lines.foldlM readLine reader = .ok next) : next.AtLineEnd := by
  induction lines generalizing reader with
  | nil =>
      cases h
      exact hreader
  | cons line rest ih =>
      rw [List.foldlM_cons] at h
      cases hline : reader.readLine line with
      | error error =>
          rw [hline] at h
          cases h
      | ok middle =>
          rw [hline] at h
          exact ih (atLineEnd_of_readLine hline) h

/-- Inside a form a character is taken, and the brackets around the form stay open. -/
theorem readChar_inside {reader : TermReader} {opened next outer : List Bracket} {c : Char}
    (hopened : reader.opened = opened ++ outer) (houter : outer ≠ [])
    (h : openedBy opened c = some next) :
    reader.readChar c = .ok { reader.addAll [c] with opened := next ++ outer } := by
  rcases bracket_cases c with ⟨bracket, rfl⟩ | ⟨bracket, rfl⟩ | hplain
  · rw [openedBy_opener, Option.some.injEq] at h
    rw [readChar_opener, hopened, ← h]
    rfl
  · rw [openedBy_closer] at h
    obtain ⟨first, rest, rfl⟩ := List.exists_cons_of_ne_nil houter
    cases opened with
    | nil => cases h
    | cons inner opened =>
        cases h
        rw [readChar_closer, hopened]
        cases next <;> rfl
  · rw [openedBy_of_not_bracket hplain, Option.some.injEq] at h
    have hne : reader.opened ≠ [] := by simp [hopened, houter]
    rw [readChar_of_plain hplain fun hnil => absurd hnil hne, ← h, ← hopened]
    rfl

theorem foldlM_readChar_inside {reader : TermReader} {opened after outer : List Bracket}
    {chars : List Char} (hopened : reader.opened = opened ++ outer) (houter : outer ≠ [])
    (h : openedAfter opened chars = some after) :
    chars.foldlM readChar reader = .ok { reader.addAll chars with opened := after ++ outer } := by
  induction chars generalizing reader opened with
  | nil =>
      cases h
      rw [← hopened]
      rfl
  | cons c rest ih =>
      rw [openedAfter_cons] at h
      obtain ⟨next, hnext, hrest⟩ := Option.bind_eq_some_iff.mp h
      rw [foldlM_cons_of_ok (readChar_inside hopened houter hnext), ih rfl hrest]
      simp [addAll]

section Term

variable {reader : TermReader} (hidle : reader.Idle)

include hidle

theorem flush_of_isTerm {term : List Char} (hterm : IsTerm term) :
    (reader.addAll term).flush = reader.finished (String.ofList term) := by
  obtain ⟨terms, _, _⟩ := reader
  obtain ⟨rfl, rfl⟩ := hidle
  have hshaped := hterm.wellShaped
  have hflush := @flush_of_nonblank terms term [] hshaped.ne_nil hshaped.head hshaped.last
  simpa [addAll, finished] using hflush

/-- The end of the line ends a word outside all forms, unless it is a lone quote. -/
theorem endLine_word {word : List Char} (hquote : word ≠ ['\x27']) :
    (reader.addAll word).endLine = (reader.addAll word).flush := by
  obtain ⟨terms, _, _⟩ := reader
  obtain ⟨rfl, rfl⟩ := hidle
  have hpending : ¬ quotePending ⟨terms, word.reverse, []⟩ = true :=
    fun hpending => hquote (quotePending_iff.mp hpending)
  simp [endLine, addAll, hpending]

/-- A form, with a word directly in front of it, is a term once it is closed. -/
theorem foldlM_readChar_form {word inner : List Char} (hword : Plain word)
    (opener closer : Bracket) (hinner : openedAfter [] inner = some []) :
    (word ++ formChars opener inner closer).foldlM readChar reader =
      .ok (reader.addAll (word ++ formChars opener inner closer)).flush := by
  have hopened : (word ++ [opener.opener]).foldlM readChar reader =
      .ok { reader.addAll (word ++ [opener.opener]) with opened := [opener] } := by
    rw [foldlM_append_of_ok (foldlM_readChar_word reader hword), List.foldlM_cons, readChar_opener]
    simp [addAll, add, hidle.opened_nil]
  have hinside := @foldlM_readChar_inside
    { reader.addAll (word ++ [opener.opener]) with opened := [opener] } [] [] [opener] inner rfl
    (List.cons_ne_nil opener []) hinner
  have hsplit : word ++ formChars opener inner closer =
      (word ++ [opener.opener]) ++ (inner ++ [closer.closer]) := by
    simp [formChars]
  have hclosed : { reader with opened := [] } = reader := by rw [← hidle.opened_nil]
  rw [hsplit, foldlM_append_of_ok hopened, foldlM_append_of_ok hinside, List.foldlM_cons,
    readChar_closer, ← hclosed]
  simp [addAll, add]

/-- A term on a line of its own is read as this term. -/
theorem readLine_of_isTerm {term : List Char} (hterm : IsTerm term) :
    reader.readLine term = .ok (reader.finished (String.ofList term)) := by
  have hline : withoutBreak term = term := by
    refine withoutBreak_eq_self fun c hc => eq_false_of_ne_true fun hbreak => ?_
    have hblank := hterm.wellShaped.last c hc
    rw [isBlank_of_isFileBreak hbreak] at hblank
    cases hblank
  have hflush := flush_of_isTerm hidle hterm
  have hfinished : (reader.finished (String.ofList term)).Idle :=
    ⟨hidle.term_nil, hidle.opened_nil⟩
  rw [readLine, hline]
  cases hterm with
  | word hword _ hquote =>
      rw [foldlM_readChar_word reader hword, Except.map, endLine_word hidle hquote, hflush]
  | form hword opener closer hinner =>
      rw [foldlM_readChar_form hidle hword opener closer hinner, hflush]
      exact congrArg Except.ok hfinished.endLine

/-- A lone quote on a line of its own stays open. -/
theorem readLine_quote : reader.readLine ['\x27'] = .ok { reader with term := ['\x27'] } := by
  obtain ⟨terms, term, opened⟩ := reader
  obtain ⟨rfl, rfl⟩ := hidle
  rfl

/-- Terms, one on a line, are read as these terms. -/
theorem foldlM_readLine_of_isTerm {terms : List String}
    (hterms : ∀ term ∈ terms, IsTerm term.toList) :
    (terms.map String.toList).foldlM readLine reader =
      .ok { reader with terms := terms.reverse ++ reader.terms } := by
  induction terms generalizing reader with
  | nil => rfl
  | cons term rest ih =>
      obtain ⟨hterm, hrest⟩ := List.forall_mem_cons.mp hterms
      have hfinished : (reader.finished term).Idle := ⟨hidle.term_nil, hidle.opened_nil⟩
      have hline := readLine_of_isTerm hidle hterm
      rw [String.ofList_toList] at hline
      rw [List.map_cons, List.foldlM_cons, hline]
      change (rest.map String.toList).foldlM readLine (reader.finished term) = _
      rw [ih hfinished hrest]
      simp [finished]

end Term

/-! ### What lines leave -/

/-- The reader that lines with these terms leave: a lone quote is still open, any other term is
finished. -/
inductive LeftBy : List String → TermReader → Prop
  | idle {finished : List String} (h : ∀ term ∈ finished, IsTerm term.toList) :
      LeftBy finished.reverse ⟨finished, [], []⟩
  | quote {finished : List String} (h : ∀ term ∈ finished, IsTerm term.toList) :
      LeftBy (finished.reverse ++ ["'"]) ⟨finished, ['\x27'], []⟩

section LeftBy

variable {terms : List String} {reader : TermReader} (h : LeftBy terms reader)

include h

theorem LeftBy.finish_eq : reader.finish = .ok terms := by
  cases h with
  | idle => rfl
  | quote => exact congrArg Except.ok List.reverse_cons

/-- The terms leave the reader as the lines do. -/
theorem LeftBy.foldlM_readLine : (terms.map String.toList).foldlM readLine {} = .ok reader := by
  have hlines {finished : List String} (hfinished : ∀ term ∈ finished, IsTerm term.toList) :
      (finished.reverse.map String.toList).foldlM readLine {} = .ok ⟨finished, [], []⟩ := by
    rw [foldlM_readLine_of_isTerm ⟨rfl, rfl⟩ fun term hterm =>
      hfinished term (List.mem_reverse.mp hterm), List.reverse_reverse, List.append_nil]
  cases h with
  | idle hfinished => exact hlines hfinished
  | @quote finished hfinished =>
      have hquote := @readLine_quote ⟨finished, [], []⟩ ⟨rfl, rfl⟩
      rw [List.map_append, List.foldlM_append, hlines hfinished]
      exact congrArg (· >>= pure) hquote

theorem LeftBy.readTerms_eq : readTerms (terms.map String.toList) = .ok terms := by
  rw [readTerms, h.foldlM_readLine]
  exact h.finish_eq

theorem LeftBy.not_mem_dropLast : "'" ∉ terms.dropLast := by
  have hterm {finished : List String} (hfinished : ∀ term ∈ finished, IsTerm term.toList) :
      "'" ∉ finished.reverse := fun hquote =>
    (hfinished "'" (List.mem_reverse.mp hquote)).getLast?_texts (by decide)
  cases h with
  | idle hfinished => exact fun hquote => hterm hfinished (List.dropLast_subset _ hquote)
  | quote hfinished =>
      rw [List.dropLast_concat]
      exact hterm hfinished

theorem LeftBy.eq_behind (hquote : terms.getLast? ≠ some "'") :
    reader = behind terms.reverse {} := by
  cases h with
  | idle => rw [List.reverse_reverse]; rfl
  | quote => exact absurd List.getLast?_concat hquote

end LeftBy

theorem exists_leftBy {lines : List (List Char)} {terms : List String}
    (h : readTerms lines = .ok terms) :
    ∃ reader, lines.foldlM readLine {} = .ok reader ∧ LeftBy terms reader := by
  obtain ⟨last, hlast, hopened, rfl⟩ := exists_last_of_readTerms h
  have hlines : lines.foldlM readLine {} = .ok last := (foldlM_readLine_eq lines {}).trans hlast
  have hend := AtLineEnd.foldlM_readLine (fun _ => .inl rfl) hlines
  refine ⟨last, hlines, ?_⟩
  have hread := (hasRead_idle .nil).foldlM hlast
  generalize [] ++ charsOf lines = chars at hread
  cases hread with
  | inside => exact absurd hopened (List.concat_ne_nil _ _)
  | @outside source written lead word finished hfalls hlead hword =>
      have hterm : (lead ++ word).reverse = [] ∨ (lead ++ word).reverse = ['\x27'].reverse :=
        hend rfl
      rcases hterm with hnil | hquote
      · rw [hnil]
        exact .idle hfalls.isTerm
      · rw [hquote, flush_plain plain_quote (List.cons_ne_nil _ _), List.reverse_cons]
        exact .quote hfalls.isTerm

end TermReader

open TermReader

theorem readTerms_append {lines : List (List Char)} {reader : TermReader}
    (h : lines.foldlM readLine {} = .ok reader) (more : List (List Char)) :
    readTerms (lines ++ more) = (more.foldlM readLine reader).bind finish := by
  rw [readTerms, List.foldlM_append, h]
  rfl

theorem foldlM_readLine_behind (earlier : List String) (lines : List (List Char)) :
    (lines.foldlM readLine (behind earlier {})).bind finish =
      (readTerms lines).map (earlier.reverse ++ ·) := by
  rw [readTerms_eq, foldlM_readLine_eq, foldlM_readChar_behind]
  cases (charsOf lines).foldlM readChar {} with
  | error error => rfl
  | ok last => exact finish_behind earlier last

/-- Terms other than a lone quote, one on a line, are read as they are. -/
theorem readTerms_of_isTerm {terms : List String} (h : ∀ term ∈ terms, IsTerm term.toList) :
    readTerms (terms.map String.toList) = .ok terms := by
  have hleft := LeftBy.idle fun term hterm => h term (List.mem_reverse.mp hterm)
  rw [List.reverse_reverse] at hleft
  exact hleft.readTerms_eq

/-- **Terms are a normal form.** The terms of lines, one on a line, are read as the same terms, and
none but the last can be a lone quote. They stand for the lines in front of any others; and unless
a lone quote is the last, the others are read as from the start, be it to terms or to an error. -/
theorem terms_are_normal_form {lines : List (List Char)} {terms : List String}
    (h : readTerms lines = .ok terms) :
    readTerms (terms.map String.toList) = .ok terms ∧ "'" ∉ terms.dropLast ∧
      (∀ more, readTerms (lines ++ more) = readTerms (terms.map String.toList ++ more)) ∧
      (terms.getLast? ≠ some "'" →
        ∀ more, readTerms (lines ++ more) = (readTerms more).map (terms ++ ·)) := by
  obtain ⟨reader, hlines, hleft⟩ := exists_leftBy h
  refine ⟨hleft.readTerms_eq, hleft.not_mem_dropLast, fun more => ?_, fun hquote more => ?_⟩
  · rw [readTerms_append hlines, readTerms_append hleft.foldlM_readLine]
  · rw [readTerms_append hlines, hleft.eq_behind hquote, foldlM_readLine_behind,
      List.reverse_reverse]

/-- A quote is carried over the end of its line, a line is broken within a form, and an atom touches
the form. -/
theorem terms_are_normal_form_carried_quote :
    let lines := ["' \r\n".toList, "(a\nb\x7dc\r".toList]
    let terms := ["'(a\nb\x7d", "c"]
    readTerms lines = .ok terms ∧ readTerms (terms.map String.toList) = .ok terms ∧
      "'" ∉ terms.dropLast ∧ terms.getLast? ≠ some "'" ∧
      readTerms (lines ++ ["'".toList, "d".toList]) = .ok (terms ++ ["'d"]) ∧
      readTerms (lines ++ ["d)".toList]) = .error (.unexpected .round) := by
  intro lines terms
  have hread : readTerms lines = .ok terms := rfl
  have hquote : terms.getLast? ≠ some "'" := by decide
  obtain ⟨hagain, hlone, -, happend⟩ := terms_are_normal_form hread
  exact ⟨hread, hagain, hlone, hquote, (happend hquote _).trans rfl, (happend hquote _).trans rfl⟩

/-- What follows a lone quote is not read as from the start. -/
example : readTerms ["x '".toList] = .ok ["x", "'"] ∧
    readTerms ["x '".toList, "(y)".toList] = .ok ["x", "'(y)"] :=
  ⟨rfl, rfl⟩

end SetLisp
