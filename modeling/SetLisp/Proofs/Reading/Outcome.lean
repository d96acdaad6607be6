import SetLisp.Proofs.Reading.Depth

/-!
# What becomes of a source

The brackets of a source decide whether it is read: the first closing bracket that is too much and
the innermost one left open are what a reading can fail of, and any other source falls into terms.
A term is a word, or its brackets close for the first time at its end, and the terms keep every
character of the source that is not blank.
-/

namespace SetLisp

open TermReader

section Filter

variable {p : Char → Bool} (hp : ∀ c, Text.isBlank c = true → p c = false)

include hp

theorem filter_blanks {blanks : List Char} (hblanks : ∀ c ∈ blanks, Text.isBlank c = true) :
    blanks.filter p = [] := by
  rw [List.filter_eq_nil_iff]
  intro c hc
  simp [hp c (hblanks c hc)]

/-- What is read of the lines is what they hold, but for blanks. -/
theorem filter_charsOf (lines : List (List Char)) :
    (charsOf lines).filter p = lines.flatten.filter p := by
  induction lines with
  | nil => rfl
  | cons line rest ih =>
      obtain ⟨breaks, hbreaks, hline⟩ := exists_breaks line
      have hspace : p ' ' = false := hp ' ' (by decide)
      calc (charsOf (line :: rest)).filter p
          = (withoutBreak line).filter p ++ (charsOf rest).filter p := by
            rw [charsOf_cons, List.filter_append, List.filter_cons_of_neg (by simp [hspace])]
        _ = (withoutBreak line ++ breaks).filter p ++ (charsOf rest).filter p := by
            rw [List.filter_append, filter_blanks hp hbreaks, List.append_nil]
        _ = (line :: rest).flatten.filter p := by
            rw [hline, ih, List.flatten_cons, List.filter_append]

end Filter

theorem filter_isBracket_charsOf (lines : List (List Char)) :
    (charsOf lines).filter isBracket = lines.flatten.filter isBracket :=
  filter_charsOf (fun _ hc => isBracket_of_isBlank hc) lines

theorem openedAfter_charsOf (lines : List (List Char)) :
    openedAfter [] (charsOf lines) = openedAfter [] lines.flatten := by
  rw [← openedAfter_filter, filter_isBracket_charsOf, openedAfter_filter]

theorem overcloses_charsOf {bracket : Bracket} {lines : List (List Char)} :
    Overcloses bracket (charsOf lines) ↔ Overcloses bracket lines.flatten := by
  rw [← overcloses_filter, filter_isBracket_charsOf, overcloses_filter]

theorem readTerms_of_overcloses {bracket : Bracket} {lines : List (List Char)}
    (h : Overcloses bracket lines.flatten) : readTerms lines = .error (.unexpected bracket) := by
  obtain ⟨front, rest, hchars, hfront⟩ := overcloses_charsOf.mpr h
  obtain ⟨middle, hmiddle, hopened⟩ := @foldlM_readChar_opened {} front _ hfront
  rw [readTerms_eq, hchars, foldlM_append_of_ok hmiddle, List.foldlM_cons, readChar_closer, hopened]
  rfl

theorem readTerms_of_opened {bracket : Bracket} {outer : List Bracket} {lines : List (List Char)}
    (h : openedAfter [] lines.flatten = some (bracket :: outer)) :
    readTerms lines = .error (.missing bracket) := by
  rw [← openedAfter_charsOf] at h
  obtain ⟨last, hlast, hopened⟩ := @foldlM_readChar_opened {} _ _ h
  rw [readTerms_eq, hlast, Except.bind, finish, hopened]

theorem exists_readTerms_of_closed {lines : List (List Char)}
    (h : openedAfter [] lines.flatten = some []) : ∃ terms, readTerms lines = .ok terms :=
  exists_readTerms ((openedAfter_charsOf lines).trans h)

/-- A bracket closed where none is open, a bracket left open, or neither. -/
theorem readTerms_cases (lines : List (List Char)) :
    (∃ bracket, Overcloses bracket lines.flatten ∧
      readTerms lines = .error (.unexpected bracket)) ∨
    (∃ bracket outer, openedAfter [] lines.flatten = some (bracket :: outer) ∧
      readTerms lines = .error (.missing bracket)) ∨
    openedAfter [] lines.flatten = some [] ∧ ∃ terms, readTerms lines = .ok terms := by
  match hopened : openedAfter [] lines.flatten with
  | none =>
      obtain ⟨bracket, hbracket⟩ := openedAfter_eq_none_iff.mp hopened
      exact .inl ⟨bracket, hbracket, readTerms_of_overcloses hbracket⟩
  | some (bracket :: outer) =>
      exact .inr (.inl ⟨bracket, outer, rfl, readTerms_of_opened hopened⟩)
  | some [] => exact .inr (.inr ⟨rfl, exists_readTerms_of_closed hopened⟩)

theorem readTerms_unexpected_iff {bracket : Bracket} {lines : List (List Char)} :
    readTerms lines = .error (.unexpected bracket) ↔ Overcloses bracket lines.flatten := by
  refine ⟨fun h => ?_, readTerms_of_overcloses⟩
  rcases readTerms_cases lines with ⟨closer, hcloser, hread⟩ | ⟨_, _, -, hread⟩ | ⟨-, _, hread⟩
  · cases h.symm.trans hread
    exact hcloser
  · cases h.symm.trans hread
  · cases h.symm.trans hread

theorem readTerms_missing_iff {bracket : Bracket} {lines : List (List Char)} :
    readTerms lines = .error (.missing bracket) ↔
      ∃ outer, openedAfter [] lines.flatten = some (bracket :: outer) := by
  refine ⟨fun h => ?_, fun ⟨outer, houter⟩ => readTerms_of_opened houter⟩
  rcases readTerms_cases lines with ⟨_, -, hread⟩ | ⟨inner, outer, hinner, hread⟩ | ⟨-, _, hread⟩
  · cases h.symm.trans hread
  · cases h.symm.trans hread
    exact ⟨outer, hinner⟩
  · cases h.symm.trans hread

theorem exists_readTerms_iff {lines : List (List Char)} :
    (∃ terms, readTerms lines = .ok terms) ↔ openedAfter [] lines.flatten = some [] := by
  refine ⟨fun ⟨terms, hterms⟩ => ?_, exists_readTerms_of_closed⟩
  rcases readTerms_cases lines with ⟨_, -, hread⟩ | ⟨_, _, -, hread⟩ | ⟨hclosed, -⟩
  · cases hterms.symm.trans hread
  · cases hterms.symm.trans hread
  · exact hclosed

/-- A term is not empty and has no blanks around it; and if it is no word, its brackets are all
closed for the first time at its end. -/
structure WellShaped (term : List Char) : Prop where
  ne_nil : term ≠ []
  head : ∀ c ∈ term.head?, Text.isBlank c = false
  last : ∀ c ∈ term.getLast?, Text.isBlank c = false
  shape : (∀ c ∈ term, isBracket c = false ∧ Text.isBlank c = false) ∨
    (∃ c ∈ term, isBracket c = true) ∧ ∀ front, front <+: term → (∃ c ∈ front, isBracket c = true) →
      (depth front = 0 ↔ front = term)

theorem Plain.wellShaped {word : List Char} (hword : Plain word) (hne : word ≠ []) :
    WellShaped word where
  ne_nil := hne
  head := fun c hc => (hword c (List.mem_of_mem_head? hc)).2
  last := fun c hc => (hword c (List.mem_of_getLast? hc)).2
  shape := .inl hword

theorem depth_formChars {inner : List Char} (hinner : openedAfter [] inner = some [])
    (opener closer : Bracket) : depth (formChars opener inner closer) = 0 :=
  depth_eq_length (openedAfter_formChars hinner opener closer)

/-- Inside a form, at least its own bracket is open. -/
theorem depth_front_formChars {opener closer : Bracket} {inner front : List Char}
    (hinner : openedAfter [] inner = some []) (hfronts : front <+: formChars opener inner closer)
    (hne : front ≠ []) : depth front = 0 ↔ front = formChars opener inner closer := by
  constructor
  · intro hdepth
    have hform := openedAfter_formChars hinner opener closer
    obtain ⟨middle, hmiddle⟩ := exists_openedAfter_front hform hfronts
    obtain ⟨back, hback⟩ := hfronts
    rw [depth_eq_length hmiddle] at hdepth
    obtain rfl : middle = [] := List.eq_nil_of_length_eq_zero (by omega)
    by_cases hnil : back = []
    · rw [← hback, hnil, List.append_nil]
    · exact absurd hmiddle (openedAfter_front_formChars hinner hne hnil hback.symm)
  · rintro rfl
    exact depth_formChars hinner opener closer

/-- What has a bracket goes on behind the word in front. -/
theorem exists_behind_word {word rest front : List Char} (hword : ∀ c ∈ word, isBracket c = false)
    (hfront : front <+: word ++ rest) (hbracket : ∃ c ∈ front, isBracket c = true) :
    ∃ behind, front = word ++ behind ∧ behind ≠ [] ∧ behind <+: rest := by
  obtain ⟨c, hc, hbracket⟩ := hbracket
  have houtside : c ∉ word := fun hinside => by
    rw [hword c hinside] at hbracket
    cases hbracket
  rcases List.prefix_or_prefix_of_prefix hfront (List.prefix_append word rest) with
    hshorter | ⟨behind, rfl⟩
  · exact absurd (hshorter.subset hc) houtside
  · refine ⟨behind, rfl, ?_, (List.prefix_append_right_inj word).mp hfront⟩
    rintro rfl
    rw [List.append_nil] at hc
    exact houtside hc

theorem wellShaped_form {opener closer : Bracket} {word inner : List Char} (hword : Plain word)
    (hinner : openedAfter [] inner = some []) :
    WellShaped (word ++ formChars opener inner closer) where
  ne_nil := by simp [formChars]
  head := by
    have hopener : Text.isBlank opener.opener = false := by cases opener <;> decide
    cases word with
    | nil =>
        rintro c ⟨⟩
        exact hopener
    | cons d rest =>
        rintro c ⟨⟩
        exact (hword d List.mem_cons_self).2
  last := by
    have hcloser : Text.isBlank closer.closer = false := by cases closer <;> decide
    have hlast : (word ++ formChars opener inner closer).getLast? = some closer.closer := by
      rw [formChars, ← List.cons_append, ← List.append_assoc, List.getLast?_concat]
    rw [hlast]
    rintro c ⟨⟩
    exact hcloser
  shape := by
    have hplain : ∀ c ∈ word, isBracket c = false := fun c hc => (hword c hc).1
    have hbracket : opener.opener ∈ word ++ formChars opener inner closer :=
      List.mem_append_right word List.mem_cons_self
    refine .inr ⟨⟨opener.opener, hbracket, isBracket_opener opener⟩, fun front hfront hsome => ?_⟩
    obtain ⟨behind, rfl, hne, hbehind⟩ := exists_behind_word hplain hfront hsome
    rw [depth_append, depth_of_not_bracket hplain, Int.zero_add,
      depth_front_formChars hinner hbehind hne, List.append_cancel_left_eq]

theorem IsTerm.wellShaped {term : List Char} (h : IsTerm term) : WellShaped term := by
  cases h with
  | word hword hne => exact hword.wellShaped hne
  | form hword opener closer hinner => exact wellShaped_form hword hinner

/-- The characters that are not blank. -/
def nonblanks (chars : List Char) : List Char :=
  chars.filter fun c => !Text.isBlank c

theorem nonblanks_append (first second : List Char) :
    nonblanks (first ++ second) = nonblanks first ++ nonblanks second :=
  List.filter_append ..

theorem nonblanks_blanks {blanks : List Char} (hblanks : ∀ c ∈ blanks, Text.isBlank c = true) :
    nonblanks blanks = [] :=
  filter_blanks (fun c hc => by simp [hc]) hblanks

theorem nonblanks_charsOf (lines : List (List Char)) :
    nonblanks (charsOf lines) = nonblanks lines.flatten :=
  filter_charsOf (fun c hc => by simp [hc]) lines

theorem Lead.nonblanks_eq {written lead : List Char} (h : Lead written lead) :
    nonblanks written = nonblanks lead := by
  cases h with
  | none => rfl
  | quote hne hblanks => rw [← List.singleton_append, nonblanks_append, nonblanks_blanks hblanks,
      List.append_nil]

theorem FallsInto.nonblanks_eq {source : List Char} {terms : List String}
    (h : FallsInto source terms) :
    nonblanks (terms.reverse.flatMap String.toList) = nonblanks source := by
  have hblank {c : Char} (hc : Text.isBlank c = true) : nonblanks [c] = [] :=
    nonblanks_blanks (List.forall_mem_singleton.mpr hc)
  induction h with
  | nil => rfl
  | blank _ hc ih => rw [ih, nonblanks_append, hblank hc, List.append_nil]
  | word _ hlead _ _ _ hc ih =>
      simp only [List.reverse_cons, List.flatMap_append, List.flatMap_singleton,
        String.toList_ofList, nonblanks_append, ih, hlead.nonblanks_eq, hblank hc, List.append_nil]
  | form _ hlead _ _ _ _ ih =>
      simp only [List.reverse_cons, List.flatMap_append, List.flatMap_singleton,
        String.toList_ofList, nonblanks_append, ih, hlead.nonblanks_eq]

/-- The terms of the lines are well-shaped and keep what is not blank. -/
theorem wellShaped_of_readTerms {lines : List (List Char)} {terms : List String}
    (h : readTerms lines = .ok terms) :
    (∀ term ∈ terms, WellShaped term.toList) ∧
      nonblanks (terms.flatMap String.toList) = nonblanks lines.flatten := by
  rw [← nonblanks_charsOf]
  rcases fallsInto_of_readTerms h with
    hfalls | ⟨source, blanks, front, hsource, hblanks, hfalls, hterms⟩
  · refine ⟨fun term hterm => (hfalls.isTerm term (List.mem_reverse.mpr hterm)).wellShaped, ?_⟩
    have hspace : nonblanks [' '] = [] := by decide
    have hkept := hfalls.nonblanks_eq
    rwa [List.reverse_reverse, nonblanks_append, hspace, List.append_nil] at hkept
  · obtain rfl : terms = front.reverse ++ ["'"] := by
      rw [← List.reverse_reverse terms, hterms, List.reverse_cons]
    constructor
    · intro term hterm
      rcases List.mem_append.mp hterm with hfront | hquote
      · exact (hfalls.isTerm term (List.mem_reverse.mp hfront)).wellShaped
      · rw [List.mem_singleton.mp hquote]
        exact plain_quote.wellShaped (List.cons_ne_nil _ _)
    · have hquote : nonblanks ('\x27' :: blanks) = nonblanks ['\x27'] := by
        rw [← List.singleton_append, nonblanks_append, nonblanks_blanks hblanks, List.append_nil]
      rw [hsource, List.flatMap_append, nonblanks_append, hfalls.nonblanks_eq, nonblanks_append,
        hquote]
      rfl

/-- **What becomes of lines.** A closing bracket is too much exactly if it ends the shortest front
part of negative depth; otherwise a bracket is missing exactly if the depth of the whole is
positive, and it is the innermost one that is left open when each closing bracket closes the one
opened last, whatever its kind; otherwise there are terms, well-shaped and with all characters
that are not blank. -/
theorem readTerms_outcome (lines : List (List Char)) :
    (∀ bracket, readTerms lines = .error (.unexpected bracket) ↔
      FirstBelow bracket.closer lines.flatten) ∧
    ((∃ bracket, readTerms lines = .error (.unexpected bracket)) ↔
      ∃ front, front <+: lines.flatten ∧ depth front < 0) ∧
    (∀ bracket, readTerms lines = .error (.missing bracket) ↔
      ∃ outer, openedAfter [] lines.flatten = some (bracket :: outer)) ∧
    ((∃ bracket, readTerms lines = .error (.missing bracket)) ↔
      (∀ front, front <+: lines.flatten → 0 ≤ depth front) ∧ 0 < depth lines.flatten) ∧
    ((∃ terms, readTerms lines = .ok terms) ↔
      (∀ front, front <+: lines.flatten → 0 ≤ depth front) ∧ depth lines.flatten = 0) ∧
    ∀ terms, readTerms lines = .ok terms →
      (∀ term ∈ terms, WellShaped term.toList) ∧
        nonblanks (terms.flatMap String.toList) = nonblanks lines.flatten := by
  refine ⟨?_, ?_, ?_, ?_, ?_, fun terms hterms => wellShaped_of_readTerms hterms⟩
  · intro bracket
    exact readTerms_unexpected_iff.trans overcloses_iff_firstBelow
  · simp only [readTerms_unexpected_iff]
    rw [← openedAfter_eq_none_iff, openedAfter_eq_none_iff_below]
  · intro bracket
    exact readTerms_missing_iff
  · simp only [readTerms_missing_iff]
    exact openedAfter_eq_cons_iff
  · rw [exists_readTerms_iff, openedAfter_eq_nil_iff]

/-- Brackets of any kind close one another, and a lone quote goes over the end of its line. -/
theorem readTerms_outcome_of_mixed_brackets :
    let lines := ["'".toList, "(a".toList, "b\x7d c".toList]
    readTerms lines = .ok ["'(a b\x7d", "c"] ∧
      (∀ term ∈ ["'(a b\x7d", "c"], WellShaped term.toList) ∧
      nonblanks (["'(a b\x7d", "c"].flatMap String.toList) = nonblanks lines.flatten ∧
      FirstBelow '\x7d' ["(a".toList, ") \x7d)".toList].flatten ∧
      ∃ outer, openedAfter [] ["(\x7b".toList, "a".toList].flatten = some (.curly :: outer) := by
  intro lines
  have hread : readTerms lines = .ok ["'(a b\x7d", "c"] := rfl
  obtain ⟨-, -, -, -, -, hterms⟩ := readTerms_outcome lines
  obtain ⟨hshaped, hkept⟩ := hterms _ hread
  obtain ⟨hunexpected, -⟩ := readTerms_outcome ["(a".toList, ") \x7d)".toList]
  obtain ⟨-, -, hmissing, -⟩ := readTerms_outcome ["(\x7b".toList, "a".toList]
  exact ⟨hread, hshaped, hkept, (hunexpected .curly).mp rfl, (hmissing .curly).mp rfl⟩

end SetLisp
