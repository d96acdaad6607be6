import SetLisp.Proofs.Reading.Printing
import SetLisp.Term

namespace SetLisp

namespace TermReader

/-- The reader with more characters in the open term. -/
def addAll (reader : TermReader) (chars : List Char) : TermReader :=
  { reader with term := chars.reverse ++ reader.term }

theorem addAll_addAll (reader : TermReader) (first second : List Char) :
    (reader.addAll first).addAll second = reader.addAll (first ++ second) := by
  simp [addAll]

theorem readChar_of_plain {reader : TermReader} {c : Char} (hbracket : isBracket c = false)
    (hblank : reader.opened = [] → Text.isBlank c = false) :
    reader.readChar c = .ok (reader.addAll [c]) := by
  have hopener : openerOf? c = none := by
    simp_all [isBracket, openerOf?]
  have hcloser : closerOf? c = none := by
    simp_all [isBracket, closerOf?]
  have hinside : (reader.opened.isEmpty && Text.isBlank c) = false := by
    cases hopened : reader.opened with
    | nil => simp [hblank hopened]
    | cons bracket outer => rfl
  rw [readChar, hinside, hopener, hcloser]
  rfl

theorem foldlM_append_of_ok {reader middle : TermReader} {first : List Char}
    (hfirst : first.foldlM readChar reader = .ok middle) (second : List Char) :
    (first ++ second).foldlM readChar reader = second.foldlM readChar middle := by
  rw [List.foldlM_append, hfirst]
  rfl

theorem foldlM_cons_of_ok {reader middle : TermReader} {c : Char}
    (hc : reader.readChar c = .ok middle) (rest : List Char) :
    (c :: rest).foldlM readChar reader = rest.foldlM readChar middle := by
  rw [List.foldlM_cons, hc]
  rfl

theorem foldlM_readChar_word {word : List Char} (reader : TermReader)
    (hword : ∀ c ∈ word, isBracket c = false ∧ Text.isBlank c = false) :
    word.foldlM readChar reader = .ok (reader.addAll word) := by
  induction word generalizing reader with
  | nil => rfl
  | cons c rest ih =>
      obtain ⟨hbracket, hblank⟩ := hword c List.mem_cons_self
      rw [foldlM_cons_of_ok (readChar_of_plain hbracket fun _ => hblank),
        ih _ fun d hd => hword d (List.mem_cons_of_mem c hd), addAll_addAll, List.singleton_append]

/-- The reader with one more finished term. -/
def finished (reader : TermReader) (term : String) : TermReader :=
  { reader with terms := term :: reader.terms }

/-- Between terms nothing is open. -/
structure Idle (reader : TermReader) : Prop where
  term_nil : reader.term = []
  opened_nil : reader.opened = []

theorem Idle.endLine {reader : TermReader} (hidle : reader.Idle) : reader.endLine = reader := by
  obtain ⟨terms, term, opened⟩ := reader
  obtain ⟨rfl, rfl⟩ := hidle
  rfl

theorem withoutBreak_eq_self {line : List Char}
    (hlast : ∀ c ∈ line.getLast?, Text.isFileBreak c = false) : withoutBreak line = line := by
  rw [← List.head?_reverse] at hlast
  rw [withoutBreak, dropWhile_of_head? hlast, List.reverse_reverse]

theorem isBlank_of_isFileBreak {c : Char} (hc : Text.isFileBreak c = true) :
    Text.isBlank c = true := by
  simp only [Text.isFileBreak, Bool.or_eq_true, beq_iff_eq] at hc
  rcases hc with rfl | rfl <;> decide

end TermReader

end SetLisp
