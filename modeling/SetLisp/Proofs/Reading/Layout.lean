import SetLisp.Proofs.Reading.ReadAlike
import SetLisp.Proofs.Reading.Regrouping
import SetLisp.Proofs.Source.Decoding

namespace SetLisp

open Token TermReader

/-- The tokens of each term, or what is wrong with the source. -/
def termTokens (result : Except ReaderError (List String)) :
    Except ReaderError (List (List String)) :=
  result.map (List.map tokenize)

/-- The same characters in order, but for the blanks: where the one text has some the other has
some, be it as many or not. -/
inductive Respaced : List Char → List Char → Prop
  | nil : Respaced [] []
  | same (c : Char) {text other : List Char} (h : Respaced text other) :
      Respaced (c :: text) (c :: other)
  | blanks {gap gap' text other : List Char} (hgap : gap ≠ []) (hgap' : gap' ≠ [])
      (hblanks : ∀ c ∈ gap, Text.isBlank c = true) (hblanks' : ∀ c ∈ gap', Text.isBlank c = true)
      (h : Respaced text other) : Respaced (gap ++ text) (gap' ++ other)

theorem Respaced.append_left {text other : List Char} (h : Respaced text other)
    (front : List Char) : Respaced (front ++ text) (front ++ other) := by
  induction front with
  | nil => exact h
  | cons c rest ih => exact .same c ih

namespace TermReader

theorem ReadAlike.of_respaced {text other : List Char} (h : Respaced text other) :
    ReadAlike text other := by
  induction h with
  | nil => exact .nil
  | same c _ ih => exact (ReadAlike.same c).append ih
  | blanks hgap hgap' hblanks hblanks' _ ih =>
      exact (ReadAlike.blanks hgap hgap' hblanks hblanks').append ih

/-- What a line loses goes into the gap behind it. -/
theorem respaced_withoutBreak (line : List Char) {gap gap' text other : List Char}
    (hgap : gap ≠ []) (hgap' : gap' ≠ []) (hblanks : ∀ c ∈ gap, Text.isBlank c = true)
    (hblanks' : ∀ c ∈ gap', Text.isBlank c = true) (h : Respaced text other) :
    Respaced (withoutBreak line ++ (gap ++ text)) (line ++ (gap' ++ other)) := by
  obtain ⟨breaks, hbreaks, hline⟩ := exists_breaks line
  have hends : Respaced (gap ++ text) ((breaks ++ gap') ++ other) :=
    .blanks hgap (by simp [hgap']) hblanks (List.forall_mem_append.mpr ⟨hbreaks, hblanks'⟩) h
  have hcut : line ++ (gap' ++ other) = withoutBreak line ++ ((breaks ++ gap') ++ other) := by
    rw [List.append_assoc breaks, ← List.append_assoc (withoutBreak line) breaks, hline]
  rw [hcut]
  exact hends.append_left (withoutBreak line)

/-- What is read of the lines of a text is the text with other blanks. -/
theorem respaced_cutLines {isBreak : Char → Bool}
    (hbreak : ∀ c, isBreak c = true → Text.isBlank c = true) (line text : List Char) :
    Respaced (charsOf (Text.cutLines isBreak line text) ++ [' '])
      (line.reverse ++ (text ++ [' '])) := by
  fun_induction Text.cutLines isBreak line text with
  | case1 line hempty =>
      rw [List.isEmpty_iff.mp hempty]
      exact .same ' ' .nil
  | case2 line hempty =>
      rw [charsOf_cons, List.append_assoc]
      exact @respaced_withoutBreak line.reverse [' ', ' '] [' '] [] []
        (List.cons_ne_nil _ _) (List.cons_ne_nil _ _) (forall_mem_of_all (by decide))
        (forall_mem_of_all (by decide)) .nil
  | case3 line rest ih =>
      rw [charsOf_cons, List.append_assoc]
      exact @respaced_withoutBreak line.reverse [' '] ['\r', '\n'] _ _
        (List.cons_ne_nil _ _) (List.cons_ne_nil _ _) (forall_mem_of_all (by decide))
        (forall_mem_of_all (by decide)) ih
  | case4 line c rest hpair hc ih =>
      rw [charsOf_cons, List.append_assoc]
      exact @respaced_withoutBreak line.reverse [' '] [c] _ _
        (List.cons_ne_nil _ _) (List.cons_ne_nil _ _) (forall_mem_of_all (by decide))
        (List.forall_mem_singleton.mpr (hbreak c hc)) ih
  | case5 line c rest hpair hc ih =>
      rwa [List.reverse_cons, List.append_assoc] at ih

theorem respaced_linesOf {isBreak : Char → Bool}
    (hbreak : ∀ c, isBreak c = true → Text.isBlank c = true) (text : List Char) :
    Respaced (charsOf (Text.linesOf isBreak text) ++ [' ']) (text ++ [' ']) :=
  respaced_cutLines hbreak [] text

theorem finish_of_opened_nil {reader : TermReader} (hopened : reader.opened = []) :
    reader.finish = .ok reader.flush.terms.reverse := by
  rw [finish, hopened]

theorem finish_of_opened_cons {reader : TermReader} {bracket : Bracket} {outer : List Bracket}
    (hopened : reader.opened = bracket :: outer) : reader.finish = .error (.missing bracket) := by
  rw [finish, hopened]

/-- The tokens of each term once the source ends, or what is wrong with it. -/
def finishTokens (result : Except ReaderError TermReader) :
    Except ReaderError (List (List String)) :=
  termTokens (result.bind finish)

theorem EndAlike.finishTokens_eq {result result' : Except ReaderError TermReader}
    (h : EndAlike result result') : finishTokens result' = finishTokens result := by
  cases h with
  | error error => rfl
  | @ok first second h =>
      simp only [finishTokens, termTokens, Except.bind]
      match hopened : first.opened with
      | bracket :: outer =>
          rw [finish_of_opened_cons hopened, finish_of_opened_cons (h.opened_eq.trans hopened)]
      | [] =>
          rw [finish_of_opened_nil hopened, finish_of_opened_nil (h.opened_eq.trans hopened),
            Except.map, Except.map, List.map_reverse, List.map_reverse, h.flush.terms_eq]

/-- A space at the end is as good as none. -/
theorem finishTokens_readChar_space (reader : TermReader) :
    finishTokens (reader.readChar ' ') = finishTokens (.ok reader) := by
  simp only [finishTokens, termTokens, readChar_space, Except.bind]
  match hopened : reader.opened with
  | bracket :: outer =>
      have hended : reader.endLine.opened = bracket :: outer := by
        rw [endLine, hopened]
        exact hopened
      rw [finish_of_opened_cons hopened, finish_of_opened_cons hended]
  | [] =>
      by_cases hpending : reader.quotePending = true
      · have hended : reader.endLine = reader := by simp [endLine, hopened, hpending]
        rw [hended]
      · have hended : reader.endLine = reader.flush := by simp [endLine, hopened, hpending]
        rw [hended, finish_of_opened_nil hopened,
          finish_of_opened_nil ((opened_flush reader).trans hopened), Except.map, Except.map,
          List.map_reverse, List.map_reverse, (alike_flush_flush reader).terms_eq]

theorem ReadAlike.finishTokens_eq {source other : List Char} (h : ReadAlike source other) :
    finishTokens (other.foldlM readChar {}) = finishTokens (source.foldlM readChar {}) :=
  (h {} {} (.refl {})).finishTokens_eq

theorem finishTokens_concat_space (source : List Char) :
    finishTokens ((source ++ [' ']).foldlM readChar {}) =
      finishTokens (source.foldlM readChar {}) := by
  rw [List.foldlM_append]
  cases source.foldlM readChar {} with
  | error error => rfl
  | ok reader =>
      rw [← finishTokens_readChar_space reader]
      exact congrArg finishTokens (foldlM_single reader ' ')

end TermReader

open TermReader

/-- What the terms of a text come to is decided by its characters and not by its lines. -/
theorem termTokens_linesOf {isBreak : Char → Bool}
    (hbreak : ∀ c, isBreak c = true → Text.isBlank c = true) (text : List Char) :
    termTokens (readTerms (Text.linesOf isBreak text)) =
      finishTokens (text.foldlM readChar {}) :=
  calc termTokens (readTerms (Text.linesOf isBreak text))
      = finishTokens ((charsOf (Text.linesOf isBreak text)).foldlM readChar {}) := by
        rw [readTerms_eq, finishTokens]
    _ = finishTokens ((charsOf (Text.linesOf isBreak text) ++ [' ']).foldlM readChar {}) :=
        (finishTokens_concat_space _).symm
    _ = finishTokens ((text ++ [' ']).foldlM readChar {}) :=
        (ReadAlike.of_respaced (respaced_linesOf hbreak text)).finishTokens_eq.symm
    _ = finishTokens (text.foldlM readChar {}) := finishTokens_concat_space text

theorem termTokens_readTermsOfText (text : String) :
    termTokens (readTermsOfText text) = finishTokens (text.toList.foldlM readChar {}) :=
  termTokens_linesOf (fun _ hc => isBlank_of_isTextBreak hc) text.toList

theorem termTokens_decodeSource (text : String) :
    termTokens (readTerms (decodeSource text.toUTF8.toList).lines) =
      finishTokens (text.toList.foldlM readChar {}) := by
  rw [decodeSource_toUTF8]
  exact termTokens_linesOf (fun _ hc => isBlank_of_isFileBreak hc) text.toList

/-- **Layout.** A text handed over as a string and the lines of a file that holds it fail alike, or
are read into as many terms with the same tokens in each; and so are two texts that differ in
their blanks only, as strings and as files. -/
theorem terms_ignore_layout :
    (∀ text : String, (decodeSource text.toUTF8.toList).fault? = none ∧
      termTokens (readTerms (decodeSource text.toUTF8.toList).lines) =
        termTokens (readTermsOfText text)) ∧
    ∀ text other : String, Respaced text.toList other.toList →
      termTokens (readTermsOfText other) = termTokens (readTermsOfText text) ∧
      termTokens (readTerms (decodeSource other.toUTF8.toList).lines) =
        termTokens (readTerms (decodeSource text.toUTF8.toList).lines) := by
  refine ⟨fun text => ⟨?_, ?_⟩, fun text other hrespaced => ?_⟩
  · rw [decodeSource_toUTF8]
  · rw [termTokens_decodeSource, termTokens_readTermsOfText]
  · have hread := (ReadAlike.of_respaced hrespaced).finishTokens_eq
    simp only [termTokens_decodeSource, termTokens_readTermsOfText]
    exact ⟨hread, hread⟩

/-- A quote stays with its form over the end of a line, and a separator may be cut there. -/
theorem terms_ignore_layout_behind_quote :
    Respaced "' (a b)".toList "'\n(a\u2028\tb)".toList ∧
      termTokens (readTermsOfText "' (a b)") = .ok [["'", "(", "a", "b", ")"]] ∧
      termTokens (readTermsOfText "'\n(a\u2028\tb)") = termTokens (readTermsOfText "' (a b)") ∧
      termTokens (readTerms (decodeSource "'\n(a\u2028\tb)".toUTF8.toList).lines) =
        termTokens (readTermsOfText "' (a b)") := by
  have hback : Respaced [' ', 'b', ')'] ['\u2028', '\t', 'b', ')'] :=
    @Respaced.blanks [' '] ['\u2028', '\t'] _ _ (List.cons_ne_nil _ _) (List.cons_ne_nil _ _)
      (forall_mem_of_all (by decide)) (forall_mem_of_all (by decide)) (.same 'b' (.same ')' .nil))
  have hrespaced : Respaced "' (a b)".toList "'\n(a\u2028\tb)".toList :=
    .same '\x27' (@Respaced.blanks [' '] ['\n'] _ _ (List.cons_ne_nil _ _) (List.cons_ne_nil _ _)
      (forall_mem_of_all (by decide)) (forall_mem_of_all (by decide))
      (.same '(' (.same 'a' hback)))
  obtain ⟨hsame, hlayout⟩ := terms_ignore_layout
  obtain ⟨hstring, hfile⟩ := hlayout "' (a b)" "'\n(a\u2028\tb)" hrespaced
  exact ⟨hrespaced, rfl, hstring, hfile.trans (hsame "' (a b)").2⟩

end SetLisp
