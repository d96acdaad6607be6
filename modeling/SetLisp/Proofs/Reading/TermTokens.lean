import Mathlib.Data.List.TakeWhile
import SetLisp.Proofs.Reading.Splitting

namespace SetLisp

namespace Token

def texts (chars : List Char) : List String :=
  (scan chars).map String.ofList

theorem texts_nil : texts [] = [] := rfl

theorem texts_append_of_settled {first : List Char} (hfirst : Settled first)
    (second : List Char) : texts (first ++ second) = texts first ++ texts second := by
  simp [texts, scan_append_of_settled hfirst]

theorem texts_concat_blank {c : Char} (hc : Text.isBlank c = true) (chars : List Char) :
    texts (chars ++ [c]) = texts chars := by
  have hblank : scan (chars ++ [c]) = scan chars :=
    scan_append_blanks (by simpa using hc) chars
  simp [texts, hblank]

theorem texts_plain {word : List Char} (hword : Plain word) (hne : word ≠ []) {text : List Char}
    (htext : Delimits text) : texts (word ++ text) = String.ofList word :: texts text := by
  simp [texts, scan_plain hword htext hne]

theorem texts_word {word : List Char} (hword : Plain word) (hne : word ≠ []) :
    texts word = [String.ofList word] := by
  simpa [texts_nil] using texts_plain hword hne delimits_nil

theorem mem_texts {chars : List Char} {token : String} (htoken : token ∈ texts chars) :
    token ∈ bracketTokens ∨ IsWord token := by
  have hmem := @mem_tokenize (String.ofList chars) token
  rw [tokenize, String.toList_ofList] at hmem
  exact hmem htoken

end Token

open Token

theorem tokenize_eq_texts (text : String) : tokenize text = texts text.toList := rfl

theorem tokenize_ofList (chars : List Char) : tokenize (String.ofList chars) = texts chars := by
  rw [tokenize_eq_texts, String.toList_ofList]

namespace TermReader

/-- What a line loses is blank. -/
theorem exists_breaks (line : List Char) :
    ∃ breaks, (∀ c ∈ breaks, Text.isBlank c = true) ∧ withoutBreak line ++ breaks = line := by
  refine ⟨(line.reverse.takeWhile Text.isFileBreak).reverse, fun c hc => ?_, ?_⟩
  · exact isBlank_of_isFileBreak (List.mem_takeWhile_imp (List.mem_reverse.mp hc))
  · rw [withoutBreak, ← List.reverse_append, List.takeWhile_append_dropWhile, List.reverse_reverse]

theorem scan_withoutBreak (line : List Char) : scan (withoutBreak line) = scan line := by
  obtain ⟨breaks, hbreaks, hline⟩ := exists_breaks line
  calc scan (withoutBreak line)
      = scan (withoutBreak line ++ breaks) := (scan_append_blanks hbreaks _).symm
    _ = scan line := by rw [hline]

theorem scan_charsOf_cons (line : List Char) (rest : List (List Char)) :
    scan (charsOf (line :: rest)) = scan line ++ scan (charsOf rest) := by
  rw [charsOf_cons, scan_append_blank (by decide), scan_withoutBreak]

/-- The lines of a text have its tokens, if what ends a line is blank. -/
theorem scan_charsOf_linesOf {isBreak : Char → Bool}
    (hbreak : ∀ c, isBreak c = true → Text.isBlank c = true) (text : List Char) :
    scan (charsOf (Text.linesOf isBreak text)) = scan text := by
  suffices hcut : ∀ line, scan (charsOf (Text.cutLines isBreak line text)) =
      scan (line.reverse ++ text) from hcut []
  intro line
  fun_induction Text.cutLines isBreak line text with
  | case1 line hempty =>
      rw [List.isEmpty_iff.mp hempty]
      rfl
  | case2 line hempty =>
      rw [scan_charsOf_cons, List.append_nil]
      exact List.append_nil _
  | case3 line rest ih =>
      rw [scan_charsOf_cons, ih, scan_append_blank (by decide), scan_blank (by decide)]
      rfl
  | case4 line c rest hpair hc ih =>
      rw [scan_charsOf_cons, ih, scan_append_blank (hbreak c hc)]
      rfl
  | case5 line c rest hpair hc ih =>
      rw [ih, List.reverse_cons, List.append_assoc]
      rfl

theorem texts_charsOf_linesOf {isBreak : Char → Bool}
    (hbreak : ∀ c, isBreak c = true → Text.isBlank c = true) (text : String) :
    texts (charsOf (Text.linesOf isBreak text.toList)) = tokenize text := by
  rw [texts, scan_charsOf_linesOf hbreak]
  rfl

end TermReader

/-- Somewhere in the tokens a quote stands in front of a token that is no bracket. -/
def HasLooseQuote (tokens : List String) : Prop :=
  ∃ before token after, tokens = before ++ "'" :: token :: after ∧ token ∉ bracketTokens

theorem HasLooseQuote.append_right {tokens : List String} (h : HasLooseQuote tokens)
    (more : List String) : HasLooseQuote (tokens ++ more) := by
  obtain ⟨before, token, after, rfl, htoken⟩ := h
  exact ⟨before, token, after ++ more, by simp, htoken⟩

theorem HasLooseQuote.append_left {tokens : List String} (h : HasLooseQuote tokens)
    (front : List String) : HasLooseQuote (front ++ tokens) := by
  obtain ⟨before, token, after, rfl, htoken⟩ := h
  exact ⟨front ++ before, token, after, by simp, htoken⟩

theorem not_mem_bracketTokens {word : List Char} (hword : Plain word) (hne : word ≠ []) :
    String.ofList word ∉ bracketTokens := by
  intro hmem
  have hbracket : ∀ token ∈ bracketTokens, (token.toList.all isBracket) = true := by
    simp only [bracketTokens, List.forall_mem_cons]
    exact ⟨rfl, rfl, rfl, rfl, nofun⟩
  obtain ⟨c, rest, rfl⟩ := List.exists_cons_of_ne_nil hne
  have hc := List.all_eq_true.mp (hbracket _ hmem) c (by simp)
  rw [(hword c List.mem_cons_self).1] at hc
  cases hc

/-- A quote, the blanks behind which are lost, is loose in front of a word. -/
theorem hasLooseQuote_of_blanks {blanks word text : List Char} (hne : blanks ≠ [])
    (hblanks : ∀ c ∈ blanks, Text.isBlank c = true) (hword : Plain word) (hword' : word ≠ [])
    (htext : Delimits text) : HasLooseQuote (texts ('\x27' :: blanks ++ (word ++ text))) := by
  obtain ⟨c, rest, rfl⟩ := List.exists_cons_of_ne_nil hne
  have hdelimits : Delimits ((c :: rest) ++ (word ++ text)) :=
    delimits_of_isBlank (hblanks c List.mem_cons_self) _
  refine ⟨[], String.ofList word, texts text, ?_, not_mem_bracketTokens hword hword'⟩
  calc texts ('\x27' :: (c :: rest) ++ (word ++ text))
      = "'" :: texts ((c :: rest) ++ (word ++ text)) :=
        texts_plain plain_quote (by simp) hdelimits
    _ = "'" :: texts (word ++ text) := by rw [texts, scan_blanks hblanks, ← texts]
    _ = "'" :: String.ofList word :: texts text := by rw [texts_plain hword hword' htext]

theorem delimits_formChars (opener closer : Bracket) (inner : List Char) :
    Delimits (formChars opener inner closer) :=
  delimits_of_isBracket (isBracket_opener opener) _

/-- A term has the tokens it was made of, unless a quote in front of it was loose. -/
theorem Lead.texts_eq {written lead : List Char} (h : Lead written lead) {word text : List Char}
    (hword : Plain word) (htext : Delimits text) (hne : word ≠ [] ∨ text ≠ []) :
    texts (written ++ (word ++ text)) = texts (lead ++ (word ++ text)) ∨
      HasLooseQuote (texts (written ++ (word ++ text))) := by
  cases h with
  | none => exact .inl rfl
  | @quote blanks hblanksNe hblanks =>
      by_cases hwordNe : word = []
      · left
        subst hwordNe
        obtain ⟨c, rest, rfl⟩ := List.exists_cons_of_ne_nil hblanksNe
        have hdelimits : Delimits ((c :: rest) ++ text) :=
          delimits_of_isBlank (hblanks c List.mem_cons_self) _
        calc texts ('\x27' :: (c :: rest) ++ ([] ++ text))
            = "'" :: texts ((c :: rest) ++ text) := texts_plain plain_quote (by simp) hdelimits
          _ = "'" :: texts text := by rw [texts, scan_blanks hblanks, ← texts]
          _ = texts (['\x27'] ++ ([] ++ text)) := (texts_plain plain_quote (by simp) htext).symm
      · exact .inr (hasLooseQuote_of_blanks hblanksNe hblanks hword hwordNe htext)

theorem FallsInto.settled {source : List Char} {terms : List String}
    (h : FallsInto source terms) : Settled source := by
  cases h with
  | nil => exact settled_nil
  | blank _ hc => exact settled_concat_blank hc _
  | @word source written _ word _ c _ _ _ _ _ hc =>
      have hlast := settled_concat_blank hc (source ++ (written ++ word))
      simpa using hlast
  | @form source written _ word inner _ _ _ _ opener closer _ =>
      have hlast := settled_concat_bracket (isBracket_closer closer)
        (source ++ (written ++ (word ++ opener.opener :: inner)))
      simpa [formChars] using hlast

/-- The terms have the tokens of the source, if it has no loose quote. -/
theorem FallsInto.flatMap_tokenize {source : List Char} {terms : List String}
    (h : FallsInto source terms) :
    terms.reverse.flatMap tokenize = texts source ∨ HasLooseQuote (texts source) := by
  induction h with
  | nil => exact .inl rfl
  | blank _ hc ih => rwa [texts_concat_blank hc]
  | @word source written lead word terms c hsource hlead hword hne hquote hc ih =>
      have hlast : texts (source ++ (written ++ (word ++ [c]))) =
          texts source ++ texts (written ++ (word ++ [])) := by
        rw [texts_append_of_settled hsource.settled, List.append_nil, ← List.append_assoc,
          texts_concat_blank hc]
      rw [hlast]
      rcases ih with hterms | hloose
      · rcases hlead.texts_eq hword delimits_nil (.inl hne) with hsame | hloose
        · left
          rw [hsame, List.append_nil, ← hterms, List.reverse_cons, List.flatMap_append,
            List.flatMap_singleton, tokenize_ofList]
        · exact .inr (hloose.append_left _)
      · exact .inr (hloose.append_right _)
  | @form source written lead word inner terms hsource hlead hword opener closer hinner ih =>
      rw [texts_append_of_settled hsource.settled]
      rcases ih with hterms | hloose
      · rcases hlead.texts_eq hword (delimits_formChars opener closer inner)
          (.inr (by simp [formChars])) with hsame | hloose
        · left
          rw [hsame, ← hterms, List.reverse_cons, List.flatMap_append, List.flatMap_singleton,
            tokenize_ofList]
        · exact .inr (hloose.append_left _)
      · exact .inr (hloose.append_right _)

open TermReader

/-- The terms of a text without loose quotes have its tokens. -/
theorem flatMap_tokenize_of_readTerms {isBreak : Char → Bool}
    (hbreak : ∀ c, isBreak c = true → Text.isBlank c = true) {text : String}
    {terms : List String} (h : readTerms (Text.linesOf isBreak text.toList) = .ok terms)
    (hloose : ¬ HasLooseQuote (tokenize text)) : terms.flatMap tokenize = tokenize text := by
  rw [← texts_charsOf_linesOf hbreak] at hloose ⊢
  generalize hlines : Text.linesOf isBreak text.toList = lines at h hloose ⊢
  rcases fallsInto_of_readTerms h with hfalls |
    ⟨source, blanks, front, hchars, hblanks, hfalls, hterms⟩
  · have htokens := hfalls.flatMap_tokenize
    rw [texts_concat_blank (by decide), List.reverse_reverse] at htokens
    exact htokens.resolve_right hloose
  · have hsplit : texts (charsOf lines) = texts source ++ ["'"] := by
      rw [hchars, texts_append_of_settled hfalls.settled]
      have hquote : texts ('\x27' :: blanks) = ["'"] := by
        have hscan : scan (['\x27'] ++ blanks) = scan ['\x27'] := scan_append_blanks hblanks _
        rw [texts, ← List.singleton_append, hscan, ← texts]
        exact texts_word plain_quote (by simp)
      rw [hquote]
    rw [hsplit] at hloose ⊢
    have htokens := hfalls.flatMap_tokenize.resolve_right fun h => hloose (h.append_right _)
    have hall : terms = front.reverse ++ ["'"] := by
      rw [← List.reverse_reverse terms, hterms, List.reverse_cons]
    have hquote : tokenize "'" = ["'"] := by decide
    rw [hall, List.flatMap_append, htokens, List.flatMap_singleton, hquote]

/-- A word other than a lone quote, or a form with a word directly in front of it, which may be
empty. -/
inductive IsTerm : List Char → Prop
  | word {word : List Char} (hword : Plain word) (hne : word ≠ []) (hquote : word ≠ ['\x27']) :
      IsTerm word
  | form {word inner : List Char} (hword : Plain word) (opener closer : Bracket)
      (hinner : openedAfter [] inner = some []) : IsTerm (word ++ formChars opener inner closer)

theorem FallsInto.isTerm {source : List Char} {terms : List String} (h : FallsInto source terms) :
    ∀ term ∈ terms, IsTerm term.toList := by
  induction h with
  | nil => simp
  | blank _ _ ih => exact ih
  | word _ hlead hword hne hquote _ ih =>
      rintro term (_ | ⟨_, hterm⟩)
      · rw [String.toList_ofList]
        exact .word (plain_append.mpr ⟨hlead.plain, hword⟩) (by simp [hne]) hquote
      · exact ih term hterm
  | @form _ _ lead word inner _ _ hlead hword opener closer hinner ih =>
      rintro term (_ | ⟨_, hterm⟩)
      · rw [String.toList_ofList, ← List.append_assoc]
        exact .form (plain_append.mpr ⟨hlead.plain, hword⟩) opener closer hinner
      · exact ih term hterm

theorem openedAfter_formChars {inner : List Char} (hinner : openedAfter [] inner = some [])
    (opener closer : Bracket) : openedAfter [] (formChars opener inner closer) = some [] := by
  have hinside : openedAfter [opener] inner = some [opener] :=
    openedAfter_append_opened hinner [opener]
  rw [formChars, openedAfter_cons, openedBy_opener, Option.bind_some,
    openedAfter_concat hinside, openedBy_closer]
  rfl

theorem IsTerm.openedAfter {chars : List Char} (h : IsTerm chars) :
    openedAfter [] chars = some [] := by
  cases h with
  | word hword => exact hword.openedAfter []
  | form hword opener closer hinner =>
      rw [openedAfter_append, hword.openedAfter, Option.bind_some]
      exact openedAfter_formChars hinner opener closer

/-- No term ends with a lone quote. -/
theorem IsTerm.getLast?_texts {chars : List Char} (h : IsTerm chars) :
    (texts chars).getLast? ≠ some "'" := by
  cases h with
  | word hword hne hquote =>
      rw [texts_word hword hne, List.getLast?_singleton]
      intro hlast
      have heq := congrArg String.toList (Option.some.inj hlast)
      rw [String.toList_ofList] at heq
      exact hquote heq
  | @form word inner hword opener closer hinner =>
      have hlast : texts (word ++ formChars opener inner closer) =
          texts (word ++ opener.opener :: inner) ++ [String.ofList [closer.closer]] := by
        have hbracket := scan_append_bracket (isBracket_closer closer)
          (word ++ opener.opener :: inner) []
        rw [formChars, ← List.cons_append, ← List.append_assoc, texts, hbracket]
        simp [texts, scan, scanFrom, ofRun]
      rw [hlast, List.getLast?_concat]
      cases closer <;> decide

end SetLisp
