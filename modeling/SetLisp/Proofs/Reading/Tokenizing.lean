import SetLisp.Proofs.Reading.Delimiters

namespace SetLisp

namespace Text

/-- The pieces between the blanks, less the empty ones. -/
def words (chars : List Char) : List (List Char) :=
  (chars.splitOnP isBlank).filter (!·.isEmpty)

theorem words_append_blank {c : Char} (hc : isBlank c = true) (first second : List Char) :
    words (first ++ c :: second) = words first ++ words second := by
  rw [words, List.splitOnP_append_cons first second hc, List.filter_append]
  rfl

/-- A run without blanks is one piece, or none if it is empty. -/
theorem words_reverse {run : List Char} (hrun : ∀ c ∈ run, isBlank c = false) :
    words run.reverse = Token.ofRun run := by
  rw [words, List.splitOnP_eq_singleton fun c hc => hrun c (List.mem_reverse.mp hc)]
  cases run with
  | nil => rfl
  | cons c rest => simp [Token.ofRun]

end Text

namespace Token

/-- The text with a space on either side of each bracket. -/
def spacedOut (text : List Char) : List Char :=
  text.flatMap fun c => if isBracket c then [' ', c, ' '] else [c]

theorem spacedOut_cons_bracket {c : Char} (hc : isBracket c = true) (rest : List Char) :
    spacedOut (c :: rest) = ' ' :: c :: ' ' :: spacedOut rest := by
  rw [spacedOut, List.flatMap_cons, if_pos hc]
  rfl

theorem spacedOut_cons {c : Char} (hc : ¬ isBracket c = true) (rest : List Char) :
    spacedOut (c :: rest) = c :: spacedOut rest := by
  rw [spacedOut, List.flatMap_cons, if_neg hc]
  rfl

theorem isBlank_of_isBracket {c : Char} (hc : isBracket c = true) : Text.isBlank c = false := by
  refine eq_false_of_ne_true fun hblank => ?_
  rw [isBracket_of_isBlank hblank] at hc
  cases hc

/-- The open run of the scanner stands in front of what is still to be cut. -/
theorem scanFrom_eq_words {run : List Char} (hrun : ∀ c ∈ run, Text.isBlank c = false)
    (text : List Char) : scanFrom run text = Text.words (run.reverse ++ spacedOut text) := by
  have hspace : Text.isBlank ' ' = true := by decide
  induction text generalizing run with
  | nil => rw [spacedOut, List.flatMap_nil, List.append_nil, Text.words_reverse hrun, scanFrom]
  | cons c rest ih =>
      have hbehind : scanFrom [] rest = Text.words (spacedOut rest) := ih (List.forall_mem_nil _)
      rw [scanFrom]
      split
      · next hbracket =>
          have hpiece : Text.words [c] = [[c]] :=
            Text.words_reverse (List.forall_mem_singleton.mpr (isBlank_of_isBracket hbracket))
          have hcut := Text.words_append_blank hspace [c] (spacedOut rest)
          rw [List.singleton_append, hpiece] at hcut
          rw [spacedOut_cons_bracket hbracket, Text.words_append_blank hspace,
            Text.words_reverse hrun, hcut, hbehind]
          rfl
      · next hbracket =>
          rw [spacedOut_cons hbracket]
          split
          · next hblank =>
              rw [Text.words_append_blank hblank, Text.words_reverse hrun, hbehind]
          · next hblank =>
              rw [ih (List.forall_mem_cons.mpr ⟨eq_false_of_ne_true hblank, hrun⟩),
                List.reverse_cons, List.append_assoc]
              rfl

end Token

open Token

theorem tokenize_eq_words (text : String) :
    tokenize text = (Text.words (spacedOut text.toList)).map String.ofList := by
  rw [tokenize, scan, scanFrom_eq_words (List.forall_mem_nil _), List.reverse_nil,
    List.nil_append]

theorem tokenize_append_blank {c : Char} (hc : Text.isBlank c = true) (first second : String) :
    tokenize (first ++ String.singleton c ++ second) = tokenize first ++ tokenize second := by
  have hscan := scan_append_blank hc first.toList second.toList
  simp only [tokenize, String.toList_append, String.toList_singleton, List.append_assoc,
    List.singleton_append, hscan, List.map_append]

theorem tokenize_append_bracket {c : Char} (hc : isBracket c = true) (first second : String) :
    tokenize (first ++ String.singleton c ++ second) =
      tokenize first ++ String.singleton c :: tokenize second := by
  have hscan := scan_append_bracket hc first.toList second.toList
  simp only [tokenize, String.toList_append, String.toList_singleton, List.append_assoc,
    List.singleton_append, hscan, List.map_append, List.map_cons]
  rfl

theorem tokenize_word {word : String} (hword : IsWord word) : tokenize word = [word] := by
  have hscan := scan_word hword delimits_nil
  rw [List.append_nil] at hscan
  rw [tokenize, hscan, List.map_cons, String.ofList_toList]
  rfl

/-- A bracket, or characters that are neither blank nor brackets. -/
def IsToken (token : String) : Prop :=
  token ≠ "" ∧ (∀ c ∈ token.toList, Text.isBlank c = false) ∧
    ((∃ c, isBracket c = true ∧ token = String.singleton c) ∨
      ∀ c ∈ token.toList, isBracket c = false)

theorem isToken_bracket {c : Char} (hc : isBracket c = true) : IsToken (String.singleton c) := by
  refine ⟨fun hempty => ?_, fun d hd => ?_, .inl ⟨c, hc, rfl⟩⟩
  · have hchars := congrArg String.toList hempty
    rw [String.toList_singleton] at hchars
    cases hchars
  · rw [String.toList_singleton, List.mem_singleton] at hd
    rw [hd]
    exact isBlank_of_isBracket hc

theorem isToken_of_mem_tokenize {text token : String} (htoken : token ∈ tokenize text) :
    IsToken token := by
  rcases mem_tokenize htoken with hbracket | ⟨hne, hchars⟩
  · simp only [bracketTokens, List.mem_cons, List.not_mem_nil, or_false] at hbracket
    rcases hbracket with rfl | rfl | rfl | rfl
    · exact isToken_bracket (c := '(') (by decide)
    · exact isToken_bracket (c := ')') (by decide)
    · exact isToken_bracket (c := '\x7b') (by decide)
    · exact isToken_bracket (c := '\x7d') (by decide)
  · refine ⟨?_, fun c hc => (hchars c hc).2, .inr fun c hc => (hchars c hc).1⟩
    rintro rfl
    exact hne rfl

theorem tokenize_of_isToken {token : String} (h : IsToken token) : tokenize token = [token] := by
  obtain ⟨hne, hblank, ⟨c, hc, rfl⟩ | hbracket⟩ := h
  · have hsplit := tokenize_append_bracket hc "" ""
    rwa [String.empty_append, String.append_empty] at hsplit
  · refine tokenize_word ⟨fun hnil => hne ?_, fun c hc => ⟨hbracket c hc, hblank c hc⟩⟩
    rw [← String.ofList_toList (s := token), hnil]

/-- One space between any two tokens keeps them apart. -/
theorem tokenize_intercalate {tokens : List String} (htokens : ∀ token ∈ tokens, IsToken token) :
    tokenize (" ".intercalate tokens) = tokens := by
  induction tokens with
  | nil => rfl
  | cons token rest ih =>
      obtain ⟨htoken, hrest⟩ := List.forall_mem_cons.mp htokens
      cases rest with
      | nil => rw [String.intercalate_singleton, tokenize_of_isToken htoken]
      | cons next more =>
          have hspace : Text.isBlank ' ' = true := by decide
          rw [String.intercalate_cons_cons, show " " = String.singleton ' ' from rfl,
            tokenize_append_blank hspace, tokenize_of_isToken htoken, List.singleton_append]
          exact congrArg (token :: ·) (ih hrest)

/-- **The law of tokens.** A text has the tokens that cutting it at its blanks gives once a space is
put on either side of each bracket. A blank falls between the tokens of what stands before it and of
what stands behind, a bracket is a token between them, and a word is its own token. The lists of
tokens are just the lists of words and brackets, each of which is the tokens of its own joined text;
so joining the tokens of a text leaves them as they are. -/
theorem texts_fall_into_tokens :
    (∀ text, tokenize text = (Text.words (spacedOut text.toList)).map String.ofList) ∧
    (∀ first second c, Text.isBlank c = true →
      tokenize (first ++ String.singleton c ++ second) = tokenize first ++ tokenize second) ∧
    (∀ first second c, isBracket c = true →
      tokenize (first ++ String.singleton c ++ second) =
        tokenize first ++ String.singleton c :: tokenize second) ∧
    (∀ word, word ≠ "" → (∀ c ∈ word.toList, isBracket c = false ∧ Text.isBlank c = false) →
      tokenize word = [word]) ∧
    (∀ tokens, (∃ text, tokenize text = tokens) ↔ ∀ token ∈ tokens, IsToken token) ∧
    (∀ tokens, (∀ token ∈ tokens, IsToken token) → tokenize (" ".intercalate tokens) = tokens) ∧
    ∀ text, tokenize (" ".intercalate (tokenize text)) = tokenize text := by
  refine ⟨tokenize_eq_words, fun first second c hc => tokenize_append_blank hc first second,
    fun first second c hc => tokenize_append_bracket hc first second, ?_, ?_,
    fun tokens => tokenize_intercalate,
    fun text => tokenize_intercalate fun token => isToken_of_mem_tokenize⟩
  · intro word hne hchars
    exact tokenize_of_isToken
      ⟨hne, fun c hc => (hchars c hc).2, .inr fun c hc => (hchars c hc).1⟩
  · intro tokens
    constructor
    · rintro ⟨text, rfl⟩ token
      exact isToken_of_mem_tokenize
    · intro htokens
      exact ⟨" ".intercalate tokens, tokenize_intercalate htokens⟩

/-- A quote touches a bracket on one side and an atom on the other, an em space stands between two
words, and the joined text reads the same. -/
theorem texts_fall_into_tokens_touching :
    tokenize "it'(" = ["it'", "("] ∧ tokenize "a\u2003b" = ["a", "b"] ∧ tokenize "it'" = ["it'"] ∧
      (∀ token ∈ ["it'", "("], IsToken token) ∧ tokenize "it' (" = ["it'", "("] := by
  obtain ⟨-, hblank, hbracket, hword, himage, hjoined, -⟩ := texts_fall_into_tokens
  have hit : tokenize "it'" = ["it'"] := hword "it'" (by decide) (forall_mem_of_all (by decide))
  have htouching : tokenize "it'(" = ["it'", "("] :=
    (hbracket "it'" "" '(' (by decide)).trans (by rw [hit]; rfl)
  have htokens := (himage _).mp ⟨_, htouching⟩
  exact ⟨htouching, (hblank "a" "b" '\u2003' (by decide)).trans rfl, hit, htokens,
    hjoined _ htokens⟩

end SetLisp
