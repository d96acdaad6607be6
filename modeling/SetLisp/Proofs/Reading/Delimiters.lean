import SetLisp.Proofs.Reading.Printing

namespace SetLisp

theorem isBracket_of_isBlank {c : Char} (hc : Text.isBlank c = true) : isBracket c = false := by
  by_contra hbracket
  rw [Bool.not_eq_false] at hbracket
  simp only [isBracket, Bool.or_eq_true, beq_iff_eq] at hbracket
  rcases hbracket with ((rfl | rfl) | rfl) | rfl <;> revert hc <;> decide

/-- Characters that end no token and are none. -/
def Plain (word : List Char) : Prop :=
  ∀ c ∈ word, isBracket c = false ∧ Text.isBlank c = false

theorem plain_nil : Plain [] := by
  simp [Plain]

theorem plain_append {first second : List Char} :
    Plain (first ++ second) ↔ Plain first ∧ Plain second :=
  List.forall_mem_append

theorem plain_quote : Plain ['\x27'] := by
  intro c hc
  rw [List.mem_singleton.mp hc]
  decide

namespace Token

theorem delimits_nil : Delimits [] := by
  simp [Delimits]

theorem delimits_of_isBlank {c : Char} (hc : Text.isBlank c = true) (text : List Char) :
    Delimits (c :: text) := by
  intro d hd
  cases hd
  exact .inr hc

theorem delimits_of_isBracket {c : Char} (hc : isBracket c = true) (text : List Char) :
    Delimits (c :: text) := by
  intro d hd
  cases hd
  exact .inl hc

theorem scanFrom_append_of_delimits {second : List Char} (hsecond : Delimits second)
    (run first : List Char) :
    scanFrom run (first ++ second) = scanFrom run first ++ scan second := by
  induction first generalizing run with
  | nil => exact scanFrom_of_delimits hsecond run
  | cons c rest ih =>
      rw [List.cons_append, scanFrom, scanFrom]
      split
      · rw [ih, List.append_assoc, List.cons_append]
      · split
        · rw [ih, List.append_assoc]
        · exact ih (c :: run)

/-- A text is cut where a bracket or a blank begins. -/
theorem scan_append_of_delimits {second : List Char} (hsecond : Delimits second)
    (first : List Char) : scan (first ++ second) = scan first ++ scan second :=
  scanFrom_append_of_delimits hsecond [] first

theorem scan_blank {c : Char} (hc : Text.isBlank c = true) (text : List Char) :
    scan (c :: text) = scan text := by
  rw [scan, scanFrom, isBracket_of_isBlank hc, if_neg Bool.false_ne_true, if_pos hc]
  rfl

theorem scan_blanks {blanks : List Char} (hblanks : ∀ c ∈ blanks, Text.isBlank c = true)
    (text : List Char) : scan (blanks ++ text) = scan text := by
  induction blanks with
  | nil => rfl
  | cons c rest ih =>
      rw [List.cons_append, scan_blank (hblanks c List.mem_cons_self)]
      exact ih fun d hd => hblanks d (List.mem_cons_of_mem c hd)

/-- A blank separates what stands before it from what stands behind it. -/
theorem scan_append_blank {c : Char} (hc : Text.isBlank c = true) (first second : List Char) :
    scan (first ++ c :: second) = scan first ++ scan second := by
  rw [scan_append_of_delimits (delimits_of_isBlank hc second), scan_blank hc]

theorem scan_append_bracket {c : Char} (hc : isBracket c = true) (first second : List Char) :
    scan (first ++ c :: second) = scan first ++ [c] :: scan second := by
  rw [scan_append_of_delimits (delimits_of_isBracket hc second), scan_bracket hc]

theorem scan_append_blanks {blanks : List Char} (hblanks : ∀ c ∈ blanks, Text.isBlank c = true)
    (first : List Char) : scan (first ++ blanks) = scan first := by
  cases blanks with
  | nil => rw [List.append_nil]
  | cons c rest =>
      have hrest := scan_blanks (fun d hd => hblanks d (List.mem_cons_of_mem c hd)) []
      rw [scan_append_blank (hblanks c List.mem_cons_self), ← List.append_nil rest, hrest]
      exact List.append_nil _

theorem scan_plain {word : List Char} (hword : Plain word) {text : List Char}
    (htext : Delimits text) (hne : word ≠ []) : scan (word ++ text) = word :: scan text := by
  have hisWord : IsWord (String.ofList word) := by
    rw [IsWord, String.toList_ofList]
    exact ⟨hne, hword⟩
  have hscan := scan_word hisWord htext
  rwa [String.toList_ofList] at hscan

/-- The text is empty or ends with a bracket or a blank. -/
def Settled (text : List Char) : Prop :=
  Delimits text.reverse

theorem settled_nil : Settled [] :=
  delimits_nil

theorem settled_concat_blank {c : Char} (hc : Text.isBlank c = true) (text : List Char) :
    Settled (text ++ [c]) := by
  rw [Settled, List.reverse_append]
  exact delimits_of_isBlank hc text.reverse

theorem settled_concat_bracket {c : Char} (hc : isBracket c = true) (text : List Char) :
    Settled (text ++ [c]) := by
  rw [Settled, List.reverse_append]
  exact delimits_of_isBracket hc text.reverse

theorem scan_append_of_settled {first : List Char} (hfirst : Settled first)
    (second : List Char) : scan (first ++ second) = scan first ++ scan second := by
  rcases List.eq_nil_or_concat first with rfl | ⟨front, c, rfl⟩
  · rfl
  · rw [List.concat_eq_append] at hfirst ⊢
    rw [List.append_assoc, List.singleton_append]
    rcases hfirst c (by simp) with hbracket | hblank
    · rw [scan_append_bracket hbracket, scan_append_bracket hbracket, List.append_assoc]
      rfl
    · rw [scan_append_blank hblank, scan_append_blank hblank, List.append_assoc]
      rfl

end Token

end SetLisp
