import SetLisp.Proofs.Reading.TermTokens

/-!
# Readers that look alike

Two readers look alike when they have the same brackets open, the same tokens in their terms, and
open terms that scan alike whatever comes next. They stay alike while one reads a gap where the
other reads a gap, as blanks in a row are read like a single one.
-/

namespace SetLisp

open Token

namespace Token

theorem scanFrom_eq_nil_iff {run text : List Char} :
    scanFrom run text = [] ↔ run = [] ∧ ∀ c ∈ text, Text.isBlank c = true := by
  induction text generalizing run with
  | nil =>
      rw [scanFrom, ofRun]
      cases run <;> simp
  | cons c rest ih =>
      rw [scanFrom, List.forall_mem_cons]
      by_cases hbracket : isBracket c = true
      · have hblank : ¬ Text.isBlank c = true := fun hc => by
          rw [isBracket_of_isBlank hc] at hbracket
          cases hbracket
        simp [hbracket, hblank]
      · rw [if_neg hbracket]
        by_cases hblank : Text.isBlank c = true
        · rw [if_pos hblank, List.append_eq_nil_iff, ← scan, scan, ih, ofRun]
          cases run <;> simp [hblank]
        · rw [if_neg hblank, ih]
          simp [hblank]

theorem scan_eq_nil_iff {text : List Char} :
    scan text = [] ↔ ∀ c ∈ text, Text.isBlank c = true := by
  rw [scan, scanFrom_eq_nil_iff]
  simp

theorem scan_trimmed (text : List Char) : scan (Text.trimmed text) = scan text := by
  have hblank {c : Char} {chars : List Char} (hc : c ∈ chars.takeWhile Text.isBlank) :
      Text.isBlank c = true := List.mem_takeWhile_imp hc
  let rest := text.dropWhile Text.isBlank
  have hsplit : Text.trimmed text ++ (rest.reverse.takeWhile Text.isBlank).reverse = rest := by
    rw [Text.trimmed, ← List.reverse_append, List.takeWhile_append_dropWhile, List.reverse_reverse]
  calc scan (Text.trimmed text)
      = scan (Text.trimmed text ++ (rest.reverse.takeWhile Text.isBlank).reverse) :=
        (scan_append_blanks (fun c hc => hblank (List.mem_reverse.mp hc)) _).symm
    _ = scan rest := by rw [hsplit]
    _ = scan (text.takeWhile Text.isBlank ++ rest) := (scan_blanks (fun c hc => hblank hc) _).symm
    _ = scan text := by rw [List.takeWhile_append_dropWhile]

theorem trimmed_eq_nil_iff {text : List Char} : Text.trimmed text = [] ↔ scan text = [] := by
  constructor
  · intro h
    rw [← scan_trimmed, h]
    rfl
  · intro h
    have hnone : text.dropWhile Text.isBlank = [] :=
      List.dropWhile_eq_nil_iff.mpr (scan_eq_nil_iff.mp h)
    rw [Text.trimmed, hnone]
    rfl

end Token

namespace TermReader

/-- What the readers have read comes to the same tokens and brackets, and it makes no difference
which of them reads on. -/
structure Alike (first second : TermReader) : Prop where
  terms_eq : second.terms.map tokenize = first.terms.map tokenize
  opened_eq : second.opened = first.opened
  term_eq : first.opened = [] → second.term = first.term
  scan_eq : ∀ more, scan (second.term.reverse ++ more) = scan (first.term.reverse ++ more)

/-- The same error, or readers that look alike. -/
inductive EndAlike : Except ReaderError TermReader → Except ReaderError TermReader → Prop
  | error (error : ReaderError) : EndAlike (.error error) (.error error)
  | ok {first second : TermReader} (h : first.Alike second) : EndAlike (.ok first) (.ok second)

variable {first second third : TermReader}

theorem Alike.refl (reader : TermReader) : reader.Alike reader :=
  ⟨rfl, rfl, fun _ => rfl, fun _ => rfl⟩

theorem Alike.symm (h : first.Alike second) : second.Alike first where
  terms_eq := h.terms_eq.symm
  opened_eq := h.opened_eq.symm
  term_eq := fun hopened => (h.term_eq (h.opened_eq.symm.trans hopened)).symm
  scan_eq := fun more => (h.scan_eq more).symm

theorem Alike.trans (h : first.Alike second) (h' : second.Alike third) : first.Alike third where
  terms_eq := h'.terms_eq.trans h.terms_eq
  opened_eq := h'.opened_eq.trans h.opened_eq
  term_eq := fun hopened => (h'.term_eq (h.opened_eq.trans hopened)).trans (h.term_eq hopened)
  scan_eq := fun more => (h'.scan_eq more).trans (h.scan_eq more)

theorem EndAlike.symm {result result' : Except ReaderError TermReader}
    (h : EndAlike result result') : EndAlike result' result := by
  cases h with
  | error error => exact .error error
  | ok h => exact .ok h.symm

theorem EndAlike.trans {result result' result'' : Except ReaderError TermReader}
    (h : EndAlike result result') (h' : EndAlike result' result'') : EndAlike result result'' := by
  cases h with
  | error error => exact h'
  | ok h =>
      cases h' with
      | ok h' => exact .ok (h.trans h')

theorem Alike.add (h : first.Alike second) (c : Char) : (first.add c).Alike (second.add c) where
  terms_eq := h.terms_eq
  opened_eq := h.opened_eq
  term_eq := fun hopened => congrArg (c :: ·) (h.term_eq hopened)
  scan_eq := fun more => by simpa [TermReader.add] using h.scan_eq (c :: more)

/-- Inside a form one blank is like another. -/
theorem Alike.add_blanks (h : first.Alike second) (hopened : first.opened ≠ []) {c d : Char}
    (hc : Text.isBlank c = true) (hd : Text.isBlank d = true) :
    (first.add c).Alike (second.add d) where
  terms_eq := h.terms_eq
  opened_eq := h.opened_eq
  term_eq := fun hnil => absurd hnil hopened
  scan_eq := fun more => by
    have hscan : scan second.term.reverse = scan first.term.reverse := by
      simpa using h.scan_eq []
    simp only [TermReader.add, List.reverse_cons, List.append_assoc, List.singleton_append]
    rw [scan_append_blank hc, scan_append_blank hd, hscan]

theorem Alike.withOpened (h : first.Alike second) {opened : List Bracket} (hopened : opened ≠ []) :
    Alike { first with opened := opened } { second with opened := opened } :=
  ⟨h.terms_eq, rfl, fun hnil => absurd hnil hopened, h.scan_eq⟩

theorem map_tokenize_flush (reader : TermReader) :
    reader.flush.terms.map tokenize =
      (if scan reader.term.reverse = [] then [] else [texts reader.term.reverse]) ++
        reader.terms.map tokenize := by
  unfold flush
  split
  · next hnil =>
      rw [if_pos (trimmed_eq_nil_iff.mp hnil), List.nil_append]
  · next hne =>
      have hscan : scan reader.term.reverse ≠ [] := fun hnil =>
        hne (trimmed_eq_nil_iff.mpr hnil)
      rw [if_neg hscan, List.map_cons, tokenize_ofList, texts, scan_trimmed, ← texts]
      rfl

/-- A term ends alike if it scans alike. -/
theorem alike_flush (hterms : second.terms.map tokenize = first.terms.map tokenize)
    (hopened : second.opened = first.opened)
    (hscan : scan second.term.reverse = scan first.term.reverse) :
    first.flush.Alike second.flush where
  terms_eq := by
    rw [map_tokenize_flush, map_tokenize_flush, hterms, texts, texts, hscan]
  opened_eq := by rw [opened_flush, opened_flush, hopened]
  term_eq := fun _ => by rw [term_flush, term_flush]
  scan_eq := fun more => by rw [term_flush, term_flush]

theorem Alike.flush (h : first.Alike second) : first.flush.Alike second.flush :=
  alike_flush h.terms_eq h.opened_eq (by simpa using h.scan_eq [])

theorem alike_flush_flush (reader : TermReader) : reader.flush.flush.Alike reader.flush where
  terms_eq := by
    rw [map_tokenize_flush reader.flush, term_flush]
    rfl
  opened_eq := (opened_flush reader.flush).symm
  term_eq := fun _ => by rw [term_flush, term_flush]
  scan_eq := fun more => by rw [term_flush, term_flush]

/-- Inside a form a blank is one more character. -/
theorem readChar_blank_inside {reader : TermReader} (hopened : reader.opened ≠ []) {c : Char}
    (hc : Text.isBlank c = true) : reader.readChar c = .ok (reader.add c) :=
  readChar_of_plain (isBracket_of_isBlank hc) fun hnil => absurd hnil hopened

theorem Alike.readChar_blanks (h : first.Alike second) {c d : Char} (hc : Text.isBlank c = true)
    (hd : Text.isBlank d = true) : EndAlike (first.readChar c) (second.readChar d) := by
  by_cases hopened : first.opened = []
  · have hpending : second.quotePending = first.quotePending := by
      rw [quotePending, quotePending, h.term_eq hopened]
    rw [readChar_blank hopened hc, readChar_blank (h.opened_eq.trans hopened) hd, hpending]
    apply EndAlike.ok
    split
    · exact h
    · exact h.flush
  · have hopened' : second.opened ≠ [] := by rwa [h.opened_eq]
    rw [readChar_blank_inside hopened hc, readChar_blank_inside hopened' hd]
    exact .ok (h.add_blanks hopened hc hd)

theorem Alike.readChar_closer (h : first.Alike second) (bracket : Bracket) :
    EndAlike (first.readChar bracket.closer) (second.readChar bracket.closer) := by
  have hadded := h.add bracket.closer
  rw [TermReader.readChar_closer, TermReader.readChar_closer, h.opened_eq]
  match first.opened with
  | [] => exact .error _
  | [_] =>
      -- what stands in the brackets may be spelled in two ways, so only the tokens are compared
      exact .ok (alike_flush hadded.terms_eq rfl (by simpa using hadded.scan_eq []))
  | _ :: inner :: outer => exact .ok (hadded.withOpened (List.cons_ne_nil inner outer))

/-- **One character.** Readers that look alike still do behind the same character. -/
theorem Alike.readChar (h : first.Alike second) (c : Char) :
    EndAlike (first.readChar c) (second.readChar c) := by
  by_cases hblank : Text.isBlank c = true
  · exact h.readChar_blanks hblank hblank
  · rcases bracket_cases c with ⟨bracket, rfl⟩ | ⟨bracket, rfl⟩ | hplain
    · rw [readChar_opener, readChar_opener, h.opened_eq]
      exact .ok ((h.add bracket.opener).withOpened (List.cons_ne_nil bracket first.opened))
    · exact h.readChar_closer bracket
    · have hword : Text.isBlank c = false := eq_false_of_ne_true hblank
      rw [readChar_of_plain hplain fun _ => hword, readChar_of_plain hplain fun _ => hword]
      exact .ok (h.add c)

/-- A blank is taken anywhere, and a blank behind it is not noticed. -/
theorem exists_readChar_blank (reader : TermReader) {c d : Char} (hc : Text.isBlank c = true)
    (hd : Text.isBlank d = true) :
    ∃ middle, reader.readChar c = .ok middle ∧ EndAlike (middle.readChar d) (.ok middle) := by
  by_cases hopened : reader.opened = []
  · refine ⟨_, readChar_blank hopened hc, ?_⟩
    by_cases hpending : reader.quotePending = true
    · rw [if_pos hpending, readChar_blank hopened hd, if_pos hpending]
      exact .ok (.refl reader)
    · have hflushed : reader.flush.quotePending = false := by
        rw [quotePending, term_flush]
        rfl
      rw [if_neg hpending, readChar_blank ((opened_flush reader).trans hopened) hd, hflushed,
        if_neg Bool.false_ne_true]
      exact .ok (alike_flush_flush reader)
  · refine ⟨reader.add c, readChar_blank_inside hopened hc, ?_⟩
    have hopened' : (reader.add c).opened ≠ [] := hopened
    have hscan (more : List Char) : scan (reader.term.reverse ++ c :: more) =
        scan (reader.term.reverse ++ c :: d :: more) := by
      rw [scan_append_blank hc, scan_append_blank hc, scan_blank hd]
    rw [readChar_blank_inside hopened' hd]
    exact .ok ⟨rfl, rfl, fun hnil => absurd hnil hopened, fun more => by
      simpa [TermReader.add] using hscan more⟩

theorem foldlM_single (reader : TermReader) (c : Char) :
    [c].foldlM readChar reader = reader.readChar c := by
  simp

/-- It makes no difference which of the sources a reader reads. -/
def ReadAlike (source other : List Char) : Prop :=
  ∀ first second : TermReader, first.Alike second →
    EndAlike (source.foldlM readChar first) (other.foldlM readChar second)

namespace ReadAlike

variable {source other another more more' : List Char}

theorem nil : ReadAlike [] [] :=
  fun _ _ halike => .ok halike

theorem symm (h : ReadAlike source other) : ReadAlike other source :=
  fun first second halike => (h second first halike.symm).symm

theorem trans (h : ReadAlike source other) (h' : ReadAlike other another) :
    ReadAlike source another :=
  fun first second halike => (h first second halike).trans (h' second second (.refl second))

theorem append (h : ReadAlike source other) (hmore : ReadAlike more more') :
    ReadAlike (source ++ more) (other ++ more') := by
  intro first second halike
  rw [List.foldlM_append, List.foldlM_append]
  have hfront := h first second halike
  generalize source.foldlM readChar first = result at hfront
  generalize other.foldlM readChar second = result' at hfront
  cases hfront with
  | error error => exact .error error
  | ok hmiddle => exact hmore _ _ hmiddle

theorem of_readChar {c d : Char}
    (h : ∀ first second : TermReader, first.Alike second →
      EndAlike (first.readChar c) (second.readChar d)) : ReadAlike [c] [d] := by
  intro first second halike
  simpa using h first second halike

theorem same (c : Char) : ReadAlike [c] [c] :=
  of_readChar fun _ _ halike => halike.readChar c

theorem blank {c d : Char} (hc : Text.isBlank c = true) (hd : Text.isBlank d = true) :
    ReadAlike [c] [d] :=
  of_readChar fun _ _ halike => halike.readChar_blanks hc hd

theorem two_blanks {c d : Char} (hc : Text.isBlank c = true) (hd : Text.isBlank d = true) :
    ReadAlike [c, d] [c] := by
  intro first second halike
  obtain ⟨middle, hmiddle, htwice⟩ := exists_readChar_blank first hc hd
  have hone := halike.readChar_blanks hc hc
  rw [hmiddle] at hone
  rw [foldlM_cons_of_ok hmiddle]
  simpa using htwice.trans hone

/-- Blanks in a row are read like a single one. -/
theorem blanks_space {blanks : List Char} (hne : blanks ≠ [])
    (hblanks : ∀ c ∈ blanks, Text.isBlank c = true) : ReadAlike blanks [' '] := by
  have hspace : Text.isBlank ' ' = true := by decide
  induction blanks with
  | nil => exact absurd rfl hne
  | cons c rest ih =>
      obtain ⟨hc, hrest⟩ := List.forall_mem_cons.mp hblanks
      by_cases hnil : rest = []
      · rw [hnil]
        exact .blank hc hspace
      · have hshort : ReadAlike ([c] ++ rest) ([c] ++ [' ']) :=
          (ReadAlike.same c).append (ih hnil hrest)
        exact (hshort.trans (.two_blanks hc hspace)).trans (.blank hc hspace)

theorem blanks {gap other : List Char} (hgap : gap ≠ []) (hother : other ≠ [])
    (hblanks : ∀ c ∈ gap, Text.isBlank c = true) (hblanks' : ∀ c ∈ other, Text.isBlank c = true) :
    ReadAlike gap other :=
  (blanks_space hgap hblanks).trans (blanks_space hother hblanks').symm

end ReadAlike

end TermReader

end SetLisp
