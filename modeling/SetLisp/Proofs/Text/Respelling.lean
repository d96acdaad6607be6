import Mathlib.Data.List.TakeWhile
import SetLisp.Text.Blank
import SetLisp.Text.Lowercase

namespace SetLisp.Text

def asciiCapitals : List Char :=
  (List.range' 0x41 26).map Char.ofNat

theorem mem_asciiCapitals_of_toLower_ne {c : Char} (h : c.toLower ≠ c) : c ∈ asciiCapitals := by
  have hcapital : c ≥ 'A' ∧ c ≤ 'Z' := by
    by_contra hother
    exact h (dif_neg hother)
  obtain ⟨hfirst, hlast⟩ := hcapital
  refine List.mem_map.mpr ⟨c.toNat, List.mem_range'_1.mpr ⟨?_, ?_⟩, Char.ofNat_toNat c⟩
  · exact hfirst
  · exact Nat.lt_succ_of_le hlast

/-- A function that treats capitals as their small letters takes no notice of the case of ASCII
letters. -/
theorem apply_toLower {α : Type} [DecidableEq α] {f : Char → α}
    (h : (asciiCapitals.all fun c => decide (f c.toLower = f c)) = true) (c : Char) :
    f c.toLower = f c := by
  by_cases hc : c.toLower = c
  · rw [hc]
  · exact of_decide_eq_true (List.all_eq_true.mp h c (mem_asciiCapitals_of_toLower_ne hc))

theorem isBlank_toLower (c : Char) : isBlank c.toLower = isBlank c :=
  apply_toLower (by decide +kernel) c

theorem caseIgnorable_toLower (c : Char) :
    inRanges caseIgnorableRanges c.toLower = inRanges caseIgnorableRanges c :=
  apply_toLower (f := inRanges caseIgnorableRanges) (by decide +kernel) c

theorem cased_toLower (c : Char) : inRanges casedRanges c.toLower = inRanges casedRanges c :=
  apply_toLower (f := inRanges casedRanges) (by decide +kernel) c

theorem isSigma_toLower (c : Char) : (c.toLower == '\u03a3') = (c == '\u03a3') :=
  apply_toLower (f := fun c => c == '\u03a3') (by decide +kernel) c

theorem lowercaseChar_toLower (c : Char) : lowercaseChar c.toLower = lowercaseChar c :=
  apply_toLower (by decide +kernel) c

theorem dropWhile_map_toLower {p : Char → Bool} (h : ∀ c, p c.toLower = p c) (text : List Char) :
    (text.map Char.toLower).dropWhile p = (text.dropWhile p).map Char.toLower := by
  rw [List.dropWhile_map]
  congr 2
  exact funext h

theorem trimmed_map_toLower (text : List Char) :
    trimmed (text.map Char.toLower) = (trimmed text).map Char.toLower := by
  simp only [trimmed, dropWhile_map_toLower isBlank_toLower, ← List.map_reverse]

theorem leadsToCased_map_toLower (text : List Char) :
    leadsToCased (text.map Char.toLower) = leadsToCased text := by
  rw [leadsToCased, dropWhile_map_toLower caseIgnorable_toLower, leadsToCased]
  cases text.dropWhile (inRanges caseIgnorableRanges) with
  | nil => rfl
  | cons c rest => exact cased_toLower c

theorem lowercaseAfter_map_toLower (before text : List Char) :
    lowercaseAfter (before.map Char.toLower) (text.map Char.toLower) =
      lowercaseAfter before text := by
  induction text generalizing before with
  | nil => rfl
  | cons c rest ih =>
      rw [List.map_cons, lowercaseAfter, isSigma_toLower, leadsToCased_map_toLower,
        leadsToCased_map_toLower, lowercaseChar_toLower, ← List.map_cons, ih, lowercaseAfter]

theorem trimmed_between_blanks {before behind : List Char}
    (hbefore : ∀ c ∈ before, isBlank c = true) (hbehind : ∀ c ∈ behind, isBlank c = true)
    (word : List Char) : trimmed (before ++ word ++ behind) = trimmed word := by
  have hreversed : ∀ c ∈ behind.reverse, isBlank c = true := fun c hc =>
    hbehind c (List.mem_reverse.mp hc)
  rw [trimmed, List.append_assoc, List.dropWhile_append_of_pos hbefore, List.dropWhile_append,
    trimmed]
  split
  · next hnone =>
      have hbehindNil : behind.dropWhile isBlank = [] := List.dropWhile_eq_nil_iff.mpr hbehind
      rw [hbehindNil, List.isEmpty_iff.mp hnone]
  · rw [List.reverse_append, List.dropWhile_append_of_pos hreversed]

theorem trim_of_blanks {text : String} (h : ∀ c ∈ text.toList, isBlank c = true) :
    trim text = "" := by
  have hnone := List.dropWhile_eq_nil_iff.mpr h
  rw [trim, trimmed, hnone]
  rfl

/-- The second text is the first one with letters in another case, of ASCII alone, and with blanks
around it. -/
def Respells (text respelled : String) : Prop :=
  ∃ before word behind, respelled.toList = before ++ word ++ behind ∧
    (∀ c ∈ before, isBlank c = true) ∧ (∀ c ∈ behind, isBlank c = true) ∧
    word.map Char.toLower = text.toList.map Char.toLower

namespace Respells

variable {text respelled : String}

theorem trimmed_eq (h : Respells text respelled) :
    (trimmed respelled.toList).map Char.toLower = (trimmed text.toList).map Char.toLower := by
  obtain ⟨before, word, behind, hparts, hbefore, hbehind, hword⟩ := h
  rw [hparts, trimmed_between_blanks hbefore hbehind, ← trimmed_map_toLower, hword,
    trimmed_map_toLower]

theorem isEmpty_trim_eq (h : Respells text respelled) :
    (trim respelled).isEmpty = (trim text).isEmpty := by
  rw [Bool.eq_iff_iff, String.isEmpty_iff, String.isEmpty_iff, trim, String.ofList_eq_empty_iff,
    trim, String.ofList_eq_empty_iff, ← List.map_eq_nil_iff, h.trimmed_eq, List.map_eq_nil_iff]

/-- Trimmed and lowercased, a respelled text is the text. -/
theorem lowercase_trim_eq (h : Respells text respelled) :
    lowercase (trim respelled) = lowercase (trim text) := by
  have hfolded (text : String) :
      lowercase (trim text) =
        String.ofList (lowercaseAfter [] ((trimmed text.toList).map Char.toLower)) := by
    have hsame := lowercaseAfter_map_toLower [] (trimmed text.toList)
    rw [List.map_nil] at hsame
    rw [lowercase, trim, String.toList_ofList, hsame]
  rw [hfolded, hfolded, h.trimmed_eq]

theorem ne_empty (h : Respells text respelled) (htext : text ≠ "") : respelled ≠ "" := by
  obtain ⟨before, word, behind, hparts, -, -, hword⟩ := h
  rintro rfl
  rw [String.toList_empty, eq_comm, List.append_eq_nil_iff, List.append_eq_nil_iff] at hparts
  rw [hparts.1.2, List.map_nil, eq_comm, List.map_eq_nil_iff, String.toList_eq_nil_iff] at hword
  exact htext hword

end Respells

end SetLisp.Text
