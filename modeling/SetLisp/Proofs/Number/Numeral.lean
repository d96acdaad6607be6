import SetLisp.Double.Notation
import SetLisp.Parser
import SetLisp.Proofs.Number.Rounding

namespace SetLisp

/-- The value of an ASCII digit. -/
def digitValue (c : Char) : Nat :=
  c.toNat - '0'.toNat

theorem digitValue?_of_isDigit {c : Char} (hc : c.isDigit = true) :
    Text.digitValue? c = some (digitValue c) := by
  obtain ⟨hlow, hhigh⟩ := Char.isDigit_iff_toNat.mp hc
  have hfirst : (decide (0x30 ≤ c.toNat) && decide (c.toNat < 0x30 + 10)) = true := by
    simp only [Bool.and_eq_true, decide_eq_true_eq]
    exact ⟨hlow, Nat.lt_succ_of_le hhigh⟩
  have hzeros : Text.digitZeros = 0x30 :: Text.digitZeros.tail := rfl
  rw [Text.digitValue?, hzeros]
  simp only [List.find?_cons, hfirst, Option.map_some]
  rfl

theorem toLower_of_isDigit {c : Char} (hc : c.isDigit = true) : c.toLower = c := by
  have hupper : ¬(c.val ≥ 'A'.val ∧ c.val ≤ 'Z'.val) := by
    rintro ⟨hlow, -⟩
    have hhigh := (Char.isDigit_iff_toNat.mp hc).2
    have hlow' : 'A'.toNat ≤ c.toNat := hlow
    exact absurd (Nat.le_trans hlow' hhigh) (by decide)
  exact dif_neg hupper

namespace Numeral

theorem takeDigits_append {digits : List Char} (hdigits : ∀ c ∈ digits, c.isDigit = true)
    {rest : List Char} (hrest : ∀ c ∈ rest.head?, Text.digitValue? c = none) :
    takeDigits (digits ++ rest) = (digits.map digitValue, rest) := by
  induction digits with
  | nil =>
      cases rest with
      | nil => rfl
      | cons c rest => simp [takeDigits, hrest c rfl]
  | cons c digits ih =>
      have hc := digitValue?_of_isDigit (hdigits c List.mem_cons_self)
      have hrecurse := ih fun d hd => hdigits d (List.mem_cons_of_mem c hd)
      simp [takeDigits, hc, hrecurse]

theorem takeDigits_of_isDigit {digits : List Char} (hdigits : ∀ c ∈ digits, c.isDigit = true) :
    takeDigits digits = (digits.map digitValue, []) := by
  have hnone : ∀ c ∈ ([] : List Char).head?, Text.digitValue? c = none := by simp
  simpa using takeDigits_append hdigits hnone

theorem ofDigits_map_digitValue (digits : List Char) :
    ofDigits (digits.map digitValue) = Nat.ofDigitChars 10 digits 0 := by
  rw [ofDigits, List.foldl_map, Nat.ofDigitChars_eq_foldl]
  rfl

/-- A text that starts with a digit is none of the words. -/
theorem unsigned?_of_isDigit {c : Char} (hc : c.isDigit = true) (negative : Bool)
    (rest : List Char) :
    unsigned? negative (c :: rest) =
      (let (whole, rest) := takeDigits (c :: rest)
      let (fraction, rest) := takeFraction rest
      if whole.isEmpty && fraction.isEmpty then none
      else
        (exponent? rest).map fun exponent =>
          .decimal negative ⟨ofDigits (whole ++ fraction), exponent - fraction.length⟩) := by
  have hi : c ≠ 'i' := by
    rintro rfl
    cases hc
  have hn : c ≠ 'n' := by
    rintro rfl
    cases hc
  have hwords : ¬((c :: rest).map Char.toLower = "inf".toList ∨
      (c :: rest).map Char.toLower = "infinity".toList) := by
    simp [toLower_of_isDigit hc, hi]
  have hnan : ¬(c :: rest).map Char.toLower = "nan".toList := by
    simp [toLower_of_isDigit hc, hn]
  rw [unsigned?]
  dsimp only
  rw [if_neg hwords, if_neg hnan]

/-- Digits and what stands behind them, if that is no fraction. -/
theorem unsigned?_whole {whole tail : List Char} (hwhole : ∀ c ∈ whole, c.isDigit = true)
    (hne : whole ≠ []) (htail : ∀ c ∈ tail.head?, Text.digitValue? c = none ∧ c ≠ '.')
    (negative : Bool) :
    unsigned? negative (whole ++ tail) = (exponent? tail).map fun exponent =>
      .decimal negative ⟨Nat.ofDigitChars 10 whole 0, exponent⟩ := by
  have htake := takeDigits_append hwhole fun c hc => (htail c hc).1
  have hfraction : takeFraction tail = ([], tail) := by
    cases tail with
    | nil => rfl
    | cons c rest =>
        have hpoint := (htail c rfl).2
        unfold takeFraction
        split
        · next heq => exact absurd (List.cons.inj heq).1 hpoint
        · rfl
  rw [← ofDigits_map_digitValue]
  obtain ⟨c, rest, rfl⟩ := List.exists_cons_of_ne_nil hne
  rw [List.cons_append] at htake ⊢
  rw [unsigned?_of_isDigit (hwhole c List.mem_cons_self), htake]
  simp [hfraction]

/-- Digits, a fraction and what stands behind it. -/
theorem unsigned?_fraction {whole fraction tail : List Char}
    (hwhole : ∀ c ∈ whole, c.isDigit = true) (hfraction : ∀ c ∈ fraction, c.isDigit = true)
    (hne : whole ≠ []) (htail : ∀ c ∈ tail.head?, Text.digitValue? c = none) (negative : Bool) :
    unsigned? negative (whole ++ '.' :: (fraction ++ tail)) = (exponent? tail).map fun exponent =>
      .decimal negative
        ⟨Nat.ofDigitChars 10 (whole ++ fraction) 0, exponent - fraction.length⟩ := by
  have hpoint : ∀ c ∈ ('.' :: (fraction ++ tail)).head?, Text.digitValue? c = none := by
    rintro c ⟨⟩
    decide
  have htake := takeDigits_append hwhole hpoint
  have htakeFraction := takeDigits_append hfraction htail
  obtain ⟨c, rest, rfl⟩ := List.exists_cons_of_ne_nil hne
  rw [List.cons_append] at htake ⊢
  rw [unsigned?_of_isDigit (hwhole c List.mem_cons_self), htake]
  simp [takeFraction, htakeFraction, ← ofDigits_map_digitValue]

theorem unsigned?_digits {digits : List Char} (hdigits : ∀ c ∈ digits, c.isDigit = true)
    (hne : digits ≠ []) (negative : Bool) :
    unsigned? negative digits = some (.decimal negative ⟨Nat.ofDigitChars 10 digits 0, 0⟩) := by
  have hwhole := @unsigned?_whole digits [] hdigits hne (by simp) negative
  rwa [List.append_nil] at hwhole

theorem unsigned?_point {whole fraction : List Char} (hwhole : ∀ c ∈ whole, c.isDigit = true)
    (hfraction : ∀ c ∈ fraction, c.isDigit = true) (hne : whole ≠ []) (negative : Bool) :
    unsigned? negative (whole ++ '.' :: fraction) =
      some (.decimal negative ⟨Nat.ofDigitChars 10 (whole ++ fraction) 0, -fraction.length⟩) := by
  have hpoint := @unsigned?_fraction whole fraction [] hwhole hfraction hne (by simp) negative
  rw [List.append_nil] at hpoint
  rw [hpoint, exponent?, Option.map_some, Int.zero_sub]

end Numeral

namespace Decimal

theorem isDigit_of_mem_digitChars {d : Decimal} {c : Char} (hc : c ∈ d.digitChars) :
    c.isDigit = true :=
  Nat.isDigit_of_mem_toDigits (by decide) (by decide) hc

theorem isDigit_of_mem_zeros {count : Nat} {c : Char} (hc : c ∈ List.replicate count '0') :
    c.isDigit = true := by
  rw [List.eq_of_mem_replicate hc]
  rfl

/-- A decimal with no places behind the point is shown as the digits of its value. -/
theorem plain_of_nonneg {d : Decimal} (hexponent : 0 ≤ d.exponent) :
    (∀ c ∈ d.plain, c.isDigit = true) ∧ d.plain ≠ [] ∧
      Nat.ofDigitChars 10 d.plain 0 = d.digits * 10 ^ d.exponent.toNat := by
  rw [plain, if_pos hexponent]
  refine ⟨?_, ?_, ?_⟩
  · intro c hc
    rcases List.mem_append.mp hc with hc | hc
    · exact isDigit_of_mem_digitChars hc
    · exact isDigit_of_mem_zeros hc
  · exact List.append_ne_nil_of_left_ne_nil Nat.toDigits_ne_nil _
  · rw [Nat.ofDigitChars_append, Nat.ofDigitChars_replicate_zero, digitChars,
      Nat.ofDigitChars_ten_toDigits, Nat.mul_comm]

/-- Any other decimal is shown with a point, before which there is a digit. -/
theorem exists_plain_of_neg {d : Decimal} (hexponent : d.exponent < 0) :
    ∃ whole fraction : List Char, d.plain = whole ++ '.' :: fraction ∧ whole ≠ [] ∧
      (∀ c ∈ whole ++ fraction, c.isDigit = true) ∧
      Nat.ofDigitChars 10 (whole ++ fraction) 0 = d.digits ∧
      -(fraction.length : Int) = d.exponent := by
  obtain ⟨places, hplaces⟩ : ∃ places : Nat, d.exponent = -places :=
    ⟨(-d.exponent).toNat, by omega⟩
  have hdigits : ∃ digits : List Char, digits =
      List.replicate (places + 1 - d.digitChars.length) '0' ++ d.digitChars := ⟨_, rfl⟩
  obtain ⟨digits, hdigits⟩ := hdigits
  have hlength : places + 1 ≤ digits.length := by
    rw [hdigits, List.length_append, List.length_replicate]
    omega
  refine ⟨digits.take (digits.length - places), digits.drop (digits.length - places), ?_, ?_, ?_,
    ?_, ?_⟩
  · have hnat : (-d.exponent).toNat = places := by omega
    rw [plain, if_neg (by omega), hdigits, hnat]
  · intro hempty
    have hcount := congrArg List.length hempty
    rw [List.length_take, List.length_nil] at hcount
    omega
  · rw [List.take_append_drop, hdigits]
    intro c hc
    rcases List.mem_append.mp hc with hc | hc
    · exact isDigit_of_mem_zeros hc
    · exact isDigit_of_mem_digitChars hc
  · rw [List.take_append_drop, hdigits, Nat.ofDigitChars_append, Nat.ofDigitChars_replicate_zero,
      Nat.mul_zero, digitChars, Nat.ofDigitChars_ten_toDigits]
  · rw [List.length_drop, hplaces]
    omega

theorem exists_cons_plain (d : Decimal) :
    ∃ c rest, d.plain = c :: rest ∧ c.isDigit = true := by
  by_cases hexponent : 0 ≤ d.exponent
  · obtain ⟨hdigits, hne, -⟩ := plain_of_nonneg hexponent
    obtain ⟨c, rest, hplain⟩ := List.exists_cons_of_ne_nil hne
    exact ⟨c, rest, hplain, hdigits c (hplain ▸ List.mem_cons_self)⟩
  · obtain ⟨whole, fraction, hplain, hne, hdigits, -⟩ :=
      exists_plain_of_neg (Int.not_le.mp hexponent)
    obtain ⟨c, rest, rfl⟩ := List.exists_cons_of_ne_nil hne
    exact ⟨c, rest ++ '.' :: fraction, hplain, hdigits c List.mem_cons_self⟩

end Decimal

/-- All characters of a list are tried one by one. -/
theorem forall_mem_of_all {chars : List Char} {p : Char → Prop} [DecidablePred p]
    (hall : (chars.all fun c => decide (p c)) = true) : ∀ c ∈ chars, p c :=
  fun c hc => of_decide_eq_true (List.all_eq_true.mp hall c hc)

/-- The characters numbers are shown with. -/
def IsNumberChar (c : Char) : Prop :=
  c.isDigit = true ∨ c ∈ ['-', '.', 'i', 'n', 'f', 'N', 'a']

instance (c : Char) : Decidable (IsNumberChar c) :=
  inferInstanceAs (Decidable (_ ∨ _))

theorem IsNumberChar.isBlank_eq_false {c : Char} (hc : IsNumberChar c) :
    Text.isBlank c = false := by
  rcases hc with hc | hc
  · obtain ⟨hlow, hhigh⟩ := Char.isDigit_iff_toNat.mp hc
    have hlow' : 48 ≤ c.toNat := hlow
    have hhigh' : c.toNat ≤ 57 := hhigh
    simp [Text.isBlank, Text.inRanges, Text.blankRanges]
    omega
  · have hmarks : ∀ c ∈ ['-', '.', 'i', 'n', 'f', 'N', 'a'], Text.isBlank c = false :=
      forall_mem_of_all (by decide)
    exact hmarks c hc

theorem IsNumberChar.isBracket_eq_false {c : Char} (hc : IsNumberChar c) : isBracket c = false := by
  have hbrackets : ∀ bracket ∈ ['(', ')', '\x7b', '\x7d'], ¬IsNumberChar bracket :=
    forall_mem_of_all (by decide)
  have hne : ∀ bracket ∈ ['(', ')', '\x7b', '\x7d'], c ≠ bracket := by
    rintro bracket hbracket rfl
    exact hbrackets c hbracket hc
  simp only [List.mem_cons, List.not_mem_nil, or_false, forall_eq_or_imp, forall_eq] at hne
  simp [isBracket, hne]

namespace Double

theorem isNumberChar_of_mem_plain {d : Decimal} {c : Char} (hc : c ∈ d.plain) : IsNumberChar c := by
  by_cases hexponent : 0 ≤ d.exponent
  · exact .inl ((Decimal.plain_of_nonneg hexponent).1 c hc)
  · obtain ⟨whole, fraction, hplain, -, hdigits, -⟩ :=
      Decimal.exists_plain_of_neg (Int.not_le.mp hexponent)
    rw [hplain, List.mem_append, List.mem_cons] at hc
    rcases hc with hc | rfl | hc
    · exact .inl (hdigits c (List.mem_append_left fraction hc))
    · decide
    · exact .inl (hdigits c (List.mem_append_right whole hc))

theorem isNumberChar_of_mem_signed {negative : Bool} {body : List Char}
    (hbody : ∀ c ∈ body, IsNumberChar c) : ∀ c ∈ signChars negative ++ body, IsNumberChar c := by
  intro c hc
  rcases List.mem_append.mp hc with hc | hc
  · cases negative
    · cases hc
    · rw [List.eq_of_mem_singleton hc]
      decide
  · exact hbody c hc

theorem isNumberChar_of_mem_chars {x : Double} : ∀ c ∈ x.chars, IsNumberChar c := by
  cases x with
  | nan payload =>
      have hword : ∀ c ∈ "NaN".toList, IsNumberChar c := forall_mem_of_all (by decide)
      exact hword
  | infinite negative =>
      have hword : ∀ c ∈ "inf".toList, IsNumberChar c := forall_mem_of_all (by decide)
      exact isNumberChar_of_mem_signed hword
  | finite negative units hgrid =>
      exact isNumberChar_of_mem_signed fun c hc => isNumberChar_of_mem_plain hc

end Double

/-! ### Reading a number back -/

theorem dropWhile_of_head? {text : List Char} {p : Char → Bool}
    (hhead : ∀ c ∈ text.head?, p c = false) : text.dropWhile p = text := by
  cases text with
  | nil => rfl
  | cons c rest => exact List.dropWhile_cons_of_neg (by simp [hhead c rfl])

theorem dropWhile_both_ends {text : List Char} {p : Char → Bool}
    (hhead : ∀ c ∈ text.head?, p c = false) (hlast : ∀ c ∈ text.getLast?, p c = false) :
    ((text.dropWhile p).reverse.dropWhile p).reverse = text := by
  rw [← List.head?_reverse] at hlast
  rw [dropWhile_of_head? hhead, dropWhile_of_head? hlast, List.reverse_reverse]

namespace Numeral

theorem bare_eq_self {text : List Char} (htext : ∀ c ∈ text, Text.isBlank c = false) :
    bare text = text := by
  have hblank : ∀ c ∈ text, isNumeralBlank c = false := fun c hc => by
    rw [isNumeralBlank, htext c hc, Bool.false_and]
  exact dropWhile_both_ends (fun c hc => hblank c (List.mem_of_head? hc))
    fun c hc => hblank c (List.mem_of_getLast? hc)

theorem takeSign_signChars {c : Char} (hc : c.isDigit = true) (negative : Bool)
    (rest : List Char) :
    takeSign (Double.signChars negative ++ c :: rest) = (negative, c :: rest) := by
  cases negative with
  | true => rfl
  | false =>
      change takeSign (c :: rest) = (false, c :: rest)
      unfold takeSign
      split
      · next heq =>
          rw [(List.cons.inj heq).1] at hc
          cases hc
      · next heq =>
          rw [(List.cons.inj heq).1] at hc
          cases hc
      · rfl

theorem read?_signed {text : List Char} (hfirst : ∃ c rest, text = c :: rest ∧ c.isDigit = true)
    (htext : ∀ c ∈ text, Text.isBlank c = false) (negative : Bool) :
    read? (Double.signChars negative ++ text) = unsigned? negative text := by
  have hsign : ∀ c ∈ Double.signChars negative, Text.isBlank c = false := by
    cases negative <;> exact forall_mem_of_all (by decide)
  obtain ⟨c, rest, rfl, hc⟩ := hfirst
  rw [read?, bare_eq_self (List.forall_mem_append.mpr ⟨hsign, htext⟩), takeSign_signChars hc]

/-- The text of a decimal is a numeral of its value. -/
theorem ofDecimal_read?_plain (d : Decimal) (negative : Bool) :
    ∃ d', read? (Double.signChars negative ++ d.plain) = some (.decimal negative d') ∧
      ∀ sign, Double.ofDecimal sign d' = Double.ofDecimal sign d := by
  have hread := read?_signed (Decimal.exists_cons_plain d)
    (fun c hc => (Double.isNumberChar_of_mem_plain hc).isBlank_eq_false) negative
  by_cases hexponent : 0 ≤ d.exponent
  · obtain ⟨hdigits, hne, hvalue⟩ := Decimal.plain_of_nonneg hexponent
    have hzero : (0 : Int) + (d.exponent.toNat : Int) = d.exponent := by omega
    refine ⟨_, hread.trans (unsigned?_digits hdigits hne negative), fun sign => ?_⟩
    rw [hvalue, Double.ofDecimal_mul_pow, hzero]
  · obtain ⟨whole, fraction, hplain, hne, hdigits, hvalue, hlength⟩ :=
      Decimal.exists_plain_of_neg (Int.not_le.mp hexponent)
    have hpoint := unsigned?_point (fun c hc => hdigits c (List.mem_append_left fraction hc))
      (fun c hc => hdigits c (List.mem_append_right whole hc)) hne negative
    rw [← hplain] at hpoint
    refine ⟨_, hread.trans hpoint, fun sign => ?_⟩
    rw [hvalue, hlength]

end Numeral

/-- The number with another mark, if it is not a number. -/
def Double.marked (payload : Nat) : Double → Double
  | .nan _ => .nan payload
  | x => x

theorem Double.marked_marked (payload payload' : Nat) (x : Double) :
    (x.marked payload).marked payload' = x.marked payload' := by
  cases x <;> rfl

theorem Double.chars_marked (payload : Nat) (x : Double) : (x.marked payload).chars = x.chars := by
  cases x <;> rfl

theorem numberOfToken?_text (payload : Nat) (x : Double) :
    numberOfToken? payload x.text = some (x.marked payload) := by
  have hchars := Double.isNumberChar_of_mem_chars (x := x)
  have hunderscore : x.chars.contains '_' = false := by
    rw [List.contains_eq_mem, decide_eq_false_iff_not]
    intro hmem
    exact absurd (hchars _ hmem) (by decide)
  rw [numberOfToken?, Double.text, String.toList_ofList, hunderscore]
  suffices hread : ∃ numeral, Numeral.read? x.chars = some numeral ∧
      numeral.value payload = x.marked payload by
    obtain ⟨numeral, hread, hvalue⟩ := hread
    simp [hread, hvalue]
  cases x with
  | nan mark =>
      have hword : Numeral.read? "NaN".toList = some .notANumber := by decide
      exact ⟨.notANumber, hword, rfl⟩
  | infinite negative => exact ⟨.infinity negative, by cases negative <;> decide, rfl⟩
  | finite negative units hgrid =>
      obtain ⟨d, hread, hvalue⟩ := Numeral.ofDecimal_read?_plain (Double.shortest units) negative
      refine ⟨.decimal negative d, hread, ?_⟩
      rw [Numeral.value, hvalue, Double.ofDecimal_shortest hgrid]
      rfl

/-- **Numbers read back.** The text of a number is a token of that number. -/
theorem atomOfToken_text (payload : Nat) (x : Double) :
    atomOfToken payload x.text = .number (x.marked payload) := by
  have hword : ∀ word : String, 't' ∈ word.toList ∨ 's' ∈ word.toList → x.text ≠ word := by
    rintro word hword rfl
    rw [Double.text, String.toList_ofList] at hword
    rcases hword with hword | hword
    · exact absurd (Double.isNumberChar_of_mem_chars _ hword) (by decide)
    · exact absurd (Double.isNumberChar_of_mem_chars _ hword) (by decide)
  rw [atomOfToken, if_neg (hword "true" (by decide)), if_neg (hword "false" (by decide)),
    numberOfToken?_text]

end SetLisp
