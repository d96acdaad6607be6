import SetLisp.Proofs.Number.PlainText

/-!
# Inspected numbers

What an inspector shows of a number is a numeral of the shortest digits, with an exponent if they
are far from the point. The text a program shows is that numeral written out without an exponent,
and without the zeros at the end of its fraction.
-/

namespace SetLisp

namespace Decimal

/-- An exponent with its sign and at least two digits. -/
def exponentChars (exponent : Int) : List Char :=
  let digits := Nat.toDigits 10 exponent.natAbs
  'e' :: (if exponent < 0 then '-' else '+') :: (List.replicate (2 - digits.length) '0' ++ digits)

/-- One digit, the others behind a point if there are others, and the exponent. -/
theorem exists_scientific (d : Decimal) :
    ∃ first fraction, d.digitChars = first :: fraction ∧ d.scientific =
      first :: ((if fraction = [] then [] else '.' :: fraction) ++ exponentChars d.leading) := by
  match hdigits : d.digitChars with
  | [] => exact absurd hdigits Nat.toDigits_ne_nil
  | [first] => exact ⟨first, [], rfl, by simp [scientific, hdigits, exponentChars]⟩
  | first :: second :: rest =>
      exact ⟨first, second :: rest, rfl, by simp [scientific, hdigits, exponentChars]⟩

theorem isDigit_of_mem_padded {count n : Nat} {c : Char}
    (hc : c ∈ List.replicate count '0' ++ Nat.toDigits 10 n) : c.isDigit = true := by
  rcases List.mem_append.mp hc with hc | hc
  · exact isDigit_of_mem_zeros hc
  · exact Nat.isDigit_of_mem_toDigits (by decide) (by decide) hc

end Decimal

namespace Numeral

open Decimal

theorem exponent?_signed {digits : List Char} (hdigits : ∀ c ∈ digits, c.isDigit = true)
    (hne : digits ≠ []) (negative : Bool) :
    exponent? ('e' :: (if negative then '-' else '+') :: digits) =
      some (Double.signed negative (Nat.ofDigitChars 10 digits 0)) := by
  have htake := takeDigits_of_isDigit hdigits
  rw [← ofDigits_map_digitValue]
  obtain ⟨c, rest, rfl⟩ := List.exists_cons_of_ne_nil hne
  cases negative <;> simp [exponent?, takeSign, htake, Double.signed]

theorem exponent?_exponentChars (exponent : Int) :
    exponent? (exponentChars exponent) = some exponent := by
  obtain ⟨digits, hdigits⟩ : ∃ digits, digits =
      List.replicate (2 - (Nat.toDigits 10 exponent.natAbs).length) '0' ++
        Nat.toDigits 10 exponent.natAbs := ⟨_, rfl⟩
  have hall : ∀ c ∈ digits, c.isDigit = true := fun c hc => isDigit_of_mem_padded (hdigits ▸ hc)
  have hne : digits ≠ [] := by simp [hdigits, Nat.toDigits_ne_nil]
  have hvalue : Nat.ofDigitChars 10 digits 0 = exponent.natAbs := by
    rw [hdigits, Nat.ofDigitChars_append, Nat.ofDigitChars_replicate_zero, Nat.mul_zero,
      Nat.ofDigitChars_ten_toDigits]
  have hsigned := exponent?_signed hall hne (decide (exponent < 0))
  rw [hvalue, Double.signed] at hsigned
  rw [exponentChars, ← hdigits]
  by_cases hnegative : exponent < 0
  · simp only [hnegative, decide_true, if_true] at hsigned ⊢
    rw [hsigned, Option.some.injEq]
    omega
  · simp only [hnegative, decide_false, if_false, Bool.false_eq_true] at hsigned ⊢
    rw [hsigned, Option.some.injEq]
    omega

theorem head?_exponentChars (exponent : Int) :
    ∀ c ∈ (exponentChars exponent).head?, Text.digitValue? c = none ∧ c ≠ '.' := by
  rintro c ⟨⟩
  decide

theorem unsigned?_scientific (d : Decimal) (negative : Bool) :
    unsigned? negative d.scientific = some (.decimal negative d) := by
  obtain ⟨first, fraction, hdigits, hscientific⟩ := exists_scientific d
  have hall : ∀ c ∈ [first] ++ fraction, c.isDigit = true := by
    rw [List.singleton_append, ← hdigits]
    exact fun c hc => isDigit_of_mem_digitChars hc
  have hvalue : Nat.ofDigitChars 10 ([first] ++ fraction) 0 = d.digits := by
    rw [List.singleton_append, ← hdigits]
    exact Nat.ofDigitChars_ten_toDigits
  have hleading : d.leading - fraction.length = d.exponent := by
    rw [leading, hdigits, List.length_cons]
    omega
  have htail := head?_exponentChars d.leading
  obtain ⟨hfirst, hfraction⟩ := List.forall_mem_append.mp hall
  rw [hscientific]
  split
  · next hnil =>
      subst hnil
      change unsigned? negative ([first] ++ exponentChars d.leading) = _
      rw [unsigned?_whole hfirst (List.cons_ne_nil _ _) htail, exponent?_exponentChars,
        Option.map_some]
      rw [List.append_nil] at hvalue
      rw [List.length_nil, Int.natCast_zero, Int.sub_zero] at hleading
      rw [hvalue, hleading]
  · change unsigned? negative ([first] ++ '.' :: (fraction ++ exponentChars d.leading)) = _
    rw [unsigned?_fraction hfirst hfraction (List.cons_ne_nil _ _) fun c hc => (htail c hc).1,
      exponent?_exponentChars, Option.map_some, hvalue, hleading]

/-- A zero behind the point makes the digits ten times as many. -/
theorem unsigned?_point_zero {d : Decimal} (hexponent : 0 ≤ d.exponent) (negative : Bool) :
    unsigned? negative (d.plain ++ ['.', '0']) =
      some (.decimal negative ⟨10 * (d.digits * 10 ^ d.exponent.toNat), -1⟩) := by
  obtain ⟨hall, hne, hvalue⟩ := plain_of_nonneg hexponent
  have hzero : ∀ c ∈ ['0'], c.isDigit = true := List.forall_mem_singleton.mpr rfl
  rw [unsigned?_point hall hzero hne, Nat.ofDigitChars_append, hvalue]
  rfl

/-- An inspected decimal is a numeral of itself, or of itself with a zero behind the point. -/
theorem unsigned?_inspected (d : Decimal) (negative : Bool) :
    unsigned? negative d.inspected = some (.decimal negative d) ∨
      0 ≤ d.exponent ∧ unsigned? negative d.inspected =
        some (.decimal negative ⟨10 * (d.digits * 10 ^ d.exponent.toNat), -1⟩) := by
  rw [inspected]
  split
  · split
    · next hexponent => exact .inr ⟨hexponent, unsigned?_point_zero hexponent negative⟩
    · next hexponent =>
        left
        obtain ⟨whole, fraction, hplain, hne, hall, hvalue, hlength⟩ :=
          exists_plain_of_neg (Int.not_le.mp hexponent)
        obtain ⟨hwhole, hfraction⟩ := List.forall_mem_append.mp hall
        rw [hplain, unsigned?_point hwhole hfraction hne, hvalue, hlength]
  · exact .inl (unsigned?_scientific d negative)

end Numeral

namespace Decimal

theorem isBlank_of_mem_plain {d : Decimal} {c : Char} (hc : c ∈ d.plain) :
    Text.isBlank c = false :=
  (Double.isNumberChar_of_mem_plain hc).isBlank_eq_false

theorem isBlank_of_isDigit {c : Char} (hc : c.isDigit = true) : Text.isBlank c = false :=
  (show IsNumberChar c from .inl hc).isBlank_eq_false

theorem isBlank_of_mem_exponentChars {exponent : Int} {c : Char}
    (hc : c ∈ exponentChars exponent) : Text.isBlank c = false := by
  rcases List.mem_cons.mp hc with rfl | hc
  · decide
  · rcases List.mem_cons.mp hc with rfl | hc
    · split <;> decide
    · exact isBlank_of_isDigit (isDigit_of_mem_padded hc)

theorem isBlank_of_mem_scientific {d : Decimal} {c : Char} (hc : c ∈ d.scientific) :
    Text.isBlank c = false := by
  obtain ⟨first, fraction, hdigits, hscientific⟩ := exists_scientific d
  have hall : ∀ c ∈ first :: fraction, Text.isBlank c = false := fun c hc =>
    isBlank_of_isDigit (isDigit_of_mem_digitChars (hdigits ▸ hc))
  rw [hscientific, List.mem_cons, List.mem_append] at hc
  rcases hc with rfl | hc | hc
  · exact hall c List.mem_cons_self
  · split at hc
    · cases hc
    · rcases List.mem_cons.mp hc with rfl | hc
      · decide
      · exact hall c (List.mem_cons_of_mem first hc)
  · exact isBlank_of_mem_exponentChars hc

theorem isBlank_of_mem_inspected {d : Decimal} {c : Char} (hc : c ∈ d.inspected) :
    Text.isBlank c = false := by
  rw [inspected] at hc
  split at hc
  · split at hc
    · rcases List.mem_append.mp hc with hc | hc
      · exact isBlank_of_mem_plain hc
      · have hzero : ∀ c ∈ ['.', '0'], Text.isBlank c = false := forall_mem_of_all (by decide)
        exact hzero c hc
    · exact isBlank_of_mem_plain hc
  · exact isBlank_of_mem_scientific hc

theorem exists_cons_inspected (d : Decimal) :
    ∃ c rest, d.inspected = c :: rest ∧ c.isDigit = true := by
  rw [inspected]
  obtain ⟨c, rest, hplain, hc⟩ := exists_cons_plain d
  split
  · split
    · exact ⟨c, rest ++ ['.', '0'], by rw [hplain]; rfl, hc⟩
    · exact ⟨c, rest, hplain, hc⟩
  · obtain ⟨first, fraction, hdigits, hscientific⟩ := exists_scientific d
    exact ⟨first, _, hscientific, isDigit_of_mem_digitChars (hdigits ▸ List.mem_cons_self)⟩

/-- The text without the zeros at the end of its fraction, and without the point if it comes to
stand at the end. -/
def trimFraction (text : List Char) : List Char :=
  if text.contains '.' then
    ((text.reverse.dropWhile (· == '0')).dropWhile (· == '.')).reverse
  else text

theorem trimFraction_of_not_mem {text : List Char} (hpoint : '.' ∉ text) :
    trimFraction text = text := by
  rw [trimFraction, if_neg (by simpa using hpoint)]

theorem trimFraction_concat (front : List Char) {last : Char} (hzero : last ≠ '0')
    (hpoint : last ≠ '.') : trimFraction (front ++ [last]) = front ++ [last] := by
  rw [trimFraction]
  split
  · rw [List.reverse_append, List.reverse_singleton, List.singleton_append,
      List.dropWhile_cons_of_neg (by simp [hzero]), List.dropWhile_cons_of_neg (by simp [hpoint]),
      List.reverse_cons, List.reverse_reverse]
  · rfl

theorem trimFraction_point_zero {front : List Char} (hfront : ∀ c ∈ front, c ≠ '.') :
    trimFraction (front ++ ['.', '0']) = front := by
  have hpoint : (front ++ ['.', '0']).contains '.' = true := by simp
  have hreverse : (front ++ ['.', '0']).reverse = '0' :: '.' :: front.reverse := by simp
  have hhead : ∀ c ∈ front.reverse.head?, (c == '.') = false := fun c hc =>
    beq_eq_false_iff_ne.mpr (hfront c (List.mem_reverse.mp (List.mem_of_head? hc)))
  rw [trimFraction, if_pos hpoint, hreverse, List.dropWhile_cons_of_pos (by rfl),
    List.dropWhile_cons_of_neg (by decide), List.dropWhile_cons_of_pos (by rfl),
    dropWhile_of_head? hhead, List.reverse_reverse]

/-- A zero behind the point is written behind the whole digits. -/
theorem plain_point_zero {d : Decimal} (hexponent : 0 ≤ d.exponent) (h : d.IsStripped) :
    plain ⟨10 * (d.digits * 10 ^ d.exponent.toNat), -1⟩ = d.plain ++ ['.', '0'] := by
  rcases h with rfl | h
  · rfl
  · have hdigits : 0 < d.digits := Nat.pos_of_ne_zero fun hzero => h (hzero ▸ Nat.dvd_zero 10)
    have hpos : 0 < 10 ^ d.exponent.toNat * d.digits :=
      Nat.mul_pos (Nat.pow_pos (by decide)) hdigits
    have hplain : d.plain = d.digitChars ++ List.replicate d.exponent.toNat '0' := if_pos hexponent
    have hchars : digitChars ⟨10 * (d.digits * 10 ^ d.exponent.toNat), -1⟩ = d.plain ++ ['0'] := by
      rw [digitChars, Nat.mul_comm d.digits, toDigits_mul_ten hpos, toDigits_mul_ten_pow hdigits,
        hplain, digitChars]
    obtain ⟨c, rest, hcons, -⟩ := exists_cons_plain d
    have hpad : 1 - d.plain.length = 0 := by
      rw [hcons, List.length_cons]
      omega
    rw [plain, if_neg (show ¬ (0 : Int) ≤ -1 by decide), hchars]
    simp [hpad]

/-- Written out and trimmed, the zero behind the point is gone and nothing else is. -/
theorem trimFraction_plain {d : Decimal} (h : d.IsStripped) (negative : Bool) :
    trimFraction (Double.signChars negative ++ d.plain) = Double.signChars negative ++ d.plain := by
  generalize hplain : d.plain = body
  cases hplain ▸ h.isPlain_plain with
  | whole _ hdigits =>
      refine trimFraction_of_not_mem fun hpoint => ?_
      rcases List.mem_append.mp hpoint with hsign | hbody
      · revert hsign
        cases negative <;> decide
      · cases hdigits '.' hbody
  | @fraction whole digits last _ _ hdigits hlast =>
      have hpoint : last ≠ '.' := by
        rintro rfl
        cases hdigits '.' (by simp)
      have hconcat := trimFraction_concat (Double.signChars negative ++ (whole ++ '.' :: digits))
        hlast hpoint
      simpa using hconcat

theorem trimFraction_plain_point_zero {d : Decimal} (hexponent : 0 ≤ d.exponent) (negative : Bool) :
    trimFraction (Double.signChars negative ++ (d.plain ++ ['.', '0'])) =
      Double.signChars negative ++ d.plain := by
  rw [← List.append_assoc]
  refine trimFraction_point_zero fun c hc => ?_
  rintro rfl
  rcases List.mem_append.mp hc with hsign | hplain
  · revert hsign
    cases negative <;> decide
  · cases (plain_of_nonneg hexponent).1 '.' hplain

end Decimal

/-- **Inspected numbers.** What an inspector shows of a finite number is a numeral that reads back
as the number, and the text a program shows is that numeral written out in full and trimmed. -/
theorem Double.text_of_inspect {negative : Bool} {units : Nat} (hgrid : OnGrid units) :
    let x := Double.finite negative units hgrid
    ∃ d, Numeral.read? x.inspect.toList = some (.decimal negative d) ∧ ofDecimal negative d = x ∧
      x.text = String.ofList (Decimal.trimFraction (signChars negative ++ d.plain)) := by
  intro x
  have hstripped := isStripped_shortest hgrid
  have hread : Numeral.read? x.inspect.toList =
      Numeral.unsigned? negative (shortest units).inspected := by
    rw [inspect, String.toList_ofList]
    exact Numeral.read?_signed (Decimal.exists_cons_inspected _)
      (fun c hc => Decimal.isBlank_of_mem_inspected hc) negative
  rcases Numeral.unsigned?_inspected (shortest units) negative with hsame | ⟨hexponent, hzero⟩
  · refine ⟨shortest units, hread.trans hsame, ofDecimal_shortest hgrid negative, ?_⟩
    rw [Decimal.trimFraction_plain hstripped]
    rfl
  · refine ⟨_, hread.trans hzero, ?_, ?_⟩
    · have hdigits : 10 * ((shortest units).digits * 10 ^ (shortest units).exponent.toNat) =
          (shortest units).digits * 10 ^ ((shortest units).exponent.toNat + 1) := by
        ring
      have hplaces : -1 + (((shortest units).exponent.toNat + 1 : Nat) : Int) =
          (shortest units).exponent := by
        omega
      rw [hdigits, ofDecimal_mul_pow, hplaces]
      exact ofDecimal_shortest hgrid negative
    · rw [Decimal.plain_point_zero hexponent hstripped,
        Decimal.trimFraction_plain_point_zero hexponent]
      rfl

/-- **Numbers.** The text of a number, infinities and both zeros included, is an atom of the same
number. For a finite one it is a minus sign, if the number has one, and a plain number, which is
what an inspector shows of it, written out in full and trimmed. -/
theorem number_text_lossless (x : Double) (hnumber : x.isNaN = false) :
    (∀ payload, atomOfToken payload x.text = .number x) ∧
    ∀ negative units hgrid, x = .finite negative units hgrid →
      (∃ body, x.text = String.ofList (Double.signChars negative ++ body) ∧
        Decimal.IsPlain body) ∧
      ∃ d, Numeral.read? x.inspect.toList = some (.decimal negative d) ∧
        Double.ofDecimal negative d = x ∧
        x.text = String.ofList (Decimal.trimFraction (Double.signChars negative ++ d.plain)) := by
  constructor
  · intro payload
    rw [atomOfToken_text]
    cases x with
    | nan mark => cases hnumber
    | infinite negative => rfl
    | finite negative units hgrid => rfl
  · rintro negative units hgrid rfl
    refine ⟨⟨(Double.shortest units).plain, rfl, ?_⟩, Double.text_of_inspect hgrid⟩
    exact (Double.isStripped_shortest hgrid).isPlain_plain

/-- The smallest number below zero is inspected with an exponent and shown without. -/
theorem number_text_lossless_smallest :
    ∃ hgrid : OnGrid 1, (Double.finite true 1 hgrid).isNaN = false ∧
      (Double.finite true 1 hgrid).inspect = "-5e-324" ∧
      atomOfToken 1 (Double.finite true 1 hgrid).text = .number (.finite true 1 hgrid) ∧
      ∃ body, (Double.finite true 1 hgrid).text = String.ofList ('-' :: body) ∧
        Decimal.IsPlain body := by
  have hgrid : OnGrid 1 := by decide +kernel
  have hinspected : (Double.shortest 1).inspected = "5e-324".toList := by decide +kernel
  have hnumber : (Double.finite true 1 hgrid).isNaN = false := rfl
  have hinspect : (Double.finite true 1 hgrid).inspect = "-5e-324" := by
    rw [Double.inspect, hinspected]
    rfl
  obtain ⟨hatom, hfinite⟩ := number_text_lossless (.finite true 1 hgrid) hnumber
  obtain ⟨hplain, -⟩ := hfinite true 1 hgrid rfl
  exact ⟨hgrid, hnumber, hinspect, hatom 1, hplain⟩

end SetLisp
