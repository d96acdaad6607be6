import SetLisp.Proofs.Number.Numeral

namespace SetLisp

namespace Decimal

theorem toDigits_mul_ten {n : Nat} (hn : 0 < n) :
    Nat.toDigits 10 (10 * n) = Nat.toDigits 10 n ++ ['0'] :=
  (@Nat.toDigits_append_toDigits 10 n 0 (by decide) hn (by decide)).symm

theorem toDigits_mul_ten_pow {n : Nat} (hn : 0 < n) (zeros : Nat) :
    Nat.toDigits 10 (10 ^ zeros * n) = Nat.toDigits 10 n ++ List.replicate zeros '0' := by
  induction zeros with
  | zero => simp
  | succ zeros ih =>
      have hpos : 0 < 10 ^ zeros * n := Nat.mul_pos (Nat.pow_pos (by decide)) hn
      calc Nat.toDigits 10 (10 ^ (zeros + 1) * n)
          = Nat.toDigits 10 (10 * (10 ^ zeros * n)) := by rw [Nat.pow_succ', Nat.mul_assoc]
        _ = Nat.toDigits 10 n ++ List.replicate zeros '0' ++ ['0'] := by
            rw [toDigits_mul_ten hpos, ih]
        _ = Nat.toDigits 10 n ++ List.replicate (zeros + 1) '0' := by
            rw [List.append_assoc, List.replicate_succ']

/-- No more powers of ten divide a number than its digits have zeros at the end. -/
theorem le_zeros {n zeros : Nat} (hn : 0 < n) (hdvd : 10 ^ zeros ∣ n) :
    zeros ≤ ((Nat.toDigits 10 n).reverse.takeWhile (· == '0')).length := by
  obtain ⟨rest, rfl⟩ := hdvd
  have hrest : 0 < rest := Nat.pos_of_mul_pos_left hn
  have hzeros : ∀ c ∈ List.replicate zeros '0', (c == '0') = true := fun c hc =>
    beq_iff_eq.mpr (List.eq_of_mem_replicate hc)
  rw [toDigits_mul_ten_pow hrest, List.reverse_append, List.reverse_replicate,
    List.takeWhile_append_of_pos hzeros, List.length_append, List.length_replicate]
  exact Nat.le_add_right ..

theorem not_ten_dvd_stripped {d : Decimal} (hdigits : d.digits ≠ 0) :
    ¬ 10 ∣ d.stripped.digits := by
  rintro ⟨rest, hrest⟩
  have hall := Nat.div_mul_cancel (Double.ten_pow_dvd_digits d.digits)
  have hmost : ∀ zeros, 10 ^ zeros ∣ d.digits → _ := fun zeros =>
    le_zeros (Nat.pos_of_ne_zero hdigits)
  change d.digits / Nat.pow 10 _ = 10 * rest at hrest
  rw [Nat.pow_eq] at hrest
  rw [hrest] at hall
  generalize ((Nat.toDigits 10 d.digits).reverse.takeWhile (· == '0')).length = zeros at hall hmost
  have hmore := hmost (zeros + 1) ⟨rest, by rw [← hall, Nat.pow_succ]; ring⟩
  omega

/-- Digits, and perhaps a point and more digits the last of which is no zero. -/
inductive IsPlain : List Char → Prop
  | whole {digits : List Char} (hne : digits ≠ []) (hdigits : ∀ c ∈ digits, c.isDigit = true) :
      IsPlain digits
  | fraction {whole digits : List Char} {last : Char} (hne : whole ≠ [])
      (hwhole : ∀ c ∈ whole, c.isDigit = true)
      (hdigits : ∀ c ∈ digits ++ [last], c.isDigit = true) (hlast : last ≠ '0') :
      IsPlain (whole ++ '.' :: (digits ++ [last]))

/-- The digits of the decimal do not end with a zero, unless that is all there is. -/
def IsStripped (d : Decimal) : Prop :=
  d = ⟨0, 0⟩ ∨ ¬ 10 ∣ d.digits

theorem IsStripped.isPlain_plain {d : Decimal} (h : d.IsStripped) : IsPlain d.plain := by
  by_cases hexponent : 0 ≤ d.exponent
  · obtain ⟨hall, hne, -⟩ := plain_of_nonneg hexponent
    exact .whole hne hall
  · obtain ⟨whole, fraction, hplain, hne, hall, hvalue, hlength⟩ :=
      exists_plain_of_neg (Int.not_le.mp hexponent)
    obtain ⟨hwhole, hfraction⟩ := List.forall_mem_append.mp hall
    rcases List.eq_nil_or_concat fraction with rfl | ⟨digits, last, rfl⟩
    · rw [List.length_nil] at hlength
      omega
    · rw [List.concat_eq_append] at hplain hfraction hvalue
      rw [hplain]
      refine .fraction hne hwhole hfraction ?_
      rintro rfl
      -- a zero at the end would make the digits a multiple of ten
      have hwhole : d ≠ ⟨0, 0⟩ := by
        rintro rfl
        exact hexponent (Int.le_refl 0)
      rw [← List.append_assoc, Nat.ofDigitChars_append] at hvalue
      exact h.resolve_left hwhole ⟨_, hvalue.symm⟩

end Decimal

namespace Double

theorem digits_ne_zero_of_readsBack {units : Nat} (hgrid : OnGrid units) (hunits : units ≠ 0)
    {d : Decimal} (h : readsBack units d = true) : d.digits ≠ 0 := by
  intro hzero
  have hread : ofDecimal false d = ofUnits false units := eq_of_beq h
  obtain ⟨digits, exponent⟩ := d
  obtain rfl : digits = 0 := hzero
  rw [ofDecimal_zero_digits] at hread
  exact hunits (eq_of_ofUnits_eq hgrid hread).symm

theorem isStripped_shortest {units : Nat} (hgrid : OnGrid units) :
    (shortest units).IsStripped := by
  by_cases hunits : units = 0
  · exact .inl (if_pos hunits)
  · right
    rw [shortest, if_neg hunits]
    apply Decimal.not_ten_dvd_stripped
    cases hfound : (List.range 17).findSome? fun (more : Nat) =>
        neighbour? units (leadingExponent units - more) with
    | none =>
        have hpow : ∀ places, Nat.pow 5 places ≠ 0 := fun places =>
          Nat.ne_of_gt (Nat.pow_pos (by decide))
        exact Nat.mul_ne_zero hunits (hpow 1074)
    | some d =>
        obtain ⟨more, -, hneighbour⟩ := List.exists_of_findSome?_eq_some hfound
        exact digits_ne_zero_of_readsBack hgrid hunits (readsBack_of_neighbour? hneighbour)

end Double

end SetLisp
