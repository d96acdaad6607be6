import Mathlib.Tactic.Ring
import SetLisp.Double.Shortest

/-!
# Rounding

Rounding a quotient depends on its value alone, so two decimals of one value are read as one
double. Past the grid a decimal is an infinity and far below a unit a zero, as if its power of ten
had been computed. The shortest digits of a double read back as the double.
-/

namespace SetLisp.Double

theorem roundQuotient_mul_left {scale : Nat} (hscale : 0 < scale) (numerator denominator : Nat) :
    roundQuotient (scale * numerator) (scale * denominator) =
      roundQuotient numerator denominator := by
  have hcompare : compare (2 * (scale * (numerator % denominator))) (scale * denominator) =
      compare (2 * (numerator % denominator)) denominator := by
    rw [Nat.mul_left_comm, Nat.compare_eq_ite_lt, Nat.compare_eq_ite_lt]
    simp [Nat.mul_lt_mul_left hscale]
  rw [roundQuotient, roundQuotient, Nat.mul_div_mul_left _ _ hscale, Nat.mul_mod_mul_left,
    hcompare]

theorem roundQuotient_eq_div {numerator denominator : Nat} (hdenominator : 0 < denominator)
    (hdvd : denominator ∣ numerator) :
    roundQuotient numerator denominator = numerator / denominator := by
  have hcompare : compare (2 * (numerator % denominator)) denominator = .lt := by
    rw [Nat.mod_eq_zero_of_dvd hdvd]
    exact Nat.compare_eq_lt.mpr hdenominator
  rw [roundQuotient, hcompare]

theorem roundQuotient_eq_zero {numerator denominator : Nat} (hsmall : 2 * numerator < denominator) :
    roundQuotient numerator denominator = 0 := by
  have hlt : numerator < denominator := by omega
  have hcompare : compare (2 * (numerator % denominator)) denominator = .lt := by
    rw [Nat.mod_eq_of_lt hlt]
    exact Nat.compare_eq_lt.mpr hsmall
  rw [roundQuotient, hcompare]
  exact Nat.div_eq_of_lt hlt

theorem le_roundQuotient (numerator denominator : Nat) :
    numerator / denominator ≤ roundQuotient numerator denominator := by
  unfold roundQuotient
  split
  · exact Nat.le_refl _
  · exact Nat.le_succ _
  · dsimp only
    split
    · exact Nat.le_refl _
    · exact Nat.le_succ _

theorem spacing_eq (units : Nat) : spacing units = 2 ^ (units.log2 - 52) :=
  Nat.pow_eq

theorem spacing_pos (units : Nat) : 0 < spacing units := by
  rw [spacing_eq]
  exact Nat.two_pow_pos _

theorem unitsPerOne_eq : unitsPerOne = 2 ^ 1074 :=
  Nat.pow_eq

theorem unitsPerOne_pos : 0 < unitsPerOne := by
  rw [unitsPerOne_eq]
  exact Nat.two_pow_pos _

/-- The magnitude, in units, that a quotient of units is rounded to. -/
def nearestUnits (numerator denominator : Nat) : Nat :=
  spacing (numerator / denominator) *
    roundQuotient numerator (spacing (numerator / denominator) * denominator)

theorem nearest_eq (negative : Bool) (numerator denominator : Nat) :
    nearest negative numerator denominator =
      ofUnits negative (nearestUnits numerator denominator) := rfl

theorem nearestUnits_mul_left {scale : Nat} (hscale : 0 < scale) (numerator denominator : Nat) :
    nearestUnits (scale * numerator) (scale * denominator) =
      nearestUnits numerator denominator := by
  rw [nearestUnits, nearestUnits, Nat.mul_div_mul_left _ _ hscale, Nat.mul_left_comm,
    roundQuotient_mul_left hscale]

/-- Quotients of one value are rounded alike. -/
theorem nearestUnits_congr {a b a' b' : Nat} (hb : 0 < b) (hb' : 0 < b') (h : a * b' = a' * b) :
    nearestUnits a b = nearestUnits a' b' := by
  calc nearestUnits a b = nearestUnits (b' * a) (b' * b) := (nearestUnits_mul_left hb' a b).symm
    _ = nearestUnits (b * a') (b * b') := by
      rw [Nat.mul_comm b' a, h, Nat.mul_comm a', Nat.mul_comm b']
    _ = nearestUnits a' b' := nearestUnits_mul_left hb a' b'

/-- A magnitude on the grid is rounded to itself. -/
theorem nearestUnits_of_onGrid {units : Nat} (hgrid : OnGrid units) :
    nearestUnits units 1 = units := by
  rw [nearestUnits, Nat.div_one, Nat.mul_one,
    roundQuotient_eq_div (spacing_pos units) hgrid.2, Nat.mul_div_cancel' hgrid.2]

theorem nearestUnits_eq_zero {numerator denominator : Nat} (hsmall : 2 * numerator < denominator) :
    nearestUnits numerator denominator = 0 := by
  have hquotient : numerator / denominator = 0 := Nat.div_eq_of_lt (by omega)
  have hspacing : spacing 0 = 1 := rfl
  rw [nearestUnits, hquotient, hspacing, Nat.one_mul, Nat.one_mul, roundQuotient_eq_zero hsmall]

/-- A power of two below a magnitude is below the grid point at or below the magnitude. -/
theorem two_pow_le_spacing_mul_div (exponent : Nat) {units : Nat} (hle : 2 ^ exponent ≤ units) :
    2 ^ exponent ≤ spacing units * (units / spacing units) := by
  have hunits : units ≠ 0 := Nat.ne_of_gt (Nat.lt_of_lt_of_le (Nat.two_pow_pos exponent) hle)
  by_cases hexponent : units.log2 - 52 ≤ exponent
  · have hdvd : spacing units ∣ 2 ^ exponent := Nat.pow_dvd_pow 2 hexponent
    calc 2 ^ exponent = spacing units * (2 ^ exponent / spacing units) :=
          (Nat.mul_div_cancel' hdvd).symm
      _ ≤ spacing units * (units / spacing units) :=
          Nat.mul_le_mul_left _ (Nat.div_le_div_right hle)
  · have hspacing : spacing units ≤ units :=
      (Nat.pow_le_pow_right (by decide) (Nat.sub_le _ 52)).trans (Nat.log2_self_le hunits)
    calc 2 ^ exponent ≤ spacing units := Nat.pow_le_pow_right (by decide) (by omega)
      _ = spacing units * 1 := (Nat.mul_one _).symm
      _ ≤ spacing units * (units / spacing units) :=
          Nat.mul_le_mul_left _ (Nat.div_pos hspacing (spacing_pos units))

/-- What lies past the grid is not rounded back onto it. -/
theorem gridEnd_le_nearestUnits {numerator denominator : Nat}
    (hlarge : gridEnd ≤ numerator / denominator) :
    gridEnd ≤ nearestUnits numerator denominator := by
  have hround := le_roundQuotient numerator (spacing (numerator / denominator) * denominator)
  rw [Nat.mul_comm, ← Nat.div_div_eq_div_mul, Nat.mul_comm] at hround
  have hfloor := two_pow_le_spacing_mul_div 2098 hlarge
  exact Nat.le_trans hfloor (Nat.mul_le_mul_left (spacing (numerator / denominator)) hround)

theorem ofUnits_zero (negative : Bool) : ofUnits negative 0 = zero negative := rfl

theorem ofUnits_of_onGrid {units : Nat} (hgrid : OnGrid units) (negative : Bool) :
    ofUnits negative units = .finite negative units hgrid :=
  dif_pos hgrid

theorem ofUnits_of_gridEnd_le {units : Nat} (hlarge : gridEnd ≤ units) (negative : Bool) :
    ofUnits negative units = .infinite negative :=
  dif_neg fun hgrid => Nat.not_lt.mpr hlarge hgrid.1

theorem ofDecimalExactly_eq (negative : Bool) (d : Decimal) :
    ofDecimalExactly negative d =
      ofUnits negative (nearestUnits (d.digits * 10 ^ d.exponent.toNat * unitsPerOne)
        (10 ^ (-d.exponent).toNat)) := by
  rw [ofDecimalExactly, nearest_eq]
  rfl

theorem two_pow_le_ten_pow {low high : Nat} (hle : low ≤ 3 * high) : 2 ^ low ≤ 10 ^ high :=
  calc 2 ^ low ≤ 2 ^ (3 * high) := Nat.pow_le_pow_right (by decide) hle
    _ = 8 ^ high := Nat.pow_mul 2 3 high
    _ ≤ 10 ^ high := Nat.pow_le_pow_left (by decide) high

theorem two_pow_eq_mul {low high total : Nat} (htotal : total = low + high) :
    2 ^ total = 2 ^ low * 2 ^ high := by
  rw [htotal, Nat.pow_add]

theorem ofDecimalExactly_of_large {d : Decimal} (hdigits : d.digits ≠ 0)
    (hexponent : 400 < d.exponent) (negative : Bool) :
    ofDecimalExactly negative d = .infinite negative := by
  have hend : gridEnd ≤ d.digits * 10 ^ d.exponent.toNat * unitsPerOne :=
    calc gridEnd = 2 ^ 1024 * unitsPerOne := two_pow_eq_mul (by decide)
      _ ≤ 10 ^ d.exponent.toNat * unitsPerOne :=
          Nat.mul_le_mul_right _ (two_pow_le_ten_pow (by omega))
      _ ≤ d.digits * 10 ^ d.exponent.toNat * unitsPerOne :=
          Nat.mul_le_mul_right _ (Nat.le_mul_of_pos_left _ (Nat.pos_of_ne_zero hdigits))
  have hdenominator : (-d.exponent).toNat = 0 := by omega
  rw [ofDecimalExactly_eq, hdenominator, Nat.pow_zero]
  exact ofUnits_of_gridEnd_le (gridEnd_le_nearestUnits (by rwa [Nat.div_one])) negative

theorem ofDecimalExactly_of_small {d : Decimal} (hexponent : d.exponent < -(d.digits.log2 + 400))
    (negative : Bool) : ofDecimalExactly negative d = zero negative := by
  have hnumerator : d.exponent.toNat = 0 := by omega
  have hsmall : 2 * (d.digits * unitsPerOne) < 10 ^ (-d.exponent).toNat :=
    calc 2 * (d.digits * unitsPerOne) < 2 * (2 ^ (d.digits.log2 + 1) * unitsPerOne) :=
          Nat.mul_lt_mul_of_pos_left
            (Nat.mul_lt_mul_of_pos_right Nat.lt_log2_self unitsPerOne_pos) (by decide)
      _ = 2 ^ (1 + (d.digits.log2 + 1 + 1074)) := by
          rw [Nat.pow_add 2 1, Nat.pow_add 2 (d.digits.log2 + 1), Nat.pow_one, unitsPerOne_eq]
      _ ≤ 10 ^ (-d.exponent).toNat := two_pow_le_ten_pow (by omega)
  rw [ofDecimalExactly_eq, hnumerator, Nat.pow_zero, Nat.mul_one, nearestUnits_eq_zero hsmall,
    ofUnits_zero]

/-- The powers of ten that are never computed would give the same double. -/
theorem ofDecimal_eq_ofDecimalExactly (negative : Bool) (d : Decimal) :
    ofDecimal negative d = ofDecimalExactly negative d := by
  unfold ofDecimal
  split
  · next hdigits =>
      have hzero : nearestUnits 0 (10 ^ (-d.exponent).toNat) = 0 :=
        nearestUnits_eq_zero (Nat.pow_pos (by decide))
      rw [ofDecimalExactly_eq, hdigits, Nat.zero_mul, Nat.zero_mul, hzero, ofUnits_zero]
  · next hdigits =>
      split
      · next hlarge => exact (ofDecimalExactly_of_large hdigits hlarge negative).symm
      · split
        · next hsmall => exact (ofDecimalExactly_of_small hsmall negative).symm
        · rfl

/-- Zeros may move from the digits into the exponent. -/
theorem ofDecimal_mul_pow (negative : Bool) (digits zeros : Nat) (exponent : Int) :
    ofDecimal negative ⟨digits * 10 ^ zeros, exponent⟩ =
      ofDecimal negative ⟨digits, exponent + zeros⟩ := by
  rw [ofDecimal_eq_ofDecimalExactly, ofDecimal_eq_ofDecimalExactly, ofDecimalExactly_eq,
    ofDecimalExactly_eq]
  refine congrArg (ofUnits negative) (nearestUnits_congr (Nat.pow_pos (by decide))
    (Nat.pow_pos (by decide)) ?_)
  have hpowers : zeros + exponent.toNat + (-(exponent + zeros)).toNat =
      (exponent + zeros).toNat + (-exponent).toNat := by omega
  have h := congrArg (fun power => digits * 10 ^ power * unitsPerOne) hpowers
  simp only [Nat.pow_add] at h
  calc _ = digits * (10 ^ zeros * 10 ^ exponent.toNat * 10 ^ (-(exponent + zeros)).toNat) *
          unitsPerOne := by ring
    _ = digits * (10 ^ (exponent + zeros).toNat * 10 ^ (-exponent).toNat) * unitsPerOne := h
    _ = _ := by ring

/-! ### Shortest digits -/

theorem ten_pow_dvd_digits (digits : Nat) :
    10 ^ ((Nat.toDigits 10 digits).reverse.takeWhile (· == '0')).length ∣ digits := by
  generalize hzeros : (Nat.toDigits 10 digits).reverse.takeWhile (· == '0') = zeros
  have hreplicate : zeros.reverse = List.replicate zeros.length '0' := by
    rw [List.eq_replicate_iff, List.length_reverse]
    refine ⟨rfl, fun c hc => ?_⟩
    have hall := List.all_takeWhile (p := (· == '0')) (l := (Nat.toDigits 10 digits).reverse)
    rw [hzeros, List.all_eq_true] at hall
    exact eq_of_beq (hall c (List.mem_reverse.mp hc))
  have hsplit := List.takeWhile_append_dropWhile (p := (· == '0'))
    (l := (Nat.toDigits 10 digits).reverse)
  rw [hzeros] at hsplit
  have hdigits := congrArg List.reverse hsplit
  rw [List.reverse_append, hreplicate, List.reverse_reverse] at hdigits
  have hvalue : Nat.ofDigitChars 10 (Nat.toDigits 10 digits) 0 = digits :=
    Nat.ofDigitChars_ten_toDigits
  rw [← hdigits, Nat.ofDigitChars_append, Nat.ofDigitChars_replicate_zero] at hvalue
  exact ⟨_, hvalue.symm⟩

theorem ofDecimal_stripped (negative : Bool) (d : Decimal) :
    ofDecimal negative d.stripped = ofDecimal negative d := by
  have hdigits := Nat.div_mul_cancel (ten_pow_dvd_digits d.digits)
  rw [Decimal.stripped, ← ofDecimal_mul_pow, Nat.pow_eq, hdigits]

theorem ofDecimal_allDigits {units places : Nat} (hgrid : OnGrid units)
    (hplaces : unitsPerOne = 2 ^ places) (negative : Bool) :
    ofDecimal negative ⟨units * 5 ^ places, -places⟩ = ofUnits negative units := by
  have hnumerator : (-(places : Int)).toNat = 0 := by omega
  have hdenominator : (-(-(places : Int))).toNat = places := by omega
  have hvalue : units * 5 ^ places * 2 ^ places * 1 = units * 10 ^ places := by
    rw [Nat.mul_one, Nat.mul_assoc, ← Nat.mul_pow]
  rw [ofDecimal_eq_ofDecimalExactly, ofDecimalExactly_eq, hnumerator, hdenominator, Nat.pow_zero,
    Nat.mul_one, hplaces]
  refine congrArg (ofUnits negative) ?_
  calc nearestUnits (units * 5 ^ places * 2 ^ places) (10 ^ places)
      = nearestUnits units 1 := nearestUnits_congr (Nat.pow_pos (by decide)) Nat.one_pos hvalue
    _ = units := nearestUnits_of_onGrid hgrid

theorem eq_of_ofUnits_eq {units units' : Nat} (hgrid : OnGrid units) {negative : Bool}
    (h : ofUnits negative units' = ofUnits negative units) : units' = units := by
  rw [ofUnits_of_onGrid hgrid] at h
  by_cases hgrid' : OnGrid units'
  · rw [ofUnits_of_onGrid hgrid'] at h
    injection h
  · rw [ofUnits, dif_neg hgrid'] at h
    cases h

theorem eq_of_readable? {below above d : Decimal} {order : Ordering} {belowReads aboveReads : Bool}
    (h : readable? below above order belowReads aboveReads = some d) :
    (belowReads = true ∧ d = below) ∨ (aboveReads = true ∧ d = above) := by
  unfold readable? at h
  split at h
  · cases h
  · exact .inl ⟨rfl, (Option.some.inj h).symm⟩
  · exact .inr ⟨rfl, (Option.some.inj h).symm⟩
  · split at h
    · exact .inl ⟨rfl, (Option.some.inj h).symm⟩
    · exact .inr ⟨rfl, (Option.some.inj h).symm⟩
    · by_cases heven : below.digits % 2 = 0
      · rw [if_pos heven] at h
        exact .inl ⟨rfl, (Option.some.inj h).symm⟩
      · rw [if_neg heven] at h
        exact .inr ⟨rfl, (Option.some.inj h).symm⟩

theorem readsBack_of_neighbour? {units : Nat} {exponent : Int} {d : Decimal}
    (h : neighbour? units exponent = some d) : readsBack units d = true := by
  unfold neighbour? at h
  dsimp only at h
  obtain ⟨hreads, rfl⟩ | ⟨hreads, rfl⟩ := eq_of_readable? h
  · exact hreads
  · exact hreads

theorem ofDecimal_zero_digits (negative : Bool) (exponent : Int) :
    ofDecimal negative ⟨0, exponent⟩ = ofUnits negative 0 :=
  if_pos rfl

/-- **Shortest digits.** They read back as the double they were found for, with either sign. -/
theorem ofDecimal_shortest {units : Nat} (hgrid : OnGrid units) (negative : Bool) :
    ofDecimal negative (shortest units) = .finite negative units hgrid := by
  have hpositive : ofDecimal false (shortest units) = ofUnits false units := by
    unfold shortest
    split
    · next hzero =>
        rw [hzero, ofDecimal_zero_digits]
    · dsimp only
      rw [ofDecimal_stripped]
      cases hfound : (List.range 17).findSome? fun (more : Nat) =>
          neighbour? units (leadingExponent units - more) with
      | none => exact ofDecimal_allDigits hgrid unitsPerOne_eq false
      | some d =>
          obtain ⟨more, -, hneighbour⟩ := List.exists_of_findSome?_eq_some hfound
          exact eq_of_beq (readsBack_of_neighbour? hneighbour)
  rw [ofDecimal_eq_ofDecimalExactly, ofDecimalExactly_eq] at hpositive ⊢
  rw [eq_of_ofUnits_eq hgrid hpositive, ofUnits_of_onGrid hgrid]

end SetLisp.Double
