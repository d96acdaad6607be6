import SetLisp.Proofs.Reading.Balance

namespace SetLisp

/-- How many more brackets the characters open than they close. -/
def depth (chars : List Char) : Int :=
  (chars.countP fun c => (openerOf? c).isSome) - (chars.countP fun c => (closerOf? c).isSome)

theorem depth_nil : depth [] = 0 := rfl

theorem depth_append (first second : List Char) :
    depth (first ++ second) = depth first + depth second := by
  rw [depth, depth, depth, List.countP_append, List.countP_append]
  push_cast
  omega

theorem depth_cons (c : Char) (rest : List Char) : depth (c :: rest) = depth [c] + depth rest :=
  depth_append [c] rest

theorem depth_opener (bracket : Bracket) : depth [bracket.opener] = 1 := by
  cases bracket <;> decide

theorem depth_closer (bracket : Bracket) : depth [bracket.closer] = -1 := by
  cases bracket <;> decide

theorem depth_single {c : Char} (hc : isBracket c = false) : depth [c] = 0 := by
  simp [depth, openerOf?_of_not_bracket hc, closerOf?_of_not_bracket hc]

theorem depth_of_not_bracket {chars : List Char} (hchars : ∀ c ∈ chars, isBracket c = false) :
    depth chars = 0 := by
  induction chars with
  | nil => rfl
  | cons c rest ih =>
      obtain ⟨hc, hrest⟩ := List.forall_mem_cons.mp hchars
      rw [depth_cons, depth_single hc, ih hrest, Int.add_zero]

theorem length_openedBy {opened next : List Bracket} {c : Char}
    (h : openedBy opened c = some next) : (next.length : Int) = opened.length + depth [c] := by
  rcases bracket_cases c with ⟨bracket, rfl⟩ | ⟨bracket, rfl⟩ | hplain
  · rw [openedBy_opener, Option.some.injEq] at h
    rw [← h, depth_opener, List.length_cons]
    push_cast
    rfl
  · rw [openedBy_closer] at h
    cases opened with
    | nil => cases h
    | cons inner outer =>
        cases h
        rw [depth_closer, List.length_cons]
        omega
  · rw [openedBy_of_not_bracket hplain, Option.some.injEq] at h
    rw [← h, depth_single hplain, Int.add_zero]

/-- The open brackets are as many as the depth. -/
theorem length_openedAfter {opened after : List Bracket} {chars : List Char}
    (h : openedAfter opened chars = some after) :
    (after.length : Int) = opened.length + depth chars := by
  induction chars generalizing opened with
  | nil =>
      cases h
      rw [depth_nil, Int.add_zero]
  | cons c rest ih =>
      rw [openedAfter_cons] at h
      obtain ⟨next, hnext, hrest⟩ := Option.bind_eq_some_iff.mp h
      rw [ih hrest, length_openedBy hnext, depth_cons c rest, Int.add_assoc]

theorem depth_eq_length {after : List Bracket} {chars : List Char}
    (h : openedAfter [] chars = some after) : depth chars = after.length := by
  have hlength := length_openedAfter h
  rw [List.length_nil] at hlength
  omega

theorem exists_openedAfter_front {after : List Bracket} {front chars : List Char}
    (h : openedAfter [] chars = some after) (hfront : front <+: chars) :
    ∃ middle, openedAfter [] front = some middle := by
  obtain ⟨back, rfl⟩ := hfront
  rw [openedAfter_append] at h
  obtain ⟨middle, hmiddle, -⟩ := Option.bind_eq_some_iff.mp h
  exact ⟨middle, hmiddle⟩

/-- Only brackets open and close. -/
theorem openedAfter_filter (opened : List Bracket) (chars : List Char) :
    openedAfter opened (chars.filter isBracket) = openedAfter opened chars := by
  induction chars generalizing opened with
  | nil => rfl
  | cons c rest ih =>
      cases hc : isBracket c with
      | true =>
          rw [List.filter_cons_of_pos hc, openedAfter_cons, openedAfter_cons]
          exact congrArg _ (funext ih)
      | false =>
          rw [List.filter_cons_of_neg (by simp [hc]), ih, openedAfter_cons,
            openedBy_of_not_bracket hc, Option.bind_some]

/-- The bracket is closed where none is open. -/
def Overcloses (bracket : Bracket) (chars : List Char) : Prop :=
  ∃ front rest, chars = front ++ bracket.closer :: rest ∧ openedAfter [] front = some []

theorem exists_overclosing {opened : List Bracket} {chars : List Char}
    (h : openedAfter opened chars = none) :
    ∃ front bracket rest, chars = front ++ Bracket.closer bracket :: rest ∧
      openedAfter opened front = some [] := by
  induction chars generalizing opened with
  | nil => cases h
  | cons c rest ih =>
      rw [openedAfter_cons] at h
      cases hnext : openedBy opened c with
      | some next =>
          rw [hnext, Option.bind_some] at h
          obtain ⟨front, bracket, back, rfl, hfront⟩ := ih h
          refine ⟨c :: front, bracket, back, rfl, ?_⟩
          rw [openedAfter_cons, hnext, Option.bind_some, hfront]
      | none =>
          rcases bracket_cases c with ⟨bracket, rfl⟩ | ⟨bracket, rfl⟩ | hplain
          · rw [openedBy_opener] at hnext
            cases hnext
          · rw [openedBy_closer] at hnext
            cases opened with
            | nil => exact ⟨[], bracket, rest, rfl, rfl⟩
            | cons inner outer => cases hnext
          · rw [openedBy_of_not_bracket hplain] at hnext
            cases hnext

theorem openedAfter_eq_none_iff {chars : List Char} :
    openedAfter [] chars = none ↔ ∃ bracket, Overcloses bracket chars := by
  constructor
  · intro h
    obtain ⟨front, bracket, rest, hchars, hfront⟩ := exists_overclosing h
    exact ⟨bracket, front, rest, hchars, hfront⟩
  · rintro ⟨bracket, front, rest, rfl, hfront⟩
    rw [openedAfter_append, hfront, Option.bind_some, openedAfter_cons, openedBy_closer]
    rfl

theorem overcloses_filter {bracket : Bracket} {chars : List Char} :
    Overcloses bracket (chars.filter isBracket) ↔ Overcloses bracket chars := by
  constructor
  · rintro ⟨front, rest, hfilter, hfront⟩
    obtain ⟨first, second, rfl, rfl, hsecond⟩ := List.filter_eq_append_iff.mp hfilter
    obtain ⟨between, back, rfl, hbetween, -, -⟩ := List.filter_eq_cons_iff.mp hsecond
    rw [openedAfter_filter] at hfront
    refine ⟨first ++ between, back, by simp, ?_⟩
    rw [openedAfter_append, hfront, Option.bind_some, openedAfter_of_not_bracket]
    exact fun c hc => eq_false_of_ne_true (hbetween c hc)
  · rintro ⟨front, rest, rfl, hfront⟩
    refine ⟨front.filter isBracket, rest.filter isBracket, ?_, ?_⟩
    · rw [List.filter_append, List.filter_cons_of_pos (isBracket_closer bracket)]
    · rw [openedAfter_filter, hfront]

/-- The shortest front part of negative depth ends with the character. -/
def FirstBelow (c : Char) (chars : List Char) : Prop :=
  ∃ front, front ++ [c] <+: chars ∧ depth (front ++ [c]) < 0 ∧
    ∀ other, other <+: chars → depth other < 0 → front ++ [c] <+: other

theorem depth_front_nonneg {after : List Bracket} {front chars : List Char}
    (h : openedAfter [] chars = some after) (hfront : front <+: chars) : 0 ≤ depth front := by
  obtain ⟨middle, hmiddle⟩ := exists_openedAfter_front h hfront
  rw [depth_eq_length hmiddle]
  omega

/-- No front part has a negative depth if no bracket is closed where none is open. -/
theorem exists_openedAfter_iff {chars : List Char} :
    (∃ after, openedAfter [] chars = some after) ↔ ∀ front, front <+: chars → 0 ≤ depth front := by
  constructor
  · rintro ⟨after, h⟩ front hfront
    exact depth_front_nonneg h hfront
  · intro h
    cases hafter : openedAfter [] chars with
    | some after => exact ⟨after, rfl⟩
    | none =>
        obtain ⟨bracket, front, rest, rfl, hfront⟩ := openedAfter_eq_none_iff.mp hafter
        have hbelow := h (front ++ [bracket.closer]) ⟨rest, by simp⟩
        rw [depth_append, depth_eq_length hfront, depth_closer, List.length_nil] at hbelow
        omega

theorem openedAfter_eq_none_iff_below {chars : List Char} :
    openedAfter [] chars = none ↔ ∃ front, front <+: chars ∧ depth front < 0 := by
  rw [Option.eq_none_iff_forall_ne_some, ← not_exists, exists_openedAfter_iff]
  simp only [not_forall, exists_prop, Int.not_le]

theorem openedAfter_eq_nil_iff {chars : List Char} :
    openedAfter [] chars = some [] ↔
      (∀ front, front <+: chars → 0 ≤ depth front) ∧ depth chars = 0 := by
  rw [← exists_openedAfter_iff]
  constructor
  · intro h
    exact ⟨⟨[], h⟩, depth_eq_length h⟩
  · rintro ⟨⟨after, h⟩, hdepth⟩
    rw [depth_eq_length h] at hdepth
    obtain rfl : after = [] := List.eq_nil_of_length_eq_zero (by omega)
    exact h

theorem openedAfter_eq_cons_iff {chars : List Char} :
    (∃ bracket outer, openedAfter [] chars = some (bracket :: outer)) ↔
      (∀ front, front <+: chars → 0 ≤ depth front) ∧ 0 < depth chars := by
  rw [← exists_openedAfter_iff]
  constructor
  · rintro ⟨bracket, outer, h⟩
    refine ⟨⟨bracket :: outer, h⟩, ?_⟩
    rw [depth_eq_length h, List.length_cons]
    omega
  · rintro ⟨⟨after, h⟩, hdepth⟩
    rw [depth_eq_length h] at hdepth
    obtain ⟨bracket, outer, rfl⟩ := List.exists_cons_of_length_pos (by omega : 0 < after.length)
    exact ⟨bracket, outer, h⟩

theorem overcloses_iff_firstBelow {bracket : Bracket} {chars : List Char} :
    Overcloses bracket chars ↔ FirstBelow bracket.closer chars := by
  constructor
  · rintro ⟨front, rest, rfl, hfront⟩
    have hfronts : front ++ [bracket.closer] <+: front ++ bracket.closer :: rest := ⟨rest, by simp⟩
    refine ⟨front, hfronts, ?_, fun other hother hdepth => ?_⟩
    · rw [depth_append, depth_eq_length hfront, depth_closer, List.length_nil]
      omega
    · rcases List.prefix_or_prefix_of_prefix hfronts hother with hlonger | hshorter
      · exact hlonger
      · rcases List.prefix_concat_iff.mp hshorter with rfl | hinside
        · exact List.prefix_rfl
        · have hnonneg := depth_front_nonneg hfront hinside
          omega
  · rintro ⟨front, ⟨rest, rfl⟩, hdepth, hshortest⟩
    have hinside : ∀ other, other <+: front → 0 ≤ depth other := by
      intro other hother
      by_contra hbelow
      have hlonger := (hshortest other
        (hother.trans ((List.prefix_append front _).trans (List.prefix_append _ rest)))
        (by omega)).length_le
      have hlength := hother.length_le
      rw [List.length_append, List.length_singleton] at hlonger
      omega
    obtain ⟨after, hafter⟩ := exists_openedAfter_iff.mpr hinside
    rw [depth_append, depth_eq_length hafter, depth_closer] at hdepth
    obtain rfl : after = [] := List.eq_nil_of_length_eq_zero (by omega)
    exact ⟨front, rest, by simp, hafter⟩

end SetLisp
