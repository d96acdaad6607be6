import Mathlib.Tactic.SplitIfs
import SetLisp.Source.Decode

namespace SetLisp

namespace Text

open Utf8Partial

/-- Where a run of bytes without a fault ends. -/
def endingOf : Option Utf8Partial → Utf8Ending
  | none => .whole
  | some sequence => .unfinished sequence

/-- The bytes are decoded to the characters without a fault. The run starts inside `pending`, if
that is given, and ends inside `held`. -/
inductive Decodes : Option Utf8Partial → List UInt8 → List Char → Option Utf8Partial → Prop
  | nil {pending : Option Utf8Partial} : Decodes pending [] [] pending
  | single {byte : UInt8} {rest : List UInt8} {chars : List Char} {held : Option Utf8Partial}
      (hbyte : byte.toNat < 0x80) (hrest : Decodes none rest chars held) :
      Decodes none (byte :: rest) (Char.ofNat byte.toNat :: chars) held
  | leading {byte : UInt8} {rest : List UInt8} {chars : List Char} {held : Option Utf8Partial}
      {sequence : Utf8Partial} (hbyte : ¬ byte.toNat < 0x80)
      (hopened : opened? byte = some sequence)
      (hrest : Decodes (some sequence) rest chars held) : Decodes none (byte :: rest) chars held
  | last {byte : UInt8} {rest : List UInt8} {chars : List Char} {held : Option Utf8Partial}
      {sequence : Utf8Partial} (haccepts : sequence.accepts byte = true)
      (howed : (sequence.extend byte).owed = 0) (hrest : Decodes none rest chars held) :
      Decodes (some sequence) (byte :: rest)
        (Char.ofNat (sequence.extend byte).code :: chars) held
  | more {byte : UInt8} {rest : List UInt8} {chars : List Char} {held : Option Utf8Partial}
      {sequence : Utf8Partial} (haccepts : sequence.accepts byte = true)
      (howed : (sequence.extend byte).owed ≠ 0)
      (hrest : Decodes (some (sequence.extend byte)) rest chars held) :
      Decodes (some sequence) (byte :: rest) chars held

variable {pending middle held : Option Utf8Partial} {first second bytes : List UInt8}
  {chars chars' : List Char}

theorem Decodes.decodeRun (h : Decodes pending bytes chars held) (position : Nat) :
    decodeRun position pending bytes = (chars, endingOf held) := by
  induction h generalizing position with
  | @nil pending => cases pending <;> rfl
  | single hbyte _ ih => rw [Text.decodeRun, if_pos hbyte, ih]
  | leading hbyte hopened _ ih =>
      rw [Text.decodeRun, if_neg hbyte, hopened]
      exact ih (position + 1)
  | last haccepts howed _ ih => rw [Text.decodeRun, if_pos haccepts, if_pos howed, ih]
  | more haccepts howed _ ih => rw [Text.decodeRun, if_pos haccepts, if_neg howed, ih]

theorem Decodes.append (h : Decodes pending first chars middle)
    (hsecond : Decodes middle second chars' held) :
    Decodes pending (first ++ second) (chars ++ chars') held := by
  induction h with
  | nil => exact hsecond
  | single hbyte _ ih => exact .single hbyte (ih hsecond)
  | leading hbyte hopened _ ih => exact .leading hbyte hopened (ih hsecond)
  | last haccepts howed _ ih => exact .last haccepts howed (ih hsecond)
  | more haccepts howed _ ih => exact .more haccepts howed (ih hsecond)

/-- A run may be cut anywhere. -/
theorem Decodes.split (h : Decodes pending (first ++ second) chars held) :
    ∃ middle front back, chars = front ++ back ∧ Decodes pending first front middle ∧
      Decodes middle second back held := by
  induction first generalizing pending chars with
  | nil => exact ⟨pending, [], chars, rfl, .nil, h⟩
  | cons byte rest ih =>
      cases h with
      | single hbyte hrest =>
          obtain ⟨middle, front, back, rfl, hfront, hback⟩ := ih hrest
          exact ⟨middle, _, back, rfl, .single hbyte hfront, hback⟩
      | leading hbyte hopened hrest =>
          obtain ⟨middle, front, back, rfl, hfront, hback⟩ := ih hrest
          exact ⟨middle, front, back, rfl, .leading hbyte hopened hfront, hback⟩
      | last haccepts howed hrest =>
          obtain ⟨middle, front, back, rfl, hfront, hback⟩ := ih hrest
          exact ⟨middle, _, back, rfl, .last haccepts howed hfront, hback⟩
      | more haccepts howed hrest =>
          obtain ⟨middle, front, back, rfl, hfront, hback⟩ := ih hrest
          exact ⟨middle, front, back, rfl, .more haccepts howed hfront, hback⟩

theorem toNat_ofNat {n : Nat} (hn : n < 256) : (UInt8.ofNat n).toNat = n :=
  Nat.mod_eq_of_lt hn

/-- The bits of a sequence with those of one byte more. -/
def gather (code : Nat) (byte : UInt8) : Nat :=
  code * 64 + (byte.toNat - 0x80)

theorem code_extend (sequence : Utf8Partial) (byte : UInt8) :
    (sequence.extend byte).code = gather sequence.code byte := rfl

theorem owed_extend (sequence : Utf8Partial) (byte : UInt8) :
    (sequence.extend byte).owed = sequence.owed - 1 := rfl

/-- The bytes that a sequence is owed finish its character. -/
theorem decodes_owed {sequence : Utf8Partial} {byte : UInt8} {rest : List UInt8}
    (howed : sequence.owed = rest.length + 1) (hbyte : sequence.accepts byte = true)
    (hrest : ∀ other ∈ rest, 0x80 ≤ other.toNat ∧ other.toNat ≤ 0xBF) :
    Decodes (some sequence) (byte :: rest)
      [Char.ofNat ((byte :: rest).foldl gather sequence.code)] none := by
  induction rest generalizing sequence byte with
  | nil =>
      have hlast : (sequence.extend byte).owed = 0 := by
        rw [owed_extend, howed]
        rfl
      rw [List.foldl_cons, List.foldl_nil, ← code_extend]
      exact .last hbyte hlast .nil
  | cons other rest ih =>
      have hleft : (sequence.extend byte).owed = rest.length + 1 := by
        rw [owed_extend, howed]
        rfl
      have hother : (sequence.extend byte).accepts other = true := by
        obtain ⟨hlow, hhigh⟩ := hrest other List.mem_cons_self
        simp [extend, accepts, hlow, hhigh]
      rw [List.foldl_cons, ← code_extend]
      refine .more hbyte (by rw [hleft]; exact Nat.succ_ne_zero _) ?_
      exact ih hleft hother fun next hnext => hrest next (List.mem_cons_of_mem other hnext)

theorem opened?_two {a : Nat} (hlow : 0xC2 ≤ a) (hhigh : a ≤ 0xDF) :
    opened? (UInt8.ofNat a) = some ⟨[UInt8.ofNat a], a - 0xC0, 1, 0x80, 0xBF⟩ := by
  rw [opened?, toNat_ofNat (by omega), if_pos ⟨hlow, hhigh⟩]

theorem opened?_three {a : Nat} (hlow : 0xE0 ≤ a) (hhigh : a ≤ 0xEF) :
    ∃ low high, opened? (UInt8.ofNat a) = some ⟨[UInt8.ofNat a], a - 0xE0, 2, low, high⟩ ∧
      ∀ b, 0x80 ≤ b → b ≤ 0xBF → (a = 0xE0 → 0xA0 ≤ b) → (a = 0xED → b ≤ 0x9F) →
        low ≤ b ∧ b ≤ high := by
  rw [opened?, toNat_ofNat (by omega), if_neg (by omega)]
  by_cases hfirst : a = 0xE0
  · rw [if_pos hfirst]
    exact ⟨0xA0, 0xBF, by rw [hfirst], by omega⟩
  · rw [if_neg hfirst]
    by_cases hsurrogate : a = 0xED
    · rw [if_pos hsurrogate]
      exact ⟨0x80, 0x9F, by rw [hsurrogate], by omega⟩
    · rw [if_neg hsurrogate, if_pos (by omega)]
      exact ⟨0x80, 0xBF, rfl, by omega⟩

theorem opened?_four {a : Nat} (hlow : 0xF0 ≤ a) (hhigh : a ≤ 0xF4) :
    ∃ low high, opened? (UInt8.ofNat a) = some ⟨[UInt8.ofNat a], a - 0xF0, 3, low, high⟩ ∧
      ∀ b, 0x80 ≤ b → b ≤ 0xBF → (a = 0xF0 → 0x90 ≤ b) → (a = 0xF4 → b ≤ 0x8F) →
        low ≤ b ∧ b ≤ high := by
  rw [opened?, toNat_ofNat (by omega), if_neg (by omega), if_neg (by omega), if_neg (by omega),
    if_neg (by omega)]
  by_cases hfirst : a = 0xF0
  · rw [if_pos hfirst]
    exact ⟨0x90, 0xBF, by rw [hfirst], by omega⟩
  · rw [if_neg hfirst]
    by_cases hmiddle : a ≤ 0xF3
    · rw [if_pos (by omega)]
      exact ⟨0x80, 0xBF, rfl, by omega⟩
    · obtain rfl : a = 0xF4 := by omega
      exact ⟨0x80, 0x8F, rfl, by omega⟩

/-- A code point is a character: it is no surrogate and not past the last one. -/
theorem toNat_bounds (c : Char) : c.toNat < 0xD800 ∨ 0xDFFF < c.toNat ∧ c.toNat < 0x110000 :=
  c.valid

/-- A leading byte and the bytes its sequence is owed. -/
theorem decodes_leading {lead byte : UInt8} {rest : List UInt8} {code low high : Nat}
    (hlead : 0x80 ≤ lead.toNat)
    (hopened : opened? lead = some ⟨[lead], code, rest.length + 1, low, high⟩)
    (hbyte : low ≤ byte.toNat ∧ byte.toNat ≤ high)
    (hrest : ∀ other ∈ rest, 0x80 ≤ other.toNat ∧ other.toNat ≤ 0xBF) :
    Decodes none (lead :: byte :: rest) [Char.ofNat ((byte :: rest).foldl gather code)] none := by
  refine .leading (by omega) hopened ?_
  have hsequence : accepts ⟨[lead], code, rest.length + 1, low, high⟩ byte = true := by
    simp [accepts, hbyte]
  exact decodes_owed rfl hsequence hrest

/-- A byte that holds the last six bits of `n`. -/
def tailByte (n : Nat) : UInt8 :=
  UInt8.ofNat (n % 64 + 128)

theorem toNat_tailByte (n : Nat) : (tailByte n).toNat = n % 64 + 128 :=
  toNat_ofNat (by omega)

theorem gather_tailByte (code n : Nat) : gather code (tailByte n) = code * 64 + n % 64 := by
  have hbyte := toNat_tailByte n
  unfold gather
  omega

theorem tailByte_bounds (n : Nat) : 0x80 ≤ (tailByte n).toNat ∧ (tailByte n).toNat ≤ 0xBF := by
  rw [toNat_tailByte]
  omega

theorem decodes_two {n : Nat} (hlow : 0x80 ≤ n) (hhigh : n ≤ 0x7FF) :
    Decodes none [UInt8.ofNat (n / 64 % 32 + 192), tailByte n] [Char.ofNat n] none := by
  have hlead : 0x80 ≤ (UInt8.ofNat (n / 64 % 32 + 192)).toNat := by
    rw [toNat_ofNat (by omega)]
    omega
  have hopened := @opened?_two (n / 64 % 32 + 192) (by omega) (by omega)
  have hcode : [tailByte n].foldl gather (n / 64 % 32 + 192 - 0xC0) = n := by
    rw [List.foldl_cons, List.foldl_nil, gather_tailByte]
    omega
  have hdecodes := decodes_leading hlead hopened (tailByte_bounds n) (List.forall_mem_nil _)
  rwa [hcode] at hdecodes

theorem decodes_three {n : Nat} (hlow : 0x800 ≤ n) (hhigh : n ≤ 0xFFFF)
    (hsurrogate : n < 0xD800 ∨ 0xDFFF < n) :
    Decodes none [UInt8.ofNat (n / 4096 % 16 + 224), tailByte (n / 64), tailByte n]
      [Char.ofNat n] none := by
  have hlead : 0x80 ≤ (UInt8.ofNat (n / 4096 % 16 + 224)).toNat := by
    rw [toNat_ofNat (by omega)]
    omega
  obtain ⟨low, high, hopened, haccepted⟩ :=
    @opened?_three (n / 4096 % 16 + 224) (by omega) (by omega)
  have hcode : [tailByte (n / 64), tailByte n].foldl gather (n / 4096 % 16 + 224 - 0xE0) = n := by
    rw [List.foldl_cons, List.foldl_cons, List.foldl_nil, gather_tailByte, gather_tailByte]
    omega
  have hsecond := haccepted (n / 64 % 64 + 128) (by omega) (by omega) (by omega) (by omega)
  rw [← toNat_tailByte] at hsecond
  have hdecodes := decodes_leading hlead hopened hsecond fun other hother => by
    rw [List.mem_singleton.mp hother]
    exact tailByte_bounds n
  rwa [hcode] at hdecodes

theorem decodes_four {n : Nat} (hlow : 0x10000 ≤ n) (hhigh : n < 0x110000) :
    Decodes none [UInt8.ofNat (n / 262144 % 8 + 240), tailByte (n / 4096), tailByte (n / 64),
      tailByte n] [Char.ofNat n] none := by
  have hlead : 0x80 ≤ (UInt8.ofNat (n / 262144 % 8 + 240)).toNat := by
    rw [toNat_ofNat (by omega)]
    omega
  obtain ⟨low, high, hopened, haccepted⟩ :=
    @opened?_four (n / 262144 % 8 + 240) (by omega) (by omega)
  have hcode : [tailByte (n / 4096), tailByte (n / 64), tailByte n].foldl gather
      (n / 262144 % 8 + 240 - 0xF0) = n := by
    rw [List.foldl_cons, List.foldl_cons, List.foldl_cons, List.foldl_nil, gather_tailByte,
      gather_tailByte, gather_tailByte]
    omega
  have hsecond := haccepted (n / 4096 % 64 + 128) (by omega) (by omega) (by omega) (by omega)
  rw [← toNat_tailByte] at hsecond
  have hdecodes := decodes_leading hlead hopened hsecond fun other hother => by
    rcases List.mem_cons.mp hother with rfl | hother
    · exact tailByte_bounds (n / 64)
    · rw [List.mem_singleton.mp hother]
      exact tailByte_bounds n
  rwa [hcode] at hdecodes

/-- The bytes of a character decode to it. -/
theorem decodes_encodeChar (c : Char) : Decodes none (String.utf8EncodeChar c) [c] none := by
  have hbounds := toNat_bounds c
  have hc : Char.ofNat c.toNat = c := Char.ofNat_toNat c
  have hval : c.val.toNat = c.toNat := rfl
  simp only [String.utf8EncodeChar, hval]
  generalize c.toNat = n at hbounds hc
  subst hc
  split_ifs with hone htwo hthree
  · have hbyte : (UInt8.ofNat n).toNat = n := toNat_ofNat (by omega)
    have hsingle : Decodes none [UInt8.ofNat n] [Char.ofNat (UInt8.ofNat n).toNat] none :=
      .single (by omega) .nil
    rwa [hbyte] at hsingle
  · exact decodes_two (by omega) htwo
  · exact decodes_three (by omega) hthree (by omega)
  · exact decodes_four (by omega) (by omega)

/-- The bytes of a text decode to it. -/
theorem decodes_encode (chars : List Char) :
    Decodes none (chars.flatMap String.utf8EncodeChar) chars none := by
  induction chars with
  | nil => exact .nil
  | cons c rest ih =>
      rw [List.flatMap_cons]
      exact (decodes_encodeChar c).append ih

end Text

open Text

theorem flatten_cutBlocks (size room : Nat) (started bytes : List UInt8) :
    (cutBlocks size room started bytes).flatten = started.reverse ++ bytes := by
  induction bytes generalizing room started with
  | nil =>
      cases room <;> cases started <;> simp [cutBlocks]
  | cons byte rest ih =>
      cases room with
      | zero => simp [cutBlocks, ih]
      | succ room => simp [cutBlocks, ih]

/-- A run that decodes without a fault may be cut into any blocks. -/
theorem decodeBlocks_eq {held : Option Utf8Partial} {blocks : List (List UInt8)}
    {chars : List Char} (h : Decodes held blocks.flatten chars none) (text : List Char) :
    decodeBlocks text held blocks = { lines := linesOf isFileBreak (text ++ chars) } := by
  induction blocks generalizing held text chars with
  | nil =>
      cases h
      rw [decodeBlocks, List.append_nil]
  | cons block rest ih =>
      obtain ⟨middle, front, back, rfl, hfront, hback⟩ := h.split
      rw [decodeBlocks, hfront.decodeRun]
      cases middle with
      | none =>
          change decodeBlocks (text ++ front) none rest = _
          rw [ih hback, List.append_assoc]
      | some sequence =>
          change decodeBlocks (text ++ front) (some sequence) rest = _
          rw [ih hback, List.append_assoc]

/-- Listing bytes goes through the array from the place it has come to. -/
theorem toList_loop (bytes : ByteArray) (place : Nat) (listed : List UInt8) :
    ByteArray.toList.loop bytes place listed =
      listed.reverse ++ bytes.data.toList.drop place := by
  fun_induction ByteArray.toList.loop bytes place listed with
  | case1 place listed hplace ih =>
      have hlength : place < bytes.data.toList.length := hplace
      have hbyte : bytes.get! place = bytes.data.toList[place] :=
        getElem!_pos bytes.data place hplace
      rw [ih, hbyte, List.reverse_cons, List.append_assoc, List.singleton_append,
        List.getElem_cons_drop]
  | case2 place listed hplace =>
      have hlength : bytes.data.toList.length ≤ place := Nat.le_of_not_lt hplace
      rw [List.drop_eq_nil_of_le hlength, List.append_nil]

theorem toList_toUTF8 (text : String) :
    text.toUTF8.toList = text.toList.flatMap String.utf8EncodeChar := by
  have hencoded : text.toUTF8 = text.toList.utf8Encode := String.utf8Encode_toList.symm
  have hlisted : text.toUTF8.toList = [].reverse ++ text.toUTF8.data.toList.drop 0 :=
    toList_loop text.toUTF8 0 []
  rw [hlisted, hencoded, List.utf8Encode, List.data_toByteArray]
  rfl

/-- The lines of a file that holds a text. -/
theorem decodeSource_toUTF8 (text : String) :
    decodeSource text.toUTF8.toList = { lines := linesOf isFileBreak text.toList } := by
  have hblocks := flatten_cutBlocks blockSize blockSize [] text.toUTF8.toList
  rw [List.reverse_nil, List.nil_append] at hblocks
  have hdecodes := decodes_encode text.toList
  rw [← toList_toUTF8, ← hblocks] at hdecodes
  exact decodeBlocks_eq hdecodes []

end SetLisp
