import Mathlib.Data.List.Basic
import SetLisp.Proofs.Source.Decoding

/-!
# What decodes was encoded

The decoder finds no fault in the bytes of texts alone. A leading byte lets through just the bytes
behind it that a character would be encoded with, and where the blocks of a file cut it, a character
is put together again; so whatever else a file holds, its decoding ends in a fault.
-/

namespace SetLisp

namespace Text

open Utf8Partial

variable {pending held : Option Utf8Partial} {bytes : List UInt8} {chars : List Char}
  {position : Nat}

/-- A run that ends without a fault decodes its bytes. -/
theorem decodes_of_decodeRun (h : decodeRun position pending bytes = (chars, endingOf held)) :
    Decodes pending bytes chars held := by
  induction bytes generalizing position pending chars with
  | nil =>
      cases pending <;> cases held <;> cases h <;> exact .nil
  | cons byte rest ih =>
      cases pending with
      | none =>
          rw [decodeRun] at h
          split at h
          · next hbyte =>
              obtain ⟨rfl, hending⟩ := Prod.mk.inj h
              exact .single hbyte (ih (Prod.ext rfl hending))
          · next hbyte =>
              split at h
              · next sequence hopened => exact .leading hbyte hopened (ih h)
              · cases held <;> cases h
      | some sequence =>
          rw [decodeRun] at h
          split at h
          · next haccepts =>
              dsimp only at h
              split at h
              · next howed =>
                  obtain ⟨rfl, hending⟩ := Prod.mk.inj h
                  exact .last haccepts howed (ih (Prod.ext rfl hending))
              · next howed => exact .more haccepts howed (ih h)
          · split at h <;> cases held <;> cases h

/-- A sequence that is finished was given as many bytes as it was owed, and they had to be such as
continue a character. -/
theorem Decodes.exists_owed {sequence : Utf8Partial} {count : Nat}
    (h : Decodes (some sequence) bytes chars none) (howed : sequence.owed = count + 1) :
    ∃ byte rest behind others, bytes = byte :: rest ++ behind ∧ rest.length = count ∧
      sequence.accepts byte = true ∧ (∀ other ∈ rest, 0x80 ≤ other.toNat ∧ other.toNat ≤ 0xBF) ∧
      chars = Char.ofNat ((byte :: rest).foldl gather sequence.code) :: others ∧
      Decodes none behind others none := by
  induction count generalizing sequence bytes chars with
  | zero =>
      cases h with
      | last haccepts _ hrest =>
          exact ⟨_, [], _, _, rfl, rfl, haccepts, List.forall_mem_nil _, rfl, hrest⟩
      | more _ hmore _ => exact absurd (by rw [owed_extend, howed]) hmore
  | succ count ih =>
      cases h with
      | last _ hlast _ =>
          rw [owed_extend] at hlast
          omega
      | @more first _ _ _ _ haccepts _ hrest =>
          obtain ⟨byte, rest, behind, others, rfl, hlength, hbyte, hbytes, rfl, hbehind⟩ :=
            ih hrest (by rw [owed_extend]; omega)
          refine ⟨first, byte :: rest, behind, others, rfl, by rw [List.length_cons, hlength],
            haccepts, ?_, by rw [code_extend, ← List.foldl_cons], hbehind⟩
          have hcontinues : 0x80 ≤ byte.toNat ∧ byte.toNat ≤ 0xBF := by
            rwa [accepts, Bool.and_eq_true, decide_eq_true_iff, decide_eq_true_iff] at hbyte
          exact List.forall_mem_cons.mpr ⟨hcontinues, hbytes⟩

/-- What a leading byte opens: its bits, how many bytes are owed, and the range of the first one,
which keeps out overlong forms, surrogates and what is past the last code point. -/
inductive Opens (lead : UInt8) : Utf8Partial → Prop
  | two (hlead : 0xC2 ≤ lead.toNat ∧ lead.toNat ≤ 0xDF) :
      Opens lead ⟨[lead], lead.toNat - 0xC0, 1, 0x80, 0xBF⟩
  | three {low high : Nat} (hlead : 0xE0 ≤ lead.toNat ∧ lead.toNat ≤ 0xEF)
      (hrange : 0x80 ≤ low ∧ high ≤ 0xBF) (hlow : lead.toNat = 0xE0 → 0xA0 ≤ low)
      (hhigh : lead.toNat = 0xED → high ≤ 0x9F) :
      Opens lead ⟨[lead], lead.toNat - 0xE0, 2, low, high⟩
  | four {low high : Nat} (hlead : 0xF0 ≤ lead.toNat ∧ lead.toNat ≤ 0xF4)
      (hrange : 0x80 ≤ low ∧ high ≤ 0xBF) (hlow : lead.toNat = 0xF0 → 0x90 ≤ low)
      (hhigh : lead.toNat = 0xF4 → high ≤ 0x8F) :
      Opens lead ⟨[lead], lead.toNat - 0xF0, 3, low, high⟩

theorem opens_of_opened? {lead : UInt8} {sequence : Utf8Partial}
    (h : opened? lead = some sequence) : Opens lead sequence := by
  unfold opened? at h
  dsimp only at h
  split_ifs at h with htwo hfirst hsurrogate hthree hfirst' hfour hlast <;> cases h
  · exact .two htwo
  · have hopens := @Opens.three lead 0xA0 0xBF (by omega) (by omega) (by omega) (by omega)
    rwa [hfirst] at hopens
  · have hopens := @Opens.three lead 0x80 0x9F (by omega) (by omega) (by omega) (by omega)
    rwa [hsurrogate] at hopens
  · exact .three (by omega) (by omega) (by omega) (by omega)
  · have hopens := @Opens.four lead 0x90 0xBF (by omega) (by omega) (by omega) (by omega)
    rwa [hfirst'] at hopens
  · exact .four (by omega) (by omega) (by omega) (by omega)
  · have hopens := @Opens.four lead 0x80 0x8F (by omega) (by omega) (by omega) (by omega)
    rwa [hlast] at hopens

/-! ### Encoding what was gathered -/

theorem toNat_ofNat_char {n : Nat} (h : n < 0xD800 ∨ 0xDFFF < n ∧ n < 0x110000) :
    (Char.ofNat n).toNat = n := by
  rw [Char.ofNat, dif_pos (show n.isValidChar from h)]
  rfl

theorem utf8EncodeChar_one {n : Nat} (hhigh : n < 0x80) :
    String.utf8EncodeChar (Char.ofNat n) = [UInt8.ofNat n] := by
  have hval : (Char.ofNat n).val.toNat = n := toNat_ofNat_char (by omega)
  simp only [String.utf8EncodeChar, hval]
  rw [if_pos (by omega)]

theorem utf8EncodeChar_two {n : Nat} (hlow : 0x80 ≤ n) (hhigh : n ≤ 0x7FF) :
    String.utf8EncodeChar (Char.ofNat n) = [UInt8.ofNat (n / 64 % 32 + 192), tailByte n] := by
  have hval : (Char.ofNat n).val.toNat = n := toNat_ofNat_char (by omega)
  simp only [String.utf8EncodeChar, hval]
  rw [if_neg (by omega), if_pos hhigh]
  rfl

theorem utf8EncodeChar_three {n : Nat} (hlow : 0x800 ≤ n) (hhigh : n ≤ 0xFFFF)
    (hsurrogate : n < 0xD800 ∨ 0xDFFF < n) :
    String.utf8EncodeChar (Char.ofNat n) =
      [UInt8.ofNat (n / 4096 % 16 + 224), tailByte (n / 64), tailByte n] := by
  have hval : (Char.ofNat n).val.toNat = n := toNat_ofNat_char (by omega)
  simp only [String.utf8EncodeChar, hval]
  rw [if_neg (by omega), if_neg (by omega), if_pos hhigh]
  rfl

theorem utf8EncodeChar_four {n : Nat} (hlow : 0x10000 ≤ n) (hhigh : n < 0x110000) :
    String.utf8EncodeChar (Char.ofNat n) =
      [UInt8.ofNat (n / 262144 % 8 + 240), tailByte (n / 4096), tailByte (n / 64), tailByte n] := by
  have hval : (Char.ofNat n).val.toNat = n := toNat_ofNat_char (by omega)
  simp only [String.utf8EncodeChar, hval]
  rw [if_neg (by omega), if_neg (by omega), if_neg (by omega)]
  rfl

theorem ofNat_eq {byte : UInt8} {n : Nat} (h : n = byte.toNat) : UInt8.ofNat n = byte := by
  rw [h, UInt8.ofNat_toNat]

theorem tailByte_eq {byte : UInt8} {n : Nat} (h : n % 64 + 128 = byte.toNat) :
    tailByte n = byte :=
  ofNat_eq h

theorem utf8EncodeChar_gather_two {lead byte : UInt8} {n : Nat}
    (hlead : 0xC2 ≤ lead.toNat ∧ lead.toNat ≤ 0xDF)
    (hbyte : 0x80 ≤ byte.toNat ∧ byte.toNat ≤ 0xBF) (hn : gather (lead.toNat - 0xC0) byte = n) :
    String.utf8EncodeChar (Char.ofNat n) = [lead, byte] := by
  unfold gather at hn
  have hlead' : n / 64 % 32 + 192 = lead.toNat := by omega
  have hbyte' : n % 64 + 128 = byte.toNat := by omega
  rw [utf8EncodeChar_two (by omega) (by omega), ofNat_eq hlead', tailByte_eq hbyte']

theorem utf8EncodeChar_gather_three {lead first second : UInt8} {n : Nat}
    (hlead : 0xE0 ≤ lead.toNat ∧ lead.toNat ≤ 0xEF)
    (hfirst : 0x80 ≤ first.toNat ∧ first.toNat ≤ 0xBF)
    (hlow : lead.toNat = 0xE0 → 0xA0 ≤ first.toNat)
    (hhigh : lead.toNat = 0xED → first.toNat ≤ 0x9F)
    (hsecond : 0x80 ≤ second.toNat ∧ second.toNat ≤ 0xBF)
    (hn : gather (gather (lead.toNat - 0xE0) first) second = n) :
    String.utf8EncodeChar (Char.ofNat n) = [lead, first, second] := by
  unfold gather at hn
  have hlead' : n / 4096 % 16 + 224 = lead.toNat := by omega
  have hfirst' : n / 64 % 64 + 128 = first.toNat := by omega
  have hsecond' : n % 64 + 128 = second.toNat := by omega
  rw [utf8EncodeChar_three (by omega) (by omega) (by omega), ofNat_eq hlead', tailByte_eq hfirst',
    tailByte_eq hsecond']

theorem utf8EncodeChar_gather_four {lead first second third : UInt8} {n : Nat}
    (hlead : 0xF0 ≤ lead.toNat ∧ lead.toNat ≤ 0xF4)
    (hfirst : 0x80 ≤ first.toNat ∧ first.toNat ≤ 0xBF)
    (hlow : lead.toNat = 0xF0 → 0x90 ≤ first.toNat)
    (hhigh : lead.toNat = 0xF4 → first.toNat ≤ 0x8F)
    (hsecond : 0x80 ≤ second.toNat ∧ second.toNat ≤ 0xBF)
    (hthird : 0x80 ≤ third.toNat ∧ third.toNat ≤ 0xBF)
    (hn : gather (gather (gather (lead.toNat - 0xF0) first) second) third = n) :
    String.utf8EncodeChar (Char.ofNat n) = [lead, first, second, third] := by
  unfold gather at hn
  have hlead' : n / 262144 % 8 + 240 = lead.toNat := by omega
  have hfirst' : n / 4096 % 64 + 128 = first.toNat := by omega
  have hsecond' : n / 64 % 64 + 128 = second.toNat := by omega
  have hthird' : n % 64 + 128 = third.toNat := by omega
  rw [utf8EncodeChar_four (by omega) (by omega), ofNat_eq hlead', tailByte_eq hfirst',
    tailByte_eq hsecond', tailByte_eq hthird']

/-- What decodes begins with the bytes of its first character. -/
theorem Decodes.exists_char (h : Decodes none bytes chars none) (hne : bytes ≠ []) :
    ∃ c behind others, bytes = String.utf8EncodeChar c ++ behind ∧ chars = c :: others ∧
      Decodes none behind others none := by
  cases h with
  | nil => exact absurd rfl hne
  | @single byte _ _ _ hbyte hrest =>
      refine ⟨_, _, _, ?_, rfl, hrest⟩
      rw [utf8EncodeChar_one hbyte, UInt8.ofNat_toNat]
      rfl
  | @leading lead _ _ _ sequence _ hopened hrest =>
      have hopens := opens_of_opened? hopened
      obtain ⟨count, howed⟩ : ∃ count, sequence.owed = count + 1 := by
        cases hopens <;> exact ⟨_, rfl⟩
      obtain ⟨byte, rest, behind, others, rfl, hlength, hbyte, hbytes, rfl, hbehind⟩ :=
        hrest.exists_owed howed
      refine ⟨_, behind, others, ?_, rfl, hbehind⟩
      rw [← List.cons_append]
      refine congrArg (· ++ behind) (Eq.symm ?_)
      rw [accepts, Bool.and_eq_true, decide_eq_true_iff, decide_eq_true_iff] at hbyte
      cases hopens with
      | two hlead =>
          obtain rfl : count = 0 := (Nat.succ.inj howed).symm
          obtain rfl := List.eq_nil_of_length_eq_zero hlength
          exact utf8EncodeChar_gather_two hlead hbyte rfl
      | three hlead hrange hlow hhigh =>
          obtain rfl : count = 1 := (Nat.succ.inj howed).symm
          obtain ⟨second, rfl⟩ := List.length_eq_one_iff.mp hlength
          have hsecond := hbytes second List.mem_cons_self
          dsimp only at hbyte
          exact utf8EncodeChar_gather_three hlead (by omega) (by omega) (by omega) hsecond rfl
      | four hlead hrange hlow hhigh =>
          obtain rfl : count = 2 := (Nat.succ.inj howed).symm
          obtain ⟨second, third, rfl⟩ := List.length_eq_two.mp hlength
          have hsecond := hbytes second List.mem_cons_self
          have hthird := hbytes third (List.mem_cons_of_mem second List.mem_cons_self)
          dsimp only at hbyte
          exact utf8EncodeChar_gather_four hlead (by omega) (by omega) (by omega) hsecond hthird
            rfl

/-- What decodes are the bytes of a text. -/
theorem Decodes.eq_flatMap (h : Decodes none bytes chars none) :
    bytes = chars.flatMap String.utf8EncodeChar := by
  induction chars generalizing bytes with
  | nil =>
      rcases eq_or_ne bytes [] with rfl | hne
      · rfl
      · obtain ⟨c, behind, others, -, hchars, -⟩ := h.exists_char hne
        cases hchars
  | cons c rest ih =>
      have hne : bytes ≠ [] := by
        rintro rfl
        cases h
      obtain ⟨c', behind, others, rfl, hchars, hbehind⟩ := h.exists_char hne
      obtain ⟨rfl, rfl⟩ := List.cons.inj hchars
      rw [List.flatMap_cons, ← ih hbehind]

end Text

open Text

/-- Blocks without a fault decode as one run. -/
theorem exists_decodes_of_decodeBlocks {held : Option Utf8Partial} {blocks : List (List UInt8)}
    {text : List Char} (h : (decodeBlocks text held blocks).fault? = none) :
    ∃ chars, Decodes held blocks.flatten chars none := by
  induction blocks generalizing held text with
  | nil =>
      cases held with
      | none => exact ⟨[], .nil⟩
      | some sequence => cases h
  | cons block rest ih =>
      rw [decodeBlocks] at h
      rcases hrun : decodeRun ((held.map (·.bytes.length)).getD 0) held block with ⟨chars, ending⟩
      rw [hrun] at h
      cases ending with
      | whole =>
          have hfirst : Decodes held block chars none := decodes_of_decodeRun hrun
          obtain ⟨others, hothers⟩ := ih h
          exact ⟨chars ++ others, hfirst.append hothers⟩
      | unfinished sequence =>
          have hfirst : Decodes held block chars (some sequence) := decodes_of_decodeRun hrun
          obtain ⟨others, hothers⟩ := ih h
          exact ⟨chars ++ others, hfirst.append hothers⟩
      | cutSurrogate => cases h
      | faulty fault => cases h

/-- **The decoder finds a fault in what is no text**, and in nothing else. -/
theorem decodeSource_fault?_eq_none_iff {bytes : List UInt8} :
    (decodeSource bytes).fault? = none ↔ ∃ text : String, bytes = text.toUTF8.toList := by
  constructor
  · intro h
    obtain ⟨chars, hdecodes⟩ := exists_decodes_of_decodeBlocks h
    rw [blocksOf, flatten_cutBlocks, List.reverse_nil, List.nil_append] at hdecodes
    refine ⟨String.ofList chars, ?_⟩
    rw [toList_toUTF8, String.toList_ofList]
    exact hdecodes.eq_flatMap
  · rintro ⟨text, rfl⟩
    rw [decodeSource_toUTF8]

end SetLisp
