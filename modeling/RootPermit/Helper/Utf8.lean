import RootPermit.Foundation.Utf8
import RootPermit.Helper.Cbor

/-!
# The text check of the helper

`valid_utf8` follows the characters of a byte string from lead byte to lead byte.  One
turn of its loop steps over the encoding of exactly one character
(`validUtf8Within_cons_iff`), so the loop accepts the concatenations of such encodings.
-/

namespace RootPermit
namespace Helper

open Foundation
open Foundation.Utf8

/-! ### Continuation bytes -/

theorem isContinuation_iff (next : UInt8) :
    next &&& 0xc0 = 0x80 ↔ next.toNat / 64 = 2 := by
  have hAll : ∀ byte < 256, UInt8.ofNat byte &&& 0xc0 = 0x80 ↔ byte / 64 = 2 := by
    decide +kernel
  have h := hAll next.toNat next.toNat_lt
  rwa [UInt8.ofNat_toNat] at h

/-- A code point with one more digit. -/
theorem toNat_pushDigit {codePoint : UInt32} (next : UInt8)
    (h : codePoint.toNat * 64 < 2 ^ 32) :
    ((codePoint <<< 6) ||| (next &&& 0x3f).toUInt32).toNat =
      codePoint.toNat * 64 + next.toNat % 64 := by
  have hDigit : (next &&& 0x3f).toUInt32.toNat = next.toNat % 64 := by
    rw [UInt8.toNat_toUInt32, UInt8.toNat_and]
    exact Nat.and_two_pow_sub_one_eq_mod next.toNat 6
  have hShift : (codePoint <<< 6).toNat = 2 ^ 6 * codePoint.toNat := by
    rw [UInt32.toNat_shiftLeft]
    change codePoint.toNat <<< 6 % 2 ^ 32 = _
    rw [Nat.shiftLeft_eq, Nat.mod_eq_of_lt (by omega), Nat.mul_comm]
  have hSmall : next.toNat % 64 < 2 ^ 6 := Nat.mod_lt _ (by decide)
  rw [UInt32.toNat_or, hShift, hDigit, ← Nat.two_pow_add_eq_or_of_lt hSmall]
  omega

/-- The continuation bytes of a code point are its last digits. -/
theorem continuation_eq_some_iff {count : Nat} {codePoint codePoint' : UInt32}
    {rest rest' : Bytes} (h : (codePoint.toNat + 1) * 64 ^ count ≤ 2 ^ 32) :
    continuation count codePoint rest = some (codePoint', rest') ↔
      codePoint'.toNat / 64 ^ count = codePoint.toNat ∧
        rest = sextets count codePoint'.toNat ++ rest' := by
  induction count generalizing codePoint rest with
  | zero =>
      simp only [continuation, Option.some.injEq, Prod.mk.injEq, Nat.pow_zero,
        Nat.div_one, sextets, List.nil_append, UInt32.toNat_inj]
      constructor
      · intro hSame
        exact ⟨hSame.1.symm, hSame.2⟩
      · intro hSame
        exact ⟨hSame.1.symm, hSame.2⟩
  | succ count ih =>
      have hPower : 64 ^ (count + 1) = 64 ^ count * 64 := Nat.pow_succ ..
      have hPositive : 1 ≤ 64 ^ count := Nat.one_le_pow _ _ (by decide)
      cases rest with
      | nil => simp [continuation, sextets]
      | cons next rest =>
          have hRoom : codePoint.toNat * 64 + 64 ≤ 2 ^ 32 := by
            have hFactor : (codePoint.toNat + 1) * 64 ≤
                (codePoint.toNat + 1) * 64 ^ (count + 1) := by
              rw [hPower]
              exact Nat.mul_le_mul_left _ (by omega)
            omega
          have hPushed := toNat_pushDigit next
            (show codePoint.toNat * 64 < 2 ^ 32 by omega)
          have hNext : (codePoint.toNat * 64 + next.toNat % 64 + 1) * 64 ^ count ≤
              2 ^ 32 := by
            calc
              (codePoint.toNat * 64 + next.toNat % 64 + 1) * 64 ^ count
                  ≤ ((codePoint.toNat + 1) * 64) * 64 ^ count := by
                    exact Nat.mul_le_mul_right _ (by omega)
              _ = (codePoint.toNat + 1) * 64 ^ (count + 1) := by rw [hPower]; ring
              _ ≤ 2 ^ 32 := h
          have hByte : next.toNat < 256 := next.toNat_lt
          have hQuotient : codePoint'.toNat / 64 ^ (count + 1) =
              codePoint'.toNat / 64 ^ count / 64 := by
            rw [hPower, Nat.div_div_eq_div_mul]
          rw [continuation, sextets, List.cons_append, List.cons.injEq, hQuotient]
          by_cases hMark : next &&& 0xc0 = 0x80
          · rw [if_neg (not_not.mpr hMark), ih (by rw [hPushed]; exact hNext), hPushed]
            have hTop := (isContinuation_iff next).mp hMark
            rw [← UInt8.toNat_inj, UInt8.toNat_ofNat_of_lt' (by
              change _ < 256
              omega)]
            constructor
            · intro hRead
              exact ⟨by omega, by omega, hRead.2⟩
            · intro hRead
              exact ⟨by omega, hRead.2.2⟩
          · rw [if_pos hMark]
            have hTop := mt (isContinuation_iff next).mpr hMark
            constructor
            · intro hNone
              cases hNone
            · intro hRead
              refine absurd ?_ hTop
              rw [hRead.2.1, UInt8.toNat_ofNat_of_lt' (by
                change _ < 256
                omega)]
              omega

/-! ### Characters -/

/-- What a lead byte holds before this many continuation bytes. -/
def LeadDigits : Nat → Nat → Prop
  | 1, digits => 2 ≤ digits ∧ digits ≤ 31
  | 2, digits => digits ≤ 15
  | 3, digits => digits ≤ 4
  | _, _ => False

theorem leadDigits_iff {count digits : Nat} :
    LeadDigits count digits ↔
      count = 1 ∧ leadMark count = 0xc0 ∧ 2 ≤ digits ∧ digits ≤ 31 ∨
        count = 2 ∧ leadMark count = 0xe0 ∧ digits ≤ 15 ∨
        count = 3 ∧ leadMark count = 0xf0 ∧ digits ≤ 4 := by
  rcases count with _ | _ | _ | _ | count
  all_goals simp [LeadDigits, leadMark]

theorem leadByte_eq_some_iff {lead : UInt8} {count : Nat} {codePoint : UInt32} :
    leadByte lead = some (count, codePoint) ↔
      LeadDigits count codePoint.toNat ∧
        lead.toNat = leadMark count + codePoint.toNat := by
  have hMasks : ∀ byte < 256, (UInt8.ofNat byte &&& 0x1f).toUInt32.toNat = byte % 32 ∧
      (UInt8.ofNat byte &&& 0x0f).toUInt32.toNat = byte % 16 ∧
      (UInt8.ofNat byte &&& 0x07).toUInt32.toNat = byte % 8 := by
    decide +kernel
  have hLead : lead.toNat < 256 := lead.toNat_lt
  obtain ⟨hFive, hFour, hThree⟩ := hMasks lead.toNat hLead
  rw [UInt8.ofNat_toNat] at hFive hFour hThree
  have hSame (masked : UInt32) : masked = codePoint ↔ masked.toNat = codePoint.toNat :=
    UInt32.toNat_inj.symm
  unfold leadByte
  simp only [UInt8.le_iff_toNat_le]
  change (if 0xc2 ≤ lead.toNat ∧ lead.toNat ≤ 0xdf then _
    else if 0xe0 ≤ lead.toNat ∧ lead.toNat ≤ 0xef then _
    else if 0xf0 ≤ lead.toNat ∧ lead.toNat ≤ 0xf4 then _ else _) = _ ↔ _
  rw [leadDigits_iff]
  -- The three ranges of lead bytes are those of the three marks.
  split_ifs with hTwo hThreeBytes hFourBytes
  · rw [Option.some.injEq, Prod.mk.injEq, hSame, hFive]
    constructor
    · rintro ⟨rfl, hDigits⟩
      exact ⟨.inl ⟨rfl, rfl, by omega⟩, by simp only [leadMark]; omega⟩
    · rintro ⟨hDigits, hByte⟩
      omega
  · rw [Option.some.injEq, Prod.mk.injEq, hSame, hFour]
    constructor
    · rintro ⟨rfl, hDigits⟩
      exact ⟨.inr (.inl ⟨rfl, rfl, by omega⟩), by simp only [leadMark]; omega⟩
    · rintro ⟨hDigits, hByte⟩
      omega
  · rw [Option.some.injEq, Prod.mk.injEq, hSame, hThree]
    constructor
    · rintro ⟨rfl, hDigits⟩
      exact ⟨.inr (.inr ⟨rfl, rfl, by omega⟩), by simp only [leadMark]; omega⟩
    · rintro ⟨hDigits, hByte⟩
      omega
  · constructor
    · intro hNone
      cases hNone
    · rintro ⟨hDigits, hByte⟩
      omega

/-- Behind a lead byte, the range checks admit the code points of characters that need
all the continuation bytes. -/
theorem scalarOfLength_iff {count : Nat} {codePoint : UInt32}
    (h : LeadDigits count (codePoint.toNat / 64 ^ count)) :
    scalarOfLength count codePoint = true ↔
      trailing codePoint.toNat = count ∧ codePoint.toNat.isValidChar := by
  unfold scalarOfLength trailing Nat.isValidChar
  simp only [UInt32.lt_iff_toNat_lt, UInt32.le_iff_toNat_le, Bool.not_eq_true',
    Bool.or_eq_false_iff, Bool.and_eq_false_iff, beq_eq_false_iff_ne,
    decide_eq_false_iff_not, UInt32.reduceToNat]
  rcases leadDigits_iff.mp h with ⟨rfl, -, hDigits⟩ | ⟨rfl, -, hDigits⟩ | ⟨rfl, -, hDigits⟩
  all_goals split_ifs <;> simp <;> omega

/-- A code point is that of a character when it is a scalar value. -/
theorem exists_char (codePoint : UInt32) (h : codePoint.toNat.isValidChar) :
    ∃ char : Char, char.toNat = codePoint.toNat :=
  ⟨⟨codePoint, h⟩, rfl⟩

theorem leadDigits_of_char {char : Char} (h : trailing char.toNat ≠ 0) :
    LeadDigits (trailing char.toNat)
      (char.toNat / 64 ^ trailing char.toNat) := by
  have hBound := toNat_lt char
  unfold trailing at h ⊢
  split_ifs at h ⊢ with hOne hTwo hThree
  · exact absurd rfl h
  · exact ⟨by omega, by omega⟩
  · exact show char.toNat / 4096 ≤ 15 by omega
  · exact show char.toNat / 262144 ≤ 4 by omega

/-- A lead byte and the bytes after it encode a character when the lead byte holds its
mark and first digits and the others begin with the remaining digits. -/
theorem cons_eq_encoding_iff {lead : UInt8} {rest rest' : Bytes} {char : Char} :
    lead :: rest = String.utf8EncodeChar char ++ rest' ↔
      lead.toNat = leadMark (trailing char.toNat) +
          char.toNat / 64 ^ trailing char.toNat ∧
        rest = sextets (trailing char.toNat) char.toNat ++ rest' := by
  have hBound := toNat_lt char
  have hByte : leadMark (trailing char.toNat) +
      char.toNat / 64 ^ trailing char.toNat < 256 := by
    unfold trailing
    split_ifs <;> simp only [leadMark] <;> omega
  rw [utf8EncodeChar_eq, List.cons_append, List.cons.injEq, ← UInt8.toNat_inj,
    UInt8.toNat_ofNat_of_lt' hByte]

/-- Only the ASCII characters have no continuation bytes. -/
theorem ascii_iff_of_char {lead : UInt8} {char : Char}
    (h : lead.toNat = leadMark (trailing char.toNat) +
      char.toNat / 64 ^ trailing char.toNat) :
    lead ≤ 0x7f ↔ trailing char.toNat = 0 := by
  rw [UInt8.le_iff_toNat_le, h]
  change _ ≤ 127 ↔ _
  unfold trailing
  split_ifs <;> simp [leadMark] <;> omega

theorem room_of_leadDigits {count digits : Nat} (h : LeadDigits count digits) :
    (digits + 1) * 64 ^ count ≤ 2 ^ 32 := by
  rcases leadDigits_iff.mp h with ⟨rfl, -, hDigits⟩ | ⟨rfl, -, hDigits⟩ | ⟨rfl, -, hDigits⟩
  all_goals omega

/-- An ASCII byte is the encoding of its own character. -/
theorem encoding_of_ascii {lead : UInt8} (h : lead ≤ 0x7f) :
    ∃ char, String.utf8EncodeChar char = [lead] := by
  have hSmall : lead.toNat ≤ 0x7f := UInt8.le_iff_toNat_le.mp h
  have hWide : lead.toUInt32.toNat = lead.toNat := UInt8.toNat_toUInt32 lead
  obtain ⟨char, hChar⟩ := exists_char lead.toUInt32 (.inl (by omega))
  have hTrailing : trailing char.toNat = 0 := by
    rw [hChar, hWide, trailing, if_pos hSmall]
  refine ⟨char, ?_⟩
  rw [utf8EncodeChar_eq, hTrailing, hChar, hWide]
  simp [leadMark, sextets]

/-- The first digits of a character, as its lead byte holds them. -/
theorem exists_leadDigits {char : Char} (h : trailing char.toNat ≠ 0) :
    ∃ first : UInt32, first.toNat = char.toNat / 64 ^ trailing char.toNat := by
  have hRoom := room_of_leadDigits (leadDigits_of_char h)
  refine ⟨UInt32.ofNat _, UInt32.toNat_ofNat_of_lt' ?_⟩
  have hPositive : 1 ≤ 64 ^ trailing char.toNat := Nat.one_le_pow _ _ (by decide)
  exact Nat.lt_of_lt_of_le (Nat.lt_succ_self _)
    (Nat.le_trans (Nat.le_mul_of_pos_right _ hPositive) hRoom)

/-! ### Turns -/

/-- A turn at an ASCII byte goes on after it. -/
theorem validUtf8Within_ascii {bound : Nat} {lead : UInt8} {rest : Bytes}
    (h : lead ≤ 0x7f) :
    validUtf8Within (bound + 1) (lead :: rest) = validUtf8Within bound rest := by
  rw [validUtf8Within, if_pos h]

/-- A turn at another lead byte goes on after a code point in its own length.  The
bytes that it needs are there when they are read. -/
theorem validUtf8Within_multibyte_iff {bound : Nat} {lead : UInt8} {rest : Bytes}
    (h : ¬ lead ≤ 0x7f) :
    validUtf8Within (bound + 1) (lead :: rest) = true ↔
      ∃ count first codePoint rest', leadByte lead = some (count, first) ∧
        LeadDigits count first.toNat ∧
        continuation count first rest = some (codePoint, rest') ∧
        scalarOfLength count codePoint = true ∧ validUtf8Within bound rest' = true := by
  rw [validUtf8Within, if_neg h]
  constructor
  · intro hTurn
    split at hTurn
    · cases hTurn
    · next count first hLead =>
        split at hTurn
        · cases hTurn
        · split at hTurn
          · cases hTurn
          · next codePoint rest' hContinued =>
              obtain ⟨hScalar, hRest⟩ := Bool.and_eq_true_iff.mp hTurn
              exact ⟨count, first, codePoint, rest', hLead,
                (leadByte_eq_some_iff.mp hLead).1, hContinued, hScalar, hRest⟩
  · intro hTurn
    obtain ⟨count, first, codePoint, rest', hLead, hDigits, hContinued, hScalar, hRest⟩ :=
      hTurn
    have hTail :=
      ((continuation_eq_some_iff (room_of_leadDigits hDigits)).mp hContinued).2
    have hLength : ¬ rest.length < count := by
      rw [hTail, List.length_append, length_sextets]
      omega
    rw [hLead]
    simp only [if_neg hLength, hContinued, hScalar, Bool.true_and]
    exact hRest

/-- One turn of the loop steps over the encoding of one character. -/
theorem validUtf8Within_cons_iff {bound : Nat} {lead : UInt8} {rest : Bytes} :
    validUtf8Within (bound + 1) (lead :: rest) = true ↔
      ∃ char rest', lead :: rest = String.utf8EncodeChar char ++ rest' ∧
        validUtf8Within bound rest' = true := by
  by_cases hAscii : lead ≤ 0x7f
  · rw [validUtf8Within_ascii hAscii]
    constructor
    · intro hRest
      obtain ⟨char, hChar⟩ := encoding_of_ascii hAscii
      exact ⟨char, rest, by rw [hChar]; rfl, hRest⟩
    · intro hTurn
      obtain ⟨char, rest', hSplit, hRest⟩ := hTurn
      obtain ⟨hLead, hTail⟩ := cons_eq_encoding_iff.mp hSplit
      rw [(ascii_iff_of_char hLead).mp hAscii] at hTail
      rw [hTail]
      exact hRest
  rw [validUtf8Within_multibyte_iff hAscii]
  constructor
  · intro hTurn
    obtain ⟨count, first, codePoint, rest', hLead, hDigits, hContinued, hScalar, hRest⟩ :=
      hTurn
    obtain ⟨-, hByte⟩ := leadByte_eq_some_iff.mp hLead
    obtain ⟨hQuotient, hTail⟩ :=
      (continuation_eq_some_iff (room_of_leadDigits hDigits)).mp hContinued
    rw [← hQuotient] at hDigits hByte
    obtain ⟨hCount, hValid⟩ := (scalarOfLength_iff hDigits).mp hScalar
    obtain ⟨char, hChar⟩ := exists_char _ hValid
    refine ⟨char, rest', cons_eq_encoding_iff.mpr ?_, hRest⟩
    rw [hChar, hCount]
    exact ⟨hByte, hTail⟩
  · intro hTurn
    obtain ⟨char, rest', hSplit, hRest⟩ := hTurn
    obtain ⟨hByte, hTail⟩ := cons_eq_encoding_iff.mp hSplit
    have hTrailing := mt (ascii_iff_of_char hByte).mpr hAscii
    have hDigits := leadDigits_of_char hTrailing
    obtain ⟨first, hFirst⟩ := exists_leadDigits hTrailing
    have hLead : leadByte lead = some (trailing char.toNat, first) := by
      rw [leadByte_eq_some_iff, hFirst]
      exact ⟨hDigits, hByte⟩
    have hContinued : continuation (trailing char.toNat) first rest =
        some (char.val, rest') := by
      rw [continuation_eq_some_iff (by rw [hFirst]; exact room_of_leadDigits hDigits),
        hFirst]
      exact ⟨rfl, hTail⟩
    exact ⟨trailing char.toNat, first, char.val, rest', hLead, hFirst ▸ hDigits,
      hContinued, (scalarOfLength_iff hDigits).mpr ⟨rfl, char.valid⟩, hRest⟩

theorem validUtf8Within_iff {bound : Nat} {bytes : Bytes} (h : bytes.length ≤ bound) :
    validUtf8Within bound bytes = true ↔
      ∃ chars : List Char, bytes = chars.flatMap String.utf8EncodeChar := by
  induction bound generalizing bytes with
  | zero =>
      have hEmpty : bytes = [] := List.eq_nil_of_length_eq_zero (by omega)
      subst hEmpty
      exact ⟨fun _ => ⟨[], rfl⟩, fun _ => by rw [validUtf8Within]⟩
  | succ bound ih =>
      cases bytes with
      | nil => exact ⟨fun _ => ⟨[], rfl⟩, fun _ => by rw [validUtf8Within]⟩
      | cons lead rest =>
          rw [validUtf8Within_cons_iff]
          -- A character takes at least one byte, so the rest is within the bound.
          have hShorter {char : Char} {rest' : Bytes}
              (hSplit : lead :: rest = String.utf8EncodeChar char ++ rest') :
              rest'.length ≤ bound := by
            have hLength := congrArg List.length hSplit
            rw [utf8EncodeChar_eq] at hLength
            simp only [List.length_cons, List.length_append] at hLength h
            omega
          constructor
          · intro hTurn
            obtain ⟨char, rest', hSplit, hRest⟩ := hTurn
            obtain ⟨chars, rfl⟩ := (ih (hShorter hSplit)).mp hRest
            exact ⟨char :: chars, hSplit⟩
          · intro hSpelled
            obtain ⟨chars, hChars⟩ := hSpelled
            cases chars with
            | nil => cases hChars
            | cons char chars =>
                have hSplit : lead :: rest = String.utf8EncodeChar char ++
                    chars.flatMap String.utf8EncodeChar := hChars
                exact ⟨char, _, hSplit, (ih (hShorter hSplit)).mpr ⟨chars, rfl⟩⟩

/-- The check accepts the byte strings that spell a text. -/
theorem validUtf8_iff {bytes : Bytes} :
    validUtf8 bytes = true ↔ ∃ text, utf8 text = bytes := by
  rw [validUtf8, validUtf8Within_iff (Nat.le_refl _), spells_iff]

/-- Over any lead mark and any digits behind it, the check accepts the shortest
sequences of scalar values: neither overlong ones, nor surrogates, nor larger numbers. -/
theorem validUtf8_sequence_iff {count value : Nat} (hCount : count ≤ 3)
    (hRoom : value / 64 ^ count < leadRoom count) :
    validUtf8 (sequence count value) = true ↔
      trailing value = count ∧ value.isValidChar := by
  rw [validUtf8_iff, spells_iff, sequence_spells_iff hCount hRoom]

/-- After a text, the check goes on as if it began there. -/
theorem validUtf8_append (text : String) (rest : Bytes) :
    validUtf8 (utf8 text ++ rest) = validUtf8 rest := by
  rw [Bool.eq_iff_iff, validUtf8_iff, validUtf8_iff, spells_iff, spells_iff,
    utf8_eq_flatMap, spells_append_iff]

/-- A text is not followed by the beginning of a character. -/
theorem validUtf8_truncated (text : String) {char : Char} {kept : Nat}
    (hSome : 0 < kept) (hKept : kept < (String.utf8EncodeChar char).length) :
    validUtf8 (utf8 text ++ (String.utf8EncodeChar char).take kept) = false := by
  rw [validUtf8_append, Bool.eq_false_iff, Ne, validUtf8_iff, spells_iff]
  exact not_spells_truncated hSome hKept

end Helper
end RootPermit
