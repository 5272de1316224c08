import RootPermit.Foundation.Bytes

/-!
# UTF-8 by code points

The encoding of a character is a lead byte and up to three continuation bytes.  The
continuation bytes hold the digits of the code point in base 64, and the lead byte
holds the rest under a mark that says how many of them follow.
-/

namespace RootPermit
namespace Foundation
namespace Utf8

/-- The last `count` digits of a number in base 64, as continuation bytes. -/
def sextets : Nat → Nat → Bytes
  | 0, _ => []
  | count + 1, value =>
      UInt8.ofNat (value / 64 ^ count % 64 + 0x80) :: sextets count value

/-- The number of continuation bytes of a code point. -/
def trailing (value : Nat) : Nat :=
  if value ≤ 0x7f then 0 else if value ≤ 0x7ff then 1 else if value ≤ 0xffff then 2 else 3

/-- The mark of a lead byte before this many continuation bytes. -/
def leadMark : Nat → Nat
  | 0 => 0
  | 1 => 0xc0
  | 2 => 0xe0
  | _ => 0xf0

@[simp] theorem length_sextets (count value : Nat) :
    (sextets count value).length = count := by
  induction count with
  | zero => rfl
  | succ count ih => rw [sextets, List.length_cons, ih]

theorem toNat_lt (char : Char) : char.toNat < 0x110000 := by
  have hValid := char.valid
  unfold UInt32.isValidChar Nat.isValidChar at hValid
  change char.val.toNat < 0x110000
  omega

/-- The encoding of a character, by the number of its continuation bytes. -/
theorem utf8EncodeChar_eq (char : Char) :
    String.utf8EncodeChar char =
      UInt8.ofNat (leadMark (trailing char.toNat) +
          char.toNat / 64 ^ trailing char.toNat) ::
        sextets (trailing char.toNat) char.toNat := by
  have hBound := toNat_lt char
  have hVal : char.val.toNat = char.toNat := rfl
  have hDigit : char.toNat / 64 ^ 0 = char.toNat := by simp
  unfold String.utf8EncodeChar trailing
  dsimp only
  rw [hVal]
  by_cases hOne : char.toNat ≤ 0x7f
  · rw [if_pos hOne, if_pos hOne]
    simp [sextets, leadMark]
  rw [if_neg hOne, if_neg hOne]
  by_cases hTwo : char.toNat ≤ 0x7ff
  · rw [if_pos hTwo, if_pos hTwo]
    have hLead : char.toNat / 64 % 0x20 + 0xc0 = 0xc0 + char.toNat / 64 := by omega
    simp only [sextets, leadMark, Nat.pow_one, hDigit]
    exact congrArg (fun lead => [UInt8.ofNat lead, _]) hLead
  rw [if_neg hTwo, if_neg hTwo]
  by_cases hThree : char.toNat ≤ 0xffff
  · rw [if_pos hThree, if_pos hThree]
    have hLead : char.toNat / 4096 % 0x10 + 0xe0 = 0xe0 + char.toNat / 4096 := by
      omega
    simp only [sextets, leadMark, Nat.pow_one, hDigit]
    exact congrArg (fun lead => [UInt8.ofNat lead, _, _]) hLead
  rw [if_neg hThree, if_neg hThree]
  have hLead : char.toNat / 262144 % 0x08 + 0xf0 = 0xf0 + char.toNat / 262144 := by
    omega
  simp only [sextets, leadMark, Nat.pow_one, hDigit]
  exact congrArg (fun lead => [UInt8.ofNat lead, _, _, _]) hLead

/-- The bytes of a text are those of its characters. -/
theorem utf8_eq_flatMap (text : String) :
    utf8 text = text.toList.flatMap String.utf8EncodeChar := by
  have hText : text.toByteArray = text.toList.utf8Encode := by
    rw [← String.toByteArray_ofList, String.ofList_toList]
  rw [utf8, hText, List.utf8Encode]
  simp

/-- A byte string spells a text when it is the concatenation of the encodings of
some characters. -/
theorem spells_iff {bytes : Bytes} :
    (∃ text, utf8 text = bytes) ↔
      ∃ chars : List Char, bytes = chars.flatMap String.utf8EncodeChar := by
  constructor
  · intro h
    obtain ⟨text, rfl⟩ := h
    exact ⟨text.toList, utf8_eq_flatMap text⟩
  · intro h
    obtain ⟨chars, rfl⟩ := h
    exact ⟨String.ofList chars, by rw [utf8_eq_flatMap, String.toList_ofList]⟩

/-! ### Sequences -/

/-- The room for digits under the mark of a lead byte. -/
def leadRoom : Nat → Nat
  | 0 => 0x80
  | 1 => 0x20
  | 2 => 0x10
  | _ => 0x08

/-- A number spelled by a lead byte and this many continuation bytes. -/
def sequence (count value : Nat) : Bytes :=
  UInt8.ofNat (leadMark count + value / 64 ^ count) :: sextets count value

theorem sextets_injective {count value other : Nat}
    (hFirst : value / 64 ^ count = other / 64 ^ count)
    (h : sextets count value = sextets count other) : value = other := by
  induction count with
  | zero => simpa using hFirst
  | succ count ih =>
      rw [sextets, sextets, List.cons.injEq] at h
      obtain ⟨hDigit, hRest⟩ := h
      refine ih ?_ hRest
      have hSame := congrArg UInt8.toNat hDigit
      have hDigits (value : Nat) : value / 64 ^ count % 64 + 0x80 < 256 := by omega
      rw [UInt8.toNat_ofNat_of_lt' (hDigits value),
        UInt8.toNat_ofNat_of_lt' (hDigits other)] at hSame
      rw [Nat.pow_succ, ← Nat.div_div_eq_div_mul, ← Nat.div_div_eq_div_mul] at hFirst
      omega

/-- Each mark stands above the bytes that carry a smaller one. -/
theorem leadMark_add_leadRoom_le :
    ∀ other ≤ 3, ∀ count < other, leadMark count + leadRoom count ≤ leadMark other := by
  decide

theorem leadByte_lt {count digits : Nat} (hCount : count ≤ 3)
    (h : digits < leadRoom count) : leadMark count + digits < 256 := by
  have hRooms : ∀ count ≤ 3, leadMark count + leadRoom count ≤ 256 := by decide
  have hRoom := hRooms count hCount
  omega

/-- The marks tell the numbers of continuation bytes apart. -/
theorem leadMark_injective {count other digits otherDigits : Nat}
    (hCount : count ≤ 3) (hOther : other ≤ 3) (hDigits : digits < leadRoom count)
    (hOtherDigits : otherDigits < leadRoom other)
    (h : leadMark count + digits = leadMark other + otherDigits) : count = other := by
  rcases Nat.lt_trichotomy count other with hLess | hSame | hMore
  · have hAbove := leadMark_add_leadRoom_le other hOther count hLess
    omega
  · exact hSame
  · have hAbove := leadMark_add_leadRoom_le count hCount other hMore
    omega

/-- No sequence begins with another one. -/
theorem sequence_append_injective {count other value otherValue : Nat}
    {rest otherRest : Bytes} (hCount : count ≤ 3) (hOther : other ≤ 3)
    (hRoom : value / 64 ^ count < leadRoom count)
    (hOtherRoom : otherValue / 64 ^ other < leadRoom other)
    (h : sequence count value ++ rest = sequence other otherValue ++ otherRest) :
    count = other ∧ value = otherValue ∧ rest = otherRest := by
  rw [sequence, sequence, List.cons_append, List.cons_append, List.cons.injEq] at h
  obtain ⟨hLead, hTail⟩ := h
  have hLeads := congrArg UInt8.toNat hLead
  rw [UInt8.toNat_ofNat_of_lt' (leadByte_lt hCount hRoom),
    UInt8.toNat_ofNat_of_lt' (leadByte_lt hOther hOtherRoom)] at hLeads
  have hSame := leadMark_injective hCount hOther hRoom hOtherRoom hLeads
  subst hSame
  obtain ⟨hSextets, hRest⟩ := List.append_inj hTail (by simp)
  exact ⟨rfl, sextets_injective (by omega) hSextets, hRest⟩

theorem trailing_le (value : Nat) : trailing value ≤ 3 := by
  unfold trailing
  split_ifs <;> omega

theorem encoding_room (char : Char) :
    char.toNat / 64 ^ trailing char.toNat < leadRoom (trailing char.toNat) := by
  have hBound := toNat_lt char
  unfold trailing
  split_ifs <;> simp only [leadRoom] <;> omega

theorem utf8EncodeChar_eq_sequence (char : Char) :
    String.utf8EncodeChar char = sequence (trailing char.toNat) char.toNat :=
  utf8EncodeChar_eq char

/-- No encoding begins with another one. -/
theorem encoding_append_injective {char other : Char} {rest otherRest : Bytes}
    (h : String.utf8EncodeChar char ++ rest = String.utf8EncodeChar other ++ otherRest) :
    char = other ∧ rest = otherRest := by
  rw [utf8EncodeChar_eq_sequence, utf8EncodeChar_eq_sequence] at h
  obtain ⟨-, hValue, hRest⟩ := sequence_append_injective (trailing_le _) (trailing_le _)
    (encoding_room char) (encoding_room other) h
  exact ⟨Char.toNat_inj.mp hValue, hRest⟩

/-- The characters of a beginning do not depend on what comes after it. -/
theorem spells_append_iff {chars : List Char} {rest : Bytes} :
    (∃ scalars : List Char, chars.flatMap String.utf8EncodeChar ++ rest =
        scalars.flatMap String.utf8EncodeChar) ↔
      ∃ scalars : List Char, rest = scalars.flatMap String.utf8EncodeChar := by
  induction chars with
  | nil => rfl
  | cons char chars ih =>
      rw [← ih, List.flatMap_cons, List.append_assoc]
      constructor
      · intro h
        obtain ⟨scalars, hScalars⟩ := h
        cases scalars with
        | nil =>
            rw [utf8EncodeChar_eq] at hScalars
            cases hScalars
        | cons scalar scalars =>
            rw [List.flatMap_cons] at hScalars
            exact ⟨scalars, (encoding_append_injective hScalars).2⟩
      · intro h
        obtain ⟨scalars, hScalars⟩ := h
        exact ⟨char :: scalars, by rw [List.flatMap_cons, hScalars]⟩

/-- A sequence spells a text when it has the length of its number's encoding and the
number is a scalar value. -/
theorem sequence_spells_iff {count value : Nat} (hCount : count ≤ 3)
    (hRoom : value / 64 ^ count < leadRoom count) :
    (∃ scalars : List Char,
        sequence count value = scalars.flatMap String.utf8EncodeChar) ↔
      trailing value = count ∧ value.isValidChar := by
  constructor
  · intro h
    obtain ⟨scalars, hScalars⟩ := h
    cases scalars with
    | nil => cases hScalars
    | cons scalar scalars =>
        rw [List.flatMap_cons, utf8EncodeChar_eq_sequence,
          ← List.append_nil (sequence count value)] at hScalars
        obtain ⟨hTrailing, hValue, -⟩ := sequence_append_injective hCount
          (trailing_le _) hRoom (encoding_room scalar) hScalars
        rw [hValue]
        exact ⟨hTrailing.symm, scalar.valid⟩
  · intro h
    obtain ⟨hTrailing, hValid⟩ := h
    refine ⟨[Char.ofNatAux value hValid], ?_⟩
    rw [List.flatMap_singleton, utf8EncodeChar_eq_sequence]
    change _ = sequence (trailing value) value
    rw [hTrailing]

/-- A beginning of an encoding that lacks bytes of it spells nothing. -/
theorem not_spells_truncated {char : Char} {kept : Nat} (hSome : 0 < kept)
    (hKept : kept < (String.utf8EncodeChar char).length) :
    ¬ ∃ scalars : List Char, (String.utf8EncodeChar char).take kept =
      scalars.flatMap String.utf8EncodeChar := by
  intro h
  obtain ⟨scalars, hScalars⟩ := h
  cases scalars with
  | nil =>
      have hLength := congrArg List.length hScalars
      simp only [List.length_take, List.flatMap_nil, List.length_nil] at hLength
      omega
  | cons scalar scalars =>
      -- With its missing bytes, the beginning would start with another encoding.
      have hWhole : String.utf8EncodeChar char ++ [] = String.utf8EncodeChar scalar ++
          (scalars.flatMap String.utf8EncodeChar ++
            (String.utf8EncodeChar char).drop kept) := by
        rw [← List.append_assoc, ← List.flatMap_cons, ← hScalars, List.append_nil,
          List.take_append_drop]
      obtain ⟨-, hRest⟩ := encoding_append_injective hWhole
      have hLength := congrArg List.length hRest
      simp only [List.length_nil, List.length_append, List.length_drop] at hLength
      omega

end Utf8
end Foundation
end RootPermit
