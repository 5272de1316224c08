import RootPermit.Foundation.Bytes

/-!
# Unpadded base64url

Three bytes are written as four symbols of six bits each; one or two trailing
bytes are written as two or three symbols whose unused low bits are zero.
Decoding rejects padding, foreign symbols, a single trailing symbol and unused
bits that are not zero.
-/

namespace RootPermit
namespace Foundation
namespace Base64Url

/-- The symbol of a six-bit value: `A`–`Z`, `a`–`z`, `0`–`9`, `-` and `_`. -/
def symbol (sextet : Nat) : UInt8 :=
  if sextet < 26 then UInt8.ofNat (0x41 + sextet)
  else if sextet < 52 then UInt8.ofNat (0x61 + (sextet - 26))
  else if sextet < 62 then UInt8.ofNat (0x30 + (sextet - 52))
  else if sextet = 62 then 0x2d
  else 0x5f

/-- The six-bit value of a symbol. -/
def sextet? (byte : UInt8) : Option Nat :=
  if 0x41 ≤ byte ∧ byte ≤ 0x5a then some (byte.toNat - 0x41)
  else if 0x61 ≤ byte ∧ byte ≤ 0x7a then some (byte.toNat - 0x61 + 26)
  else if 0x30 ≤ byte ∧ byte ≤ 0x39 then some (byte.toNat - 0x30 + 52)
  else if byte = 0x2d then some 62
  else if byte = 0x5f then some 63
  else none

def encode : Bytes → Bytes
  | first :: second :: third :: rest =>
      let group := first.toNat * 65536 + second.toNat * 256 + third.toNat
      symbol (group / 262144) :: symbol (group / 4096 % 64) ::
        symbol (group / 64 % 64) :: symbol (group % 64) :: encode rest
  | [first, second] =>
      let group := (first.toNat * 256 + second.toNat) * 4
      [symbol (group / 4096), symbol (group / 64 % 64), symbol (group % 64)]
  | [first] =>
      let group := first.toNat * 16
      [symbol (group / 64), symbol (group % 64)]
  | [] => []

def decode : Bytes → Option Bytes
  | first :: second :: third :: fourth :: rest => do
      let a ← sextet? first
      let b ← sextet? second
      let c ← sextet? third
      let d ← sextet? fourth
      let bytes ← decode rest
      let group := a * 262144 + b * 4096 + c * 64 + d
      return UInt8.ofNat (group / 65536) :: UInt8.ofNat (group / 256) ::
        UInt8.ofNat group :: bytes
  | [first, second, third] => do
      let a ← sextet? first
      let b ← sextet? second
      let c ← sextet? third
      let group := a * 4096 + b * 64 + c
      if group % 4 = 0 then
        return [UInt8.ofNat (group / 1024), UInt8.ofNat (group / 4)]
      else none
  | [first, second] => do
      let a ← sextet? first
      let b ← sextet? second
      let group := a * 64 + b
      if group % 16 = 0 then return [UInt8.ofNat (group / 16)] else none
  | [_] => none
  | [] => some []

/-- The encoding as a text; every symbol is ASCII. -/
def encodeText (bytes : Bytes) : String :=
  String.ofList ((encode bytes).map fun byte => Char.ofNat byte.toNat)

theorem sextet?_symbol {sextet : Nat} (h : sextet < 64) :
    sextet? (symbol sextet) = some sextet := by
  have hAll : ∀ sextet < 64, sextet? (symbol sextet) = some sextet := by
    decide +kernel
  exact hAll sextet h

theorem toNat_symbol_lt (sextet : Nat) : (symbol sextet).toNat < 128 := by
  have hSize : UInt8.size = 256 := rfl
  unfold symbol
  split_ifs with hUpper hLower hDigit hDash
  · rw [UInt8.toNat_ofNat_of_lt' (by omega)]
    omega
  · rw [UInt8.toNat_ofNat_of_lt' (by omega)]
    omega
  · rw [UInt8.toNat_ofNat_of_lt' (by omega)]
    omega
  · decide
  · decide

/-- A byte is read back from a number that has it as its low digit. -/
theorem ofNat_eq_of_mod {number : Nat} {byte : UInt8}
    (h : number % 256 = byte.toNat) : UInt8.ofNat number = byte := by
  apply UInt8.toNat_inj.mp
  rw [UInt8.toNat_ofNat', h]

/-- Decoding an encoding gives back the bytes. -/
theorem decode_encode (bytes : Bytes) : decode (encode bytes) = some bytes := by
  induction bytes using encode.induct with
  | case1 first second third rest ih =>
      have hFirst := first.toNat_lt
      have hSecond := second.toNat_lt
      have hThird := third.toNat_lt
      rw [encode]
      generalize hGroup :
        first.toNat * 65536 + second.toNat * 256 + third.toNat = group
      have hJoin : group / 262144 * 262144 + group / 4096 % 64 * 4096 +
          group / 64 % 64 * 64 + group % 64 = group := by
        have hSecond : group / 4096 = group / 64 / 64 := by
          rw [Nat.div_div_eq_div_mul]
        have hThird : group / 262144 = group / 64 / 64 / 64 := by
          rw [Nat.div_div_eq_div_mul, Nat.div_div_eq_div_mul]
        have hLow := Nat.div_add_mod group 64
        have hMiddle := Nat.div_add_mod (group / 64) 64
        have hTop := Nat.div_add_mod (group / 64 / 64) 64
        rw [hSecond, hThird]
        clear hGroup
        omega
      have hHigh : group / 262144 < 64 := by omega
      simp only [decode, sextet?_symbol hHigh,
        sextet?_symbol (show group / 4096 % 64 < 64 by omega),
        sextet?_symbol (show group / 64 % 64 < 64 by omega),
        sextet?_symbol (show group % 64 < 64 by omega), ih, Option.bind_eq_bind,
        Option.bind_some, hJoin, Option.pure_def]
      have hBytes : UInt8.ofNat (group / 65536) = first ∧
          UInt8.ofNat (group / 256) = second ∧ UInt8.ofNat group = third :=
        ⟨ofNat_eq_of_mod (by omega), ofNat_eq_of_mod (by omega),
          ofNat_eq_of_mod (by omega)⟩
      rw [hBytes.1, hBytes.2.1, hBytes.2.2]
  | case2 first second =>
      have hFirst := first.toNat_lt
      have hSecond := second.toNat_lt
      rw [encode]
      generalize hGroup : (first.toNat * 256 + second.toNat) * 4 = group
      have hJoin : group / 4096 * 4096 + group / 64 % 64 * 64 + group % 64 = group := by
        omega
      simp only [decode, sextet?_symbol (show group / 4096 < 64 by omega),
        sextet?_symbol (show group / 64 % 64 < 64 by omega),
        sextet?_symbol (show group % 64 < 64 by omega), Option.bind_eq_bind,
        Option.bind_some, hJoin, Option.pure_def, if_pos (show group % 4 = 0 by omega)]
      have hBytes : UInt8.ofNat (group / 1024) = first ∧
          UInt8.ofNat (group / 4) = second :=
        ⟨ofNat_eq_of_mod (by omega), ofNat_eq_of_mod (by omega)⟩
      rw [hBytes.1, hBytes.2]
  | case3 first =>
      have hFirst := first.toNat_lt
      rw [encode]
      generalize hGroup : first.toNat * 16 = group
      have hJoin : group / 64 * 64 + group % 64 = group := by omega
      simp only [decode, sextet?_symbol (show group / 64 < 64 by omega),
        sextet?_symbol (show group % 64 < 64 by omega), Option.bind_eq_bind,
        Option.bind_some, hJoin, Option.pure_def, if_pos (show group % 16 = 0 by omega)]
      have hByte : UInt8.ofNat (group / 16) = first := ofNat_eq_of_mod (by omega)
      rw [hByte]
  | case4 => rfl

/-- A symbol spells its six-bit value. -/
theorem sextet?_eq_some {byte : UInt8} {sextet : Nat} (h : sextet? byte = some sextet) :
    sextet < 64 ∧ symbol sextet = byte := by
  have hAll : ∀ value < 256, ∀ found ∈ sextet? (UInt8.ofNat value),
      found < 64 ∧ symbol found = UInt8.ofNat value := by decide +kernel
  have hByte := hAll byte.toNat byte.toNat_lt
  rw [UInt8.ofNat_toNat] at hByte
  exact hByte sextet h

/-- Decoding a text gives bytes whose encoding is that text: no two texts stand for the
same bytes. -/
theorem encode_of_decode {text bytes : Bytes} (h : decode text = some bytes) :
    encode bytes = text := by
  induction text using decode.induct generalizing bytes with
  | case1 first second third fourth rest ih =>
      simp only [decode, Option.bind_eq_bind, Option.bind_eq_some_iff, Option.pure_def,
        Option.some.injEq] at h
      obtain ⟨a, hA, b, hB, c, hC, d, hD, others, hOthers, rfl⟩ := h
      obtain ⟨hALt, hASymbol⟩ := sextet?_eq_some hA
      obtain ⟨hBLt, hBSymbol⟩ := sextet?_eq_some hB
      obtain ⟨hCLt, hCSymbol⟩ := sextet?_eq_some hC
      obtain ⟨hDLt, hDSymbol⟩ := sextet?_eq_some hD
      rw [encode, ih hOthers]
      simp only [UInt8.toNat_ofNat']
      -- The three bytes are the digits of the same group.
      have hGroup : (a * 262144 + b * 4096 + c * 64 + d) / 65536 % 2 ^ 8 * 65536 +
          (a * 262144 + b * 4096 + c * 64 + d) / 256 % 2 ^ 8 * 256 +
          (a * 262144 + b * 4096 + c * 64 + d) % 2 ^ 8 =
            a * 262144 + b * 4096 + c * 64 + d := by omega
      rw [hGroup]
      have hDigits : (a * 262144 + b * 4096 + c * 64 + d) / 262144 = a ∧
          (a * 262144 + b * 4096 + c * 64 + d) / 4096 % 64 = b ∧
          (a * 262144 + b * 4096 + c * 64 + d) / 64 % 64 = c ∧
          (a * 262144 + b * 4096 + c * 64 + d) % 64 = d := by omega
      obtain ⟨hADigit, hBDigit, hCDigit, hDDigit⟩ := hDigits
      rw [hADigit, hBDigit, hCDigit, hDDigit, hASymbol, hBSymbol, hCSymbol, hDSymbol]
  | case2 first second third =>
      simp only [decode, Option.bind_eq_bind, Option.bind_eq_some_iff] at h
      obtain ⟨a, hA, b, hB, c, hC, hRest⟩ := h
      obtain ⟨hALt, hASymbol⟩ := sextet?_eq_some hA
      obtain ⟨hBLt, hBSymbol⟩ := sextet?_eq_some hB
      obtain ⟨hCLt, hCSymbol⟩ := sextet?_eq_some hC
      split_ifs at hRest with hSpare
      simp only [Option.pure_def, Option.some.injEq] at hRest
      subst hRest
      simp only [encode, UInt8.toNat_ofNat']
      have hDigits : ((a * 4096 + b * 64 + c) / 1024 % 2 ^ 8 * 256 +
          (a * 4096 + b * 64 + c) / 4 % 2 ^ 8) * 4 = a * 4096 + b * 64 + c := by omega
      rw [hDigits, show (a * 4096 + b * 64 + c) / 4096 = a by omega,
        show (a * 4096 + b * 64 + c) / 64 % 64 = b by omega,
        show (a * 4096 + b * 64 + c) % 64 = c by omega, hASymbol, hBSymbol, hCSymbol]
  | case3 first second =>
      simp only [decode, Option.bind_eq_bind, Option.bind_eq_some_iff] at h
      obtain ⟨a, hA, b, hB, hRest⟩ := h
      obtain ⟨hALt, hASymbol⟩ := sextet?_eq_some hA
      obtain ⟨hBLt, hBSymbol⟩ := sextet?_eq_some hB
      split_ifs at hRest with hSpare
      simp only [Option.pure_def, Option.some.injEq] at hRest
      subst hRest
      simp only [encode, UInt8.toNat_ofNat']
      have hDigits : (a * 64 + b) / 16 % 2 ^ 8 * 16 = a * 64 + b := by omega
      rw [hDigits, show (a * 64 + b) / 64 = a by omega,
        show (a * 64 + b) % 64 = b by omega, hASymbol, hBSymbol]
  | case4 byte => cases h
  | case5 =>
      rw [decode, Option.some.injEq] at h
      rw [← h]
      rfl

/-- What the low bits of the last symbol have to be a multiple of. -/
def spare (length : Nat) : Nat :=
  match length % 4 with
  | 2 => 16
  | 3 => 4
  | _ => 1

theorem spare_add_four (length : Nat) : spare (length + 4) = spare length := by
  unfold spare
  rw [Nat.add_mod_right]

/-- A text of symbols, not one more than a multiple of four, is decoded exactly when the
bits that its last symbol has to spare are zero. -/
theorem decode_ne_none_iff {text : Bytes} (hLength : text.length % 4 ≠ 1)
    (hSymbols : ∀ byte ∈ text, sextet? byte ≠ none) :
    decode text ≠ none ↔
      ∀ last ∈ text.getLast?, ∀ sextet ∈ sextet? last, sextet % spare text.length = 0 := by
  induction text using decode.induct with
  | case1 first second third fourth rest ih =>
      simp only [List.forall_mem_cons, Option.ne_none_iff_exists'] at hSymbols
      obtain ⟨⟨a, hA⟩, ⟨b, hB⟩, ⟨c, hC⟩, ⟨d, hD⟩, hRest⟩ := hSymbols
      rw [List.length_cons, List.length_cons, List.length_cons, List.length_cons]
        at hLength
      have hShorter := ih (by omega)
        fun byte hByte => Option.ne_none_iff_exists'.mpr (hRest byte hByte)
      simp only [decode, hA, hB, hC, hD, Option.bind_eq_bind, Option.bind_some,
        Option.pure_def]
      have hSame : ((decode rest).bind fun bytes =>
          some (UInt8.ofNat ((a * 262144 + b * 4096 + c * 64 + d) / 65536) ::
            UInt8.ofNat ((a * 262144 + b * 4096 + c * 64 + d) / 256) ::
              UInt8.ofNat (a * 262144 + b * 4096 + c * 64 + d) :: bytes)) ≠ none ↔
          decode rest ≠ none := by
        cases decode rest <;> simp
      rw [hSame, hShorter]
      simp only [List.length_cons, spare_add_four]
      cases rest with
      | nil => simp [spare, Nat.mod_one]
      | cons next others => simp [List.getLast?_cons_cons]
  | case2 first second third =>
      simp only [List.forall_mem_cons, Option.ne_none_iff_exists'] at hSymbols
      obtain ⟨⟨a, hA⟩, ⟨b, hB⟩, ⟨c, hC⟩, -⟩ := hSymbols
      have hSpare : (a * 4096 + b * 64 + c) % 4 = c % 4 := by omega
      simp [decode, hA, hB, hC, spare, hSpare]
  | case3 first second =>
      simp only [List.forall_mem_cons, Option.ne_none_iff_exists'] at hSymbols
      obtain ⟨⟨a, hA⟩, ⟨b, hB⟩, -⟩ := hSymbols
      have hSpare : (a * 64 + b) % 16 = b % 16 := by omega
      simp [decode, hA, hB, spare, hSpare]
  | case4 byte => simp at hLength
  | case5 => simp [decode]

/-- Every byte of an encoding is a symbol. -/
theorem exists_symbol_of_mem {bytes : Bytes} {byte : UInt8} (h : byte ∈ encode bytes) :
    ∃ sextet < 64, byte = symbol sextet := by
  induction bytes using encode.induct with
  | case1 first second third rest ih =>
      have hFirst := first.toNat_lt
      have hSecond := second.toNat_lt
      have hThird := third.toNat_lt
      simp only [encode, List.mem_cons] at h
      rcases h with rfl | rfl | rfl | rfl | hRest
      · exact ⟨_, by omega, rfl⟩
      · exact ⟨_, by omega, rfl⟩
      · exact ⟨_, by omega, rfl⟩
      · exact ⟨_, by omega, rfl⟩
      · exact ih hRest
  | case2 first second =>
      have hFirst := first.toNat_lt
      have hSecond := second.toNat_lt
      simp only [encode, List.mem_cons, List.not_mem_nil, or_false] at h
      rcases h with rfl | rfl | rfl
      · exact ⟨_, by omega, rfl⟩
      · exact ⟨_, by omega, rfl⟩
      · exact ⟨_, by omega, rfl⟩
  | case3 first =>
      have hFirst := first.toNat_lt
      simp only [encode, List.mem_cons, List.not_mem_nil, or_false] at h
      rcases h with rfl | rfl
      · exact ⟨_, by omega, rfl⟩
      · exact ⟨_, by omega, rfl⟩
  | case4 => cases h

/-- Three bytes take four symbols; one or two trailing bytes take one symbol more than
they are. -/
theorem length_encode (bytes : Bytes) :
    (encode bytes).length = (bytes.length * 4 + 2) / 3 := by
  induction bytes using encode.induct with
  | case1 first second third rest ih =>
      simp only [encode, List.length_cons, ih]
      omega
  | case2 first second => simp [encode]
  | case3 first => simp [encode]
  | case4 => rfl

theorem utf8_ofList_ascii {bytes : Bytes} (h : ∀ byte ∈ bytes, byte.toNat < 128) :
    utf8 (String.ofList (bytes.map fun byte => Char.ofNat byte.toNat)) = bytes := by
  induction bytes with
  | nil => rfl
  | cons byte rest ih =>
      obtain ⟨hByte, hRest⟩ := List.forall_mem_cons.mp h
      have hValue : (Char.ofNat byte.toNat).val.toNat = byte.toNat := by
        have hAll : ∀ value < 128, (Char.ofNat value).val.toNat = value := by
          decide +kernel
        exact hAll byte.toNat hByte
      have hChar : String.utf8EncodeChar (Char.ofNat byte.toNat) = [byte] := by
        unfold String.utf8EncodeChar
        simp only [hValue]
        rw [if_pos (by omega), UInt8.ofNat_toNat]
      have hTail := ih hRest
      unfold utf8 at hTail ⊢
      rw [String.toByteArray_ofList] at hTail ⊢
      rw [List.map_cons, List.utf8Encode, List.flatMap_cons, hChar]
      rw [List.utf8Encode] at hTail
      simp only [List.data_toByteArray, List.toList_toArray] at hTail ⊢
      rw [hTail, List.singleton_append]

/-- The bytes of the text of an encoding. -/
theorem utf8_encodeText (bytes : Bytes) : utf8 (encodeText bytes) = encode bytes := by
  apply utf8_ofList_ascii
  intro byte hByte
  obtain ⟨sextet, -, rfl⟩ := exists_symbol_of_mem hByte
  exact toNat_symbol_lt sextet

theorem encodeText_injective : Function.Injective encodeText := by
  intro first second hTexts
  have hEncoded : encode first = encode second := by
    rw [← utf8_encodeText first, ← utf8_encodeText second, hTexts]
  have hDecoded := congrArg decode hEncoded
  rw [decode_encode, decode_encode] at hDecoded
  exact Option.some.inj hDecoded

example : encodeText [0xfb, 0xff, 0x01, 0x02] = "-_8BAg" := by decide +kernel

example : decode (utf8 "-_8BAg") = some [0xfb, 0xff, 0x01, 0x02] ∧
    decode (utf8 "-_8BAh") = none := by decide +kernel

end Base64Url
end Foundation
end RootPermit
