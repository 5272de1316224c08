import Mathlib.Data.List.GetD
import RootPermit.Foundation.Outcome
import RootPermit.Helper.Sha256

/-!
# Objects of the content store

`validate_immutable_object` in `startup_contract.cpp`: the bytes behind a descriptor of
the content store, with the name, the digest and the file data that they come with.

* `digestHex_injective` — the name of a digest names no other digest;
* `sha256_eq_hash` — the digest that is compared is the SHA-256 of the bytes;
* `immutable_object_iff` — the objects that are accepted.
-/

namespace RootPermit
namespace Helper

open Foundation

/-! ### Digests as text -/

def isLowerHexDigest (value : Bytes) : Bool :=
  decide (value.length = 64) && value.all fun c =>
    decide (0x30 ≤ c ∧ c ≤ 0x39) || decide (0x61 ≤ c ∧ c ≤ 0x66)

/-- The digits of `hex_digit`. -/
def kDigits : Bytes := utf8 "0123456789abcdef"

def hexDigit (byte : UInt8) : UInt8 :=
  kDigits.getD (byte &&& 0x0f).toNat 0

/-- One pass of the loop of `digest_hex`. -/
def writeHex (digest : Digest) (output : Bytes) (index : Nat) : Bytes :=
  (output.set (index * 2) (hexDigit (digest.val.getD index 0 >>> 4))).set (index * 2 + 1)
    (hexDigit (digest.val.getD index 0))

def digestHex (digest : Digest) : Bytes :=
  (List.range digest.val.length).foldl (writeHex digest) (List.replicate 64 0x30)

def constantTimeEqual (left right : Digest) : Bool :=
  (List.range left.val.length).foldl (fun (different : UInt8) (index : Nat) =>
    different ||| (left.val.getD index 0 ^^^ right.val.getD index 0)) 0 == 0

/-- The class with one `update`. -/
def sha256 (bytes : Bytes) : Digest :=
  let hasher := Sha256.update transform (Sha256.new Sha256.startState) bytes
  ⟨Sha256.final hasher, by
    rw [Sha256.final, Sha256.output_eq, Foundation.Sha256.length_stateBytes]⟩

/-! ### Objects -/

/-- The errors of `ImmutableInputError`; success is a value. -/
inductive ImmutableInputError where
  | invalidObjectName
  | objectNameDigestMismatch
  | objectDigestMismatch
  | notRegularFile
  | ownerNotRoot
  | writableByGroupOrOther
  | hardlinkPresent
  deriving DecidableEq, Repr

structure ImmutableObjectMetadata where
  objectName : Bytes
  expectedDigest : Digest
  ownerUid : UInt32
  mode : UInt32
  hardlinkCount : UInt32
  regularFile : Bool
  deriving DecidableEq, Repr

def validateImmutableObject (metadata : ImmutableObjectMetadata) (bytes : Bytes) :
    Except ImmutableInputError Unit := do
  rejectIf (isLowerHexDigest metadata.objectName = false) .invalidObjectName
  rejectIf (metadata.objectName ≠ digestHex metadata.expectedDigest)
    .objectNameDigestMismatch
  rejectIf (constantTimeEqual (sha256 bytes) metadata.expectedDigest = false)
    .objectDigestMismatch
  rejectIf (metadata.regularFile = false) .notRegularFile
  rejectIf (metadata.ownerUid ≠ 0) .ownerNotRoot
  rejectIf (metadata.mode &&& 0o022 ≠ 0) .writableByGroupOrOther
  rejectIf (metadata.hardlinkCount ≠ 1) .hardlinkPresent

/-! ### The text of a digest -/

/-- Two digits for each byte. -/
def hexText (bytes : Bytes) : Bytes :=
  bytes.flatMap fun (byte : UInt8) => [hexDigit (byte >>> 4), hexDigit byte]

theorem hexDigit_eq (byte : UInt8) : hexDigit byte = kDigits.getD (byte.toNat % 16) 0 := by
  have hNibble : (byte &&& 0x0f).toNat = byte.toNat % 16 := by
    rw [UInt8.toNat_and]
    exact Nat.and_two_pow_sub_one_eq_mod byte.toNat 4
  rw [hexDigit, hNibble]

theorem kDigits_lower : ∀ nibble < 16,
    (decide (0x30 ≤ kDigits.getD nibble 0 ∧ kDigits.getD nibble 0 ≤ 0x39) ||
      decide (0x61 ≤ kDigits.getD nibble 0 ∧ kDigits.getD nibble 0 ≤ 0x66)) = true := by
  decide

theorem kDigits_injective : ∀ left < 16, ∀ right < 16,
    kDigits.getD left 0 = kDigits.getD right 0 → left = right := by
  decide

theorem hexDigit_shiftRight (byte : UInt8) :
    hexDigit (byte >>> 4) = kDigits.getD (byte.toNat / 16) 0 := by
  have hHigh : (byte >>> 4).toNat = byte.toNat / 16 := by
    rw [UInt8.toNat_shiftRight]
    exact Nat.shiftRight_eq_div_pow byte.toNat 4
  have hByte := byte.toNat_lt
  rw [hexDigit_eq, hHigh, Nat.mod_eq_of_lt (by omega)]

/-- The two digits of a byte tell the byte. -/
theorem eq_of_hexDigits {left right : UInt8}
    (hHigh : hexDigit (left >>> 4) = hexDigit (right >>> 4))
    (hLow : hexDigit left = hexDigit right) : left = right := by
  have hLeft := left.toNat_lt
  have hRight := right.toNat_lt
  rw [hexDigit_shiftRight, hexDigit_shiftRight] at hHigh
  rw [hexDigit_eq, hexDigit_eq] at hLow
  have hQuotient := kDigits_injective _ (by omega) _ (by omega) hHigh
  have hRemainder := kDigits_injective _ (Nat.mod_lt _ (by decide)) _
    (Nat.mod_lt _ (by decide)) hLow
  apply UInt8.toNat_inj.mp
  omega

@[simp] theorem hexText_cons (byte : UInt8) (bytes : Bytes) :
    hexText (byte :: bytes) =
      hexDigit (byte >>> 4) :: hexDigit byte :: hexText bytes := rfl

theorem hexText_concat (bytes : Bytes) (byte : UInt8) :
    hexText (bytes ++ [byte]) = hexText bytes ++ [hexDigit (byte >>> 4), hexDigit byte] := by
  simp [hexText]

theorem length_hexText (bytes : Bytes) : (hexText bytes).length = bytes.length * 2 := by
  induction bytes with
  | nil => rfl
  | cons byte bytes ih =>
      rw [hexText_cons, List.length_cons, List.length_cons, ih, List.length_cons]
      omega

theorem hexText_injective : Function.Injective hexText := by
  intro left
  induction left with
  | nil =>
      intro right h
      cases right with
      | nil => rfl
      | cons byte bytes => cases h
  | cons first rest ih =>
      intro right h
      cases right with
      | nil => cases h
      | cons byte bytes =>
          simp only [hexText_cons, List.cons.injEq] at h
          obtain ⟨hHigh, hLow, hRest⟩ := h
          rw [eq_of_hexDigits hHigh hLow, ih hRest]

theorem isLowerHexDigest_hexText (digest : Digest) :
    isLowerHexDigest (hexText digest.val) = true := by
  rw [isLowerHexDigest, Bool.and_eq_true, decide_eq_true_iff, List.all_eq_true,
    length_hexText, digest.property]
  refine ⟨rfl, fun c hC => ?_⟩
  obtain ⟨byte, -, hDigit⟩ := List.mem_flatMap.mp hC
  have hByte := byte.toNat_lt
  rcases List.mem_cons.mp hDigit with rfl | hLow
  · rw [hexDigit_shiftRight]
    exact kDigits_lower _ (by omega)
  · rw [List.mem_singleton.mp hLow, hexDigit_eq]
    exact kDigits_lower _ (Nat.mod_lt _ (by decide))

/-- What is written after some turns of the loop. -/
theorem foldl_writeHex (digest : Digest) {count : Nat} (h : count ≤ 32) :
    (List.range count).foldl (writeHex digest) (List.replicate 64 0x30) =
      hexText (digest.val.take count) ++ List.replicate (64 - count * 2) 0x30 := by
  induction count with
  | zero => rfl
  | succ count ih =>
      have hLength : count < digest.val.length := by
        rw [digest.property]
        omega
      have hWritten : (hexText (digest.val.take count)).length = count * 2 := by
        rw [length_hexText, List.length_take, Nat.min_eq_left hLength.le]
      have hRoom : 64 - count * 2 = (64 - (count + 1) * 2) + 1 + 1 := by omega
      rw [List.range_succ, List.foldl_concat, ih (by omega), writeHex,
        List.take_succ_eq_append_getElem hLength, hexText_concat, hRoom,
        List.replicate_succ, List.replicate_succ,
        List.getD_eq_getElem _ _ hLength]
      rw [List.set_append_right _ _ (by omega), List.set_append_right _ _ (by omega),
        hWritten]
      simp

/-- The loop writes the text of the digest. -/
theorem digestHex_eq (digest : Digest) : digestHex digest = hexText digest.val := by
  rw [digestHex, digest.property, foldl_writeHex digest le_rfl,
    List.take_of_length_le digest.property.le]
  exact List.append_nil _

theorem digestHex_injective : Function.Injective digestHex := by
  intro left right h
  rw [digestHex_eq, digestHex_eq] at h
  exact Subtype.ext (hexText_injective h)

/-! ### The comparison of digests -/

theorem or_eq_zero_iff (left right : UInt8) : left ||| right = 0 ↔ left = 0 ∧ right = 0 := by
  constructor
  · intro h
    have hNat : left.toNat ||| right.toNat = 0 := by
      rw [← UInt8.toNat_or, h]
      rfl
    obtain ⟨hLeft, hRight⟩ := Nat.or_eq_zero_iff.mp hNat
    exact ⟨UInt8.toNat_inj.mp hLeft, UInt8.toNat_inj.mp hRight⟩
  · rintro ⟨rfl, rfl⟩
    rfl

/-- Nothing is different as far as the loop has come. -/
theorem foldl_or_eq_zero_iff (difference : Nat → UInt8) (indexes : List Nat)
    (different : UInt8) :
    indexes.foldl (fun different index => different ||| difference index) different = 0 ↔
      different = 0 ∧ ∀ index ∈ indexes, difference index = 0 := by
  induction indexes generalizing different with
  | nil => simp
  | cons index indexes ih =>
      rw [List.foldl_cons, ih, or_eq_zero_iff, List.forall_mem_cons, and_assoc]

theorem constantTimeEqual_iff (left right : Digest) :
    constantTimeEqual left right = true ↔ left = right := by
  rw [constantTimeEqual, beq_iff_eq, foldl_or_eq_zero_iff]
  constructor
  · rintro ⟨-, hSame⟩
    apply Subtype.ext
    apply List.ext_getElem (left.property.trans right.property.symm)
    intro index hLeft hRight
    have hZero := hSame index (List.mem_range.mpr hLeft)
    rw [List.getD_eq_getElem _ _ hLeft, List.getD_eq_getElem _ _ hRight] at hZero
    exact UInt8.xor_eq_zero_iff.mp hZero
  · rintro rfl
    exact ⟨rfl, fun index _ => UInt8.xor_self⟩

/-! ### What is accepted -/

/-- The digest of a message that is given in one piece. -/
theorem sha256_eq_hash {bytes : Bytes} (h : bytes.length < 2 ^ 61) :
    sha256 bytes = Foundation.Sha256.hash bytes := by
  have hFlatten : [bytes].flatten = bytes := List.flatten_singleton
  obtain ⟨⟨blocks, hHolds⟩, hTotal⟩ :
      (∃ blocks, Sha256.Holds transform Sha256.startState
        ([bytes].foldl (Sha256.update transform) (Sha256.new Sha256.startState)) blocks
        [bytes].flatten) ∧
      ([bytes].foldl (Sha256.update transform) (Sha256.new Sha256.startState)).totalBytes =
        UInt64.ofNat [bytes].flatten.length := Sha256.holds_updates [bytes]
  rw [hFlatten] at hHolds hTotal
  obtain ⟨padded, hPad, hWhole, hState⟩ := hHolds.finish hTotal h
  have hCompress : padded.foldl transform Sha256.startState =
      padded.foldl Foundation.Sha256.compress Foundation.Sha256.initialState :=
    List.foldl_ext _ _ _ fun state block hBlock =>
      transform_eq_compress (hWhole block hBlock) state
  apply Subtype.ext
  rw [Foundation.Sha256.hash_of_blocks hPad hWhole, ← hCompress, ← hState]
  exact Sha256.output_eq _

/-- Who may write an object, and under how many names it is known. -/
structure ProtectedFile (metadata : ImmutableObjectMetadata) : Prop where
  regular : metadata.regularFile = true
  owner : metadata.ownerUid = 0
  mode : metadata.mode &&& 0o022 = 0
  hardlinks : metadata.hardlinkCount = 1

theorem validateImmutableObject_eq_ok_iff {metadata : ImmutableObjectMetadata}
    {bytes : Bytes} (h : bytes.length < 2 ^ 61) :
    validateImmutableObject metadata bytes = .ok () ↔
      metadata.objectName = hexText (Foundation.Sha256.hash bytes).val ∧
        metadata.expectedDigest = Foundation.Sha256.hash bytes ∧
        ProtectedFile metadata := by
  simp only [validateImmutableObject, bind_eq_ok_iff, rejectIf_eq_ok_iff, exists_const,
    Bool.not_eq_false, not_not, constantTimeEqual_iff, digestHex_eq, sha256_eq_hash h]
  constructor
  · rintro ⟨-, hName, hDigest, hRegular, hOwner, hMode, hLinks⟩
    rw [← hDigest] at hName
    exact ⟨hName, hDigest.symm, ⟨hRegular, hOwner, hMode, hLinks⟩⟩
  · rintro ⟨hName, hDigest, hFile⟩
    refine ⟨?_, ?_, hDigest.symm, hFile.regular, hFile.owner, hFile.mode,
      hFile.hardlinks⟩
    · rw [hName]
      exact isLowerHexDigest_hexText _
    · rw [hName, hDigest]

/-- An object is accepted exactly when it is a protected file under the name of the
SHA-256 of its bytes, which is also the digest that was expected; so two objects that
are accepted have one name exactly when their bytes have one digest. -/
theorem immutable_object_iff {metadata : ImmutableObjectMetadata} {bytes : Bytes}
    (h : bytes.length < 2 ^ 61) :
    (validateImmutableObject metadata bytes = .ok () ↔
      metadata.objectName = hexText (Foundation.Sha256.hash bytes).val ∧
        metadata.expectedDigest = Foundation.Sha256.hash bytes ∧
        ProtectedFile metadata) ∧
    ∀ (other : ImmutableObjectMetadata) (otherBytes : Bytes),
      otherBytes.length < 2 ^ 61 →
      validateImmutableObject metadata bytes = .ok () →
      validateImmutableObject other otherBytes = .ok () →
      (metadata.objectName = other.objectName ↔
        Foundation.Sha256.hash bytes = Foundation.Sha256.hash otherBytes) := by
  refine ⟨validateImmutableObject_eq_ok_iff h, fun other otherBytes hOther hFirst => ?_⟩
  intro hSecond
  obtain ⟨hName, -, -⟩ := (validateImmutableObject_eq_ok_iff h).mp hFirst
  obtain ⟨hOtherName, -, -⟩ := (validateImmutableObject_eq_ok_iff hOther).mp hSecond
  rw [hName, hOtherName, hexText_injective.eq_iff, ← Subtype.ext_iff]

/-- A file of three bytes that only root may write. -/
theorem immutable_object_sample :
    validateImmutableObject
      { objectName := hexText (Foundation.Sha256.hash [0x61, 0x62, 0x63]).val
        expectedDigest := Foundation.Sha256.hash [0x61, 0x62, 0x63]
        ownerUid := 0, mode := 0o444, hardlinkCount := 1, regularFile := true }
      [0x61, 0x62, 0x63] = .ok () :=
  (immutable_object_iff (by decide)).1.mpr
    ⟨rfl, rfl, ⟨rfl, rfl, by decide, rfl⟩⟩

end Helper
end RootPermit
