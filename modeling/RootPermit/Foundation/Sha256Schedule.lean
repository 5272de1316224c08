import RootPermit.Foundation.Sha256

/-!
# The schedule and the blocks of SHA-256

The standard defines the message schedule of a block as a recurrence and the digest of
a message by the blocks of the padded message.  The window of sixteen words walks
through the recurrence (`compress_eq`), and the blocks are those that the padded
message is made of (`hash_of_blocks`).
-/

namespace RootPermit
namespace Foundation
namespace Sha256

/-! ### The message schedule -/

/-- The words of the message schedule: those of the block, then the recurrence. -/
def scheduleWord (first : List UInt32) (t : Nat) : UInt32 :=
  if t < 16 then
    first.getD t 0
  else
    smallSigma1 (scheduleWord first (t - 2)) + scheduleWord first (t - 7) +
      smallSigma0 (scheduleWord first (t - 15)) + scheduleWord first (t - 16)

theorem scheduleWord_of_lt {first : List UInt32} {t : Nat} (h : t < 16) :
    scheduleWord first t = first.getD t 0 := by
  rw [scheduleWord, if_pos h]

theorem scheduleWord_add (first : List UInt32) (t : Nat) :
    scheduleWord first (t + 16) =
      smallSigma1 (scheduleWord first (t + 14)) + scheduleWord first (t + 9) +
        smallSigma0 (scheduleWord first (t + 1)) + scheduleWord first t := by
  rw [scheduleWord, if_neg (by omega)]
  rfl

/-- Sixteen words of a schedule. -/
def window (schedule : Nat → UInt32) (t : Nat) : List UInt32 :=
  (List.range 16).map fun index => schedule (t + index)

theorem drop_window (schedule : Nat → UInt32) (t : Nat) :
    (window schedule t).drop 1 ++ [schedule (t + 16)] = window schedule (t + 1) := by
  have hShift : ∀ index, t + 1 + index = t + (index + 1) := by
    intro index
    omega
  simp only [window, hShift]
  rfl

theorem nextWord_window (first : List UInt32) (t : Nat) :
    nextWord (window (scheduleWord first) t) = scheduleWord first (t + 16) := by
  rw [scheduleWord_add]
  rfl

/-- The rounds read the schedule word by word. -/
theorem rounds_window (first constants : List UInt32) (t : Nat) (state : State) :
    rounds constants (window (scheduleWord first) t) state =
      (constants.zipIdx t).foldl
        (fun state entry => round state entry.1 (scheduleWord first entry.2)) state := by
  induction constants generalizing t state with
  | nil => rfl
  | cons constant rest ih =>
      rw [rounds, nextWord_window, drop_window, ih]
      rfl

theorem length_words (bytes : Bytes) : (words bytes).length = bytes.length / 4 := by
  induction bytes using words.induct with
  | case1 first second third fourth rest ih =>
      simp only [words, List.length_cons, ih]
      omega
  | case2 bytes hShort =>
      match bytes with
      | [] | [_] | [_, _] | [_, _, _] => simp [words]
      | _ :: _ :: _ :: _ :: _ => exact absurd rfl (hShort _ _ _ _ _)

theorem window_zero {first : List UInt32} (h : first.length = 16) :
    window (scheduleWord first) 0 = first := by
  refine List.ext_getElem (by simp [window, h]) fun index hIndex hFirst => ?_
  simp only [window, List.getElem_map, List.getElem_range, Nat.zero_add]
  rw [scheduleWord_of_lt (by omega), List.getD_eq_getElem?_getD,
    List.getElem?_eq_getElem hFirst, Option.getD_some]

/-- The compression function of the standard, on a block of 64 bytes. -/
theorem compress_eq {block : Bytes} (h : block.length = 64) (state : State) :
    compress state block = addStates state (roundConstants.zipIdx.foldl
      (fun state entry => round state entry.1 (scheduleWord (words block) entry.2))
      state) := by
  have hWords : (words block).length = 16 := by
    rw [length_words, h]
  have hRounds := rounds_window (words block) roundConstants 0 state
  rw [window_zero hWords] at hRounds
  rw [compress, hRounds]

/-! ### The blocks of a message -/

/-- Absorbs `count` blocks of 64 bytes. -/
def absorbBlocks {σ : Type} (absorb : σ → Bytes → σ) : Nat → Bytes → σ → σ
  | 0, _, state => state
  | count + 1, bytes, state =>
      absorbBlocks absorb count (bytes.drop 64) (absorb state (bytes.take 64))

theorem absorbBlocks_flatten {σ : Type} (absorb : σ → Bytes → σ) {blocks : List Bytes}
    (h : ∀ block ∈ blocks, block.length = 64) (state : σ) :
    absorbBlocks absorb blocks.length blocks.flatten state =
      blocks.foldl absorb state := by
  induction blocks generalizing state with
  | nil => rfl
  | cons block rest ih =>
      obtain ⟨hBlock, hRest⟩ := List.forall_mem_cons.mp h
      rw [List.length_cons, List.flatten_cons, absorbBlocks,
        List.drop_left' hBlock, List.take_left' hBlock, ih hRest, List.foldl_cons]

-- The equations of `compressBlocks` make the kernel unfold the rounds.
theorem compressBlocks_eq : compressBlocks = absorbBlocks compress := by
  delta compressBlocks absorbBlocks
  rfl

theorem length_flatten {blocks : List Bytes}
    (h : ∀ block ∈ blocks, block.length = 64) :
    blocks.flatten.length = 64 * blocks.length := by
  induction blocks with
  | nil => rfl
  | cons block rest ih =>
      obtain ⟨hBlock, hRest⟩ := List.forall_mem_cons.mp h
      rw [List.flatten_cons, List.length_append, ih hRest, hBlock, List.length_cons]
      omega

/-- A byte string is made of whole blocks in one way. -/
theorem eq_of_flatten {blocks others : List Bytes}
    (h : ∀ block ∈ blocks, block.length = 64) (hOthers : ∀ block ∈ others, block.length = 64)
    (hFlatten : blocks.flatten = others.flatten) : blocks = others := by
  have hCount : blocks.length = others.length := by
    have hLength := congrArg List.length hFlatten
    rw [length_flatten h, length_flatten hOthers] at hLength
    omega
  refine List.eq_iff_flatten_eq.mpr ⟨hFlatten, ?_⟩
  rw [List.map_eq_replicate_iff.mpr h, List.map_eq_replicate_iff.mpr hOthers, hCount]

/-- The digest of a message whose padding is made of these blocks. -/
theorem hash_of_blocks {message : Bytes} {blocks : List Bytes}
    (hPad : blocks.flatten = pad message) (h : ∀ block ∈ blocks, block.length = 64) :
    (hash message).val = stateBytes (blocks.foldl compress initialState) := by
  have hCount : (pad message).length / 64 = blocks.length := by
    rw [← hPad, length_flatten h]
    omega
  have hState := absorbBlocks_flatten compress h initialState
  rw [← compressBlocks_eq, hPad, ← hCount] at hState
  exact congrArg stateBytes hState

/-! ### Words and their bytes -/

/-- The big-endian word of four bytes. -/
theorem shift_or_bytes (first second third fourth : UInt8) :
    (first.toUInt32 <<< 24) ||| (second.toUInt32 <<< 16) ||| (third.toUInt32 <<< 8) |||
      fourth.toUInt32 = UInt32.ofNat (beValue [first, second, third, fourth]) := by
  have hFirst := first.toNat_lt
  have hSecond := second.toNat_lt
  have hThird := third.toNat_lt
  have hFourth := fourth.toNat_lt
  apply UInt32.toNat_inj.mp
  have hValue : beValue [first, second, third, fourth] = first.toNat * 16777216 +
      (second.toNat * 65536 + (third.toNat * 256 + fourth.toNat)) := by
    simp only [beValue, List.length_cons, List.length_nil]
    omega
  have hWord : (UInt32.ofNat (beValue [first, second, third, fourth])).toNat =
      beValue [first, second, third, fourth] :=
    UInt32.toNat_ofNat_of_lt' (by rw [hValue, UInt32.size]; omega)
  simp only [UInt32.toNat_or, UInt32.toNat_shiftLeft, UInt8.toNat_toUInt32]
  rw [hWord, hValue]
  change first.toNat <<< 24 % 2 ^ 32 ||| second.toNat <<< 16 % 2 ^ 32 |||
    third.toNat <<< 8 % 2 ^ 32 ||| fourth.toNat = _
  -- The bytes do not overlap.
  have hLow : third.toNat <<< 8 ||| fourth.toNat = third.toNat * 256 + fourth.toNat := by
    rw [← Nat.shiftLeft_add_eq_or_of_lt hFourth, Nat.shiftLeft_eq]
  have hMiddle : second.toNat <<< 16 ||| (third.toNat * 256 + fourth.toNat) =
      second.toNat * 65536 + (third.toNat * 256 + fourth.toNat) := by
    rw [← Nat.shiftLeft_add_eq_or_of_lt (by omega), Nat.shiftLeft_eq]
  have hHigh : first.toNat <<< 24 |||
      (second.toNat * 65536 + (third.toNat * 256 + fourth.toNat)) =
      first.toNat * 16777216 +
        (second.toNat * 65536 + (third.toNat * 256 + fourth.toNat)) := by
    rw [← Nat.shiftLeft_add_eq_or_of_lt (by omega), Nat.shiftLeft_eq]
  have hFits : ∀ byte shift : Nat, byte < 2 ^ 8 → shift ≤ 24 →
      byte <<< shift % 2 ^ 32 = byte <<< shift := by
    intro byte shift hByte hShift
    apply Nat.mod_eq_of_lt
    rw [Nat.shiftLeft_eq]
    calc
      byte * 2 ^ shift < 2 ^ 8 * 2 ^ shift :=
        Nat.mul_lt_mul_of_pos_right hByte (by positivity)
      _ ≤ 2 ^ 8 * 2 ^ 24 := Nat.mul_le_mul_left _ (Nat.pow_le_pow_right (by omega) hShift)
      _ = 2 ^ 32 := rfl
  rw [hFits _ _ hFirst (by omega), hFits _ _ hSecond (by omega),
    hFits _ _ hThird (by omega), Nat.or_assoc, Nat.or_assoc, hLow, hMiddle, hHigh]

/-- The word at a place of a byte string. -/
theorem getD_words {bytes : Bytes} {index : Nat} (h : 4 * index + 4 ≤ bytes.length) :
    (words bytes).getD index 0 = UInt32.ofNat (beValue
      [bytes.getD (4 * index) 0, bytes.getD (4 * index + 1) 0,
        bytes.getD (4 * index + 2) 0, bytes.getD (4 * index + 3) 0]) := by
  induction index generalizing bytes with
  | zero =>
      match bytes, h with
      | first :: second :: third :: fourth :: rest, _ => rfl
  | succ index ih =>
      match bytes, h with
      | first :: second :: third :: fourth :: rest, h =>
          have hRest : 4 * index + 4 ≤ rest.length := by
            simp only [List.length_cons] at h
            omega
          have hShift : 4 * (index + 1) = 4 * index + 4 := by omega
          rw [words, List.getD_cons_succ, ih hRest, hShift]
          rfl

/-- The four bytes of a word, most significant first. -/
theorem beBytes_word (word : UInt32) :
    beBytes 4 word.toNat = (List.range 4).map fun byte =>
      (word >>> UInt32.ofNat (24 - byte * 8)).toUInt8 := by
  have hByte : ∀ shift : UInt32, shift.toNat < 32 →
      (word >>> shift).toUInt8 = UInt8.ofNat (word.toNat / 2 ^ shift.toNat) := by
    intro shift hShift
    apply UInt8.toNat_inj.mp
    rw [UInt32.toNat_toUInt8, UInt32.toNat_shiftRight, UInt8.toNat_ofNat',
      Nat.mod_eq_of_lt hShift, Nat.shiftRight_eq_div_pow]
  simp only [List.range, List.range.loop, List.map_cons, List.map_nil]
  rw [hByte _ (by decide), hByte _ (by decide), hByte _ (by decide), hByte _ (by decide)]
  rfl

end Sha256
end Foundation
end RootPermit
