import RootPermit.Foundation.Sha256Schedule

/-!
# The SHA-256 of the helper

`Sha256` in `src/helper/apt-helper/src/startup_contract.cpp`, a hasher that takes its
message in pieces.  However a message is split, the blocks that are transformed are those
of the padded message, and the digest is that of the standard (`final_eq_hash`).

* `scheduled` — the words of a block are the schedule of the standard;
* `transform_eq_compress` — `transform` is the compression function;
* `Holds.update` — what the hasher holds after a piece;
* `Holds.finish` — the blocks of the padding.
-/

namespace RootPermit
namespace Helper

open Foundation
open Foundation.Sha256 (State initialState scheduleWord compress addStates pad
  roundConstants)

/-! ### The compression of a block -/

def rotr (value count : UInt32) : UInt32 :=
  (value >>> count) ||| (value <<< (32 - count))

/-- The round constants `k`. -/
def k : List UInt32 :=
  [0x428a2f98, 0x71374491, 0xb5c0fbcf, 0xe9b5dba5, 0x3956c25b, 0x59f111f1, 0x923f82a4,
    0xab1c5ed5, 0xd807aa98, 0x12835b01, 0x243185be, 0x550c7dc3, 0x72be5d74, 0x80deb1fe,
    0x9bdc06a7, 0xc19bf174, 0xe49b69c1, 0xefbe4786, 0x0fc19dc6, 0x240ca1cc, 0x2de92c6f,
    0x4a7484aa, 0x5cb0a9dc, 0x76f988da, 0x983e5152, 0xa831c66d, 0xb00327c8, 0xbf597fc7,
    0xc6e00bf3, 0xd5a79147, 0x06ca6351, 0x14292967, 0x27b70a85, 0x2e1b2138, 0x4d2c6dfc,
    0x53380d13, 0x650a7354, 0x766a0abb, 0x81c2c92e, 0x92722c85, 0xa2bfe8a1, 0xa81a664b,
    0xc24b8b70, 0xc76c51a3, 0xd192e819, 0xd6990624, 0xf40e3585, 0x106aa070, 0x19a4c116,
    0x1e376c08, 0x2748774c, 0x34b0bcb5, 0x391c0cb3, 0x4ed8aa4a, 0x5b9cca4f, 0x682e6ff3,
    0x748f82ee, 0x78a5636f, 0x84c87814, 0x8cc70208, 0x90befffa, 0xa4506ceb, 0xbef9a3f7,
    0xc67178f2]

def firstWord (block : Bytes) (words : List UInt32) (index : Nat) : List UInt32 :=
  words.set index
    (((block.getD (index * 4) 0).toUInt32 <<< 24) |||
      ((block.getD (index * 4 + 1) 0).toUInt32 <<< 16) |||
      ((block.getD (index * 4 + 2) 0).toUInt32 <<< 8) |||
      (block.getD (index * 4 + 3) 0).toUInt32)

def laterWord (words : List UInt32) (index : Nat) : List UInt32 :=
  let early := words.getD (index - 15) 0
  let late := words.getD (index - 2) 0
  let s0 := rotr early 7 ^^^ rotr early 18 ^^^ (early >>> 3)
  let s1 := rotr late 17 ^^^ rotr late 19 ^^^ (late >>> 10)
  words.set index (words.getD (index - 16) 0 + s0 + words.getD (index - 7) 0 + s1)

/-- The array `words` after both loops. -/
def schedule (block : Bytes) : List UInt32 :=
  (List.range' 16 48).foldl laterWord
    ((List.range 16).foldl (firstWord block) (List.replicate 64 0))

/-- One pass of the loop over `words`, on the variables `a` to `h`. -/
def transformRound (words : List UInt32) (state : State) (index : Nat) : State :=
  let s1 := rotr state.e 6 ^^^ rotr state.e 11 ^^^ rotr state.e 25
  let choose := (state.e &&& state.f) ^^^ (~~~state.e &&& state.g)
  let temporary1 := state.h + s1 + choose + k.getD index 0 + words.getD index 0
  let s0 := rotr state.a 2 ^^^ rotr state.a 13 ^^^ rotr state.a 22
  let majority := (state.a &&& state.b) ^^^ (state.a &&& state.c) ^^^
    (state.b &&& state.c)
  let temporary2 := s0 + majority
  ⟨temporary1 + temporary2, state.a, state.b, state.c, state.d + temporary1, state.e,
    state.f, state.g⟩

def transform (state : State) (block : Bytes) : State :=
  addStates state ((List.range 64).foldl (transformRound (schedule block)) state)

/-! ### The hasher -/

/-- The members of the class, with `state_` of any type. -/
structure Sha256 (σ : Type) where
  state : σ
  block : Bytes
  used : Nat
  totalBytes : UInt64
  deriving DecidableEq, Repr

namespace Sha256

/-- The values of `state_` in the constructor. -/
def startState : State :=
  ⟨0x6a09e667, 0xbb67ae85, 0x3c6ef372, 0xa54ff53a, 0x510e527f, 0x9b05688c, 0x1f83d9ab,
    0x5be0cd19⟩

/-- The constructor. -/
def new {σ : Type} (start : σ) : Sha256 σ where
  state := start
  block := List.replicate 64 0
  used := 0
  totalBytes := 0

/-- `memcpy` into a block. -/
def overwrite (block : Bytes) (offset : Nat) (bytes : Bytes) : Bytes :=
  block.take offset ++ bytes ++ block.drop (offset + bytes.length)

/-- `std::fill` of a part of a block with zeros. -/
def clear (block : Bytes) (first last : Nat) : Bytes :=
  overwrite block first (List.replicate (last - first) 0)

def writeLength (bitLength : UInt64) (block : Bytes) (index : Nat) : Bytes :=
  block.set (63 - index) (bitLength >>> UInt64.ofNat (index * 8)).toUInt8

section Methods

variable {σ : Type} (transform : σ → Bytes → σ)

/-- The part of `update` that fills a block begun before; the result holds how much of
the input it takes. -/
def fill (hasher : Sha256 σ) (input : Bytes) : Sha256 σ × Nat :=
  if hasher.used ≠ 0 then
    let take := min (64 - hasher.used) input.length
    let block := overwrite hasher.block hasher.used (input.take take)
    let used := hasher.used + take
    if used = 64 then
      ({ hasher with block, state := transform hasher.state block, used := 0 }, take)
    else
      ({ hasher with block, used }, take)
  else
    (hasher, 0)

/-- The loop of `update` over whole blocks. -/
def drain (hasher : Sha256 σ) (input : Bytes) (offset : Nat) : Sha256 σ × Nat :=
  if 64 ≤ input.length - offset then
    let full := (input.drop offset).take 64
    drain { hasher with state := transform hasher.state full } input (offset + 64)
  else
    (hasher, offset)
termination_by input.length - offset

/-- The part of `update` that keeps the rest of the input. -/
def keep (hasher : Sha256 σ) (input : Bytes) (offset : Nat) : Sha256 σ :=
  if offset < input.length then
    { hasher with
      used := input.length - offset
      block := overwrite hasher.block 0 (input.drop offset) }
  else
    hasher

def update (hasher : Sha256 σ) (input : Bytes) : Sha256 σ :=
  let counted := { hasher with
    totalBytes := hasher.totalBytes + UInt64.ofNat input.length }
  let filled := fill transform counted input
  let drained := drain transform filled.1 input filled.2
  keep drained.1 input drained.2

/-- `final`, up to the output. -/
def finish (hasher : Sha256 σ) : Sha256 σ :=
  let bitLength := hasher.totalBytes * 8
  let marked := { hasher with
    block := hasher.block.set hasher.used 0x80
    used := hasher.used + 1 }
  let flushed :=
    if marked.used > 56 then
      let block := clear marked.block marked.used 64
      { marked with block, state := transform marked.state block, used := 0 }
    else
      marked
  let block := (List.range 8).foldl (writeLength bitLength)
    (clear flushed.block flushed.used 56)
  { flushed with block, state := transform flushed.state block }

end Methods

def output (state : State) : Bytes :=
  [state.a, state.b, state.c, state.d, state.e, state.f, state.g, state.h].flatMap
    fun word => (List.range 4).map fun byte =>
      (word >>> UInt32.ofNat (24 - byte * 8)).toUInt8

def final (hasher : Sha256 State) : Bytes :=
  output (finish transform hasher).state

end Sha256

/-! ### The schedule -/

theorem getD_set (words : List UInt32) (index place : Nat) (word : UInt32) :
    (words.set index word).getD place 0 =
      if index = place ∧ place < words.length then word else words.getD place 0 := by
  simp only [List.getD_eq_getElem?_getD, List.getElem?_set]
  split_ifs <;> simp_all

/-- The words of a block that are written as far as `count`. -/
structure Scheduled (block : Bytes) (count : Nat) (words : List UInt32) : Prop where
  length : words.length = 64
  word : ∀ t < count, words.getD t 0 = scheduleWord (Foundation.Sha256.words block) t

theorem Scheduled.setFirst {block : Bytes} (hBlock : block.length = 64) {index : Nat}
    (hIndex : index < 16) {words : List UInt32} (h : Scheduled block index words) :
    Scheduled block (index + 1) (firstWord block words index) := by
  refine ⟨by rw [firstWord, List.length_set, h.length], fun t hT => ?_⟩
  rw [firstWord, getD_set, h.length]
  by_cases hSame : index = t
  · subst hSame
    rw [if_pos ⟨rfl, by omega⟩, Foundation.Sha256.shift_or_bytes,
      Foundation.Sha256.scheduleWord_of_lt hIndex,
      Foundation.Sha256.getD_words (by omega), Nat.mul_comm]
  · rw [if_neg (by tauto)]
    exact h.word t (by omega)

theorem sum_of_four (first second third fourth : UInt32) :
    first + second + third + fourth = fourth + third + second + first := by
  ac_rfl

theorem Scheduled.setLater {block : Bytes} {index : Nat} (hIndex : index < 48)
    {words : List UInt32} (h : Scheduled block (index + 16) words) :
    Scheduled block (index + 17) (laterWord words (index + 16)) := by
  refine ⟨by rw [laterWord, List.length_set, h.length], fun t hT => ?_⟩
  rw [laterWord, getD_set, h.length]
  by_cases hSame : index + 16 = t
  · subst hSame
    rw [if_pos ⟨rfl, by omega⟩, Foundation.Sha256.scheduleWord_add,
      ← h.word (index + 14) (by omega), ← h.word (index + 9) (by omega),
      ← h.word (index + 1) (by omega), ← h.word index (by omega)]
    -- The standard adds the same four words in another order.
    exact sum_of_four _ _ _ _
  · rw [if_neg (by tauto)]
    exact h.word t (by omega)

theorem scheduled_firstWords {block : Bytes} (hBlock : block.length = 64) (count : Nat)
    (hCount : count ≤ 16) : Scheduled block count
      ((List.range count).foldl (firstWord block) (List.replicate 64 0)) := by
  induction count with
  | zero => exact ⟨by simp, fun t hT => absurd hT (Nat.not_lt_zero t)⟩
  | succ count ih =>
      rw [List.range_succ, List.foldl_concat]
      exact (ih (by omega)).setFirst hBlock (by omega)

theorem Scheduled.laterWords {block : Bytes} {words : List UInt32}
    (h : Scheduled block 16 words) (count : Nat) (hCount : count ≤ 48) :
    Scheduled block (count + 16) ((List.range' 16 count).foldl laterWord words) := by
  induction count with
  | zero => exact h
  | succ count ih =>
      rw [List.range'_concat, List.foldl_concat, Nat.one_mul, Nat.add_comm 16 count]
      exact (ih (by omega)).setLater (by omega)

/-- The words of a block are the message schedule of the standard. -/
theorem scheduled {block : Bytes} (hBlock : block.length = 64) :
    Scheduled block 64 (schedule block) :=
  (scheduled_firstWords hBlock 16 le_rfl).laterWords 48 le_rfl

theorem roundConstants_zipIdx :
    roundConstants.zipIdx = (List.range 64).map fun t => (k.getD t 0, t) := by
  decide +kernel

/-- `transform` is the compression function of the standard. -/
theorem transform_eq_compress {block : Bytes} (hBlock : block.length = 64) (state : State) :
    transform state block = compress state block := by
  have hWords := (scheduled hBlock).word
  have hRounds : (List.range 64).foldl (transformRound (schedule block)) state =
      (List.range 64).foldl (fun state t => Foundation.Sha256.round state (k.getD t 0)
        (scheduleWord (Foundation.Sha256.words block) t)) state := by
    refine List.foldl_ext _ _ _ fun state t hT => ?_
    rw [← hWords t (List.mem_range.mp hT)]
    rfl
  rw [Foundation.Sha256.compress_eq hBlock, roundConstants_zipIdx, List.foldl_map]
  exact congrArg (addStates state) hRounds

/-! ### What the hasher holds -/

namespace Sha256

theorem length_overwrite (block bytes : Bytes) (offset : Nat)
    (h : offset + bytes.length ≤ block.length) :
    (overwrite block offset bytes).length = block.length := by
  simp only [overwrite, List.length_append, List.length_take, List.length_drop]
  omega

theorem take_overwrite (block bytes : Bytes) (offset : Nat) (h : offset ≤ block.length) :
    (overwrite block offset bytes).take (offset + bytes.length) =
      block.take offset ++ bytes := by
  apply List.take_left'
  rw [List.length_append, List.length_take, Nat.min_eq_left h]

section Pieces

variable {σ : Type} {transform : σ → Bytes → σ} {start : σ} {hasher : Sha256 σ}
  {message input block : Bytes} {offset : Nat}

/-- The hasher holds a message: whole blocks that were transformed, and the beginning of
a block. -/
structure Holds (transform : σ → Bytes → σ) (start : σ) (hasher : Sha256 σ)
    (blocks : List Bytes) (message : Bytes) : Prop where
  block : hasher.block.length = 64
  used : hasher.used < 64
  whole : ∀ block ∈ blocks, block.length = 64
  state : hasher.state = blocks.foldl transform start
  message : message = blocks.flatten ++ hasher.block.take hasher.used

theorem holds_new : Holds transform start (new start) [] [] :=
  ⟨rfl, Nat.zero_lt_succ _, by simp, rfl, rfl⟩

/-- A whole block that follows whole blocks is transformed. -/
theorem Holds.absorb {blocks : List Bytes} {stored : Bytes}
    (h : Holds transform start hasher blocks message) (hBlock : block.length = 64)
    (hStored : stored.length = 64) :
    Holds transform start
      { hasher with state := transform hasher.state block, block := stored, used := 0 }
      (blocks ++ [block]) (blocks.flatten ++ block) := by
  refine ⟨hStored, Nat.zero_lt_succ _, ?_, ?_, ?_⟩
  · intro other hOther
    rcases List.mem_append.mp hOther with hBefore | hLast
    · exact h.whole other hBefore
    · exact List.mem_singleton.mp hLast ▸ hBlock
  · rw [List.foldl_concat, ← h.state]
  · simp

/-- The hasher holds a message and the input as far as `offset`; it holds the beginning
of a block only if that is all of the input. -/
structure Reads (transform : σ → Bytes → σ) (start : σ) (message input : Bytes)
    (hasher : Sha256 σ) (offset : Nat) : Prop where
  holds : ∃ blocks, Holds transform start hasher blocks (message ++ input.take offset)
  offset_le : offset ≤ input.length
  idle : hasher.used = 0 ∨ offset = input.length

theorem Holds.fill {blocks : List Bytes}
    (h : Holds transform start hasher blocks message) (input : Bytes) :
    Reads transform start message input (fill transform hasher input).1
      (fill transform hasher input).2 := by
  have hBlock := h.block
  have hUsed := h.used
  unfold Sha256.fill
  by_cases hIdle : hasher.used = 0
  · rw [if_neg (not_not.mpr hIdle)]
    refine ⟨⟨blocks, ?_⟩, Nat.zero_le _, .inl hIdle⟩
    simpa using h
  rw [if_pos hIdle]
  have hTaken : (input.take (min (64 - hasher.used) input.length)).length =
      min (64 - hasher.used) input.length := by
    rw [List.length_take]
    omega
  have hLength := length_overwrite hasher.block
    (input.take (min (64 - hasher.used) input.length)) hasher.used (by omega)
  have hStart := take_overwrite hasher.block
    (input.take (min (64 - hasher.used) input.length)) hasher.used (by omega)
  rw [hBlock] at hLength
  rw [hTaken] at hStart
  dsimp only
  split
  · rename_i hFull
    have hAbsorb := h.absorb hLength hLength
    rw [hFull, List.take_of_length_le hLength.le] at hStart
    rw [hStart, ← List.append_assoc, ← h.message, ← hStart] at hAbsorb
    exact ⟨⟨_, hAbsorb⟩, Nat.min_le_right _ _, .inl rfl⟩
  · rename_i hShort
    refine ⟨⟨blocks, hLength, ?_, h.whole, h.state, ?_⟩, Nat.min_le_right _ _, .inr ?_⟩
    · show hasher.used + _ < 64
      omega
    · show _ = blocks.flatten ++ (overwrite _ _ _).take (hasher.used + _)
      rw [hStart, h.message, List.append_assoc]
    · show min (64 - hasher.used) input.length = input.length
      omega

theorem Reads.drain (h : Reads transform start message input hasher offset) :
    Reads transform start message input (drain transform hasher input offset).1
      (drain transform hasher input offset).2 ∧
    input.length - (drain transform hasher input offset).2 < 64 := by
  induction hasher, offset using drain.induct transform input with
  | case1 hasher offset hMore full ih =>
      obtain ⟨⟨blocks, hHolds⟩, hOffset, hIdle⟩ := h
      have hIdle : hasher.used = 0 := by omega
      have hFull : full.length = 64 := by
        rw [List.length_take, List.length_drop]
        omega
      rw [Sha256.drain, if_pos hMore]
      refine ih ⟨⟨blocks ++ [full], ?_⟩, by omega, .inl hIdle⟩
      have hMessage := hHolds.message
      have hAbsorb := hHolds.absorb hFull hHolds.block
      rw [hIdle, List.take_zero, List.append_nil] at hMessage
      rw [List.take_add, ← List.append_assoc, hMessage]
      rw [← hIdle] at hAbsorb
      exact hAbsorb
  | case2 hasher offset hRest =>
      rw [Sha256.drain, if_neg hRest]
      exact ⟨h, by omega⟩

theorem Reads.keep (h : Reads transform start message input hasher offset)
    (hRest : input.length - offset < 64) :
    ∃ blocks, Holds transform start (keep hasher input offset) blocks
      (message ++ input) := by
  obtain ⟨⟨blocks, hHolds⟩, hOffset, hIdle⟩ := h
  unfold Sha256.keep
  split
  · rename_i hMore
    have hIdle : hasher.used = 0 := by omega
    have hLength : (input.drop offset).length = input.length - offset :=
      List.length_drop
    have hBlock := hHolds.block
    refine ⟨blocks, ?_, hRest, hHolds.whole, hHolds.state, ?_⟩
    · exact (length_overwrite _ _ _ (by omega)).trans hBlock
    · have hStart := take_overwrite hasher.block (input.drop offset) 0
        (Nat.zero_le _)
      rw [Nat.zero_add, hLength, List.take_zero, List.nil_append] at hStart
      show _ = blocks.flatten ++ (overwrite _ _ _).take _
      have hMessage := hHolds.message
      rw [hIdle, List.take_zero, List.append_nil] at hMessage
      rw [hStart, ← hMessage, List.append_assoc, List.take_append_drop]
  · have hAll : offset = input.length := by omega
    rw [hAll, List.take_length] at hHolds
    exact ⟨blocks, hHolds⟩

/-- After a piece the hasher holds the message and the piece. -/
theorem Holds.update {blocks : List Bytes}
    (h : Holds transform start hasher blocks message) (input : Bytes) :
    ∃ blocks, Holds transform start (update transform hasher input) blocks
      (message ++ input) := by
  have hCounted : Holds transform start
      { hasher with totalBytes := hasher.totalBytes + UInt64.ofNat input.length }
      blocks message := ⟨h.block, h.used, h.whole, h.state, h.message⟩
  obtain ⟨hDrained, hRest⟩ := (hCounted.fill input).drain
  exact hDrained.keep hRest

/-! ### The length -/

theorem totalBytes_fill : (fill transform hasher input).1.totalBytes =
    hasher.totalBytes := by
  unfold Sha256.fill
  dsimp only
  split_ifs <;> rfl

theorem totalBytes_drain : (drain transform hasher input offset).1.totalBytes =
    hasher.totalBytes := by
  induction hasher, offset using drain.induct transform input with
  | case1 hasher offset hMore full ih => rw [Sha256.drain, if_pos hMore, ih]
  | case2 hasher offset hRest => rw [Sha256.drain, if_neg hRest]

theorem totalBytes_keep : (keep hasher input offset).totalBytes = hasher.totalBytes := by
  unfold Sha256.keep
  split_ifs <;> rfl

theorem totalBytes_update : (update transform hasher input).totalBytes =
    hasher.totalBytes + UInt64.ofNat input.length := by
  rw [Sha256.update, totalBytes_keep, totalBytes_drain, totalBytes_fill]

/-- The hasher after a message that was given in pieces. -/
theorem holds_updates (inputs : List Bytes) :
    (∃ blocks, Holds transform start (inputs.foldl (update transform) (new start)) blocks
      inputs.flatten) ∧
    (inputs.foldl (update transform) (new start)).totalBytes =
      UInt64.ofNat inputs.flatten.length := by
  induction inputs using List.reverseRecOn with
  | nil => exact ⟨⟨[], holds_new⟩, rfl⟩
  | append_singleton inputs input ih =>
      obtain ⟨⟨blocks, hHolds⟩, hTotal⟩ := ih
      rw [List.foldl_concat, List.flatten_concat]
      refine ⟨hHolds.update input, ?_⟩
      rw [totalBytes_update, hTotal, List.length_append, UInt64.ofNat_add]

/-! ### The padding -/

theorem take_mark {block : Bytes} {used : Nat} (h : used < block.length) (byte : UInt8) :
    (block.set used byte).take (used + 1) = block.take used ++ [byte] := by
  have hTail : (block.take used).length = used := by
    rw [List.length_take]
    omega
  rw [List.take_set, ← List.take_concat_get' block used h,
    List.set_append_right _ _ hTail.le, hTail, Nat.sub_self]
  rfl

theorem clear_eq (block : Bytes) {first last : Nat} (hFirst : first ≤ last) :
    clear block first last =
      block.take first ++ List.replicate (last - first) 0 ++ block.drop last := by
  rw [clear, overwrite, List.length_replicate, Nat.add_sub_cancel' hFirst]

/-- A byte of the length. -/
theorem shiftRight_toUInt8 (word : UInt64) {shift : Nat} (h : shift < 64) :
    (word >>> UInt64.ofNat shift).toUInt8 = UInt8.ofNat (word.toNat / 2 ^ shift) := by
  have hShift : (UInt64.ofNat shift).toNat = shift :=
    UInt64.toNat_ofNat_of_lt' (h.trans (by decide))
  apply UInt8.toNat_inj.mp
  rw [UInt64.toNat_toUInt8, UInt64.toNat_shiftRight, hShift, UInt8.toNat_ofNat',
    Nat.mod_eq_of_lt h, Nat.shiftRight_eq_div_pow]

/-- The last eight bytes of a block take the length. -/
theorem foldl_writeLength {front rest : Bytes} (hFront : front.length = 56)
    (hRest : rest.length = 8) (bitLength : UInt64) :
    (List.range 8).foldl (writeLength bitLength) (front ++ rest) =
      front ++ beBytes 8 bitLength.toNat := by
  have hLast : ∀ index < 8, ∀ rest, writeLength bitLength (front ++ rest) index =
      front ++ rest.set (7 - index) (UInt8.ofNat (bitLength.toNat / 256 ^ index)) := by
    intro index hIndex rest
    have hShift := shiftRight_toUInt8 bitLength (show index * 8 < 64 by omega)
    rw [writeLength, List.set_append_right _ _ (by omega), hShift, hFront, Nat.mul_comm,
      Nat.pow_mul]
    congr 2
    omega
  match rest, hRest with
  | [_, _, _, _, _, _, _, _], _ =>
      simp only [List.range, List.range.loop, List.foldl_cons, List.foldl_nil]
      rw [hLast 0 (by omega), hLast 1 (by omega), hLast 2 (by omega), hLast 3 (by omega),
        hLast 4 (by omega), hLast 5 (by omega), hLast 6 (by omega), hLast 7 (by omega)]
      rfl

/-- The last block: what it begins with, zeros and the length. -/
theorem lastBlock_eq {block : Bytes} (hBlock : block.length = 64) {first : Nat}
    (hFirst : first ≤ 56) (bitLength : UInt64) :
    (List.range 8).foldl (writeLength bitLength) (clear block first 56) =
      block.take first ++ List.replicate (56 - first) 0 ++
        beBytes 8 bitLength.toNat := by
  rw [clear_eq block hFirst]
  apply foldl_writeLength
  · rw [List.length_append, List.length_take, List.length_replicate]
    omega
  · rw [List.length_drop]
    omega

/-- The padding of a message that ends with the beginning of a block. -/
theorem pad_eq {blocks : List Bytes} {tail : Bytes}
    (hWhole : ∀ block ∈ blocks, block.length = 64) (hTail : tail.length < 64)
    (hMessage : message = blocks.flatten ++ tail) :
    pad message = blocks.flatten ++ (tail ++ [0x80]) ++
      List.replicate ((119 - tail.length) % 64) 0 ++ beBytes 8 (8 * message.length) := by
  have hLength : message.length % 64 = tail.length := by
    rw [hMessage, List.length_append, Foundation.Sha256.length_flatten hWhole]
    omega
  rw [pad, hLength]
  simp [hMessage]

/-- The padding completes the message to whole blocks. -/
theorem Holds.finish {blocks : List Bytes}
    (h : Holds transform start hasher blocks message)
    (hTotal : hasher.totalBytes = UInt64.ofNat message.length)
    (hMessage : message.length < 2 ^ 61) :
    ∃ padded : List Bytes, padded.flatten = pad message ∧
      (∀ block ∈ padded, block.length = 64) ∧
      (finish transform hasher).state = padded.foldl transform start := by
  have hBlock := h.block
  have hUsed := h.used
  have hTail : (hasher.block.take hasher.used).length = hasher.used := by
    rw [List.length_take]
    omega
  have hPad := pad_eq h.whole (hTail.trans_lt hUsed) h.message
  have hMark := take_mark (hBlock ▸ hUsed) 0x80
  have hMarked : (hasher.block.set hasher.used 0x80).length = 64 := by
    rw [List.length_set, hBlock]
  have hBits : (hasher.totalBytes * 8).toNat = 8 * message.length := by
    rw [hTotal, UInt64.toNat_mul, UInt64.toNat_ofNat_of_lt' (hMessage.trans (by decide))]
    show message.length * 8 % 2 ^ 64 = 8 * message.length
    omega
  rw [hTail] at hPad
  unfold Sha256.finish
  dsimp only
  split
  · -- The marker leaves no room for the length: it goes into a block of its own.
    rename_i hFull
    have hClear := clear_eq (hasher.block.set hasher.used 0x80)
      (show hasher.used + 1 ≤ 64 by omega)
    rw [hMark, List.drop_of_length_le hMarked.le, List.append_nil] at hClear
    generalize clear (hasher.block.set hasher.used 0x80) (hasher.used + 1) 64 = first
      at hClear ⊢
    have hFirst : first.length = 64 := by
      rw [hClear, List.length_append, List.length_append, hTail, List.length_replicate,
        List.length_singleton]
      omega
    have hLast := lastBlock_eq hFirst (Nat.zero_le 56) (hasher.totalBytes * 8)
    rw [hBits, List.take_zero, List.nil_append] at hLast
    have hZeros : (119 - hasher.used) % 64 = (64 - (hasher.used + 1)) + (56 - 0) := by
      omega
    rw [hZeros, ← List.replicate_append_replicate] at hPad
    refine ⟨blocks ++ [first, List.replicate (56 - 0) 0 ++ beBytes 8 (8 * message.length)],
      ?_, ?_, ?_⟩
    · simp [hPad, hClear]
    · simp only [List.forall_mem_append, List.forall_mem_cons]
      exact ⟨h.whole, hFirst, by simp, by simp⟩
    · rw [List.foldl_append, ← h.state, ← hLast]
      rfl
  · -- The marker and the length share the block of the rest.
    rename_i hShort
    have hLast := lastBlock_eq hMarked (show hasher.used + 1 ≤ 56 by omega)
      (hasher.totalBytes * 8)
    rw [hMark, hBits] at hLast
    have hZeros : (119 - hasher.used) % 64 = 56 - (hasher.used + 1) := by
      omega
    rw [hZeros] at hPad
    refine ⟨blocks ++ [hasher.block.take hasher.used ++ [0x80] ++
      List.replicate (56 - (hasher.used + 1)) 0 ++ beBytes 8 (8 * message.length)],
      ?_, ?_, ?_⟩
    · simp [hPad]
    · simp only [List.forall_mem_append, List.forall_mem_singleton]
      refine ⟨h.whole, ?_⟩
      rw [List.length_append, List.length_append, List.length_append, hTail,
        List.length_replicate, length_beBytes, List.length_singleton]
      omega
    · rw [List.foldl_concat, ← h.state, ← hLast]

end Pieces

/-! ### The digest -/

theorem output_eq (state : State) : output state = Foundation.Sha256.stateBytes state := by
  rw [output, Foundation.Sha256.stateBytes]
  congr 1
  funext word
  exact (Foundation.Sha256.beBytes_word word).symm

/-- However a message of less than 2^61 bytes is given in pieces, the digest is that of
the standard and the blocks that are transformed, whatever transforms them, are those of
the padded message; and a block is compressed as in the standard. -/
theorem final_eq_hash (inputs : List Bytes) (hLength : inputs.flatten.length < 2 ^ 61) :
    final (inputs.foldl (update Helper.transform) (new startState)) =
        (Foundation.Sha256.hash inputs.flatten).val ∧
    (∃ blocks : List Bytes, blocks.flatten = pad inputs.flatten ∧
      (∀ block ∈ blocks, block.length = 64) ∧
      ∀ (σ : Type) (transform : σ → Bytes → σ) (start : σ),
        (finish transform (inputs.foldl (update transform) (new start))).state =
          blocks.foldl transform start) ∧
    ∀ (state : State) (block : Bytes), block.length = 64 →
      Helper.transform state block = compress state block := by
  have hFinish : ∀ (σ : Type) (transform : σ → Bytes → σ) (start : σ),
      ∃ padded : List Bytes, padded.flatten = pad inputs.flatten ∧
        (∀ block ∈ padded, block.length = 64) ∧
        (finish transform (inputs.foldl (update transform) (new start))).state =
          padded.foldl transform start := by
    intro σ transform start
    obtain ⟨⟨blocks, hHolds⟩, hTotal⟩ := holds_updates inputs
    exact hHolds.finish hTotal hLength
  obtain ⟨blocks, hPad, hWhole, hState⟩ := hFinish State Helper.transform startState
  have hStart : startState = initialState := rfl
  refine ⟨?_, ⟨blocks, hPad, hWhole, ?_⟩, fun state block => fun h =>
    transform_eq_compress h state⟩
  · have hCompress : blocks.foldl Helper.transform startState =
        blocks.foldl compress initialState := by
      rw [hStart]
      exact List.foldl_ext _ _ _ fun state block hBlock =>
        transform_eq_compress (hWhole block hBlock) state
    rw [Foundation.Sha256.hash_of_blocks hPad hWhole, final, output_eq, hState, hCompress]
  · intro σ transform start
    obtain ⟨others, hOtherPad, hOtherWhole, hOther⟩ := hFinish σ transform start
    have hSame : others = blocks :=
      Foundation.Sha256.eq_of_flatten hOtherWhole hWhole (hOtherPad.trans hPad.symm)
    rw [hOther, hSame]

/-- Three pieces, one of them empty. -/
theorem final_eq_hash_sample :
    final ([[0x61], [], [0x62, 0x63]].foldl (update Helper.transform) (new startState)) =
      (Foundation.Sha256.hash [0x61, 0x62, 0x63]).val :=
  (final_eq_hash [[0x61], [], [0x62, 0x63]] (by decide)).1

end Sha256

end Helper
end RootPermit
