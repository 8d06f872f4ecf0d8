import Mcsb.Client.Checksums
import Mcsb.Lib.LittleEndian
import Mcsb.Lib.ShiftRegister

/-!
# The checksum

CRC-32C by table and by the instructions of SSE4.2. The table is what eight
shifts of a register give, and four bytes at once are the same as one by one.
-/

namespace Mcsb
open ShiftRegister (shift absorb bits Low High)

/-! ## By table -/

/-- `initialize_crc_table` -/
def initializeCrcTable (poly : UInt32) : Vector UInt32 256 :=
  Vector.ofFn fun i =>
    (fun crc : UInt32 => if crc &&& 1 ≠ 0 then poly ^^^ (crc >>> 1) else crc >>> 1)^[8]
      (UInt32.ofNat i)

theorem and_ff_lt (x : UInt32) : (x &&& 0xff).toNat < 256 := by
  have masked : (x &&& 0xff).toNat = x.toNat % 2 ^ 8 := by
    rw [UInt32.toNat_and]
    exact Nat.and_two_pow_sub_one_eq_mod _ 8
  omega

/-- `crc32c_table[(crc ^ b) & 0xff]` -/
def tableEntry (table : Vector UInt32 256) (crc : UInt32) (b : UInt8) : UInt32 :=
  have := and_ff_lt (crc ^^^ b.toUInt32)
  table[((crc ^^^ b.toUInt32) &&& 0xff).toNat]

/-- The table loop of `update_crc32c`. -/
def tableLoop (table : Vector UInt32 256) (crc : UInt32) (buf : List UInt8) : UInt32 :=
  buf.foldl (fun crc b => tableEntry table crc b ^^^ (crc >>> 8)) crc

theorem tableEntry_initialized (crc : UInt32) (b : UInt8) :
    tableEntry (initializeCrcTable kPolynomialCRC32C) crc b =
      crcBit^[8] ((crc ^^^ b.toUInt32) &&& 0xff) := by
  unfold tableEntry initializeCrcTable
  rw [Vector.getElem_ofFn, UInt32.ofNat_toNat]
  rfl

/-! ## By register -/

theorem and_one_ne_zero (x : UInt32) : (x &&& 1 ≠ 0) ↔ x.toBitVec.getLsbD 0 = true := by
  have low : (x &&& 1).toBitVec = (BitVec.ofBool (x.toBitVec.getLsbD 0)).setWidth 32 := by
    rw [UInt32.toBitVec_and]
    exact BitVec.and_one_eq_setWidth_ofBool_getLsbD
  rw [ne_eq, ← UInt32.toBitVec_inj, low]
  cases x.toBitVec.getLsbD 0 <;> decide

theorem toBitVec_crcBit (x : UInt32) :
    (crcBit x).toBitVec = shift kPolynomialCRC32C.toBitVec x.toBitVec := by
  unfold crcBit shift
  simp only [and_one_ne_zero]
  split <;> rfl

theorem toBitVec_crcBits (n : Nat) (x : UInt32) :
    (crcBit^[n] x).toBitVec = (shift kPolynomialCRC32C.toBitVec)^[n] x.toBitVec := by
  induction n generalizing x with
  | zero => rfl
  | succ n ih => rw [Function.iterate_succ_apply, ih, toBitVec_crcBit, ← Function.iterate_succ_apply]

theorem low_byte (b : UInt8) : Low 8 b.toUInt32.toBitVec := by
  intro i above
  have small : b.toNat < 2 ^ i :=
    Nat.lt_of_lt_of_le b.toNat_lt (Nat.pow_le_pow_right (by decide) above)
  exact Nat.testBit_lt_two_pow small

theorem getLsbD_ff (i : Nat) : (0xff : UInt32).toBitVec.getLsbD i = decide (i < 8) :=
  Nat.testBit_two_pow_sub_one 8 i

/-- A little-endian word is its bytes, one after the other. -/
theorem bits_read (bytes : List UInt8) (fits : 8 * bytes.length ≤ 32) :
    bits (8 * bytes.length) (BitVec.ofNat 32 (LittleEndian.read bytes)) =
      bytes.flatMap fun b => bits 8 b.toUInt32.toBitVec := by
  induction bytes with
  | nil => rfl
  | cons b bytes ih =>
    rw [List.length_cons] at fits
    have small : LittleEndian.read (b :: bytes) < 2 ^ 32 :=
      calc LittleEndian.read (b :: bytes)
        _ < 256 ^ (b :: bytes).length := LittleEndian.read_lt _
        _ ≤ 256 ^ 4 := Nat.pow_le_pow_right (by decide) (by rw [List.length_cons]; omega)
    have front : bits 8 (BitVec.ofNat 32 (LittleEndian.read (b :: bytes))) =
        bits 8 b.toUInt32.toBitVec := by
      rw [ShiftRegister.bits_eq_map, ShiftRegister.bits_eq_map]
      apply List.map_congr_left
      intro i mem
      have below := List.mem_range.mp mem
      have bit : (LittleEndian.read (b :: bytes)).testBit i = b.toNat.testBit i := by
        rw [LittleEndian.read, Nat.add_comm,
          Nat.testBit_two_pow_mul_add (i := 8) _ b.toNat_lt, if_pos below]
      rw [BitVec.getLsbD_ofNat, bit, decide_eq_true (by omega), Bool.true_and]
      rfl
    have back : BitVec.ofNat 32 (LittleEndian.read (b :: bytes)) >>> 8 =
        BitVec.ofNat 32 (LittleEndian.read bytes) := by
      have less := b.toNat_lt
      apply BitVec.eq_of_toNat_eq
      rw [BitVec.toNat_ushiftRight, BitVec.toNat_ofNat, Nat.mod_eq_of_lt small,
        Nat.shiftRight_eq_div_pow, BitVec.toNat_ofNat]
      rw [LittleEndian.read] at small ⊢
      omega
    rw [List.length_cons, Nat.mul_succ, Nat.add_comm, ShiftRegister.bits_append, front, back,
      ih (by omega), List.flatMap_cons]

/-- A step of the table loop is eight shifts. -/
theorem crcBits_eight (crc : UInt32) (b : UInt8) :
    crcBit^[8] ((crc ^^^ b.toUInt32) &&& 0xff) ^^^ (crc >>> 8) =
      crcBit^[8] (crc ^^^ b.toUInt32) := by
  let x := crc ^^^ b.toUInt32
  have high : High 8 (x.toBitVec ^^^ (x &&& 0xff).toBitVec) := by
    intro i below
    rw [BitVec.getLsbD_xor, UInt32.toBitVec_and, BitVec.getLsbD_and, getLsbD_ff, decide_eq_true below,
      Bool.and_true, Bool.xor_self]
  have rest : (x.toBitVec ^^^ (x &&& 0xff).toBitVec) >>> 8 = crc.toBitVec >>> 8 := by
    apply BitVec.eq_of_getLsbD_eq
    intro i _
    have clear := low_byte b (8 + i) (Nat.le_add_right 8 i)
    rw [BitVec.getLsbD_ushiftRight, BitVec.getLsbD_ushiftRight, BitVec.getLsbD_xor,
      UInt32.toBitVec_and, BitVec.getLsbD_and, getLsbD_ff, UInt32.toBitVec_xor, BitVec.getLsbD_xor,
      clear]
    simp only [Bool.xor_false, show ¬ 8 + i < 8 by omega, decide_false, Bool.and_false]
  apply UInt32.toBitVec_inj.mp
  rw [UInt32.toBitVec_xor, toBitVec_crcBits, toBitVec_crcBits, UInt32.toBitVec_shiftRight,
    ShiftRegister.iterate_split high, rest]
  rfl

theorem tableLoop_eq (crc : UInt32) (buf : List UInt8) :
    tableLoop (initializeCrcTable kPolynomialCRC32C) crc buf =
      buf.foldl (fun crc b => crcBit^[8] (crc ^^^ b.toUInt32)) crc := by
  unfold tableLoop
  simp only [tableEntry_initialized, crcBits_eight]

/-! ## Bit by bit -/

/-- CRC-32C takes in a bit. -/
def serialBit (crc : UInt32) (bit : Bool) : UInt32 :=
  if (crc &&& 1 != 0) ^^ bit then (0x82F63B78 : UInt32) ^^^ (crc >>> 1) else crc >>> 1

/-- The reflected CRC-32C, which takes the low bit of each byte first. -/
def serialCrc32c (buf : List UInt8) : UInt32 :=
  (buf.flatMap fun b => (List.range 8).map b.toNat.testBit).foldl serialBit 0xffffffff ^^^ 0xffffffff

theorem toBitVec_serialBit (crc : UInt32) (bit : Bool) :
    (serialBit crc bit).toBitVec = absorb kPolynomialCRC32C.toBitVec crc.toBitVec bit := by
  have low : (crc &&& 1 != 0) = crc.toBitVec.getLsbD 0 := by
    rw [Bool.eq_iff_iff, bne_iff_ne]
    exact and_one_ne_zero crc
  unfold serialBit absorb
  rw [low]
  split <;> rfl

theorem toBitVec_foldl_serialBit (crc : UInt32) (input : List Bool) :
    (input.foldl serialBit crc).toBitVec =
      input.foldl (absorb kPolynomialCRC32C.toBitVec) crc.toBitVec := by
  induction input generalizing crc with
  | nil => rfl
  | cons bit input ih => rw [List.foldl_cons, ih, toBitVec_serialBit, List.foldl_cons]

theorem foldl_serialBit_byte (crc : UInt32) (b : UInt8) :
    ((List.range 8).map b.toNat.testBit).foldl serialBit crc = crcBit^[8] (crc ^^^ b.toUInt32) := by
  have byte : (List.range 8).map b.toNat.testBit = bits 8 b.toUInt32.toBitVec :=
    ShiftRegister.bits_eq_map.symm
  apply UInt32.toBitVec_inj.mp
  rw [toBitVec_foldl_serialBit, byte, ShiftRegister.absorb_bits (low_byte b), toBitVec_crcBits,
    UInt32.toBitVec_xor]

theorem foldl_serialBit_eq (crc : UInt32) (buf : List UInt8) :
    (buf.flatMap fun b => (List.range 8).map b.toNat.testBit).foldl serialBit crc =
      tableLoop (initializeCrcTable kPolynomialCRC32C) crc buf := by
  rw [tableLoop_eq, List.foldl_flatMap]
  simp only [foldl_serialBit_byte]

/-! ## By instruction -/

/-- The two `CRC32` instructions. -/
structure Sse42 where
  uint8 : UInt32 → UInt8 → UInt32
  uint32 : UInt32 → UInt32 → UInt32

/-- They shift their operand through the register. -/
structure Sse42.Castagnoli (cpu : Sse42) : Prop where
  uint8 : ∀ crc data, cpu.uint8 crc data = crcBit^[8] (crc ^^^ data.toUInt32)
  uint32 : ∀ crc data, cpu.uint32 crc data = crcBit^[32] (crc ^^^ data)

/-- Bytes at an address. -/
structure Buffer where
  addr : Nat
  bytes : List UInt8
  deriving DecidableEq, Repr

namespace Buffer

/-- `*b`, which must be in the buffer. -/
def read (buf : Buffer) (b : Nat) : Option UInt8 :=
  if buf.addr ≤ b then buf.bytes[b - buf.addr]? else none

/-- `*((uint32_t*)b)` -/
def readWord (buf : Buffer) (b : Nat) : Option UInt32 := do
  let b0 ← buf.read b
  let b1 ← buf.read (b + 1)
  let b2 ← buf.read (b + 2)
  let b3 ← buf.read (b + 3)
  return LittleEndian.get32 [b0, b1, b2, b3]

end Buffer

/-! Each loop has the length left, and gives back the running checksum, the
address reached and the length. It is stopped by a read outside the buffer. -/

/-- `while (long(b)&3 && len--)`, which leaves -1 when the length runs out. -/
def alignLoop (cpu : Sse42) (buf : Buffer) (crc : UInt32) (b : Nat) :
    Nat → Option (UInt32 × Nat × Nat)
  | 0 => if b % 4 ≠ 0 then some (crc, b, 2 ^ 64 - 1) else some (crc, b, 0)
  | len + 1 =>
    if b % 4 ≠ 0 then do
      let data ← buf.read b
      alignLoop cpu buf (cpu.uint8 crc data) (b + 1) len
    else some (crc, b, len + 1)

/-- `while (len>=4)` -/
def wordLoop (cpu : Sse42) (buf : Buffer) (crc : UInt32) (b : Nat) :
    Nat → Option (UInt32 × Nat × Nat)
  | len + 4 => do
    let data ← buf.readWord b
    wordLoop cpu buf (cpu.uint32 crc data) (b + 4) len
  | len => some (crc, b, len)

/-- `while (len--)` -/
def byteLoop (cpu : Sse42) (buf : Buffer) (crc : UInt32) (b : Nat) : Nat → Option UInt32
  | 0 => some crc
  | len + 1 => do
    let data ← buf.read b
    byteLoop cpu buf (cpu.uint8 crc data) (b + 1) len

def updateCrc32cSse42 (cpu : Sse42) (crc : UInt32) (buf : Buffer) : Option UInt32 := do
  let (crc, b, len) ← alignLoop cpu buf crc buf.addr buf.bytes.length
  let (crc, b, len) ← wordLoop cpu buf crc b len
  byteLoop cpu buf crc b len

namespace Buffer
variable {buf : Buffer} {b : Nat} {data : UInt8} {rest : List UInt8}

/-- What is in the buffer from an address on. -/
def From (buf : Buffer) (b : Nat) (rest : List UInt8) : Prop :=
  buf.addr ≤ b ∧ buf.bytes.drop (b - buf.addr) = rest

theorem from_addr (buf : Buffer) : buf.From buf.addr buf.bytes := by
  constructor
  · exact Nat.le_refl _
  · rw [Nat.sub_self, List.drop_zero]

theorem From.read (h : buf.From b rest) : buf.read b = rest.head? := by
  obtain ⟨above, rfl⟩ := h
  rw [Buffer.read, if_pos above, List.head?_drop]

theorem From.tail (h : buf.From b (data :: rest)) : buf.From (b + 1) rest := by
  obtain ⟨above, eq⟩ := h
  constructor
  · exact Nat.le_succ_of_le above
  · have next : b + 1 - buf.addr = b - buf.addr + 1 := by omega
    rw [next, ← List.tail_drop, eq, List.tail_cons]

end Buffer

namespace Sse42
variable {cpu : Sse42} {buf : Buffer} {b : Nat} {rest : List UInt8}

theorem byteLoop_eq (crc : UInt32) (h : buf.From b rest) :
    byteLoop cpu buf crc b rest.length = some (rest.foldl cpu.uint8 crc) := by
  induction rest generalizing b crc with
  | nil => rfl
  | cons data rest ih =>
    rw [List.length_cons, byteLoop, h.read, List.head?_cons, Option.bind_eq_bind, Option.bind_some,
      ih _ h.tail, List.foldl_cons]

/-- Four bytes at once are the same as one by one. -/
theorem Castagnoli.word (hw : cpu.Castagnoli) (crc : UInt32) (b0 b1 b2 b3 : UInt8) :
    cpu.uint32 crc (LittleEndian.get32 [b0, b1, b2, b3]) =
      [b0, b1, b2, b3].foldl cpu.uint8 crc := by
  have low : Low 32 (LittleEndian.get32 [b0, b1, b2, b3]).toBitVec := fun i above =>
    BitVec.getLsbD_of_ge _ i above
  have byte (crc : UInt32) (b : UInt8) : (cpu.uint8 crc b).toBitVec =
      (bits 8 b.toUInt32.toBitVec).foldl (absorb kPolynomialCRC32C.toBitVec) crc.toBitVec := by
    rw [hw.uint8, toBitVec_crcBits, UInt32.toBitVec_xor, ShiftRegister.absorb_bits (low_byte b)]
  have word : bits 32 (LittleEndian.get32 [b0, b1, b2, b3]).toBitVec =
      [b0, b1, b2, b3].flatMap fun b => bits 8 b.toUInt32.toBitVec :=
    bits_read [b0, b1, b2, b3] (Nat.le_refl 32)
  apply UInt32.toBitVec_inj.mp
  rw [hw.uint32, toBitVec_crcBits, UInt32.toBitVec_xor, ← ShiftRegister.absorb_bits low, word]
  simp only [List.foldl_flatMap, List.foldl_cons, List.foldl_nil, byte]

theorem wordLoop_eq {b : Nat} {rest : List UInt8} (hw : cpu.Castagnoli) (crc : UInt32) (h : buf.From b rest) :
    ∃ taken left, rest = taken ++ left ∧ buf.From (b + taken.length) left ∧
      wordLoop cpu buf crc b rest.length =
        some (taken.foldl cpu.uint8 crc, b + taken.length, left.length) := by
  match rest with
  | b0 :: b1 :: b2 :: b3 :: rest =>
    have word : buf.readWord b = some (LittleEndian.get32 [b0, b1, b2, b3]) := by
      simp only [Buffer.readWord, h.read, h.tail.read, h.tail.tail.read, h.tail.tail.tail.read,
        List.head?_cons, Option.bind_eq_bind, Option.bind_some, Option.pure_def]
    obtain ⟨taken, left, eq, rem, loop⟩ :=
      wordLoop_eq hw ([b0, b1, b2, b3].foldl cpu.uint8 crc) h.tail.tail.tail.tail
    have four : b + 1 + 1 + 1 + 1 + taken.length = b + (b0 :: b1 :: b2 :: b3 :: taken).length := by
      simp only [List.length_cons]
      omega
    refine ⟨b0 :: b1 :: b2 :: b3 :: taken, left, ?_, ?_, ?_⟩
    · rw [eq]
      rfl
    · rw [← four]
      exact rem
    · simp only [List.length_cons, wordLoop, word, hw.word, Option.bind_eq_bind, Option.bind_some]
      rw [four] at loop
      exact loop
  | [] => exact ⟨[], [], rfl, h, rfl⟩
  | [b0] => exact ⟨[], [b0], rfl, h, rfl⟩
  | [b0, b1] => exact ⟨[], [b0, b1], rfl, h, rfl⟩
  | [b0, b1, b2] => exact ⟨[], [b0, b1, b2], rfl, h, rfl⟩

/-- The buffer reaches the next aligned address, or ends before. -/
theorem alignLoop_eq (crc : UInt32) (h : buf.From b rest) :
    (∃ taken left, rest = taken ++ left ∧ buf.From (b + taken.length) left ∧
      (4 - b % 4) % 4 ≤ rest.length ∧
      alignLoop cpu buf crc b rest.length =
        some (taken.foldl cpu.uint8 crc, b + taken.length, left.length)) ∨
    rest.length < (4 - b % 4) % 4 ∧ ∃ crc', buf.From (b + rest.length) [] ∧
      alignLoop cpu buf crc b rest.length = some (crc', b + rest.length, 2 ^ 64 - 1) := by
  induction rest generalizing b crc with
  | nil =>
    by_cases aligned : b % 4 = 0
    · refine .inl ⟨[], [], rfl, h, ?_, ?_⟩
      · omega
      · exact if_neg (not_not.mpr aligned)
    · refine .inr ⟨?_, crc, h, ?_⟩
      · exact Nat.pos_of_ne_zero (by omega)
      · exact if_pos aligned
  | cons data rest ih =>
    by_cases aligned : b % 4 = 0
    · refine .inl ⟨[], data :: rest, rfl, h, ?_, ?_⟩
      · omega
      · exact if_neg (not_not.mpr aligned)
    have step : alignLoop cpu buf crc b (data :: rest).length =
        alignLoop cpu buf (cpu.uint8 crc data) (b + 1) rest.length := by
      rw [List.length_cons, alignLoop, if_pos aligned, h.read, List.head?_cons,
        Option.bind_eq_bind, Option.bind_some]
    rw [step, List.length_cons]
    rcases ih (cpu.uint8 crc data) h.tail with
      ⟨taken, left, rfl, rem, enough, loop⟩ | ⟨short, crc', rem, loop⟩
    · have one : b + 1 + taken.length = b + (data :: taken).length := by
        rw [List.length_cons]
        omega
      rw [one] at rem loop
      exact .inl ⟨data :: taken, left, rfl, rem, by omega, loop⟩
    · have one : b + 1 + rest.length = b + (rest.length + 1) := by omega
      rw [one] at rem loop
      exact .inr ⟨by omega, crc', rem, loop⟩

theorem foldl_uint8 (hw : cpu.Castagnoli) (crc : UInt32) (bytes : List UInt8) :
    bytes.foldl cpu.uint8 crc = tableLoop (initializeCrcTable kPolynomialCRC32C) crc bytes := by
  have step : cpu.uint8 = fun crc b => crcBit^[8] (crc ^^^ b.toUInt32) := by
    funext crc b
    exact hw.uint8 crc b
  rw [tableLoop_eq, step]

/-- A length that ran out before an aligned address makes the next loop read
behind the buffer. -/
theorem wordLoop_wrapped (crc : UInt32) (h : buf.From b []) :
    wordLoop cpu buf crc b (2 ^ 64 - 1) = none := by
  have word : buf.readWord b = none := by
    rw [Buffer.readWord, h.read]
    rfl
  have many : 2 ^ 64 - 1 = 18446744073709551611 + 4 := rfl
  rw [many, wordLoop, word, Option.bind_eq_bind, Option.bind_none]

theorem updateCrc32cSse42_eq (hw : cpu.Castagnoli) (crc : UInt32) (buf : Buffer) :
    updateCrc32cSse42 cpu crc buf =
      if (4 - buf.addr % 4) % 4 ≤ buf.bytes.length then
        some (tableLoop (initializeCrcTable kPolynomialCRC32C) crc buf.bytes)
      else none := by
  unfold updateCrc32cSse42
  rcases @alignLoop_eq cpu buf buf.addr buf.bytes crc buf.from_addr with
    ⟨aligned, rest, eq, rem, enough, loop⟩ | ⟨short, crc', rem, loop⟩
  · obtain ⟨words, left, eq', rem', loop'⟩ := wordLoop_eq hw (aligned.foldl cpu.uint8 crc) rem
    simp only [loop, Option.bind_eq_bind, Option.bind_some, loop', byteLoop_eq _ rem',
      if_pos enough]
    rw [← foldl_uint8 hw, eq, eq', List.foldl_append, List.foldl_append]
  · simp only [loop, Option.bind_eq_bind, Option.bind_some, wordLoop_wrapped crc' rem,
      Option.bind_none, if_neg (Nat.not_le.mpr short)]

/-- The instructions give what the table gives, for buffers that reach an
aligned address. -/
theorem accelerated_iff (hw : cpu.Castagnoli) (crc : UInt32) (buf : Buffer) :
    updateCrc32cSse42 cpu crc buf =
        some (tableLoop (initializeCrcTable kPolynomialCRC32C) crc buf.bytes) ↔
      (4 - buf.addr % 4) % 4 ≤ buf.bytes.length := by
  rw [updateCrc32cSse42_eq hw]
  split
  · rename_i enough
    exact iff_of_true rfl enough
  · rename_i short
    exact iff_of_false (by simp) short

/-- The instructions as they are described. -/
def described : Sse42 where
  uint8 crc data := crcBit^[8] (crc ^^^ data.toUInt32)
  uint32 crc data := crcBit^[32] (crc ^^^ data)

theorem castagnoli_described : described.Castagnoli where
  uint8 _ _ := rfl
  uint32 _ _ := rfl

/-- One byte at an odd address. -/
def oddByte : Buffer where
  addr := 4097
  bytes := [7]

theorem not_accelerated : ¬ ∀ cpu : Sse42, cpu.Castagnoli → ∀ crc buf,
    updateCrc32cSse42 cpu crc buf =
      some (tableLoop (initializeCrcTable kPolynomialCRC32C) crc buf.bytes) := by
  intro claim
  have same := claim described castagnoli_described 0xffffffff oddByte
  rw [updateCrc32cSse42_eq castagnoli_described, if_neg (by decide)] at same
  cases same

theorem accelerated_iff_aligned :
    updateCrc32cSse42 described 0xffffffff ⟨4097, [7, 8, 9]⟩ =
      some (tableLoop (initializeCrcTable kPolynomialCRC32C) 0xffffffff [7, 8, 9]) :=
  (accelerated_iff castagnoli_described _ _).mpr (by decide)

end Sse42

/-! ## Choosing -/

/-- `crc32c_table` and `isAccelerated`. -/
structure CrcUnit where
  table : Vector UInt32 256
  isAccelerated : Bool

namespace CrcUnit

/-- The program starts with 1 in front of the table. -/
def start : CrcUnit where
  table := (Vector.replicate 256 0).set 0 1
  isAccelerated := false

/-- The table is built and acceleration off. -/
def plain : CrcUnit where
  table := initializeCrcTable kPolynomialCRC32C
  isAccelerated := false

def crc32cIsAccelerated (u : CrcUnit) (haveSse42 useAccelerated : Bool) : CrcUnit where
  table := if u.table[0] ≠ 0 then initializeCrcTable kPolynomialCRC32C else u.table
  isAccelerated := useAccelerated && haveSse42

def updateCrc32c (u : CrcUnit) (cpu : Sse42) (haveSse42 : Bool) (crc : UInt32) (buf : Buffer) :
    Option UInt32 × CrcUnit :=
  -- short cut for when we already know it's accelerated
  if u.isAccelerated then (updateCrc32cSse42 cpu crc buf, u)
  -- make sure the table is initialized
  else
    let u := if u.table[0] ≠ 0 then u.crc32cIsAccelerated haveSse42 true else u
    if u.isAccelerated then (updateCrc32cSse42 cpu crc buf, u)
    else (some (tableLoop u.table crc buf.bytes), u)

def crc32c (u : CrcUnit) (cpu : Sse42) (haveSse42 : Bool) (buf : Buffer) :
    Option UInt32 × CrcUnit :=
  let (crc, u) := u.updateCrc32c cpu haveSse42 0xffffffff buf
  (crc.map (· ^^^ 0xffffffff), u)

theorem table_zero : plain.table[0] = 0 := by
  unfold plain initializeCrcTable
  rw [Vector.getElem_ofFn]
  decide

theorem plain_updateCrc32c (cpu : Sse42) (haveSse42 : Bool) (crc : UInt32) (buf : Buffer) :
    plain.updateCrc32c cpu haveSse42 crc buf = (some (tableLoop plain.table crc buf.bytes), plain) := by
  unfold updateCrc32c
  rw [table_zero]
  rfl

/-- Without acceleration to be had, the first call builds the table. -/
theorem start_updateCrc32c (cpu : Sse42) (crc : UInt32) (buf : Buffer) :
    start.updateCrc32c cpu false crc buf = plain.updateCrc32c cpu false crc buf := by
  have first : start.isAccelerated = false := rfl
  have unbuilt : start.table[0] ≠ 0 := by decide
  rw [plain_updateCrc32c, updateCrc32c, first, if_neg Bool.false_ne_true, if_pos unbuilt]
  rfl

/-- By table the checksum is CRC-32C, and can be taken piece by piece. A program
starts with the table unbuilt. -/
theorem plain_crc32c :
    (∀ cpu haveSse42 buf,
      plain.crc32c cpu haveSse42 buf = (some (serialCrc32c buf.bytes), plain)) ∧
    (∀ cpu haveSse42 crc a b addr,
      (plain.updateCrc32c cpu haveSse42 crc a).1.bind
          (fun crc => (plain.updateCrc32c cpu haveSse42 crc b).1) =
        (plain.updateCrc32c cpu haveSse42 crc ⟨addr, a.bytes ++ b.bytes⟩).1) ∧
    (∀ cpu buf, start.crc32c cpu false buf = (some (serialCrc32c buf.bytes), plain)) ∧
    ∀ cpu crc buf, start.updateCrc32c cpu false crc buf = plain.updateCrc32c cpu false crc buf := by
  have checksum (cpu haveSse42 buf) :
      plain.crc32c cpu haveSse42 buf = (some (serialCrc32c buf.bytes), plain) := by
    unfold crc32c serialCrc32c
    rw [plain_updateCrc32c, foldl_serialBit_eq]
    rfl
  refine ⟨checksum, ?_, ?_, start_updateCrc32c⟩
  · intro cpu haveSse42 crc a b addr
    rw [plain_updateCrc32c, plain_updateCrc32c, Option.bind_some, plain_updateCrc32c]
    unfold tableLoop
    rw [List.foldl_append]
  · intro cpu buf
    rw [← checksum cpu false buf, crc32c, start_updateCrc32c]
    rfl

end CrcUnit

end Mcsb
