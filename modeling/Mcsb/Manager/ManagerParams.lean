import Mathlib.Data.Rat.Defs
import Mathlib.Algebra.GroupWithZero.Nat
import Mathlib.Algebra.Order.Ring.Rat

/-!
# The sizes of the buffers

`ManagerParams::ParamCheck` rounds the block size up to pages, the slab size up
to blocks and the buffer size up to slabs. `consistent_iff` says for which sizes
the result is what the manager relies on.
-/

namespace Mcsb

/-- What `ParamCheck` checks. The percentage is exact here. -/
structure ManagerParams where
  blockSize : UInt32
  slabSize : UInt32
  bufferSize : UInt64
  numBlocks : UInt32
  nonrsrvblePct : ℚ
  deriving DecidableEq, Repr

namespace ManagerParams

def kDefaultBlockSize : UInt32 := 8 * 1024
def kDefaultSlabSize : UInt32 := kDefaultBlockSize * 1024
def kDefaultBufferSize : UInt64 := kDefaultSlabSize.toUInt64 * 32
def kDefaultNonrsrvblePct : ℚ := 2
def kMaxNonrsrvblePct : ℚ := 80

def slabsPerBuffer (p : ManagerParams) : UInt32 := (p.bufferSize / p.slabSize.toUInt64).toUInt32

/-- `ShmMapper::BlocksPerSlab` -/
def blocksPerSlab (p : ManagerParams) : UInt32 := p.slabSize / p.blockSize

/-- A size of `ParamCheck` up to a multiple of another, and the `int` that says of
which. -/
def roundUp32 (size unit : UInt32) : Int32 × UInt32 :=
  let units := ((size - 1 + unit) / unit).toInt32
  if size ≠ units.toUInt32 * unit then
    let units := if units < 1 then 1 else units
    (units, units.toUInt32 * unit)
  else (units, size)

/-- The same for the buffer size, which has 64 bits. The quotient is cut to an
`int`. -/
def roundUp64 (size : UInt64) (unit : UInt32) : Int32 × UInt64 :=
  let units := ((size - 1 + unit.toUInt64) / unit.toUInt64).toUInt32.toInt32
  if size ≠ units.toInt64.toUInt64 * unit.toUInt64 then
    let units := if units < 1 then 1 else units
    (units, units.toInt64.toUInt64 * unit.toUInt64)
  else (units, size)

def paramCheck (pageSize : UInt32) (p : ManagerParams) : ManagerParams :=
  let blockSize :=
    if p.blockSize > 0x7fffffff ∨ p.blockSize = 0 then kDefaultBlockSize else p.blockSize
  let (_, blockSize) := roundUp32 blockSize pageSize
  let slabSize :=
    if p.slabSize > 0x7fffffff ∨ p.slabSize = 0 then kDefaultSlabSize else p.slabSize
  let (blocksPerSlab, slabSize) := roundUp32 slabSize blockSize
  let bufferSize :=
    if p.bufferSize > 0x7fffffffffffffff ∨ p.bufferSize = 0 then kDefaultBufferSize
    else p.bufferSize
  let (slabsPerBuffer, bufferSize) := roundUp64 bufferSize slabSize
  -- a product of `int`s, taken to wrap: from 2^31 blocks on it overflows in the source
  let numBlocks := (blocksPerSlab * slabsPerBuffer).toUInt32
  let nonrsrvblePct :=
    if p.nonrsrvblePct < 0 then kDefaultNonrsrvblePct
    else if p.nonrsrvblePct > kMaxNonrsrvblePct then kMaxNonrsrvblePct
    else p.nonrsrvblePct
  { blockSize, slabSize, bufferSize, numBlocks, nonrsrvblePct }

/-! ## What is asked of the sizes -/

/-- `getpagesize`, a power of two that fits an `int`. -/
def pageSize (shift : Fin 31) : UInt32 := UInt32.ofNat (2 ^ shift.val)

/-- The least multiple of `unit` that has `size`. -/
structure RoundedUp (size unit result : Nat) : Prop where
  le : size ≤ result
  lt : result < size + unit

/-- The checked sizes divide each other, the counts agree with them, valid sizes
were only rounded up and another check finds nothing to do. -/
structure Consistent (shift : Fin 31) (requested p : ManagerParams) : Prop where
  block_pos : 0 < p.blockSize.toNat
  page_dvd : (pageSize shift).toNat ∣ p.blockSize.toNat
  slab_pos : 0 < p.slabSize.toNat
  block_dvd : p.blockSize.toNat ∣ p.slabSize.toNat
  buffer_pos : 0 < p.bufferSize.toNat
  slab_dvd : p.slabSize.toNat ∣ p.bufferSize.toNat
  numBlocks_pos : 1 ≤ p.numBlocks.toNat
  numBlocks_mul : p.numBlocks.toNat * p.blockSize.toNat = p.bufferSize.toNat
  numBlocks_eq : p.slabsPerBuffer.toNat * p.blocksPerSlab.toNat = p.numBlocks.toNat
  block_up : 0 < requested.blockSize.toNat → requested.blockSize.toNat < 2147483648 →
    RoundedUp requested.blockSize.toNat (pageSize shift).toNat p.blockSize.toNat
  slab_up : 0 < requested.slabSize.toNat → requested.slabSize.toNat < 2147483648 →
    RoundedUp requested.slabSize.toNat p.blockSize.toNat p.slabSize.toNat
  buffer_up : 0 < requested.bufferSize.toNat → requested.bufferSize.toNat < 9223372036854775808 →
    RoundedUp requested.bufferSize.toNat p.slabSize.toNat p.bufferSize.toNat
  again : p.paramCheck (pageSize shift) = p

/-- How many units a size needs. -/
def units (size unit : Nat) : Nat := (size - 1 + unit) / unit

def rounded (size unit : Nat) : Nat := units size unit * unit

/-- Rounded up without limit, the block and the slab size still fit an `int`, and
so does the number of slabs; the number of blocks fits 32 bits (with 2^31 blocks or
more this relies on the product of `int`s wrapping). -/
structure InRange (page block slab buffer : Nat) : Prop where
  block_lt : rounded block page < 2147483648
  slab_lt : rounded slab (rounded block page) < 2147483648
  slabs_lt : units buffer (rounded slab (rounded block page)) < 2147483648
  blocks_lt : units slab (rounded block page) *
    units buffer (rounded slab (rounded block page)) < 4294967296

/-- A size, or its default if it is zero or not below a limit. -/
def valid (limit default size : Nat) : Nat := if 0 < size ∧ size < limit then size else default

/-! ## Rounding -/

theorem le_rounded {size unit : Nat} (pos : 0 < unit) : size ≤ rounded size unit := by
  have split := Nat.div_add_mod' (size - 1 + unit) unit
  have less := Nat.mod_lt (size - 1 + unit) pos
  unfold rounded units
  omega

theorem rounded_lt {size unit : Nat} (pos : 0 < size) : rounded size unit < size + unit := by
  have split := Nat.div_add_mod' (size - 1 + unit) unit
  unfold rounded units
  omega

theorem units_mul {n unit : Nat} (pos : 0 < n) (unit_pos : 0 < unit) : units (n * unit) unit = n := by
  have more := Nat.le_mul_of_pos_left unit pos
  have sum : n * unit - 1 + unit = unit - 1 + unit * n := by
    rw [Nat.mul_comm unit n]
    omega
  unfold units
  rw [sum, Nat.add_mul_div_left _ _ unit_pos, Nat.div_eq_of_lt (by omega), Nat.zero_add]

theorem units_pos (size : Nat) {unit : Nat} (pos : 0 < unit) : 0 < units size unit :=
  Nat.div_pos (by omega) pos

theorem units_le {size unit : Nat} (pos : 0 < size) (unit_pos : 0 < unit) :
    units size unit ≤ size := by
  have less := Nat.div_le_self (size - 1) unit
  unfold units
  rw [Nat.add_div_right _ unit_pos]
  omega

theorem toNat_ofNat {n : Nat} (lt : n < 4294967296) : (UInt32.ofNat n).toNat = n := by
  rw [UInt32.toNat_ofNat']
  exact Nat.mod_eq_of_lt lt

theorem toInt32_lt_one (x : UInt32) : x.toInt32 < 1 ↔ x.toNat = 0 ∨ 2147483648 ≤ x.toNat := by
  have value : x.toInt32.toInt = if 2 * x.toNat < 4294967296 then (x.toNat : Int) else x.toNat - 4294967296 := 
    BitVec.toInt_eq_toNat_cond x.toBitVec
  have less := x.toNat_lt
  have one : (1 : Int32).toInt = 1 := rfl
  rw [Int32.lt_iff_toInt_lt, value, one]
  split <;> omega

theorem toNat_toInt64 (x : UInt32) : x.toInt32.toInt64.toUInt64.toNat =
    if x.toNat < 2147483648 then x.toNat else x.toNat + 18446744069414584320 := by
  have eq : x.toInt32.toInt64.toUInt64.toNat = (x.toBitVec.signExtend 64).toNat := rfl
  have less := x.toNat_lt
  have wide : (x.toBitVec.setWidth 64).toNat = x.toNat := by
    rw [BitVec.toNat_setWidth]
    exact Nat.mod_eq_of_lt (by omega)
  rw [eq, BitVec.toNat_signExtend, wide, BitVec.msb_eq_decide, UInt32.toNat_toBitVec]
  by_cases low : x.toNat < 2147483648
  · rw [if_pos low, if_neg (by simpa using low)]
    rfl
  · rw [if_neg low, if_pos (by simpa using low)]

/-- What a round-up of 32 bits does within range. -/
theorem roundUp32_eq {size unit : UInt32} (pos : 0 < size.toNat) (lt : size.toNat < 2147483648)
    (unit_pos : 0 < unit.toNat) (unit_le : unit.toNat ≤ 2147483648) :
    roundUp32 size unit = ((UInt32.ofNat (units size.toNat unit.toNat)).toInt32,
      UInt32.ofNat (rounded size.toNat unit.toNat)) := by
  have one : (1 : UInt32).toNat = 1 := rfl
  have quot : ((size - 1 + unit) / unit) = UInt32.ofNat (units size.toNat unit.toNat) := by
    apply UInt32.toNat_inj.mp
    have le := @units_le size.toNat unit.toNat pos unit_pos
    have one_le : (1 : UInt32) ≤ size := UInt32.le_iff_toNat_le.mpr pos
    have num : (size - 1 + unit).toNat = size.toNat - 1 + unit.toNat := by
      rw [UInt32.toNat_add, UInt32.toNat_sub_of_le _ _ one_le, one]
      exact Nat.mod_eq_of_lt (by omega)
    rw [UInt32.toNat_div, num, toNat_ofNat (by omega)]
    rfl
  have few : ¬ (UInt32.ofNat (units size.toNat unit.toNat)).toInt32 < 1 := by
    have le := @units_le size.toNat unit.toNat pos unit_pos
    have more := units_pos size.toNat unit_pos
    rw [toInt32_lt_one, toNat_ofNat (by omega)]
    omega
  have product : UInt32.ofNat (units size.toNat unit.toNat) * unit =
      UInt32.ofNat (rounded size.toNat unit.toNat) := by
    rw [rounded, UInt32.ofNat_mul, UInt32.ofNat_toNat]
  unfold roundUp32
  simp only [quot, few, if_false]
  split
  · exact congrArg _ product
  · rename_i same
    rw [← product]
    exact congrArg _ (not_not.mp same)

theorem toNat_ofNat64 {n : Nat} (lt : n < 18446744073709551616) : (UInt64.ofNat n).toNat = n := by
  rw [UInt64.toNat_ofNat']
  exact Nat.mod_eq_of_lt lt

section
variable {size : UInt64} {unit : UInt32}

theorem quotient64 (pos : 0 < size.toNat) (lt : size.toNat < 9223372036854775808) :
    ((size - 1 + unit.toUInt64) / unit.toUInt64).toNat = units size.toNat unit.toNat := by
  have one : (1 : UInt64).toNat = 1 := rfl
  have one_le : (1 : UInt64) ≤ size := UInt64.le_iff_toNat_le.mpr pos
  have unit_lt := unit.toNat_lt
  have num : (size - 1 + unit.toUInt64).toNat = size.toNat - 1 + unit.toNat := by
    rw [UInt64.toNat_add, UInt64.toNat_sub_of_le _ _ one_le, one, UInt32.toNat_toUInt64]
    exact Nat.mod_eq_of_lt (by omega)
  rw [UInt64.toNat_div, num, UInt32.toNat_toUInt64]
  rfl

/-- What the round-up of the buffer size does within range. -/
theorem roundUp64_eq (pos : 0 < size.toNat) (lt : size.toNat < 9223372036854775808)
    (unit_pos : 0 < unit.toNat) (few : units size.toNat unit.toNat < 2147483648) :
    roundUp64 size unit = ((UInt32.ofNat (units size.toNat unit.toNat)).toInt32,
      UInt64.ofNat (rounded size.toNat unit.toNat)) := by
  have quot : ((size - 1 + unit.toUInt64) / unit.toUInt64).toUInt32 =
      UInt32.ofNat (units size.toNat unit.toNat) := by
    rw [← quotient64 pos lt]
    rfl
  have some : ¬ (UInt32.ofNat (units size.toNat unit.toNat)).toInt32 < 1 := by
    have more := units_pos size.toNat unit_pos
    rw [toInt32_lt_one, toNat_ofNat (by omega)]
    omega
  have product : (UInt32.ofNat (units size.toNat unit.toNat)).toInt32.toInt64.toUInt64 *
      unit.toUInt64 = UInt64.ofNat (rounded size.toNat unit.toNat) := by
    apply UInt64.toNat_inj.mp
    rw [UInt64.toNat_mul, toNat_toInt64, toNat_ofNat (by omega), if_pos few, UInt32.toNat_toUInt64,
      UInt64.toNat_ofNat']
    rfl
  unfold roundUp64
  simp only [quot, some, if_false]
  split
  · exact congrArg _ product
  · rename_i same
    rw [← product]
    exact congrArg _ (not_not.mp same)

/-- With too many units the quotient is cut, and the size gets smaller. -/
theorem roundUp64_lt (pos : 0 < size.toNat) (lt : size.toNat < 9223372036854775808)
    (unit_pos : 0 < unit.toNat) (many : 2147483648 ≤ units size.toNat unit.toNat) :
    (roundUp64 size unit).2.toNat < size.toNat := by
  have unit_lt := unit.toNat_lt
  have quot : ((size - 1 + unit.toUInt64) / unit.toUInt64).toUInt32.toNat =
      units size.toNat unit.toNat % 4294967296 := by
    rw [UInt64.toNat_toUInt32, quotient64 pos lt]
  -- one unit less than are needed is still too small
  have fewer : (units size.toNat unit.toNat - 1) * unit.toNat < size.toNat := by
    have up := @rounded_lt size.toNat unit.toNat pos
    have more : unit.toNat ≤ rounded size.toNat unit.toNat :=
      Nat.le_mul_of_pos_left _ (by omega)
    rw [Nat.sub_one_mul]
    unfold rounded at up more
    omega
  have product (k : Nat) (le : k + 1 ≤ units size.toNat unit.toNat) :
      k * unit.toNat % 18446744073709551616 < size.toNat :=
    calc k * unit.toNat % 18446744073709551616
      _ ≤ k * unit.toNat := Nat.mod_le _ _
      _ ≤ (units size.toNat unit.toNat - 1) * unit.toNat := Nat.mul_le_mul_right _ (by omega)
      _ < size.toNat := fewer
  unfold roundUp64
  generalize ((size - 1 + unit.toUInt64) / unit.toUInt64).toUInt32 = x at quot
  have x_lt := x.toNat_lt
  by_cases positive : x.toNat < 2147483648
  · have small : (x.toInt32.toInt64.toUInt64 * unit.toUInt64).toNat < size.toNat := by
      rw [UInt64.toNat_mul, toNat_toInt64, if_pos positive, UInt32.toNat_toUInt64]
      exact product _ (by omega)
    have other : size ≠ x.toInt32.toInt64.toUInt64 * unit.toUInt64 := by
      intro same
      rw [← same] at small
      omega
    simp only [if_pos other]
    split
    · exact product 1 (by omega)
    · exact small
  · have large : size.toNat < (x.toInt32.toInt64.toUInt64 * unit.toUInt64).toNat := by
      have part : (4294967296 - x.toNat) * unit.toNat ≤ 2147483648 * 4294967295 :=
        Nat.mul_le_mul (by omega) (by omega)
      have some : 0 < (4294967296 - x.toNat) * unit.toNat := Nat.mul_pos (by omega) unit_pos
      have sum : (x.toNat + 18446744069414584320) * unit.toNat +
          (4294967296 - x.toNat) * unit.toNat = 18446744073709551616 * unit.toNat := by
        rw [← Nat.add_mul]
        congr 1
        omega
      rw [UInt64.toNat_mul, toNat_toInt64, if_neg positive, UInt32.toNat_toUInt64]
      omega
    have other : size ≠ x.toInt32.toInt64.toUInt64 * unit.toUInt64 := by
      intro same
      rw [← same] at large
      omega
    have negative : x.toInt32 < 1 := (toInt32_lt_one x).mpr (by omega)
    simp only [if_pos other, if_pos negative]
    exact product 1 (by omega)
end

/-! ## The check -/

theorem rounded_le {size unit bound : Nat} (pos : 0 < size) (le : size ≤ bound)
    (dvd : unit ∣ bound) : rounded size unit ≤ bound := by
  obtain ⟨k, rfl⟩ := dvd
  have less := @rounded_lt size unit pos
  have few : units size unit < k + 1 := by
    apply Nat.lt_of_mul_lt_mul_right (a := unit)
    rw [Nat.succ_mul, Nat.mul_comm k]
    unfold rounded at less
    omega
  rw [Nat.mul_comm unit]
  exact Nat.mul_le_mul_right unit (by omega)

theorem rounded_pos (size : Nat) {unit : Nat} (pos : 0 < unit) : 0 < rounded size unit :=
  Nat.mul_pos (units_pos size pos) pos

theorem units_rounded (size : Nat) {unit : Nat} (pos : 0 < unit) :
    units (rounded size unit) unit = units size unit :=
  units_mul (units_pos size pos) pos

theorem rounded_rounded (size : Nat) {unit : Nat} (pos : 0 < unit) :
    rounded (rounded size unit) unit = rounded size unit := by
  rw [rounded, units_rounded size pos, rounded]

section
variable (shift : Fin 31)

theorem toNat_pageSize : (pageSize shift).toNat = 2 ^ shift.val := by
  apply toNat_ofNat
  calc 2 ^ shift.val
    _ ≤ 2 ^ 30 := Nat.pow_le_pow_right (by decide) (by omega)
    _ < 4294967296 := by decide

theorem pageSize_pos : 0 < (pageSize shift).toNat := by
  rw [toNat_pageSize]
  exact Nat.two_pow_pos _

theorem pageSize_le : (pageSize shift).toNat ≤ 1073741824 := by
  rw [toNat_pageSize]
  calc 2 ^ shift.val
    _ ≤ 2 ^ 30 := Nat.pow_le_pow_right (by decide) (by omega)
    _ = 1073741824 := rfl

theorem pageSize_dvd : (pageSize shift).toNat ∣ 2147483648 := by
  rw [toNat_pageSize]
  have fits : 2 ^ shift.val ∣ 2 ^ 31 := Nat.pow_dvd_pow 2 (by omega)
  exact fits

end

section
variable (p : ManagerParams)

/-- The sizes `ParamCheck` goes on with. -/
def block : Nat := valid 2147483648 8192 p.blockSize.toNat
def slab : Nat := valid 2147483648 8388608 p.slabSize.toNat
def buffer : Nat := valid 9223372036854775808 268435456 p.bufferSize.toNat

theorem valid_pos {limit default : Nat} (pos : 0 < default) (size : Nat) :
    0 < valid limit default size := by
  unfold valid
  split <;> omega

theorem valid_lt {limit default : Nat} (lt : default < limit) (size : Nat) :
    valid limit default size < limit := by
  unfold valid
  split <;> omega

theorem valid_self {limit default size : Nat} (pos : 0 < size) (lt : size < limit) :
    valid limit default size = size := if_pos ⟨pos, lt⟩

theorem valid32 (default size : UInt32) :
    (if size > 0x7fffffff ∨ size = 0 then default else size).toNat =
      valid 2147483648 default.toNat size.toNat := by
  have zero : size = 0 ↔ size.toNat = 0 := UInt32.toNat_inj.symm
  have large : size > 0x7fffffff ↔ 2147483647 < size.toNat := UInt32.lt_iff_toNat_lt
  unfold valid
  by_cases ok : 0 < size.toNat ∧ size.toNat < 2147483648
  · rw [if_neg (by rw [zero, large]; omega), if_pos ok]
  · rw [if_pos (by rw [zero, large]; omega), if_neg ok]

theorem valid64 (default size : UInt64) :
    (if size > 0x7fffffffffffffff ∨ size = 0 then default else size).toNat =
      valid 9223372036854775808 default.toNat size.toNat := by
  have zero : size = 0 ↔ size.toNat = 0 := UInt64.toNat_inj.symm
  have large : size > 0x7fffffffffffffff ↔ 9223372036854775807 < size.toNat :=
    UInt64.lt_iff_toNat_lt
  unfold valid
  by_cases ok : 0 < size.toNat ∧ size.toNat < 9223372036854775808
  · rw [if_neg (by rw [zero, large]; omega), if_pos ok]
  · rw [if_pos (by rw [zero, large]; omega), if_neg ok]

end

/-- The percentage within its limits. -/
def percent (pct : ℚ) : ℚ :=
  if pct < 0 then kDefaultNonrsrvblePct
  else if pct > kMaxNonrsrvblePct then kMaxNonrsrvblePct
  else pct

theorem percent_percent (pct : ℚ) : percent (percent pct) = percent pct := by
  have default : percent kDefaultNonrsrvblePct = kDefaultNonrsrvblePct := by decide
  have most : percent kMaxNonrsrvblePct = kMaxNonrsrvblePct := by decide
  by_cases negative : pct < 0
  · rw [percent.eq_def pct, if_pos negative, default]
  by_cases much : pct > kMaxNonrsrvblePct
  · rw [percent.eq_def pct, if_neg negative, if_pos much, most]
  · rw [percent.eq_def pct, if_neg negative, if_neg much, percent, if_neg negative, if_neg much]

section
variable (shift : Fin 31) (p : ManagerParams)

/-- The block size in pages, the slab size in blocks of that size. -/
def newBlock : Nat := rounded p.block (pageSize shift).toNat
def newSlab : Nat := rounded p.slab (p.newBlock shift)
def newSlabs : Nat := units p.buffer (p.newSlab shift)

theorem block_pos : 0 < p.block := valid_pos (by decide) _
theorem slab_pos : 0 < p.slab := valid_pos (by decide) _
theorem buffer_pos : 0 < p.buffer := valid_pos (by decide) _
theorem block_lt : p.block < 2147483648 := valid_lt (by decide) _
theorem slab_lt : p.slab < 2147483648 := valid_lt (by decide) _
theorem buffer_lt : p.buffer < 9223372036854775808 := valid_lt (by decide) _

theorem newBlock_pos : 0 < p.newBlock shift := rounded_pos _ (pageSize_pos shift)

theorem newBlock_le : p.newBlock shift ≤ 2147483648 :=
  rounded_le p.block_pos (Nat.le_of_lt p.block_lt) (pageSize_dvd shift)

theorem newSlab_pos : 0 < p.newSlab shift := rounded_pos _ (p.newBlock_pos shift)

theorem newSlab_lt : p.newSlab shift < 4294967296 := by
  have up : p.newSlab shift < p.slab + p.newBlock shift := rounded_lt p.slab_pos
  have block := p.newBlock_le shift
  have slab := p.slab_lt
  omega

/-- What `ParamCheck` does to block and slab size, and what it goes on with. -/
theorem paramCheck_sizes : ∃ buffer, buffer.toNat = p.buffer ∧
    p.paramCheck (pageSize shift) =
      { blockSize := UInt32.ofNat (p.newBlock shift)
        slabSize := UInt32.ofNat (p.newSlab shift)
        bufferSize := (roundUp64 buffer (UInt32.ofNat (p.newSlab shift))).2
        numBlocks := ((UInt32.ofNat (units p.slab (p.newBlock shift))).toInt32 *
          (roundUp64 buffer (UInt32.ofNat (p.newSlab shift))).1).toUInt32
        nonrsrvblePct := percent p.nonrsrvblePct } := by
  have block : _ = p.block := valid32 kDefaultBlockSize p.blockSize
  have slab : _ = p.slab := valid32 kDefaultSlabSize p.slabSize
  have buffer : _ = p.buffer := valid64 kDefaultBufferSize p.bufferSize
  have page_le := pageSize_le shift
  have newBlock : (UInt32.ofNat (p.newBlock shift)).toNat = p.newBlock shift :=
    toNat_ofNat (Nat.lt_of_le_of_lt (p.newBlock_le shift) (by decide))
  refine ⟨_, buffer, ?_⟩
  unfold paramCheck
  generalize (if p.blockSize > 0x7fffffff ∨ p.blockSize = 0 then kDefaultBlockSize
    else p.blockSize) = blockSize at block ⊢
  generalize (if p.slabSize > 0x7fffffff ∨ p.slabSize = 0 then kDefaultSlabSize
    else p.slabSize) = slabSize at slab ⊢
  have blocks : roundUp32 blockSize (pageSize shift) = _ :=
    roundUp32_eq (block ▸ p.block_pos) (block ▸ p.block_lt) (pageSize_pos shift) (by omega)
  have slabs : roundUp32 slabSize (UInt32.ofNat (p.newBlock shift)) = _ :=
    roundUp32_eq (slab ▸ p.slab_pos) (slab ▸ p.slab_lt) (newBlock.symm ▸ p.newBlock_pos shift)
      (newBlock.symm ▸ p.newBlock_le shift)
  rw [block] at blocks
  rw [slab, newBlock] at slabs
  change roundUp32 _ _ = (_, UInt32.ofNat (p.newBlock shift)) at blocks
  change roundUp32 _ _ = (_, UInt32.ofNat (p.newSlab shift)) at slabs
  simp only [blocks, slabs]
  rfl

theorem toNat_newSlab : (UInt32.ofNat (p.newSlab shift)).toNat = p.newSlab shift :=
  toNat_ofNat (p.newSlab_lt shift)

/-- What `ParamCheck` returns when the number of slabs fits an `int`. -/
theorem paramCheck_eq (few : p.newSlabs shift < 2147483648) :
    p.paramCheck (pageSize shift) =
      { blockSize := UInt32.ofNat (p.newBlock shift)
        slabSize := UInt32.ofNat (p.newSlab shift)
        bufferSize := UInt64.ofNat (p.newSlabs shift * p.newSlab shift)
        numBlocks := UInt32.ofNat (units p.slab (p.newBlock shift) * p.newSlabs shift)
        nonrsrvblePct := percent p.nonrsrvblePct } := by
  obtain ⟨buffer, size, eq⟩ := p.paramCheck_sizes shift
  have slab := p.toNat_newSlab shift
  have last : roundUp64 buffer (UInt32.ofNat (p.newSlab shift)) = _ :=
    roundUp64_eq (size ▸ p.buffer_pos) (size ▸ p.buffer_lt) (slab.symm ▸ p.newSlab_pos shift)
      (by rw [size, slab]; exact few)
  rw [size, slab] at last
  rw [eq, last, UInt32.ofNat_mul]
  rfl

/-- With too many slabs the buffer gets smaller. -/
theorem paramCheck_lt (many : 2147483648 ≤ p.newSlabs shift) :
    (p.paramCheck (pageSize shift)).bufferSize.toNat < p.buffer := by
  obtain ⟨buffer, size, eq⟩ := p.paramCheck_sizes shift
  have slab := p.toNat_newSlab shift
  rw [eq, ← size]
  exact roundUp64_lt (size ▸ p.buffer_pos) (size ▸ p.buffer_lt) (slab.symm ▸ p.newSlab_pos shift)
    (by rw [size, slab]; exact many)


/-- The sizes of a requested valid size are only rounded up. -/
theorem roundedUp {size unit : Nat} (pos : 0 < size) (unit_pos : 0 < unit) :
    RoundedUp size unit (rounded size unit) :=
  ⟨le_rounded unit_pos, rounded_lt pos⟩

/-- A check of checked sizes. -/
theorem paramCheck_paramCheck
    (range : InRange (pageSize shift).toNat p.block p.slab p.buffer) :
    (p.paramCheck (pageSize shift)).paramCheck (pageSize shift) =
      p.paramCheck (pageSize shift) := by
  have blocks : p.newBlock shift < 2147483648 := range.block_lt
  have slabs : p.newSlab shift < 2147483648 := range.slab_lt
  have few : p.newSlabs shift < 2147483648 := range.slabs_lt
  have size_lt : p.newSlabs shift * p.newSlab shift ≤ 2147483648 * 2147483648 :=
    Nat.mul_le_mul (Nat.le_of_lt few) (Nat.le_of_lt slabs)
  have some := units_pos p.buffer (p.newSlab_pos shift)
  have size_pos : 0 < p.newSlabs shift * p.newSlab shift := Nat.mul_pos some (p.newSlab_pos shift)
  have eq := p.paramCheck_eq shift few
  generalize p.paramCheck (pageSize shift) = q at eq ⊢
  have block : q.block = p.newBlock shift := by
    rw [eq, block]
    dsimp only
    rw [toNat_ofNat (by omega), valid_self (p.newBlock_pos shift) blocks]
  have slab : q.slab = p.newSlab shift := by
    rw [eq, ManagerParams.slab]
    dsimp only
    rw [toNat_ofNat (by omega), valid_self (p.newSlab_pos shift) slabs]
  have buffer : q.buffer = p.newSlabs shift * p.newSlab shift := by
    rw [eq, ManagerParams.buffer]
    dsimp only
    rw [toNat_ofNat64 (by omega), valid_self size_pos (by omega)]
  have newBlock : q.newBlock shift = p.newBlock shift := by
    rw [ManagerParams.newBlock, block]
    exact rounded_rounded _ (pageSize_pos shift)
  have newSlab : q.newSlab shift = p.newSlab shift := by
    rw [ManagerParams.newSlab, newBlock, slab]
    exact rounded_rounded _ (p.newBlock_pos shift)
  have newSlabs : q.newSlabs shift = p.newSlabs shift := by
    rw [ManagerParams.newSlabs, newSlab, buffer]
    exact units_mul some (p.newSlab_pos shift)
  have perSlab : units q.slab (p.newBlock shift) = units p.slab (p.newBlock shift) := by
    rw [slab]
    exact units_rounded _ (p.newBlock_pos shift)
  have pct : percent q.nonrsrvblePct = q.nonrsrvblePct := by
    rw [eq]
    exact percent_percent _
  rw [q.paramCheck_eq shift (newSlabs ▸ few), newBlock, newSlab, newSlabs, perSlab, pct, eq]

theorem consistent_of_inRange (range : InRange (pageSize shift).toNat p.block p.slab p.buffer) :
    Consistent shift p (p.paramCheck (pageSize shift)) := by
  have again := p.paramCheck_paramCheck shift range
  have blocks : p.newBlock shift < 2147483648 := range.block_lt
  have slabs : p.newSlab shift < 2147483648 := range.slab_lt
  have few : p.newSlabs shift < 2147483648 := range.slabs_lt
  have all : units p.slab (p.newBlock shift) * p.newSlabs shift < 4294967296 := range.blocks_lt
  have size_lt : p.newSlabs shift * p.newSlab shift ≤ 2147483648 * 2147483648 :=
    Nat.mul_le_mul (Nat.le_of_lt few) (Nat.le_of_lt slabs)
  have some := units_pos p.buffer (p.newSlab_pos shift)
  have some' := units_pos p.slab (p.newBlock_pos shift)
  have size_pos : 0 < p.newSlabs shift * p.newSlab shift := Nat.mul_pos some (p.newSlab_pos shift)
  have eq := p.paramCheck_eq shift few
  generalize p.paramCheck (pageSize shift) = q at eq again ⊢
  have block : q.blockSize.toNat = p.newBlock shift := by
    rw [eq]
    exact toNat_ofNat (by omega)
  have slab : q.slabSize.toNat = p.newSlab shift := by
    rw [eq]
    exact toNat_ofNat (by omega)
  have buffer : q.bufferSize.toNat = p.newSlabs shift * p.newSlab shift := by
    rw [eq]
    exact toNat_ofNat64 (by omega)
  have numBlocks : q.numBlocks.toNat = units p.slab (p.newBlock shift) * p.newSlabs shift := by
    rw [eq]
    exact toNat_ofNat all
  have perBuffer : q.slabsPerBuffer.toNat = p.newSlabs shift := by
    rw [slabsPerBuffer, UInt64.toNat_toUInt32, UInt64.toNat_div, UInt32.toNat_toUInt64, slab, buffer,
      Nat.mul_div_cancel _ (p.newSlab_pos shift)]
    exact Nat.mod_eq_of_lt (by omega)
  have perSlab : q.blocksPerSlab.toNat = units p.slab (p.newBlock shift) := by
    rw [blocksPerSlab, UInt32.toNat_div, slab, block]
    exact Nat.mul_div_cancel _ (p.newBlock_pos shift)
  constructor
  case block_pos => exact block ▸ p.newBlock_pos shift
  case page_dvd => exact block ▸ Nat.dvd_mul_left _ _
  case slab_pos => exact slab ▸ p.newSlab_pos shift
  case block_dvd =>
    rw [block, slab]
    exact Nat.dvd_mul_left _ _
  case buffer_pos => exact buffer ▸ size_pos
  case slab_dvd =>
    rw [slab, buffer]
    exact Nat.dvd_mul_left _ _
  case numBlocks_pos =>
    rw [numBlocks]
    exact Nat.mul_pos some' some
  case numBlocks_mul =>
    rw [numBlocks, block, buffer, Nat.mul_right_comm, Nat.mul_comm]
    rfl
  case numBlocks_eq => rw [perBuffer, perSlab, numBlocks, Nat.mul_comm]
  case block_up =>
    intro pos lt
    rw [block]
    have self : p.block = p.blockSize.toNat := valid_self pos lt
    rw [← self]
    exact roundedUp p.block_pos (pageSize_pos shift)
  case slab_up =>
    intro pos lt
    rw [block, slab]
    have self : p.slab = p.slabSize.toNat := valid_self pos lt
    rw [← self]
    exact roundedUp p.slab_pos (p.newBlock_pos shift)
  case buffer_up =>
    intro pos lt
    rw [slab, buffer]
    have self : p.buffer = p.bufferSize.toNat := valid_self pos lt
    rw [← self]
    exact roundedUp p.buffer_pos (p.newSlab_pos shift)
  case again => exact again


theorem blockSize_paramCheck :
    (p.paramCheck (pageSize shift)).blockSize.toNat = p.newBlock shift := by
  obtain ⟨_, -, eq⟩ := p.paramCheck_sizes shift
  have le := p.newBlock_le shift
  rw [eq]
  exact toNat_ofNat (by omega)

theorem slabSize_paramCheck :
    (p.paramCheck (pageSize shift)).slabSize.toNat = p.newSlab shift := by
  obtain ⟨_, -, eq⟩ := p.paramCheck_sizes shift
  rw [eq]
  exact toNat_ofNat (p.newSlab_lt shift)

/-- A block or slab size that no longer fits an `int` is taken back by the next
check, and a number of slabs or blocks that does not fit is cut. -/
theorem inRange_of_consistent (ok : Consistent shift p (p.paramCheck (pageSize shift))) :
    InRange (pageSize shift).toNat p.block p.slab p.buffer := by
  have again := ok.again
  have count := ok.numBlocks_mul
  have page_le := pageSize_le shift
  have block := p.blockSize_paramCheck shift
  have slab := p.slabSize_paramCheck shift
  have stable : (p.paramCheck (pageSize shift)).newBlock shift = p.newBlock shift := by
    rw [← blockSize_paramCheck, again, block]
  have stable' : (p.paramCheck (pageSize shift)).newSlab shift = p.newSlab shift := by
    rw [← slabSize_paramCheck, again, slab]
  have block_lt : p.newBlock shift < 2147483648 := by
    by_contra large
    have reset : (p.paramCheck (pageSize shift)).block = 8192 := if_neg (by omega)
    have less := @rounded_lt 8192 (pageSize shift).toNat (by decide)
    rw [ManagerParams.newBlock, reset] at stable
    omega
  have slab_lt : p.newSlab shift < 2147483648 := by
    by_contra large
    have reset : (p.paramCheck (pageSize shift)).slab = 8388608 := if_neg (by omega)
    have less := @rounded_lt 8388608 (p.newBlock shift) (by decide)
    rw [ManagerParams.newSlab, reset, stable] at stable'
    by_cases small : 8388608 ≤ p.newBlock shift
    · have le := rounded_le (by decide) small (Nat.dvd_refl _)
      omega
    · omega
  have slabs_lt : p.newSlabs shift < 2147483648 := by
    by_contra many
    have less := p.paramCheck_lt shift (Nat.not_lt.mp many)
    have le : p.newSlabs shift ≤ p.buffer := units_le p.buffer_pos (p.newSlab_pos shift)
    by_cases size : 0 < p.bufferSize.toNat ∧ p.bufferSize.toNat < 9223372036854775808
    · have self : p.buffer = p.bufferSize.toNat := if_pos size
      have up := (ok.buffer_up size.1 size.2).le
      omega
    · have default : p.buffer = 268435456 := if_neg size
      omega
  constructor
  case block_lt => exact block_lt
  case slab_lt => exact slab_lt
  case slabs_lt => exact slabs_lt
  case blocks_lt =>
    have size_lt : p.newSlabs shift * p.newSlab shift ≤ 2147483648 * 2147483648 :=
      Nat.mul_le_mul (Nat.le_of_lt slabs_lt) (Nat.le_of_lt slab_lt)
    have all : p.newSlabs shift * p.newSlab shift =
        units p.slab (p.newBlock shift) * p.newSlabs shift * p.newBlock shift := by
      rw [Nat.mul_right_comm, Nat.mul_comm]
      rfl
    rw [p.paramCheck_eq shift slabs_lt] at count
    dsimp only at count
    have blockSize : (UInt32.ofNat (p.newBlock shift)).toNat = p.newBlock shift :=
      toNat_ofNat (by omega)
    rw [blockSize, toNat_ofNat64 (by omega), all] at count
    have eq := Nat.eq_of_mul_eq_mul_right (p.newBlock_pos shift) count
    exact eq ▸ UInt32.toNat_lt _

/-- The sizes are consistent as long as rounding leaves them in range. -/
theorem consistent_iff : Consistent shift p (p.paramCheck (pageSize shift)) ↔
    InRange (pageSize shift).toNat p.block p.slab p.buffer :=
  ⟨p.inRange_of_consistent shift, p.consistent_of_inRange shift⟩

end

/-- Blocks and slabs of 4096 bytes, 2^32 of them. -/
def sixteenTebibytes : ManagerParams where
  blockSize := 4096
  slabSize := 4096
  bufferSize := 17592186044416
  numBlocks := 0
  nonrsrvblePct := 2

theorem paramCheck_sixteenTebibytes :
    (sixteenTebibytes.paramCheck (pageSize 12)).bufferSize = 4096 := by decide

theorem not_geometry : ¬ ∀ shift (p : ManagerParams),
    Consistent shift p (p.paramCheck (pageSize shift)) := by
  intro claim
  have up := ((claim 12 sixteenTebibytes).buffer_up (by decide) (by decide)).le
  rw [paramCheck_sixteenTebibytes] at up
  exact absurd up (by decide)

end ManagerParams
end Mcsb
