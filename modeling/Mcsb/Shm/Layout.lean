import Mcsb.Wire.Protocol

/-!
# The layout of a buffer

Where the header, the block infos and the blocks are in a buffer, as `ShmHeader`
says, and where the manager and its clients look for a block.
-/

namespace Mcsb
namespace Shm

def sizeofShmHeader : Nat := 44

/-- The sizes of the buffers. The page size is a power of two and fits an `int`;
the block area is small enough to be mapped. -/
structure Geometry where
  pageShift : Nat
  blockSize : Nat
  slabSize : Nat
  numBlocks : Nat
  numBuffers : Nat
  page_lt : pageShift < 31
  blockSize_pos : 0 < blockSize
  blockSize_lt : blockSize < 2 ^ 32
  numBlocks_pos : 0 < numBlocks
  numBlocks_lt : numBlocks < 2 ^ 32
  numBuffers_pos : 0 < numBuffers
  mappable : blockSize * numBlocks < 2 ^ 63

variable (g : Geometry)

namespace Geometry

def pageSize : Nat := 2 ^ g.pageShift

/-- `(x + pagesize-1) & (-pagesize)`. -/
def padded (x : Nat) : Nat := (x + g.pageSize - 1) / g.pageSize * g.pageSize

/-- `ShmHeader::PaddedSize`, a `uint32_t`. -/
def headerPaddedSize : Nat := g.padded sizeofShmHeader % 2 ^ 32

/-- `BlockInfo::PaddedSize` of all the infos of a buffer, a `uint32_t`. -/
def infoPaddedSize : Nat := g.padded (sizeofBlockInfo * g.numBlocks) % 2 ^ 32

def infoOffset : Nat := g.headerPaddedSize

def blockOffset : Nat := (g.infoOffset + g.infoPaddedSize) % 2 ^ 32

/-- `TotalBlocksSize`, a `size_t`. -/
def totalBlocksSize : Nat := g.padded (g.blockSize * g.numBlocks) % 2 ^ 64

/-- `TotalBufferSize`: the first sum is one of `uint32_t`s. -/
def totalBufferSize : Nat :=
  ((g.headerPaddedSize + g.infoPaddedSize) % 2 ^ 32 + g.totalBlocksSize) % 2 ^ 64

def totalNumBlocks : Nat := g.numBuffers * g.numBlocks

end Geometry

/-- `ShmMapper::GetBlockPtr`: the buffer, and the offset in it. The product is one
of `long`s. -/
def ShmMapper.getBlockPtr (blockID : Nat) : Option (Nat × Nat) :=
  if g.numBuffers ≤ blockID / g.numBlocks then none
  else some (blockID / g.numBlocks, g.blockOffset + blockID % g.numBlocks * g.blockSize)

/-- `ShmClient::GetBlockPtr(bufNum, blockOffset)`, from the first block on. The
product is one of `unsigned`s. -/
def ShmClient.blockPtr (bufNum blockOffset : Nat) : Nat × Nat :=
  (bufNum, blockOffset * g.blockSize % 2 ^ 32)

/-- `ShmClient::GetBlockPtr` and `GetWriteableBlockPtr`: the buffer, and the offset
from its first block, where the writeable mapping begins. -/
def ShmClient.getBlockPtr (blockID : Nat) : Nat × Nat :=
  ShmClient.blockPtr g (blockID / g.numBlocks) (blockID % g.numBlocks)

/-- The `n` bytes from `a` on and the `m` bytes from `b` on. -/
def Apart (a n b m : Nat) : Prop := a + n ≤ b ∨ b + m ≤ a

/-- Header, infos and blocks do not overlap, and the mapping has them all. -/
structure LaidOut : Prop where
  header_infos : Apart 0 sizeofShmHeader g.infoOffset (sizeofBlockInfo * g.numBlocks)
  header_blocks : Apart 0 sizeofShmHeader g.blockOffset (g.blockSize * g.numBlocks)
  infos_blocks : Apart g.infoOffset (sizeofBlockInfo * g.numBlocks) g.blockOffset
    (g.blockSize * g.numBlocks)
  header_inside : sizeofShmHeader ≤ g.totalBufferSize
  infos_inside : g.infoOffset + sizeofBlockInfo * g.numBlocks ≤ g.totalBufferSize
  blocks_inside : g.blockOffset + g.blockSize * g.numBlocks ≤ g.totalBufferSize

/-- The manager and its clients mean the same bytes by a block ID, and no bytes
are those of two blocks. -/
structure SameBytes : Prop where
  same : ∀ blockID < g.totalNumBlocks, ShmMapper.getBlockPtr g blockID =
    some ((ShmClient.getBlockPtr g blockID).1, g.blockOffset + (ShmClient.getBlockPtr g blockID).2)
  manager_apart : ∀ a b, a < g.totalNumBlocks → b < g.totalNumBlocks → a ≠ b →
    ∀ buf off buf' off', ShmMapper.getBlockPtr g a = some (buf, off) →
      ShmMapper.getBlockPtr g b = some (buf', off') →
      buf ≠ buf' ∨ Apart off g.blockSize off' g.blockSize
  client_apart : ∀ a b, a < g.totalNumBlocks → b < g.totalNumBlocks → a ≠ b →
    (ShmClient.getBlockPtr g a).1 ≠ (ShmClient.getBlockPtr g b).1 ∨
      Apart (ShmClient.getBlockPtr g a).2 g.blockSize (ShmClient.getBlockPtr g b).2 g.blockSize
  laidOut : LaidOut g

namespace Geometry

/-- No offset that a client computes reaches 32 bits. -/
def OffsetsFit : Prop := (g.numBlocks - 1) * g.blockSize < 2 ^ 32

/-- The header and the infos, each padded, fit in 32 bits. -/
def InfosFit : Prop :=
  g.padded sizeofShmHeader + g.padded (sizeofBlockInfo * g.numBlocks) < 2 ^ 32

section
variable {g}

theorem pageSize_pos : 0 < g.pageSize := Nat.two_pow_pos _

theorem pageSize_lt : g.pageSize < 2 ^ 31 := Nat.pow_lt_pow_right (by decide) g.page_lt

theorem le_padded (x : Nat) : x ≤ g.padded x := by
  have := Nat.div_add_mod (x + g.pageSize - 1) g.pageSize
  have := Nat.mod_lt (x + g.pageSize - 1) g.pageSize_pos
  have := g.pageSize_pos
  rw [padded, Nat.mul_comm]
  omega

theorem padded_lt (x : Nat) : g.padded x < x + g.pageSize := by
  have := Nat.div_mul_le_self (x + g.pageSize - 1) g.pageSize
  have := g.pageSize_pos
  rw [padded]
  omega

theorem dvd_padded (x : Nat) : g.pageSize ∣ g.padded x := Dvd.intro_left _ rfl

theorem headerPaddedSize_eq : g.headerPaddedSize = g.padded sizeofShmHeader := by
  have := padded_lt (g := g) sizeofShmHeader
  have := g.pageSize_lt
  rw [headerPaddedSize, sizeofShmHeader] at *
  exact Nat.mod_eq_of_lt (by omega)

theorem blockOffset_eq : g.blockOffset =
    (g.padded sizeofShmHeader + g.padded (sizeofBlockInfo * g.numBlocks)) % 2 ^ 32 := by
  rw [blockOffset, infoOffset, headerPaddedSize_eq, infoPaddedSize, Nat.add_mod_mod]

theorem totalBlocksSize_eq : g.totalBlocksSize = g.padded (g.blockSize * g.numBlocks) := by
  have := padded_lt (g := g) (g.blockSize * g.numBlocks)
  have := g.pageSize_lt
  have := g.mappable
  rw [totalBlocksSize]
  exact Nat.mod_eq_of_lt (by omega)

theorem totalBufferSize_eq : g.totalBufferSize =
    g.blockOffset + g.padded (g.blockSize * g.numBlocks) := by
  have := padded_lt (g := g) (g.blockSize * g.numBlocks)
  have := g.pageSize_lt
  have := g.mappable
  have := Nat.mod_lt (g.infoOffset + g.infoPaddedSize) (Nat.two_pow_pos 32)
  rw [totalBufferSize, totalBlocksSize_eq, ← infoOffset, ← blockOffset]
  rw [← blockOffset] at this
  exact Nat.mod_eq_of_lt (by omega)

theorem div_lt_numBuffers {blockID : Nat} (lt : blockID < g.totalNumBlocks) :
    blockID / g.numBlocks < g.numBuffers :=
  Nat.div_lt_of_lt_mul (by rwa [totalNumBlocks, Nat.mul_comm] at lt)

theorem getBlockPtr_eq {blockID : Nat} (lt : blockID < g.totalNumBlocks) :
    ShmMapper.getBlockPtr g blockID =
      some (blockID / g.numBlocks, g.blockOffset + blockID % g.numBlocks * g.blockSize) :=
  if_neg (Nat.not_le.mpr (div_lt_numBuffers lt))

/-! ## Blocks -/

theorem OffsetsFit.mul_lt (h : g.OffsetsFit) {i : Nat} (lt : i < g.numBlocks) :
    i * g.blockSize < 2 ^ 32 :=
  (Nat.mul_le_mul_right _ (by omega)).trans_lt h

theorem OffsetsFit.blockPtr (h : g.OffsetsFit) (blockID : Nat) :
    ShmClient.getBlockPtr g blockID =
      (blockID / g.numBlocks, blockID % g.numBlocks * g.blockSize) := by
  rw [ShmClient.getBlockPtr, ShmClient.blockPtr,
    Nat.mod_eq_of_lt (h.mul_lt (Nat.mod_lt _ g.numBlocks_pos))]

/-- The last block of the first buffer is where the offsets are largest. -/
theorem offsetsFit_of_same (h : ∀ blockID < g.totalNumBlocks, ShmMapper.getBlockPtr g blockID =
    some ((ShmClient.getBlockPtr g blockID).1,
      g.blockOffset + (ShmClient.getBlockPtr g blockID).2)) : g.OffsetsFit := by
  have last : g.numBlocks - 1 < g.numBlocks := Nat.sub_lt g.numBlocks_pos Nat.one_pos
  have lt : g.numBlocks - 1 < g.totalNumBlocks :=
    last.trans_le (Nat.le_mul_of_pos_left _ g.numBuffers_pos)
  have same := h _ lt
  rw [getBlockPtr_eq lt, ShmClient.getBlockPtr, ShmClient.blockPtr, Nat.mod_eq_of_lt last] at same
  simp only [Option.some.injEq, Prod.mk.injEq, true_and, Nat.add_left_cancel_iff] at same
  rw [OffsetsFit, same]
  exact Nat.mod_lt _ (Nat.two_pow_pos 32)

/-- Blocks at different places in a buffer do not overlap. -/
theorem apart_mul {i j : Nat} (ne : i ≠ j) (base : Nat) : Apart (base + i * g.blockSize) g.blockSize
    (base + j * g.blockSize) g.blockSize := by
  rcases Nat.lt_or_gt_of_ne ne with lt | gt
  · have := Nat.mul_le_mul_right g.blockSize (Nat.succ_le_of_lt lt)
    rw [Nat.succ_mul] at this
    exact .inl (by omega)
  · have := Nat.mul_le_mul_right g.blockSize (Nat.succ_le_of_lt gt)
    rw [Nat.succ_mul] at this
    exact .inr (by omega)

/-- Different blocks of one buffer are at different places in it. -/
theorem mod_ne {a b : Nat} (ne : a ≠ b) (buf : a / g.numBlocks = b / g.numBlocks) :
    a % g.numBlocks ≠ b % g.numBlocks := by
  intro same
  have ha := Nat.div_add_mod a g.numBlocks
  have hb := Nat.div_add_mod b g.numBlocks
  rw [buf, same] at ha
  exact ne (ha.symm.trans hb)

theorem manager_apart {a b buf off buf' off' : Nat} (ha : a < g.totalNumBlocks)
    (hb : b < g.totalNumBlocks) (ne : a ≠ b) (ptr : ShmMapper.getBlockPtr g a = some (buf, off))
    (ptr' : ShmMapper.getBlockPtr g b = some (buf', off')) :
    buf ≠ buf' ∨ Apart off g.blockSize off' g.blockSize := by
  rw [getBlockPtr_eq ha] at ptr
  rw [getBlockPtr_eq hb] at ptr'
  cases ptr
  cases ptr'
  by_cases buf : a / g.numBlocks = b / g.numBlocks
  · exact .inr (apart_mul (mod_ne ne buf) _)
  · exact .inl buf

theorem OffsetsFit.client_apart (h : g.OffsetsFit) {a b : Nat} (ne : a ≠ b) :
    (ShmClient.getBlockPtr g a).1 ≠ (ShmClient.getBlockPtr g b).1 ∨
      Apart (ShmClient.getBlockPtr g a).2 g.blockSize (ShmClient.getBlockPtr g b).2
        g.blockSize := by
  rw [h.blockPtr, h.blockPtr]
  by_cases buf : a / g.numBlocks = b / g.numBlocks
  · have := apart_mul (g := g) (mod_ne ne buf) 0
    rw [Nat.zero_add, Nat.zero_add] at this
    exact .inr this
  · exact .inl buf

/-! ## The parts of a buffer -/

theorem InfosFit.laidOut (h : g.InfosFit) : LaidOut g := by
  have header := le_padded (g := g) sizeofShmHeader
  have infos := le_padded (g := g) (sizeofBlockInfo * g.numBlocks)
  have blocks := le_padded (g := g) (g.blockSize * g.numBlocks)
  have start : g.blockOffset =
      g.padded sizeofShmHeader + g.padded (sizeofBlockInfo * g.numBlocks) := by
    rw [blockOffset_eq, Nat.mod_eq_of_lt h]
  refine ⟨.inl ?_, .inl ?_, .inl ?_, ?_, ?_, ?_⟩
  all_goals
    simp only [totalBufferSize_eq, start, infoOffset, headerPaddedSize_eq]
    omega

/-- An offset of the blocks that wrapped is in the header or in the infos. -/
theorem infosFit_of_laidOut (h : LaidOut g) : g.InfosFit := by
  by_contra wraps
  rw [InfosFit, Nat.not_lt] at wraps
  have area : 0 < g.blockSize * g.numBlocks := Nat.mul_pos g.blockSize_pos g.numBlocks_pos
  have header := padded_lt (g := g) sizeofShmHeader
  have infos := padded_lt (g := g) (sizeofBlockInfo * g.numBlocks)
  have start := g.blockOffset_eq
  have page : g.pageSize ∣ 2 ^ 32 := Nat.pow_dvd_pow 2 (by have := g.page_lt; omega)
  have aligned : g.pageSize ∣ g.blockOffset := by
    rw [start]
    exact (Nat.dvd_mod_iff page).mpr (Nat.dvd_add (dvd_padded _) (dvd_padded _))
  have small : g.blockOffset < 2 ^ 32 := by
    rw [start]
    exact Nat.mod_lt _ (Nat.two_pow_pos 32)
  have after : sizeofShmHeader ≤ g.blockOffset := by
    rcases h.header_blocks with before | after
    · simpa using before
    · omega
  -- the offset is a whole number of pages, so it is past the padded header too
  have past : g.padded sizeofShmHeader ≤ g.blockOffset := by
    by_contra lt
    have gap := Nat.le_of_dvd (by omega) (Nat.dvd_sub (dvd_padded sizeofShmHeader) aligned)
    omega
  have room := padded_lt (g := g) (sizeofBlockInfo * g.numBlocks)
  have start' := h.infos_blocks
  rw [infoOffset, headerPaddedSize_eq] at start'
  rcases start' with before | after
  · -- the infos end less than a page before their padding does
    have gap : g.pageSize ∣ 2 ^ 32 - g.blockOffset := Nat.dvd_sub page aligned
    have := Nat.le_of_dvd (by omega) gap
    omega
  · omega

/-- Manager and clients agree on the bytes of every block exactly when no
client's product and no padded size of the layout leaves 32 bits. -/
theorem sameBytes_iff : SameBytes g ↔ g.OffsetsFit ∧ g.InfosFit := by
  refine ⟨fun h => ⟨offsetsFit_of_same h.same, infosFit_of_laidOut h.laidOut⟩, ?_⟩
  rintro ⟨offsets, infos⟩
  refine ⟨fun blockID lt => ?_, fun a b ha hb ne buf off buf' off' => manager_apart ha hb ne,
    fun a b _ _ ne => offsets.client_apart ne, infos.laidOut⟩
  rw [getBlockPtr_eq lt, offsets.blockPtr]

/-- Buffers of a little over 4 GiB, of blocks of 64 KiB. -/
def overFourGiB : Geometry where
  pageShift := 12
  blockSize := 65536
  slabSize := 65536
  numBlocks := 65537
  numBuffers := 1
  page_lt := by decide
  blockSize_pos := by decide
  blockSize_lt := by decide
  numBlocks_pos := by decide
  numBlocks_lt := by decide
  numBuffers_pos := Nat.one_pos
  mappable := by decide

theorem not_sameBytes : ¬ ∀ g, SameBytes g := by
  intro h
  have same := (h overFourGiB).same 65536 (by decide)
  exact absurd same (by decide)

end
end Geometry
end Shm
end Mcsb
