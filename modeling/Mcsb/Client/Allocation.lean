import Mathlib.Algebra.BigOperators.Group.List.Basic
import Mathlib.Algebra.GroupWithZero.Nat
import Mathlib.Data.List.Perm.Basic
import Mcsb.Client.SendManager
import Mcsb.Lib.Pool

/-!
# What the allocator keeps

Every slab held is on one list, its reference count is the number of its busy
segments, and these do not overlap. Most steps only move a slab from one list
to another (`Moves`).
-/

namespace Mcsb.ClientSendManager

variable {p : SizeParams} {m m' m'' : ClientSendManager} {s : Nat} {busy : Nat → Prop}

/-- The slabs held, list by list. -/
def held (m : ClientSendManager) : List Nat :=
  m.freeSlabs ++ m.workingSlabs ++ m.fullSlabs ++ m.retiredSlabs

/-- What holds of the lists, whatever the IDs of the slabs. -/
structure Lists (p : SizeParams) (m : ClientSendManager) : Prop where
  nodup : m.held.Nodup
  total : m.slabsHeld = m.held.length
  known : ∀ s ∈ m.held, s < m.numTotalSlabs
  flag : ∀ s, (m.slabInfo s).working = true ↔ s ∈ m.workingSlabs
  unused : ∀ s ∈ m.freeSlabs, (m.slabInfo s).blocksUsed = 0
  within : ∀ s, (m.slabInfo s).blocksUsed ≤ p.blocksPerSlab

/-- Slabs were moved to other lists, and nothing else was done. Those moved to
`fullSlabs` are busy in some sense, which is up to the user of this. -/
structure Moves (busy : Nat → Prop) (m m' : ClientSendManager) : Prop where
  held : m'.held.Perm m.held
  flag : ∀ s, (m'.slabInfo s).working = true ↔ s ∈ m'.workingSlabs
  free : ∀ s ∈ m'.freeSlabs, s ∈ m.freeSlabs
  full : ∀ s ∈ m'.fullSlabs, s ∈ m.fullSlabs ∨ busy s
  retired : ∀ s ∈ m'.retiredSlabs, s ∈ m.retiredSlabs ∨ (m.slabInfo s).refcount = 0
  used : ∀ s, (m'.slabInfo s).blocksUsed = (m.slabInfo s).blocksUsed
  refcount : ∀ s, (m'.slabInfo s).refcount = (m.slabInfo s).refcount
  buf : ∀ s, (m'.slabInfo s).buf = (m.slabInfo s).buf
  slabs : m'.slabsHeld = m.slabsHeld ∧ m'.numTotalSlabs = m.numTotalSlabs
  segs : m'.segs = m.segs ∧ m'.freeSegs = m.freeSegs ∧ m'.busySegs = m.busySegs ∧
    m'.numSegs = m.numSegs

theorem Lists.moves_refl (h : Lists p m) : Moves busy m m where
  held := .refl _
  flag := h.flag
  free _ mem := mem
  full _ mem := .inl mem
  retired _ mem := .inl mem
  used _ := rfl
  refcount _ := rfl
  buf _ := rfl
  slabs := ⟨rfl, rfl⟩
  segs := ⟨rfl, rfl, rfl, rfl⟩

theorem Moves.trans (h : Moves busy m m') (h' : Moves busy m' m'') : Moves busy m m'' where
  held := h'.held.trans h.held
  flag := h'.flag
  free s mem := h.free s (h'.free s mem)
  full s mem := by
    rcases h'.full s mem with before | here
    · exact h.full s before
    · exact .inr here
  retired s mem := by
    rcases h'.retired s mem with before | idle
    · exact h.retired s before
    · exact .inr (h.refcount s ▸ idle)
  used s := (h'.used s).trans (h.used s)
  refcount s := (h'.refcount s).trans (h.refcount s)
  buf s := (h'.buf s).trans (h.buf s)
  slabs := ⟨h'.slabs.1.trans h.slabs.1, h'.slabs.2.trans h.slabs.2⟩
  segs := ⟨h'.segs.1.trans h.segs.1, h'.segs.2.1.trans h.segs.2.1,
    h'.segs.2.2.1.trans h.segs.2.2.1, h'.segs.2.2.2.trans h.segs.2.2.2⟩

theorem Lists.moves (h : Lists p m) (moved : Moves busy m m') : Lists p m' where
  nodup := moved.held.nodup_iff.mpr h.nodup
  total := by rw [moved.slabs.1, h.total, moved.held.length_eq]
  known s mem := by
    rw [moved.slabs.2]
    exact h.known s (moved.held.mem_iff.mp mem)
  flag := moved.flag
  unused s mem := (moved.used s).trans (h.unused s (moved.free s mem))
  within s := (moved.used s).symm ▸ h.within s

/-! ## Moving slabs -/

theorem update_slab (f : Nat → SlabInfo) (s : Nat) (info : SlabInfo) (x : Nat) :
    Function.update f s info x = if x = s then info else f x := by
  simp only [Function.update_apply]

/-- What a slab keeps. -/
theorem update_same {α : Type} (part : SlabInfo → α) {f : Nat → SlabInfo} {s : Nat}
    {info : SlabInfo} (same : part info = part (f s)) (x : Nat) :
    part (Function.update f s info x) = part (f x) := by
  simp only [update_slab]
  split
  · rename_i here
    rw [here, same]
  · rfl

theorem working_nodup (nodup : m.held.Nodup) : m.workingSlabs.Nodup :=
  (List.nodup_append.mp (List.nodup_append.mp (List.nodup_append.mp nodup).1).1).2.1

theorem Lists.evict {rest : List Nat} (h : Lists p m)
    (counted : ∀ s, (m.slabInfo s).refcount ≠ 0 → busy s) (oldest : m.workingSlabs = s :: rest) :
    Moves busy m (m.evict s rest) := by
  have notin : s ∉ rest := by
    have working := working_nodup h.nodup
    rw [oldest] at working
    exact (List.nodup_cons.mp working).1
  have flag (x : Nat) : (Function.update m.slabInfo s
      { m.slabInfo s with working := false } x).working = true ↔ x ∈ rest := by
    simp only [update_slab]
    split
    · rename_i here
      simp [here, notin]
    · rename_i other
      simp [h.flag x, oldest, other]
  unfold ClientSendManager.evict
  dsimp only
  split
  · rename_i refs
    constructor
    case held =>
      apply List.perm_iff_count.mpr
      intro x
      simp only [held, setSlab, oldest, List.count_append, List.count_cons, List.count_nil]
      omega
    case flag => exact flag
    case free => exact fun x mem => mem
    case full =>
      intro x mem
      rcases List.mem_append.mp mem with before | here
      · exact .inl before
      · exact .inr (List.mem_singleton.mp here ▸ counted s refs)
    case retired => exact fun x mem => .inl mem
    case used => exact update_same (·.blocksUsed) rfl
    case refcount => exact update_same (·.refcount) rfl
    case buf => exact update_same (·.buf) rfl
    case slabs => exact ⟨rfl, rfl⟩
    case segs => exact ⟨rfl, rfl, rfl, rfl⟩
  · rename_i idle
    constructor
    case held =>
      apply List.perm_iff_count.mpr
      intro x
      simp only [held, setSlab, oldest, List.count_append, List.count_cons, List.count_nil]
      omega
    case flag => exact flag
    case free => exact fun x mem => mem
    case full => exact fun x mem => .inl mem
    case retired =>
      intro x mem
      rcases List.mem_append.mp mem with before | here
      · exact .inl before
      · exact .inr (List.mem_singleton.mp here ▸ not_not.mp idle)
    case used => exact update_same (·.blocksUsed) rfl
    case refcount => exact update_same (·.refcount) rfl
    case buf => exact update_same (·.buf) rfl
    case slabs => exact ⟨rfl, rfl⟩
    case segs => exact ⟨rfl, rfl, rfl, rfl⟩

theorem workingSlabs_evict (m : ClientSendManager) (s : Nat) (rest : List Nat) :
    (m.evict s rest).workingSlabs = rest ∧ (m.evict s rest).freeSlabs = m.freeSlabs ∧
      (m.evict s rest).maxWorkingSlabs = m.maxWorkingSlabs := by
  unfold ClientSendManager.evict
  dsimp only
  split <;> exact ⟨rfl, rfl, rfl⟩

theorem workingSlabs_reduce_zero {slabs : List Nat} (working : m.workingSlabs = slabs) :
    (reduce 0 slabs m).workingSlabs = [] := by
  induction slabs generalizing m with
  | nil => exact working
  | cons s rest ih =>
    unfold ClientSendManager.reduce
    rw [if_pos (by simp)]
    exact ih (workingSlabs_evict m s rest).1

theorem setMaxWorkingSlabs_nil (none : m.workingSlabs = []) (max : Nat) :
    m.setMaxWorkingSlabs max = { m with maxWorkingSlabs := max } := by
  unfold ClientSendManager.setMaxWorkingSlabs
  rw [none]
  rfl

theorem workingSlabs_flushWorkingSlabs (m : ClientSendManager) :
    m.flushWorkingSlabs.workingSlabs = [] := by
  have none : (m.setMaxWorkingSlabs 0).workingSlabs = [] := workingSlabs_reduce_zero rfl
  unfold ClientSendManager.flushWorkingSlabs
  rw [setMaxWorkingSlabs_nil none]
  exact none

theorem flushWorkingSlabs_nil (none : m.workingSlabs = []) : m.flushWorkingSlabs = m := by
  unfold ClientSendManager.flushWorkingSlabs
  rw [setMaxWorkingSlabs_nil none 0, setMaxWorkingSlabs_nil]
  exact none

/-- The oldest working slabs go, down to the limit. -/
theorem Lists.reduce (h : Lists p m) (counted : ∀ s, (m.slabInfo s).refcount ≠ 0 → busy s)
    (max : Nat) :
    Moves busy m (reduce max m.workingSlabs m) ∧
      (reduce max m.workingSlabs m).workingSlabs.length ≤ max ∧
      (reduce max m.workingSlabs m).freeSlabs = m.freeSlabs ∧
      (reduce max m.workingSlabs m).maxWorkingSlabs = m.maxWorkingSlabs := by
  generalize working : m.workingSlabs = slabs
  induction slabs generalizing m with
  | nil =>
    unfold ClientSendManager.reduce
    refine ⟨h.moves_refl, ?_, rfl, rfl⟩
    rw [working]
    exact Nat.zero_le _
  | cons s rest ih =>
    unfold ClientSendManager.reduce
    split
    · obtain ⟨workingSlabs, freeSlabs, maxWorkingSlabs⟩ := workingSlabs_evict m s rest
      have moved := h.evict counted working
      obtain ⟨later, few, free, limit⟩ := ih (h.moves moved)
        (fun x refs => counted x (moved.refcount x ▸ refs)) workingSlabs
      exact ⟨moved.trans later, few, free.trans freeSlabs, limit.trans maxWorkingSlabs⟩
    · rename_i few
      refine ⟨h.moves_refl, ?_, rfl, rfl⟩
      rw [working]
      exact Nat.not_lt.mp few

theorem Lists.setMaxWorkingSlabs (h : Lists p m)
    (counted : ∀ s, (m.slabInfo s).refcount ≠ 0 → busy s) (max : Nat) :
    Moves busy m (m.setMaxWorkingSlabs max) ∧ (m.setMaxWorkingSlabs max).workingSlabs.length ≤ max ∧
      (m.setMaxWorkingSlabs max).freeSlabs = m.freeSlabs ∧
      (m.setMaxWorkingSlabs max).maxWorkingSlabs = max := by
  have limited : Lists p { m with maxWorkingSlabs := max } :=
    ⟨h.nodup, h.total, h.known, h.flag, h.unused, h.within⟩
  obtain ⟨moved, few, free, limit⟩ := limited.reduce counted max
  exact ⟨⟨moved.held, moved.flag, moved.free, moved.full, moved.retired, moved.used, moved.refcount,
    moved.buf, moved.slabs, moved.segs⟩, few, free, limit⟩

theorem Lists.flushWorkingSlabs (h : Lists p m)
    (counted : ∀ s, (m.slabInfo s).refcount ≠ 0 → busy s) :
    Moves busy m m.flushWorkingSlabs ∧
      m.flushWorkingSlabs.workingSlabs.length ≤ m.flushWorkingSlabs.maxWorkingSlabs := by
  obtain ⟨moved, -⟩ := h.setMaxWorkingSlabs counted 0
  obtain ⟨later, few, -, limit⟩ := (h.moves moved).setMaxWorkingSlabs
    (fun x refs => counted x (moved.refcount x ▸ refs)) m.maxWorkingSlabs
  exact ⟨moved.trans later, limit.symm ▸ few⟩

/-- After an allocation the working slabs are within the limit. -/
theorem Lists.trim (h : Lists p m) (counted : ∀ s, (m.slabInfo s).refcount ≠ 0 → busy s) :
    Moves busy m m.trim ∧ m.trim.workingSlabs.length ≤ m.trim.maxWorkingSlabs ∧
      m.trim.freeSlabs = m.freeSlabs := by
  unfold ClientSendManager.trim
  split
  · obtain ⟨moved, few, free, limit⟩ := h.setMaxWorkingSlabs counted m.maxWorkingSlabs
    exact ⟨moved, limit.symm ▸ few, free⟩
  · rename_i few
    exact ⟨h.moves_refl, Nat.not_lt.mp few, rfl⟩

theorem Lists.harvest {rest : List Nat} (h : Lists p m) (front : m.freeSlabs = s :: rest) :
    Moves busy m (m.harvest s rest) := by
  constructor
  case held =>
    apply List.perm_iff_count.mpr
    intro x
    simp only [held, ClientSendManager.harvest, setSlab, front, List.count_append, List.count_cons,
      List.count_nil]
    omega
  case flag =>
    intro x
    simp only [ClientSendManager.harvest, setSlab, update_slab]
    split
    · rename_i here
      simp [here]
    · rename_i other
      simp [h.flag x, other]
  case free =>
    intro x mem
    rw [front]
    exact List.mem_cons_of_mem s mem
  case full => exact fun x mem => .inl mem
  case retired => exact fun x mem => .inl mem
  case used => exact update_same (·.blocksUsed) rfl
  case refcount => exact update_same (·.refcount) rfl
  case buf => exact update_same (·.buf) rfl
  case slabs => exact ⟨rfl, rfl⟩
  case segs => exact ⟨rfl, rfl, rfl, rfl⟩

/-- A slab that is settled has a segment, for it was just allocated from. -/
theorem Lists.settle (h : Lists p m) (working : s ∈ m.workingSlabs) (sure : busy s) :
    Moves busy m (m.settle p s) := by
  unfold ClientSendManager.settle
  split
  · have nodup := working_nodup h.nodup
    constructor
    case held =>
      have here := List.perm_cons_erase working
      apply List.perm_iff_count.mpr
      intro x
      have count := here.count_eq x
      simp only [held, setSlab, List.count_append, List.count_cons, List.count_nil] at count ⊢
      omega
    case flag =>
      intro x
      simp only [setSlab, update_slab, nodup.mem_erase_iff]
      split
      · rename_i here
        simp [here]
      · rename_i other
        simp [h.flag x, other]
    case free => exact fun x mem => mem
    case full =>
      intro x mem
      rcases List.mem_append.mp mem with before | here
      · exact .inl before
      · exact .inr (List.mem_singleton.mp here ▸ sure)
    case retired => exact fun x mem => .inl mem
    case used => exact update_same (·.blocksUsed) rfl
    case refcount => exact update_same (·.refcount) rfl
    case buf => exact update_same (·.buf) rfl
    case slabs => exact ⟨rfl, rfl⟩
    case segs => exact ⟨rfl, rfl, rfl, rfl⟩
  · exact h.moves_refl

/-! ## Segments -/

/-- Every segment ever created is free or busy, once. -/
def Pooled (m : ClientSendManager) : Prop :=
  (m.freeSegs ++ m.busySegs).Perm (List.range m.numSegs)

theorem Pooled.nodup_busySegs (h : Pooled m) : m.busySegs.Nodup :=
  (List.nodup_append.mp (h.nodup_iff.mpr List.nodup_range)).2.1

theorem Pooled.moves (h : Pooled m) (moved : Moves busy m m') : Pooled m' := by
  obtain ⟨-, free, busy, size⟩ := moved.segs
  unfold Pooled at h ⊢
  rw [free, busy, size]
  exact h

theorem Pooled.addMsgSegBlock (h : Pooled m) : Pooled m.addMsgSegBlock := by
  unfold Pooled at h ⊢
  simp only [ClientSendManager.addMsgSegBlock, Pool.range_add]
  refine List.Perm.trans ?_ (h.append_right _)
  simp only [List.append_assoc]
  exact List.perm_append_comm.append_left _

/-- Only the lists of segments change when one is taken. -/
structure TakesSeg (m m' : ClientSendManager) (seg : Nat) : Prop where
  busy : m'.busySegs = m.busySegs ++ [seg]
  fresh : Pooled m → seg ∉ m.busySegs ∧ Pooled m'
  rest : ∃ freeSegs busySegs numSegs, m' = { m with freeSegs, busySegs, numSegs }

theorem takesSeg (m : ClientSendManager) : TakesSeg m m.takeSeg.2 m.takeSeg.1 := by
  unfold takeSeg
  generalize stocks : (if m.freeSegs = [] then m.addMsgSegBlock else m) = stocked
  have stock : stocked.freeSegs ≠ [] ∧ stocked.busySegs = m.busySegs ∧
      (Pooled m → Pooled stocked) ∧
      ∃ freeSegs numSegs, stocked = { m with freeSegs, numSegs } := by
    subst stocks
    split
    · exact ⟨by simp [addMsgSegBlock, kNumSegs], rfl, Pooled.addMsgSegBlock, _, _, rfl⟩
    · rename_i some
      exact ⟨some, rfl, id, _, _, rfl⟩
  obtain ⟨some, same, still, freeSegs, numSegs, eq⟩ := stock
  obtain ⟨seg, rest, front⟩ := List.exists_cons_of_ne_nil some
  simp only [front, List.headD_cons, List.tail_cons]
  constructor
  case busy => simp only [same]
  case fresh =>
    intro pooled
    have pool := still pooled
    unfold Pooled at pool ⊢
    simp only [front, same] at pool ⊢
    have moved : (rest ++ (m.busySegs ++ [seg])).Perm (seg :: rest ++ m.busySegs) := by
      apply List.perm_iff_count.mpr
      intro x
      simp only [List.count_append, List.count_cons, List.count_nil]
      omega
    have distinct := pool.nodup_iff.mpr List.nodup_range
    simp only [List.cons_append, List.nodup_cons, List.mem_append, not_or] at distinct
    exact ⟨distinct.1.2, moved.trans pool⟩
  case rest =>
    subst eq
    exact ⟨_, _, _, rfl⟩

/-! ## Reference counts and blocks -/

/-- The slab that a segment is released to. -/
def slabOf (p : SizeParams) (seg : MessageSegment) : Nat := seg.blockID.toNat / p.blocksPerSlab

def segBlocks (p : SizeParams) (seg : MessageSegment) : Nat := seg.size / p.blockSize.toNat

/-- The busy segments in a slab. -/
def busyIn (p : SizeParams) (m : ClientSendManager) (s : Nat) : Nat :=
  m.busySegs.countP fun g => slabOf p (m.segs g) = s

/-- A segment lies in what is used of a slab held. -/
structure Inside (p : SizeParams) (m : ClientSendManager) (seg : MessageSegment) : Prop where
  slab : slabOf p seg ∈ m.held
  pos : 0 < segBlocks p seg
  size : seg.size = segBlocks p seg * p.blockSize.toNat
  within : seg.blockID.toNat + segBlocks p seg ≤
    slabOf p seg * p.blocksPerSlab + (m.slabInfo (slabOf p seg)).blocksUsed
  buf : seg.buf = (m.slabInfo (slabOf p seg)).buf +
    seg.blockID.toNat % p.blocksPerSlab * p.blockSize.toNat

/-- Two segments have no block in common. -/
def Apart (p : SizeParams) (a b : MessageSegment) : Prop :=
  a.blockID.toNat + segBlocks p a ≤ b.blockID.toNat ∨
    b.blockID.toNat + segBlocks p b ≤ a.blockID.toNat

/-- What holds of the slabs when the IDs of their blocks have 32 bits. -/
structure Counts (p : SizeParams) (m : ClientSendManager) : Prop where
  fits : ∀ s ∈ m.held, (s + 1) * p.blocksPerSlab ≤ 2 ^ 32
  refs : ∀ s, (m.slabInfo s).refcount.toNat = busyIn p m s
  free : ∀ s ∈ m.freeSlabs, (m.slabInfo s).refcount = 0
  full : ∀ s ∈ m.fullSlabs, (m.slabInfo s).refcount ≠ 0
  retired : ∀ s ∈ m.retiredSlabs, (m.slabInfo s).refcount = 0
  few : ∀ s, busyIn p m s ≤ (m.slabInfo s).blocksUsed
  inside : ∀ g ∈ m.busySegs, Inside p m (m.segs g)
  apart : m.busySegs.Pairwise fun g g' => Apart p (m.segs g) (m.segs g')

theorem Inside.moves {seg : MessageSegment} (h : Inside p m seg) (moved : Moves busy m m') :
    Inside p m' seg :=
  ⟨moved.held.mem_iff.mpr h.slab, h.pos, h.size, (moved.used _).symm ▸ h.within,
    (moved.buf _).symm ▸ h.buf⟩

theorem busyIn_moves (moved : Moves busy m m') (s : Nat) : busyIn p m' s = busyIn p m s := by
  simp only [busyIn, moved.segs]

theorem Counts.moves (h : Counts p m)
    (moved : Moves (fun s => (m.slabInfo s).refcount ≠ 0) m m') : Counts p m' where
  fits s mem := h.fits s (moved.held.mem_iff.mp mem)
  refs s := by rw [moved.refcount, busyIn_moves moved, h.refs]
  free s mem := (moved.refcount s).trans (h.free s (moved.free s mem))
  full s mem := by
    rw [moved.refcount]
    exact (moved.full s mem).elim (h.full s) id
  retired s mem := by
    rw [moved.refcount]
    exact (moved.retired s mem).elim (h.retired s) id
  few s := by
    rw [busyIn_moves moved, moved.used]
    exact h.few s
  inside g mem := by
    obtain ⟨segs, -, busySegs, -⟩ := moved.segs
    rw [busySegs] at mem
    rw [segs]
    exact (h.inside g mem).moves moved
  apart := by
    obtain ⟨segs, -, busySegs, -⟩ := moved.segs
    rw [busySegs, segs]
    exact h.apart

theorem blocksPerSlab_lt (p : SizeParams) (sized : p.blockSize ≠ 0) :
    p.blocksPerSlab < 2 ^ 32 := by
  have pos : 0 < p.blockSize.toNat := by
    rw [Nat.pos_iff_ne_zero]
    exact fun none => sized (UInt32.toNat_inj.mp none)
  have lt := p.slabSize.toNat_lt
  rw [p.whole] at lt
  exact (Nat.le_mul_of_pos_right _ pos).trans_lt lt

/-- The slabs as an allocation of `n` blocks finds them. -/
structure HasRoom (p : SizeParams) (m : ClientSendManager) (s n : Nat) : Prop where
  working : s ∈ m.workingSlabs
  pos : 0 < n
  room : (m.slabInfo s).blocksUsed + n ≤ p.blocksPerSlab

theorem mem_held_of_working (mem : s ∈ m.workingSlabs) : s ∈ m.held := by
  simp [held, mem]

theorem Lists.only_working (h : Lists p m) (working : s ∈ m.workingSlabs) :
    s ∉ m.freeSlabs ∧ s ∉ m.fullSlabs ∧ s ∉ m.retiredSlabs := by
  have nodup := h.nodup
  simp only [held, List.nodup_append, List.mem_append] at nodup
  obtain ⟨⟨⟨-, -, free⟩, -, full⟩, -, retired⟩ := nodup
  refine ⟨?_, ?_, ?_⟩
  · exact fun mem => free s mem s working rfl
  · exact fun mem => full s (.inr working) s mem rfl
  · exact fun mem => retired s (.inl (.inr working)) s mem rfl

theorem Lists.carve {n g : Nat} (h : Lists p m) (room : HasRoom p m s n)
    (takes : TakesSeg m m' g) : Lists p (m'.carve p s n g) := by
  obtain ⟨freeSegs, busySegs, numSegs, rfl⟩ := takes.rest
  constructor
  case nodup => exact h.nodup
  case total => exact h.total
  case known => exact h.known
  case flag =>
    intro x
    simp only [ClientSendManager.carve, setSlab, update_slab]
    split
    · rename_i here
      exact here ▸ h.flag x
    · exact h.flag x
  case unused =>
    intro x mem
    have other : x ≠ s := by
      rintro rfl
      exact (h.only_working room.working).1 mem
    simp only [ClientSendManager.carve, setSlab, update_slab, if_neg other]
    exact h.unused x mem
  case within =>
    intro x
    simp only [ClientSendManager.carve, setSlab, update_slab]
    split
    · exact room.room
    · exact h.within x

section
variable {n g : Nat}

/-- The segment that `carve` fills out. -/
def carved (p : SizeParams) (m : ClientSendManager) (s n : Nat) : MessageSegment where
  buf := (m.slabInfo s).buf + (m.slabInfo s).blocksUsed * p.blockSize.toNat
  size := n * p.blockSize.toNat
  blockID := UInt32.ofNat (s * p.blocksPerSlab + (m.slabInfo s).blocksUsed)

/-- What the segment covers, if the block IDs of its slab have 32 bits. -/
structure Covers (p : SizeParams) (m : ClientSendManager) (s n : Nat) (seg : MessageSegment) :
    Prop where
  start : seg.blockID.toNat = s * p.blocksPerSlab + (m.slabInfo s).blocksUsed
  slab : slabOf p seg = s
  blocks : segBlocks p seg = n

theorem Counts.carved (h : Counts p m) (sized : p.blockSize ≠ 0) (room : HasRoom p m s n) :
    Covers p m s n (carved p m s n) := by
  have fits := h.fits s (mem_held_of_working room.working)
  have used := room.room
  have pos := room.pos
  have lines : (s + 1) * p.blocksPerSlab = s * p.blocksPerSlab + p.blocksPerSlab :=
    Nat.succ_mul s _
  have start : (ClientSendManager.carved p m s n).blockID.toNat =
      s * p.blocksPerSlab + (m.slabInfo s).blocksUsed := by
    simp only [ClientSendManager.carved, UInt32.toNat_ofNat']
    exact Nat.mod_eq_of_lt (by omega)
  constructor
  case start => exact start
  case slab =>
    unfold slabOf
    rw [start, Nat.mul_comm, Nat.mul_add_div (by omega), Nat.div_eq_of_lt (by omega), Nat.add_zero]
  case blocks =>
    have bytes : 0 < p.blockSize.toNat := by
      rw [Nat.pos_iff_ne_zero]
      exact fun none => sized (UInt32.toNat_inj.mp none)
    exact Nat.mul_div_cancel n bytes

/-- A new segment is apart from all that were busy. -/
theorem Covers.apart {seg old : MessageSegment} (lists : Lists p m) (covers : Covers p m s n seg)
    (room : HasRoom p m s n) (inside : Inside p m old) : Apart p old seg := by
  have used := lists.within (slabOf p old)
  have within := inside.within
  have start := covers.start
  have blocks := covers.blocks
  have pos := room.pos
  have fits := room.room
  have first : slabOf p old * p.blocksPerSlab ≤ old.blockID.toNat := Nat.div_mul_le_self _ _
  unfold Apart
  rcases Nat.lt_trichotomy (slabOf p old) s with before | same | after
  · have lines := Nat.mul_le_mul_right p.blocksPerSlab (Nat.succ_le_of_lt before)
    rw [Nat.succ_mul] at lines
    omega
  · rw [same] at within
    omega
  · have lines := Nat.mul_le_mul_right p.blocksPerSlab (Nat.succ_le_of_lt after)
    rw [Nat.succ_mul] at lines
    omega

/-- The segments after an allocation. -/
theorem segs_carve (takes : TakesSeg m m' g) (fresh : g ∉ m.busySegs) :
    (m'.carve p s n g).busySegs = m.busySegs ++ [g] ∧
    (m'.carve p s n g).segs g = carved p m s n ∧
    ∀ old ∈ m.busySegs, (m'.carve p s n g).segs old = m.segs old := by
  obtain ⟨freeSegs, busySegs, numSegs, rfl⟩ := takes.rest
  constructor
  · exact takes.busy
  constructor
  · exact Function.update_self g _ _
  · intro old mem
    have other : old ≠ g := ne_of_mem_of_not_mem mem fresh
    exact Function.update_of_ne other _ _

/-- One more segment is busy in its slab. -/
theorem busyIn_carve (covers : Covers p m s n (carved p m s n)) (fresh : g ∉ m.busySegs)
    (takes : TakesSeg m m' g) (x : Nat) :
    busyIn p (m'.carve p s n g) x = busyIn p m x + if x = s then 1 else 0 := by
  obtain ⟨busySegs, new, old⟩ := segs_carve (p := p) (s := s) (n := n) takes fresh
  have before : m.busySegs.countP (fun old => slabOf p ((m'.carve p s n g).segs old) = x) =
      busyIn p m x :=
    List.countP_congr fun seg mem => by rw [old seg mem]
  unfold busyIn at before ⊢
  rw [busySegs, List.countP_append, before, List.countP_singleton, new, covers.slab]
  simp only [decide_eq_true_eq, eq_comm (a := s)]

theorem Counts.carve (h : Counts p m) (lists : Lists p m) (sized : p.blockSize ≠ 0)
    (room : HasRoom p m s n) (takes : TakesSeg m m' g) (fresh : g ∉ m.busySegs) :
    Counts p (m'.carve p s n g) := by
  have covers := h.carved sized room
  have count := busyIn_carve covers fresh takes
  obtain ⟨busySegs, new, old⟩ := segs_carve (p := p) (s := s) (n := n) takes fresh
  obtain ⟨notFree, notFull, notRetired⟩ := lists.only_working room.working
  obtain ⟨freeSegs, busySegs', numSegs, rfl⟩ := takes.rest
  have pos := room.pos
  have used := room.room
  have info (x : Nat) : ({ m with freeSegs, busySegs := busySegs', numSegs }.carve p s n g).slabInfo
      x = if x = s then { m.slabInfo s with
        blocksUsed := (m.slabInfo s).blocksUsed + n
        refcount := (m.slabInfo s).refcount + 1 } else m.slabInfo x := update_slab _ _ _ _
  constructor
  case fits => exact h.fits
  case refs =>
    intro x
    rw [info, count]
    split
    · rename_i here
      subst here
      have few := h.few x
      have small := blocksPerSlab_lt p sized
      rw [UInt32.toNat_add, h.refs x]
      exact Nat.mod_eq_of_lt (by simp only [UInt32.toNat_one]; omega)
    · exact h.refs x
  case free =>
    intro x mem
    rw [info, if_neg (ne_of_mem_of_not_mem mem notFree)]
    exact h.free x mem
  case full =>
    intro x mem
    rw [info, if_neg (ne_of_mem_of_not_mem mem notFull)]
    exact h.full x mem
  case retired =>
    intro x mem
    rw [info, if_neg (ne_of_mem_of_not_mem mem notRetired)]
    exact h.retired x mem
  case few =>
    intro x
    have few := h.few x
    rw [info, count]
    split
    · rename_i here
      subst here
      dsimp only
      omega
    · exact few
  case inside =>
    intro x mem
    rw [busySegs] at mem
    rcases List.mem_append.mp mem with before | here
    · rw [old x before]
      have inside := h.inside x before
      refine ⟨inside.slab, inside.pos, inside.size, ?_, ?_⟩
      · have within := inside.within
        rw [info]
        split
        · rename_i here
          rw [here] at within ⊢
          dsimp only
          omega
        · exact within
      · have buf := inside.buf
        rw [info]
        split
        · rename_i here
          rw [here] at buf
          exact buf
        · exact buf
    · rw [List.mem_singleton.mp here, new]
      have mem_held := mem_held_of_working room.working
      constructor
      case slab =>
        rw [covers.slab]
        exact mem_held
      case pos =>
        rw [covers.blocks]
        exact pos
      case size =>
        rw [covers.blocks]
        rfl
      case within =>
        rw [covers.slab, covers.start, covers.blocks, info, if_pos rfl]
        dsimp only
        omega
      case buf =>
        rw [covers.slab, covers.start, info, if_pos rfl, Nat.mul_comm s, Nat.mul_add_mod,
          Nat.mod_eq_of_lt (by omega)]
        rfl
  case apart =>
    rw [busySegs]
    apply List.pairwise_append.mpr
    refine ⟨?_, List.pairwise_singleton _ _, ?_⟩
    · apply h.apart.imp_of_mem
      intro a b memA memB apart
      rw [old a memA, old b memB]
      exact apart
    · intro a memA b memB
      rw [List.mem_singleton.mp memB, new, old a memA]
      exact covers.apart lists room (h.inside a memA)

/-- An allocation takes a segment, fills it out, and then only moves slabs. -/
structure Allocates (p : SizeParams) (m : ClientSendManager) (s n g : Nat)
    (m' : ClientSendManager) : Prop where
  room : HasRoom p m s n
  steps : ∃ m₁, TakesSeg m m₁ g ∧ ∀ busy : Nat → Prop, busy s →
    (∀ x, ((m₁.carve p s n g).slabInfo x).refcount ≠ 0 → busy x) →
      Moves busy (m₁.carve p s n g) m'
  few : m'.workingSlabs.length ≤ m'.maxWorkingSlabs
  free : m'.freeSlabs = m.freeSlabs

theorem freeSlabs_settle (m : ClientSendManager) (s : Nat) :
    (m.settle p s).freeSlabs = m.freeSlabs := by
  unfold settle
  split <;> rfl

theorem Lists.allocate (h : Lists p m) (room : HasRoom p m s n) :
    Allocates p m s n (m.allocate p s n).1 (m.allocate p s n).2 := by
  have takes := takesSeg m
  unfold ClientSendManager.allocate
  dsimp only
  generalize m.takeSeg.2 = m₁ at takes ⊢
  generalize m.takeSeg.1 = g at takes ⊢
  have carved := h.carve room takes
  have working : s ∈ (m₁.carve p s n g).workingSlabs := by
    obtain ⟨_, _, _, rfl⟩ := takes.rest
    exact room.working
  have settled : Moves (fun _ => True) _ _ := carved.settle working trivial
  obtain ⟨(_ : Moves (fun _ => True) _ _), few, free⟩ :=
    (carved.moves settled).trim fun _ _ => trivial
  constructor
  case room => exact room
  case steps =>
    refine ⟨m₁, takes, ?_⟩
    intro busy sure counted
    have settles := carved.settle working sure
    have trims := ((carved.moves settles).trim
      (fun x refs => counted x (settles.refcount x ▸ refs))).1
    exact settles.trans trims
  case few => exact few
  case free =>
    obtain ⟨_, _, _, rfl⟩ := takes.rest
    exact free.trans (freeSlabs_settle _ _)

namespace Allocates
variable (h : Allocates p m s n g m')
include h

theorem lists (lists : Lists p m) : Lists p m' := by
  obtain ⟨m₁, takes, moves⟩ := h.steps
  exact (lists.carve h.room takes).moves (moves (fun _ => True) trivial fun _ _ => trivial)

theorem fresh (pooled : Pooled m) : g ∉ m.busySegs := by
  obtain ⟨m₁, takes, -⟩ := h.steps
  exact (takes.fresh pooled).1

theorem pooled (pooled : Pooled m) : Pooled m' := by
  obtain ⟨m₁, takes, moves⟩ := h.steps
  have pool : Pooled (m₁.carve p s n g) := (takes.fresh pooled).2
  exact pool.moves (moves (fun _ => True) trivial fun _ _ => trivial)

theorem counts (counts : Counts p m) (lists : Lists p m) (pooled : Pooled m)
    (sized : p.blockSize ≠ 0) : Counts p m' := by
  obtain ⟨m₁, takes, moves⟩ := h.steps
  have fresh := (takes.fresh pooled).1
  have carves := counts.carve lists sized h.room takes fresh
  have covers := counts.carved sized h.room
  have one := busyIn_carve covers fresh takes s
  rw [if_pos rfl, ← carves.refs s] at one
  apply carves.moves
  apply moves
  · intro none
    rw [none] at one
    exact absurd one (by simp)
  · exact fun x refs => refs

/-- The segments: one more is busy, and the others are as they were. -/
theorem segs (pooled : Pooled m) : m'.busySegs = m.busySegs ++ [g] ∧
    m'.segs = Function.update m.segs g (carved p m s n) := by
  obtain ⟨m₁, takes, moves⟩ := h.steps
  obtain ⟨segs, -, busySegs, -⟩ := (moves (fun _ => True) trivial fun _ _ => trivial).segs
  obtain ⟨busy, -⟩ := segs_carve (p := p) (s := s) (n := n) takes (takes.fresh pooled).1
  obtain ⟨_, _, _, rfl⟩ := takes.rest
  exact ⟨busySegs.trans busy, segs⟩

theorem held : m'.held.Perm m.held := by
  obtain ⟨m₁, takes, moves⟩ := h.steps
  have same := (moves (fun _ => True) trivial fun _ _ => trivial).held
  obtain ⟨_, _, _, rfl⟩ := takes.rest
  exact same

/-- Slabs stay where they are in memory. -/
theorem buf (x : Nat) : (m'.slabInfo x).buf = (m.slabInfo x).buf := by
  obtain ⟨m₁, takes, moves⟩ := h.steps
  have same := (moves (fun _ => True) trivial fun _ _ => trivial).buf x
  obtain ⟨_, _, _, rfl⟩ := takes.rest
  rw [same]
  apply update_same (·.buf)
  rfl

end Allocates

theorem hasRoom_of_findRoom (pos : 0 < n) (found : m.findRoom p n = some s) :
    HasRoom p m s n := by
  unfold findRoom at found
  split at found
  · have room := List.find?_some found
    have mem := List.mem_of_find?_eq_some found
    simp only [decide_eq_true_eq] at room
    exact ⟨mem, pos, by omega⟩
  · cases found

theorem Lists.hasRoom_harvest {rest : List Nat} (h : Lists p m) (front : m.freeSlabs = s :: rest)
    (pos : 0 < n) (le : n ≤ p.blocksPerSlab) : HasRoom p (m.harvest s rest) s n := by
  have unused := h.unused s (front ▸ List.mem_cons_self)
  refine ⟨List.mem_append_right _ (List.mem_singleton_self s), pos, ?_⟩
  simp only [ClientSendManager.harvest, setSlab, Function.update_self, unused]
  omega

/-- Where `GetSegment` allocates from: a working slab with room, or the first
free slab. -/
inductive Source (p : SizeParams) (m : ClientSendManager) (n : Nat) (noFreeSlabs : Bool) :
    ClientSendManager → Nat → Prop where
  | working (s : Nat) (found : m.findRoom p n = some s) : Source p m n noFreeSlabs m s
  | free (s : Nat) (rest : List Nat) (full : m.findRoom p n = none)
      (front : m.freeSlabs = s :: rest) (allowed : noFreeSlabs = false) :
      Source p m n noFreeSlabs (m.harvest s rest) s

theorem Source.moves {noFreeSlabs : Bool} {m₀ : ClientSendManager}
    (source : Source p m n noFreeSlabs m₀ s) (h : Lists p m) : Moves busy m m₀ := by
  cases source with
  | working => exact h.moves_refl
  | free _ rest full front => exact h.harvest front

theorem Source.hasRoom {noFreeSlabs : Bool} {m₀ : ClientSendManager}
    (source : Source p m n noFreeSlabs m₀ s) (h : Lists p m) (pos : 0 < n)
    (le : n ≤ p.blocksPerSlab) : HasRoom p m₀ s n := by
  cases source with
  | working _ found => exact hasRoom_of_findRoom pos found
  | free _ rest full front => exact h.hasRoom_harvest front pos le

/-- What `GetSegment` does when it returns a segment. -/
theorem Lists.getSegment_some {noFreeSlabs : Bool} (h : Lists p m) (pos : 0 < n)
    (got : m.getSegment p n noFreeSlabs = .ok (some g, m')) :
    ∃ m₀ s, Source p m n noFreeSlabs m₀ s ∧ Allocates p m₀ s n g m' := by
  unfold getSegment at got
  split at got
  · cases got
  rename_i le
  have le := Nat.not_lt.mp le
  split at got
  · rename_i s found
    cases got
    have source : Source p m n noFreeSlabs m s := .working s found
    exact ⟨m, s, source, h.allocate (source.hasRoom h pos le)⟩
  rename_i full
  split at got
  · cases got
  rename_i s rest front
  split at got
  · cases got
  · rename_i allowed
    cases got
    have source : Source p m n noFreeSlabs (m.harvest s rest) s :=
      .free s rest full front (Bool.eq_false_iff.mpr allowed)
    have lists : Lists p (m.harvest s rest) := h.moves (source.moves h : Moves (fun _ => True) _ _)
    exact ⟨_, s, source, lists.allocate (source.hasRoom h pos le)⟩

/-- It returns one wherever there is a source. -/
theorem Source.getSegment {noFreeSlabs : Bool} {m₀ : ClientSendManager}
    (source : Source p m n noFreeSlabs m₀ s) (le : n ≤ p.blocksPerSlab) :
    m.getSegment p n noFreeSlabs = .ok (some (m₀.allocate p s n).1, (m₀.allocate p s n).2) := by
  unfold ClientSendManager.getSegment
  simp only [if_neg (Nat.not_lt.mpr le)]
  cases source with
  | working _ found => simp only [found]
  | free _ rest full front allowed =>
    simp only [full, front, allowed, Bool.false_eq_true, if_false]

theorem getSegment_none {noFreeSlabs : Bool} (got : m.getSegment p n noFreeSlabs = .ok (none, m')) :
    m' = m := by
  unfold getSegment at got
  split at got
  · cases got
  split at got
  · cases got
  split at got
  · cases got
    rfl
  split at got
  · cases got
    rfl
  · cases got

end

end Mcsb.ClientSendManager
