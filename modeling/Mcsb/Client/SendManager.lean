import Mathlib.Logic.Function.Basic
import Mcsb.Lib.Linked

/-!
# The producer's slabs

`ClientSendManager` allocates messages in the slabs that the manager gives a
client. Slabs move from `freeSlabs` to `workingSlabs`, where allocation is
occurring, and from there to `fullSlabs` and `retiredSlabs`.
-/

namespace Mcsb

/-- What `SetSizeParams` sets, with the equation it asserts. A new manager has
zeros. -/
structure SizeParams where
  blockSize : UInt32
  slabSize : UInt32
  blocksPerSlab : Nat
  whole : slabSize.toNat = blocksPerSlab * blockSize.toNat

/-- Once sizes are set, a slab has a block. `ClientSendManager` divides by the number. -/
def SizeParams.Sized (p : SizeParams) : Prop := p.blockSize = 0 ∨ 0 < p.blocksPerSlab

/-- `ClientSendManager::SlabInfo`, as `Reset` leaves it by default. -/
structure ClientSendManager.SlabInfo where
  blocksUsed : Nat := 0
  refcount : UInt32 := 0
  working : Bool := false
  buf : Nat := 0
  deriving DecidableEq, Repr

/-- A segment of a message, with a pointer to the next one. -/
structure MessageSegment where
  buf : Nat := 0
  size : Nat := 0
  blockID : UInt32 := 0
  next : Option Nat := none
  deriving DecidableEq, Repr

/-- Slabs are known by their IDs and segments by the order they were created
in. `numTotalSlabs` is the size of `slabInfoVec`. -/
structure ClientSendManager where
  maxWorkingSlabs : Nat := 1
  slabsHeld : Nat := 0
  freeSlabs : List Nat := []
  workingSlabs : List Nat := []
  fullSlabs : List Nat := []
  retiredSlabs : List Nat := []
  numTotalSlabs : Nat := 0
  slabInfo : Nat → ClientSendManager.SlabInfo := fun _ => {}
  segs : Nat → MessageSegment := fun _ => {}
  freeSegs : List Nat := List.range 32
  busySegs : List Nat := []
  numSegs : Nat := 32

namespace ClientSendManager

/-- How a call ends that returns nothing: with an exception, or at a division by
zero or a null pointer. -/
inductive Fault where
  | thrown (what : String)
  | undefined
  deriving DecidableEq, Repr

def setSlab (m : ClientSendManager) (slabID : Nat) (info : SlabInfo) : ClientSendManager :=
  { m with slabInfo := Function.update m.slabInfo slabID info }

/-! ## Slabs come and go -/

def setNumTotalSlabs (m : ClientSendManager) (numTotalSlabs : Nat) : ClientSendManager :=
  if numTotalSlabs ≤ m.numTotalSlabs then m else { m with numTotalSlabs }

/-- One turn of the loop of `AddFreeSlabs`: `none` is an ID outside of
`slabInfoVec`. -/
def addFreeSlab (m : ClientSendManager) (slab : UInt32 × Nat) : Option ClientSendManager :=
  let slabID := slab.1.toNat
  let m := if m.numTotalSlabs ≤ slabID then m.setNumTotalSlabs (slab.1 + 1).toNat else m
  if slabID < m.numTotalSlabs then
    some ({ m with freeSlabs := m.freeSlabs ++ [slabID] }.setSlab slabID { buf := slab.2 })
  else none

def addFreeSlabs (m : ClientSendManager) (slabs : List (UInt32 × Nat)) :
    Option ClientSendManager :=
  (slabs.foldlM addFreeSlab m).map fun m => { m with slabsHeld := m.slabsHeld + slabs.length }

def getRetiredSlabs (m : ClientSendManager) (maxCount : Nat) : List Nat × ClientSendManager :=
  let slabIDs := m.retiredSlabs.take maxCount
  (slabIDs, { m with
    retiredSlabs := m.retiredSlabs.drop maxCount
    slabsHeld := m.slabsHeld - slabIDs.length })

/-- One turn of the loop of `MaxWorkingSlabs`, on the oldest of them. -/
def evict (m : ClientSendManager) (slabID : Nat) (rest : List Nat) : ClientSendManager :=
  let info := m.slabInfo slabID
  let m := { m with workingSlabs := rest }.setSlab slabID { info with working := false }
  if info.refcount ≠ 0 then { m with fullSlabs := m.fullSlabs ++ [slabID] }
  else { m with retiredSlabs := m.retiredSlabs ++ [slabID] }

/-- The loop of `MaxWorkingSlabs` over the working slabs. -/
def reduce (maxWorkingSlabs : Nat) : List Nat → ClientSendManager → ClientSendManager
  | [], m => m
  | slabID :: rest, m =>
    if maxWorkingSlabs < (slabID :: rest).length then
      reduce maxWorkingSlabs rest (m.evict slabID rest)
    else m

/-- `MaxWorkingSlabs(maxSlabs)` -/
def setMaxWorkingSlabs (m : ClientSendManager) (maxWorkingSlabs : Nat) : ClientSendManager :=
  reduce maxWorkingSlabs m.workingSlabs { m with maxWorkingSlabs }

def flushWorkingSlabs (m : ClientSendManager) : ClientSendManager :=
  (m.setMaxWorkingSlabs 0).setMaxWorkingSlabs m.maxWorkingSlabs

/-! ## Allocation -/

def kNumSegs : Nat := 32

def addMsgSegBlock (m : ClientSendManager) : ClientSendManager :=
  { m with
    freeSegs := m.freeSegs ++ List.range' m.numSegs kNumSegs
    numSegs := m.numSegs + kNumSegs }

/-- A segment descriptor, from the front of `freeSegs`. -/
def takeSeg (m : ClientSendManager) : Nat × ClientSendManager :=
  let m := if m.freeSegs = [] then m.addMsgSegBlock else m
  let seg := m.freeSegs.headD 0
  (seg, { m with freeSegs := m.freeSegs.tail, busySegs := m.busySegs ++ [seg] })

variable (p : SizeParams)

/-- `SlabInfo::Alloc` and the segment filled out. -/
def carve (m : ClientSendManager) (slabID nBlocks seg : Nat) : ClientSendManager :=
  let slab := m.slabInfo slabID
  let blockIndex := slab.blocksUsed
  { m.setSlab slabID
      { slab with blocksUsed := blockIndex + nBlocks, refcount := slab.refcount + 1 } with
    segs := Function.update m.segs seg
      { buf := slab.buf + blockIndex * p.blockSize.toNat
        size := nBlocks * p.blockSize.toNat
        blockID := UInt32.ofNat (slabID * p.blocksPerSlab + blockIndex)
        next := none } }

/-- If full, the slab is removed from `workingSlabs`. -/
def settle (m : ClientSendManager) (slabID : Nat) : ClientSendManager :=
  if p.blocksPerSlab - (m.slabInfo slabID).blocksUsed = 0 then
    { m with
      workingSlabs := m.workingSlabs.erase slabID
      fullSlabs := m.fullSlabs ++ [slabID] }.setSlab slabID
        { m.slabInfo slabID with working := false }
  else m

/-- Checks whether `workingSlabs` need to be reduced. -/
def trim (m : ClientSendManager) : ClientSendManager :=
  if m.maxWorkingSlabs < m.workingSlabs.length then m.setMaxWorkingSlabs m.maxWorkingSlabs else m

/-- The part of `GetSegment` that allocates from a working slab. -/
def allocate (m : ClientSendManager) (slabID nBlocks : Nat) : Nat × ClientSendManager :=
  let (seg, m) := m.takeSeg
  (seg, ((m.carve p slabID nBlocks seg).settle p slabID).trim)

/-- The first working slab with room, if not a whole slab is wanted. -/
def findRoom (m : ClientSendManager) (nBlocks : Nat) : Option Nat :=
  if nBlocks < p.blocksPerSlab then
    m.workingSlabs.find? fun slabID => nBlocks ≤ p.blocksPerSlab - (m.slabInfo slabID).blocksUsed
  else none

/-- The free slab at the front becomes a working slab. -/
def harvest (m : ClientSendManager) (slabID : Nat) (rest : List Nat) : ClientSendManager :=
  { m with freeSlabs := rest, workingSlabs := m.workingSlabs ++ [slabID] }.setSlab slabID
    { m.slabInfo slabID with working := true }

def getSegment (m : ClientSendManager) (nBlocks : Nat) (noFreeSlabs : Bool) :
    Except Fault (Option Nat × ClientSendManager) :=
  if p.blocksPerSlab < nBlocks then
    .error (.thrown "ClientSendManager::GetSegment: nBlocks exceeds blocksPerSlab")
  else
    match m.findRoom p nBlocks with
    | some slabID =>
      let (seg, m) := m.allocate p slabID nBlocks
      .ok (some seg, m)
    | none =>
      match m.freeSlabs with
      | [] => .ok (none, m)
      | slabID :: rest =>
        if noFreeSlabs then .ok (none, m)
        else
          let (seg, m) := (m.harvest slabID rest).allocate p slabID nBlocks
          .ok (some seg, m)

def setNext (m : ClientSendManager) (seg next : Nat) : ClientSendManager :=
  { m with segs := Function.update m.segs seg { m.segs seg with next := some next } }

/-- The loop of `GetMessageDescriptor` for the whole slabs. `ends` are `seg0` and
`segN`, if `seg0` is not null. -/
def linkLoop : Nat → Option (Nat × Nat) → ClientSendManager →
    Except Fault (Option Nat × ClientSendManager)
  | 0, ends, m => .ok (ends.map Prod.fst, m)
  | wholeSlabs + 1, ends, m =>
    match m.getSegment p p.blocksPerSlab false with
    | .error e => .error e
    | .ok (none, _) => .error .undefined
    | .ok (some next, m) =>
      -- without a partial segment the first one points at itself until the next turn
      let (seg0, segN) := ends.getD (next, next)
      linkLoop wholeSlabs (some (seg0, next)) (m.setNext segN next)

/-- The number of blocks for a message, in 32 bits. -/
def blocksFor (len : UInt32) : Nat :=
  let nBlocks := ((len - 1 + p.blockSize) / p.blockSize).toNat
  -- even empty messages need a block
  if nBlocks = 0 then 1 else nBlocks

def getMessageDescriptor (m : ClientSendManager) (len : UInt32) (contiguous : Bool) :
    Except Fault (Option Nat × ClientSendManager) :=
  if p.blockSize = 0 then .ok (none, m) -- not sufficiently initialized
  else
    let nBlocks := blocksFor p len
    if contiguous ∨ nBlocks ≤ p.blocksPerSlab then m.getSegment p nBlocks false
    else if p.blocksPerSlab = 0 then .error .undefined
    else
      let wholeSlabs := nBlocks / p.blocksPerSlab
      let nBlocks := nBlocks - wholeSlabs * p.blocksPerSlab
      if m.freeSlabs.length < wholeSlabs then .ok (none, m) -- just not enough
      else if nBlocks ≠ 0 then
        match m.getSegment p nBlocks (wholeSlabs == m.freeSlabs.length) with
        | .error e => .error e
        | .ok (none, m) => .ok (none, m)
        | .ok (some seg0, m) => linkLoop p wholeSlabs (some (seg0, seg0)) m
      else linkLoop p wholeSlabs none m

/-! ## Release -/

/-- One turn of the loop of `ReleaseMessageDescriptor`: `none` is a slab outside
of `slabInfoVec`, or one erased from `fullSlabs` that is not on that list. -/
def releaseSegment (m : ClientSendManager) (seg : Nat) : Option ClientSendManager :=
  let slabID := (m.segs seg).blockID.toNat / p.blocksPerSlab
  let info := m.slabInfo slabID
  let newRefcount := info.refcount - 1
  let m' := { m.setSlab slabID { info with refcount := newRefcount } with
    busySegs := m.busySegs.erase seg
    freeSegs := m.freeSegs ++ [seg] }
  if m.numTotalSlabs ≤ slabID then none
  else if !info.working ∧ newRefcount = 0 then
    if slabID ∈ m.fullSlabs then
      some { m' with
        fullSlabs := m.fullSlabs.erase slabID
        retiredSlabs := m.retiredSlabs ++ [slabID] }
    else none
  else some m'

/-- `ReleaseMessageDescriptor`, for at most `fuel` segments. -/
def releaseLoop : Nat → Option Nat → ClientSendManager → Option ClientSendManager
  | _, none, m => some m
  | 0, some _, _ => none
  | fuel + 1, some seg, m =>
    (m.releaseSegment p seg).bind fun m' => releaseLoop fuel (m'.segs seg).next m'

/-- A chain of segments that ends has no more of them than are busy. -/
def releaseMessageDescriptor (m : ClientSendManager) (desc : Nat) : Option ClientSendManager :=
  releaseLoop p m.busySegs.length (some desc) m

end ClientSendManager
end Mcsb
