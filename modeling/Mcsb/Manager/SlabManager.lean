import Mcsb.Lib.Effect
import Mcsb.Lib.Pool
import Mathlib.Data.Rat.Floor
import Mathlib.Data.List.Basic

/-!
# The slab manager

`SlabManager` and `SlabInfo`: reservations, the free, held and wanted lists, and
the segments wanted on each slab. The calls that can free a slab return the
state change, for the manager to hand to its handler.
-/

namespace Mcsb
open Effect

/-- A call ends by a `runtime_error`, or never returns: it loops or the process dies. -/
inductive Exc where
  | runtimeError (what : String)
  | stuck
  deriving DecidableEq, Repr

/-- A segment in a client's wanted queue. `ref` is the record it lives in. -/
structure WantedSegment where
  ref : Nat
  clientID : Nat
  blockID : Nat
  deriving DecidableEq, Repr

structure SlabInfo where
  heldRefcnt : Nat := 0
  wantedSegs : List WantedSegment := []
  deriving DecidableEq, Repr

inductive StateChange where
  | heldToFree
  | heldToWanted
  | wantedToFree
  deriving DecidableEq, Repr

/-- `info` is the infos of all buffers one after the other. `limitReached` is
history: a `heldRefcnt` was incremented at its machine limit. -/
structure SlabManager where
  slabsPerBuf : Nat
  pctNonreservable : ℚ
  numBuffers : Nat := 0
  numSlabsReserved : Nat := 0
  numSlabsNonreservable : Nat := 0
  info : Nat → SlabInfo := fun _ => {}
  freeSlabs : List Nat := []
  heldSlabs : List Nat := []
  wantedSlabs : List Nat := []
  freeWantedSegs : Pool := {}
  limitReached : Bool := false

namespace SlabManager

def numSlabs (sm : SlabManager) : Nat := sm.slabsPerBuf * sm.numBuffers

/-- One turn of the loop of `NumBuffers(n)`. -/
def addBuffer (sm : SlabManager) : SlabManager :=
  { sm with
    numBuffers := sm.numBuffers + 1
    info := fun slabID => if slabID / sm.slabsPerBuf = sm.numBuffers then {} else sm.info slabID
    freeSlabs := sm.freeSlabs ++ (List.range sm.slabsPerBuf).map (sm.numSlabs + ·) }

/-- `NumBuffers(n)`: the buffers are never reduced. The share that cannot be reserved
is an exact ceiling here, where the product of the source is in floating point and may
give one slab more (16 of 100 for 15%). -/
def setNumBuffers (sm : SlabManager) (n : Nat) : SlabManager :=
  if n ≤ sm.numBuffers then sm
  else
    let grown := addBuffer^[n - sm.numBuffers] sm
    { grown with numSlabsNonreservable := ⌈grown.pctNonreservable / 100 * grown.numSlabs⌉₊ }

/-- `SlabManager(slabsPerBuf, numBufs, pctNonreservable)`. -/
def new (slabsPerBuf numBufs : Nat) (pctNonreservable : ℚ) : SlabManager :=
  setNumBuffers { slabsPerBuf, pctNonreservable } numBufs

/-- `none` is the denial. The sum is taken in 32 bits. -/
def getSlabReservation (sm : SlabManager) (nSlabs : Nat) : Option SlabManager :=
  if nSlabs = 0 then some sm
  else if sm.numSlabs < (sm.numSlabsReserved + sm.numSlabsNonreservable + nSlabs) % 2 ^ 32 then none
  else some { sm with numSlabsReserved := (sm.numSlabsReserved + nSlabs) % 2 ^ 32 }

/-- A release of more than is reserved is refused. -/
def releaseSlabReservation (sm : SlabManager) (nSlabs : Nat) : SlabManager :=
  if sm.numSlabsReserved < nSlabs then sm
  else { sm with numSlabsReserved := sm.numSlabsReserved - nSlabs }

def updateInfo (sm : SlabManager) (slabID : Nat) (f : SlabInfo → SlabInfo) : SlabManager :=
  { sm with info := Function.update sm.info slabID (f (sm.info slabID)) }

def getSlabInfo (slabID : Nat) : EStateM Exc SlabManager SlabInfo := do
  let sm ← get
  if sm.numBuffers ≤ slabID / sm.slabsPerBuf then
    throw (.runtimeError "SlabManager::GetSlabInfo invalid slabID")
  return sm.info slabID

/-- `SlabInfo::GetFreeSlab`. -/
def getFreeSlab (slabID : Nat) : EStateM Exc SlabManager Unit := do
  let slab := (← get).info slabID
  if slab.heldRefcnt ≠ 0 then
    throw (.runtimeError "GetFreeSlab encountered non-zero heldRefcnt")
  if slab.wantedSegs ≠ [] then
    throw (.runtimeError "GetFreeSlab encountered a wanted slab")
  modify (·.updateInfo slabID fun slab => { slab with heldRefcnt := slab.heldRefcnt + 1 })

/-- Up to `mxcount` free slabs, from the front. -/
def getFreeSlabs : Nat → EStateM Exc SlabManager (List Nat)
  | 0 => pure []
  | mxcount + 1 => do
    match (← get).freeSlabs with
    | [] => pure []
    | slabID :: rest =>
      modify fun sm => { sm with freeSlabs := rest }
      getFreeSlab slabID
      modify fun sm => { sm with heldSlabs := sm.heldSlabs ++ [slabID] }
      let slabIDs ← getFreeSlabs mxcount
      pure (slabID :: slabIDs)

/-- `SlabInfo::IncrementHeld`, on 32 bits. -/
def incrementHeld (slabID : Nat) (sm : SlabManager) : SlabManager :=
  let heldRefcnt := (sm.info slabID).heldRefcnt
  { sm.updateInfo slabID fun slab => { slab with heldRefcnt := (heldRefcnt + 1) % 2 ^ 32 } with
    limitReached := sm.limitReached || heldRefcnt + 1 == 2 ^ 32 }

def incrementHeldRefcnt : List Nat → EStateM Exc SlabManager Unit
  | [] => pure ()
  | slabID :: slabIDs => do
    let slab ← getSlabInfo slabID
    if slab.heldRefcnt = 0 then
      if slab.wantedSegs = [] then
        throw (.runtimeError "IncrementHeldRefcnt but slab not held or wanted")
      modify fun sm => { sm with
        wantedSlabs := sm.wantedSlabs.erase slabID
        heldSlabs := sm.heldSlabs ++ [slabID] }
    modify (incrementHeld slabID)
    incrementHeldRefcnt slabIDs

/-- One turn of the loop of `DecrementHeldRefcnt`. -/
def decrementHeldRefcnt (slabID amount : Nat) : EStateM Exc SlabManager (Option StateChange) := do
  let slab ← getSlabInfo slabID
  if slab.heldRefcnt < amount then
    modify (·.updateInfo slabID fun slab => { slab with heldRefcnt := 0 })
    throw (.runtimeError "SlabInfo::DecrementHeld encountered heldRefcnt==0")
  modify (·.updateInfo slabID fun slab => { slab with heldRefcnt := slab.heldRefcnt - amount })
  if slab.heldRefcnt - amount ≠ 0 then
    return none
  modify fun sm => { sm with heldSlabs := sm.heldSlabs.erase slabID }
  if slab.wantedSegs ≠ [] then
    modify fun sm => { sm with wantedSlabs := sm.wantedSlabs ++ [slabID] }
    return some .heldToWanted
  modify fun sm => { sm with freeSlabs := sm.freeSlabs ++ [slabID] }
  return some .heldToFree

def getWantedSegment (clientID blockID slabID : Nat) : EStateM Exc SlabManager WantedSegment := do
  let slab ← getSlabInfo slabID
  if slab.heldRefcnt = 0 ∧ slab.wantedSegs = [] then
    throw (.runtimeError "GetWantedSegment but slab not held or wanted")
  let (ref, freeWantedSegs) := (← get).freeWantedSegs.take
  let seg : WantedSegment := { ref, clientID, blockID }
  modify fun sm => { sm with freeWantedSegs }
  modify (·.updateInfo slabID fun slab => { slab with wantedSegs := slab.wantedSegs ++ [seg] })
  return seg

def releaseWantedSegment (seg : WantedSegment) (slabID : Nat) :
    EStateM Exc SlabManager (Option StateChange) := do
  let slab ← getSlabInfo slabID
  if slab.wantedSegs = [] then
    throw (.runtimeError "SlabInfo::Erase on empty list")
  modify (·.updateInfo slabID fun slab => { slab with wantedSegs := slab.wantedSegs.erase seg })
  modify fun sm => { sm with freeWantedSegs := sm.freeWantedSegs.put seg.ref }
  if slab.wantedSegs.erase seg = [] ∧ slab.heldRefcnt = 0 then
    modify fun sm => { sm with
      wantedSlabs := sm.wantedSlabs.erase slabID
      freeSlabs := sm.freeSlabs ++ [slabID] }
    return some .wantedToFree
  return none

def frontWantedSegment : EStateM Exc SlabManager WantedSegment := do
  let sm ← get
  match sm.wantedSlabs with
  | [] => throw (.runtimeError "SlabManager::FrontWantedSegment with no wanted slabs")
  | slabID :: _ =>
    match (sm.info slabID).wantedSegs with
    | [] => throw (.runtimeError "SlabManager::FrontWantedSegment slab has no WantedSegments")
    | seg :: _ => return seg

end SlabManager
end Mcsb
