import Mcsb.Manager.SlabManager

/-!
# The slab tracker of a client proxy

The slabs a client holds: as producer, one bit each; as consumer, a 16-bit
count of its segments in each.
-/

namespace Mcsb
open Effect

/-- The two vectors are functions, with `totalNumSlabs` their length. An entry
beyond it is zero, and what the source would do with one is not defined. -/
structure SlabTracker where
  totalNumSlabs : Nat := 0
  numProdSlabs : Nat := 0
  numConsSlabs : Nat := 0
  prodSlabsHeld : Nat := 0
  consSlabsHeld : Nat := 0
  prodSlabRefcnt : Nat → Bool := fun _ => false
  consSlabRefcnt : Nat → Nat := fun _ => 0

namespace SlabTracker

/-- `TotalNumSlabs(n)`: the vectors are resized, new entries are zero. -/
def setTotalNumSlabs (t : SlabTracker) (n : Nat) : SlabTracker :=
  { t with
    totalNumSlabs := n
    prodSlabRefcnt := fun slabID => slabID < min t.totalNumSlabs n && t.prodSlabRefcnt slabID
    consSlabRefcnt := fun slabID =>
      if slabID < min t.totalNumSlabs n then t.consSlabRefcnt slabID else 0 }

def prodSlabsNeeded (t : SlabTracker) : Nat := t.numProdSlabs - t.prodSlabsHeld

/-- One turn of the loop of `InsertProdSlabs`. -/
def insertProdSlab (t : SlabTracker) (slabID : Nat) : SlabTracker :=
  { t with
    prodSlabsHeld := if t.prodSlabRefcnt slabID then t.prodSlabsHeld else t.prodSlabsHeld + 1
    prodSlabRefcnt := Function.update t.prodSlabRefcnt slabID true }

/-- Every slab is inserted, also when some were held already. -/
def insertProdSlabs (slabIDs : List Nat) : EStateM Exc SlabTracker Unit := do
  let t ← get
  let clean := (slabIDs.foldl (fun (s : Bool × SlabTracker) slabID =>
    (s.1 && !s.2.prodSlabRefcnt slabID, s.2.insertProdSlab slabID)) (true, t)).1
  set (slabIDs.foldl insertProdSlab t)
  if !clean then
    throw (.runtimeError "SlabTracker::InsertProdSlabs already holds slab")

def eraseProdSlab (t : SlabTracker) (slabID : Nat) : SlabTracker :=
  { t with
    prodSlabRefcnt := Function.update t.prodSlabRefcnt slabID false
    prodSlabsHeld := t.prodSlabsHeld - 1 }

/-- The slabs up to the first that is not held, with it. -/
def lookedUp (t : SlabTracker) : List Nat → List Nat
  | [] => []
  | slabID :: slabIDs => slabID :: if t.prodSlabRefcnt slabID then t.lookedUp slabIDs else []

/-- The entries that `EraseProdSlabs` looks at. -/
def erasing (t : SlabTracker) (slabIDs : List Nat) : List Nat :=
  if t.prodSlabsHeld < slabIDs.length then [] else t.lookedUp slabIDs

/-- A throw erases nothing. -/
def eraseProdSlabs (slabIDs : List Nat) : EStateM Exc SlabTracker Unit := do
  let t ← get
  if t.prodSlabsHeld < slabIDs.length then
    throw (.runtimeError "SlabTracker::EraseProdSlabs count>prodSlabsHeld")
  if slabIDs.any fun slabID => !t.prodSlabRefcnt slabID then
    throw (.runtimeError "SlabTracker::EraseProdSlabs doesn't hold slab")
  set (slabIDs.foldl eraseProdSlab t)

/-- The slabs removed, at most `mxcount`. -/
def getAndEraseProdSlabs (mxcount : Nat) : EStateM Exc SlabTracker (List Nat) := do
  let t ← get
  let slabIDs := ((List.range t.totalNumSlabs).filter t.prodSlabRefcnt).take mxcount
  set { t with prodSlabRefcnt := fun slabID => t.prodSlabRefcnt slabID && slabID ∉ slabIDs }
  return slabIDs

/-- The slabs removed with their counts, at most `mxcount`. -/
def getAndEraseConsSlabs (mxcount : Nat) : EStateM Exc SlabTracker (List (Nat × Nat)) := do
  let t ← get
  let slabIDs := ((List.range t.totalNumSlabs).filter (t.consSlabRefcnt · ≠ 0)).take mxcount
  set { t with
    consSlabRefcnt := fun slabID => if slabID ∈ slabIDs then 0 else t.consSlabRefcnt slabID }
  return slabIDs.map fun slabID => (slabID, t.consSlabRefcnt slabID)

/-- `consSlabRefcnt[slabID]++`, with the slab counted as held from zero on. -/
def incrementCons (t : SlabTracker) (slabID : Nat) : SlabTracker :=
  { t with
    consSlabRefcnt :=
      Function.update t.consSlabRefcnt slabID ((t.consSlabRefcnt slabID + 1) % 2 ^ 16)
    consSlabsHeld :=
      if t.consSlabRefcnt slabID = 0 then (t.consSlabsHeld + 1) % 2 ^ 32 else t.consSlabsHeld }

def canTakeCons (t : SlabTracker) (slabID : Nat) : Bool :=
  t.consSlabsHeld < t.numConsSlabs || t.consSlabRefcnt slabID ≠ 0

def takeConsSlab (slabID : Nat) : EStateM Exc SlabTracker Bool := do
  let t ← get
  if t.canTakeCons slabID then
    set (t.incrementCons slabID)
    return true
  return false

/-- One turn of the loop of `DecrementConsSlabs`: a count below zero wraps and
is an error, and so is `consSlabsHeld` below zero. A frame has too few slabs for
the errors to wrap. -/
def decrementCons (s : Nat × SlabTracker) (slabID : Nat) : Nat × SlabTracker :=
  let (errs, t) := s
  let refcnt := (t.consSlabRefcnt slabID + (2 ^ 16 - 1)) % 2 ^ 16
  let errs := if t.consSlabRefcnt slabID = 0 then errs + 1 else errs
  let t := { t with consSlabRefcnt := Function.update t.consSlabRefcnt slabID refcnt }
  if refcnt = 0 then
    (if t.consSlabsHeld = 0 then errs + 1 else errs,
      { t with consSlabsHeld := (t.consSlabsHeld + (2 ^ 32 - 1)) % 2 ^ 32 })
  else (errs, t)

/-- With any error every decrement is undone before the throw. -/
def decrementConsSlabs (slabIDs : List Nat) : EStateM Exc SlabTracker Unit := do
  let (errs, t) := slabIDs.foldl decrementCons (0, ← get)
  if errs = 0 then
    set t
  else
    set (slabIDs.foldl incrementCons t)
    throw (.runtimeError "SlabTracker::ReleaseConsSlabs encountered errors")

end SlabTracker
end Mcsb
