import Mcsb.Manager.State

/-!
# Moving slabs

The calls by which slabs and wanted segments change hands: granting free slabs
to requests, releasing held and wanted ones, and harvesting wanted slabs. A
slab that becomes free calls back into `serviceSlabRequests`.
-/

namespace Mcsb
open Effect

/-- `ClientProxy::TakeFreeSlabs`; the client's `SendSlabIDs` prints its errors. -/
def takeFreeSlabs (c : Nat) (slabIDs : List Nat) : Act Unit := do
  indexing c slabIDs
  onTracker c (SlabTracker.insertProdSlabs slabIDs)
  swallow (sendIDs c .slabIDs slabIDs)
  modifyProxy c fun p =>
    { p with pendingFreeSlabRqsts := p.pendingFreeSlabRqsts - slabIDs.length }

/-- Give one free slab to a request, and queue what is left of it. A request
of a client that is gone, or of another proxy with its ID, is dropped. -/
def serveRequest (level : Nat) (req : SlabRequest) : Act Unit := do
  let m ← get
  if req.id ∈ m.clients ∧ (m.proxy req.id).addr = req.arg then
    let slabIDs ← onSlabs (SlabManager.getFreeSlabs 1)
    takeFreeSlabs req.id slabIDs
    let slabsPending := (req.numSlabs + (2 ^ 32 - 1)) % 2 ^ 32
    if slabsPending ≠ 0 then
      modify fun m => { m with
        slabRqstManager := m.slabRqstManager.addRequest level slabsPending req.id req.arg }

/-- The loop of `ServiceSlabRequests`. -/
def serviceLoop : Nat → Act Unit
  | 0 => throw .stuck
  | fuel + 1 => do
    let m ← get
    if m.slabRqstManager.numRequests = 0 ∨ m.numFreeSlabs = 0 then
      pure ()
    else
      match m.slabRqstManager.lowestLevelPending with
      | none => throw .stuck
      | some level =>
        match m.slabRqstManager.popFrontRequest level with
        | none => throw .stuck
        | some (req, slabRqstManager) => do
          set { m with slabRqstManager }
          serveRequest level req
          serviceLoop fuel

/-- Every turn takes a free slab or ends a request, so the loop ends in time. -/
def serviceSlabRequests : Act Unit := do
  let m ← get
  serviceLoop (m.numFreeSlabs + m.slabRqstManager.numRequests + 1)

/-- The handler is installed for the changes to free only. -/
def handleSlabStateChange : Option StateChange → Act Unit
  | some .heldToFree => serviceSlabRequests
  | some .wantedToFree => serviceSlabRequests
  | some .heldToWanted => pure ()
  | none => pure ()

/-- `DecrementHeldRefcnt` of slabs with their amounts. -/
def decrementHeldRefcnt : List (Nat × Nat) → Act Unit
  | [] => pure ()
  | (slabID, amount) :: rest => do
    let change ← onSlabs (SlabManager.decrementHeldRefcnt slabID amount)
    handleSlabStateChange change
    decrementHeldRefcnt rest

def releaseWantedSegment (seg : WantedSegment) : Act Unit := do
  let slabID := seg.blockID / (← get).blocksPerSlab
  let change ← onSlabs (SlabManager.releaseWantedSegment seg slabID)
  handleSlabStateChange change

/-- `ClientProxy::SendDropReport`. -/
def sendDropReport (c : Nat) (segs bytes : Nat) : Act Unit := do
  modifyProxy c fun p => { p with
    dropReporter := p.dropReporter.dropped segs bytes
    dropLog := p.dropLog ++ [(segs, bytes)] }
  let (report, dropReporter) := (← getProxy c).dropReporter.getReport
  modifyProxy c fun p => { p with dropReporter }
  match report with
  | some (dropSegs, dropBytes) =>
    swallow (sendCtrl c (.dropReport (UInt32.ofNat dropSegs) (UInt32.ofNat dropBytes)))
  | none => pure ()
  modify fun m => { m with stats := { m.stats with
    droppedSegs := m.stats.droppedSegs + segs
    droppedBytes := m.stats.droppedBytes + bytes } }

/-- `ClientProxy::EraseWantedSegment`, when the manager seizes a wanted slab. -/
def eraseWantedSegment (c : Nat) (seg : WantedSegment) : Act Unit := do
  let m ← get
  if (m.proxy c).wantedQueue = [] then
    pure ()
  else do
    modifyProxy c fun p => { p with wantedQueue := p.wantedQueue.erase seg }
    releaseWantedSegment seg
    sendDropReport c 1 (m.blockInfo seg.blockID).size.toNat

/-- The difference of two sizes, in 64 bits. -/
def sizeSub (a b : Nat) : Nat := if b ≤ a then a - b else 2 ^ 64 - (b - a)

/-- The loop of `HarvestWantedSlabs`. -/
def harvestLoop (origNumFreeSlabs count : Nat) : Nat → Act Unit
  | 0 => throw .stuck
  | fuel + 1 => do
    let m ← get
    if sizeSub m.numFreeSlabs origNumFreeSlabs < count then
      let seg ← onSlabs SlabManager.frontWantedSegment
      if seg.clientID ∈ m.clients then
        eraseWantedSegment seg.clientID seg
      else
        releaseWantedSegment seg
      harvestLoop origNumFreeSlabs count fuel
    else
      pure ()

/-- The loop has a turn for each wanted segment there is. -/
def harvestWantedSlabs (count : Nat) : Act Unit := do
  let m ← get
  let segs := m.slabManager.freeWantedSegs
  harvestLoop m.numFreeSlabs (min count m.slabManager.wantedSlabs.length)
    (segs.size - segs.free.length + 1)

/-- `Manager::RequestFreeSlabs`: a nice request waits its turn, a greedy one
harvests what it lacks. It keeps its slab IDs on the stack, which may overflow. That
the count of the requests wraps is history. -/
def requestFreeSlabs (numSlabs c : Nat) (niceLevel : Int) : Act Unit := do
  let m ← get
  let niceLevel := niceLevel + (if m.params.playbackMode then 1 else 0)
  if niceLevel ≠ 0 then
    modify fun m => { m with
      limitReached := m.limitReached || m.slabRqstManager.numRequests + 1 == 2 ^ 32 }
    modify fun m => { m with
      slabRqstManager := m.slabRqstManager.addRequest niceLevel numSlabs c (m.proxy c).addr }
    serviceSlabRequests
  else if m.params.stackSlabs < numSlabs then
    throw .stuck
  else
    harvestWantedSlabs (numSlabs - m.numFreeSlabs)
    let slabIDs ← onSlabs (SlabManager.getFreeSlabs numSlabs)
    takeFreeSlabs c slabIDs

/-- `ClientProxy::FillProducerSlabs`. -/
def fillProducerSlabs (c : Nat) : Act Unit := do
  let p ← getProxy c
  if p.slabs.prodSlabsNeeded ≤ p.pendingFreeSlabRqsts then
    pure ()
  else do
    let slabsToRequest := p.slabs.prodSlabsNeeded - p.pendingFreeSlabRqsts
    modifyProxy c fun p =>
      { p with pendingFreeSlabRqsts := p.pendingFreeSlabRqsts + slabsToRequest }
    requestFreeSlabs slabsToRequest c p.prodNiceLevel

end Mcsb
