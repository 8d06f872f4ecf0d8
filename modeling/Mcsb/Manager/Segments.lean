import Mcsb.Manager.Slabs

/-!
# Moving segments

`TakeBlocksAndInfo`: a frame of segments is copied into shared memory and
offered to every client, which sends it on or queues it.
-/

namespace Mcsb
open Effect

/-- A segment of a BlocksAndInfo frame. `cci` is what the block starts with. -/
structure Segment where
  blockID : Nat
  info : BlockInfo
  cci : CCIHeader := ⟨0, 0⟩
  deriving DecidableEq, Repr

/-- The client wants the segment: it is registered for its message ID, or the
segment is a CCI message addressed to it. -/
def ClientProxy.wants (p : ClientProxy) (seg : Segment) : Bool :=
  if seg.info.messageID = kCCIMessageID then
    seg.cci.dstClientID.toNat = p.clientID || seg.cci.dstClientID.toNat = kCCIBcastID
  else
    seg.info.messageID ∈ p.registeredMsgIDs

def takeConsSlab (c slabID : Nat) : Act Bool := do
  modify fun m => { m with
    limitReached := m.limitReached || (m.proxy c).slabs.consSlabRefcnt slabID + 1 == 2 ^ 16 }
  indexing c [slabID]
  onTracker c (SlabTracker.takeConsSlab slabID)

/-- `ClientProxy::SendBlockIDs`; its errors are printed. -/
def proxySendBlockIDs (c : Nat) (blocks : List (Nat × Nat)) : Act Unit :=
  swallow do
    sendIDs c .blockIDs (blocks.map Prod.fst)
    modify fun m => { m with stats := { m.stats with
      sentSegs := m.stats.sentSegs + blocks.length
      sentBytes := m.stats.sentBytes + (blocks.map Prod.snd).sum } }

/-- Take the slab of a queued segment as consumer and send the segment. -/
def sendWanted (c slabID : Nat) (seg : WantedSegment) (segSize : Nat) : Act Unit := do
  onSlabs (SlabManager.incrementHeldRefcnt [slabID])
  proxySendBlockIDs c [(seg.blockID, segSize)]

def popFrontWanted (c : Nat) (seg : WantedSegment) : Act Unit := do
  modifyProxy c fun p => { p with wantedQueue := p.wantedQueue.tail }
  releaseWantedSegment seg

/-- One turn of the loop of `PopWantedQueue`; `false` is the break. A segment
whose message is no longer registered leaves the queue without being sent. -/
def popWanted (c : Nat) (seg : WantedSegment) : Act Bool := do
  let m ← get
  let p := m.proxy c
  let slabID := seg.blockID / m.blocksPerSlab
  let info := m.blockInfo seg.blockID
  if info.messageID ∈ p.registeredMsgIDs then
    if ← takeConsSlab c slabID then
      sendWanted c slabID seg info.size.toNat
      popFrontWanted c seg
      return true
    else if p.wantedQueue.length ≤ maxWantedQueueSize ∨ m.params.playbackMode then
      return false
    else
      -- queue size overage, dropping
      sendDropReport c 1 info.size.toNat
      popFrontWanted c seg
      return true
  else
    popFrontWanted c seg
    return true

/-- The loop of `PopWantedQueue`. -/
def popLoop (c : Nat) : Nat → Act Unit
  | 0 => throw .stuck
  | fuel + 1 => do
    match (← getProxy c).wantedQueue with
    | [] => pure ()
    | seg :: _ => if ← popWanted c seg then popLoop c fuel

def popWantedQueue (c : Nat) : Act Unit := do
  popLoop c ((← getProxy c).wantedQueue.length + 1)

/-- Sort wanted segments into those to send, whose slabs are taken, and those
to queue. Once one is queued, so are the rest. -/
def sortSegments (c : Nat) : Bool → List Segment → Act (List Segment × List Segment)
  | _, [] => pure ([], [])
  | true, seg :: segs => do
    let (send, want) ← sortSegments c true segs
    return (send, seg :: want)
  | false, seg :: segs => do
    if ← takeConsSlab c (seg.blockID / (← get).blocksPerSlab) then
      let (send, want) ← sortSegments c false segs
      return (seg :: send, want)
    else
      let (send, want) ← sortSegments c true segs
      return (send, seg :: want)

/-- Put the segments into the wanted queue. -/
def queueSegments (c : Nat) : List Segment → Act Unit
  | [] => pure ()
  | seg :: segs => do
    let wanted ← onSlabs (SlabManager.getWantedSegment c seg.blockID
      (seg.blockID / (← get).blocksPerSlab))
    modifyProxy c fun p => { p with wantedQueue := p.wantedQueue ++ [wanted] }
    queueSegments c segs

/-- Tell the manager that the slabs are held, and send the segments. -/
def sendTaken (c : Nat) (send : List Segment) : Act Unit := do
  if send = [] then
    pure ()
  else do
    let blocksPerSlab := (← get).blocksPerSlab
    onSlabs (SlabManager.incrementHeldRefcnt (send.map (·.blockID / blocksPerSlab)))
    proxySendBlockIDs c (send.map fun seg => (seg.blockID, seg.info.size.toNat))

/-- `ClientProxy::SendSegments`. -/
def sendSegments (c : Nat) (segs : List Segment) : Act Unit := do
  let p ← getProxy c
  let (send, want) ← sortSegments c (p.wantedQueue ≠ []) (segs.filter p.wants)
  sendTaken c send
  queueSegments c want
  popWantedQueue c

/-- The first loop of `TakeBlocksAndInfo`. -/
def copyInfos : List Segment → Act Unit
  | [] => pure ()
  | seg :: segs => do
    if (← get).totalNumBlocks ≤ seg.blockID then
      fail "client sent blockID>=totalNumBlocks"
    modify fun m => { m with
      blockInfo := Function.update m.blockInfo seg.blockID seg.info
      stats := { m.stats with rcvdBytes := m.stats.rcvdBytes + seg.info.size.toNat } }
    copyInfos segs

/-- The loop over the clients, in order of their IDs. A non-zero group does not
get its own messages back. -/
def offerSegments (segs : List Segment) (srcGroupID : Int16) : List Nat → Act Unit
  | [] => pure ()
  | c :: cs => do
    let p ← getProxy c
    if p.connected ∧ ¬ (srcGroupID ≠ 0 ∧ srcGroupID = p.groupID) then
      sendSegments c segs
    offerSegments segs srcGroupID cs

/-- `Manager::TakeBlocksAndInfo`. -/
def takeBlocksAndInfo (segs : List Segment) (srcGroupID : Int16) : Act Unit := do
  copyInfos segs
  modify fun m => { m with stats := { m.stats with rcvdSegs := m.stats.rcvdSegs + segs.length } }
  offerSegments segs srcGroupID (← get).clients

/-- The checks on the CCI messages of a frame. -/
def checkCCI (c : Nat) : List Segment → Act Unit
  | [] => pure ()
  | seg :: segs => do
    if seg.info.messageID = kCCIMessageID then
      if (← get).totalNumBlocks ≤ seg.blockID then
        fail "ShmMapper::GetBlockPtr invalid slabID"
      if seg.cci.srcClientID.toNat ≠ c then
        fail s!"client[{c}] clientID mismatch for CCI message"
      if c ≠ 0 ∧ seg.cci.dstClientID = 0 then
        fail s!"client[{c}] sending CCI message to {seg.cci.dstClientID}"
    checkCCI c segs

/-- `ClientProxy::HandleBlocksAndInfo`. -/
def handleBlocksAndInfo (c : Nat) (segs : List Segment) : Act Unit := do
  checkCCI c segs
  takeBlocksAndInfo segs (← getProxy c).groupID

/-- `ClientProxy::HandleBlockIDs`: the client is done with these segments. -/
def handleBlockIDs (c : Nat) (blockIDs : List Nat) : Act Unit := do
  let blocksPerSlab := (← get).blocksPerSlab
  let slabIDs := blockIDs.map (· / blocksPerSlab)
  indexing c slabIDs
  onTracker c (SlabTracker.decrementConsSlabs slabIDs)
  decrementHeldRefcnt (slabIDs.map (·, 1))
  popWantedQueue c

/-- `HandleSlabIDs` up to the call that keeps the producer pool full. -/
def releaseProdSlabs (c : Nat) (slabIDs : List Nat) : Act Unit := do
  indexing c ((← getProxy c).slabs.erasing slabIDs)
  onTracker c (SlabTracker.eraseProdSlabs slabIDs)
  decrementHeldRefcnt (slabIDs.map (·, 1))

/-- `ClientProxy::HandleSlabIDs`. -/
def handleSlabIDs (c : Nat) (slabIDs : List Nat) : Act Unit := do
  releaseProdSlabs c slabIDs
  fillProducerSlabs c

end Mcsb
