import Mcsb.Client.SendMessage

/-!
# Reassembling a message

`ClientRecvManager` looks for messages among the segments received. What
`SendMessage` cuts up comes back as one message if the number of segments fits
into its field of 16 bits (`reassembles_iff`).
-/

namespace Mcsb

/-- What comes with a block: its bytes are at `ptr`, and `info` is its record. -/
structure RcvdBlock where
  blockID : Nat
  ptr : Nat
  info : BlockInfo
  deriving DecidableEq, Repr

/-- `ref` is the record it lives in. -/
structure RecvMsgSegment where
  ref : Nat
  buf : Nat
  size : UInt32
  blockID : Nat
  blockInfo : BlockInfo
  deriving DecidableEq, Repr

/-- A list of segments, each linked to the next. -/
abbrev MessageDescriptor := List RecvMsgSegment

/-- `numSegs` is how many records were allocated. -/
structure ClientRecvManager where
  freeSegs : List Nat := List.range 32
  pendingSegs : List RecvMsgSegment := []
  busySegs : List RecvMsgSegment := []
  retiredSegs : List RecvMsgSegment := []
  pendingMsg : Option MessageDescriptor := none
  numConsSlabs : Nat := 0
  numSegmentsRcvd : Nat := 0
  numSegs : Nat := 32
  deriving DecidableEq, Repr

namespace ClientRecvManager

def kNumSegs : Nat := 32

def addMsgSegBlock (r : ClientRecvManager) : ClientRecvManager :=
  { r with
    freeSegs := r.freeSegs ++ List.range' r.numSegs kNumSegs
    numSegs := r.numSegs + kNumSegs }

/-- One turn of the loop of `AddSegments`. -/
def addSegment (r : ClientRecvManager) (block : RcvdBlock) : ClientRecvManager :=
  let r := if r.freeSegs = [] then r.addMsgSegBlock else r
  let seg : RecvMsgSegment :=
    { ref := r.freeSegs.headD 0, buf := block.ptr, size := block.info.size
      blockID := block.blockID, blockInfo := block.info }
  { r with freeSegs := r.freeSegs.tail, pendingSegs := r.pendingSegs ++ [seg] }

def addSegments (r : ClientRecvManager) (blocks : List RcvdBlock) : ClientRecvManager :=
  { blocks.foldl addSegment r with
    numSegmentsRcvd := (r.numSegmentsRcvd + blocks.length) % 2 ^ 64 }

/-- The segments after `first` that match it, with `numSegMatches` so far. -/
def countMatches (first : BlockInfo) (numSegMatches : Nat) : List RecvMsgSegment → Nat
  | [] => numSegMatches
  | seg :: segs =>
    if numSegMatches < first.numSegments.toNat ∧
        seg.blockInfo.numSegments = first.numSegments ∧
        seg.blockInfo.segmentNumber.toNat = numSegMatches ∧
        seg.blockInfo.messageID = first.messageID then
      countMatches first (numSegMatches + 1) segs
    else numSegMatches

/-- The loop of `GetMessageDescriptor` over the segments pending: the message
found, the segments dropped before it, and those still pending. -/
def findMessage (numConsSlabs : Nat) :
    List RecvMsgSegment → Option MessageDescriptor × List RecvMsgSegment × List RecvMsgSegment
  | [] => (none, [], [])
  | seg0 :: segs =>
    let numSegments := seg0.blockInfo.numSegments.toNat
    let (result, retired, pending) := findMessage numConsSlabs segs
    if seg0.blockInfo.segmentNumber ≠ 0 ∨ numSegments = 0 ∨ numConsSlabs < numSegments then
      (result, seg0 :: retired, pending)
    else if (seg0 :: segs).length < numSegments then
      (none, [], seg0 :: segs)
    else if countMatches seg0.blockInfo 1 segs < numSegments then
      (result, seg0 :: retired, pending)
    else
      (some ((seg0 :: segs).take numSegments), [], (seg0 :: segs).drop numSegments)

def getMessageDescriptor (r : ClientRecvManager) : Option MessageDescriptor × ClientRecvManager :=
  match r.pendingMsg with
  | some result => (some result, { r with pendingMsg := none })
  | none =>
    let (result, retired, pending) := findMessage r.numConsSlabs r.pendingSegs
    (result, { r with
      pendingSegs := pending
      busySegs := r.busySegs ++ result.getD []
      retiredSegs := r.retiredSegs ++ retired })

end ClientRecvManager

def RecvMsgSegment.rcvd (seg : RecvMsgSegment) : RcvdBlock := ⟨seg.blockID, seg.buf, seg.blockInfo⟩

/-- The block as it was sent, whatever its checksum. -/
def RcvdBlock.sent (block : RcvdBlock) : Nat × BlockInfo :=
  (block.blockID, { block.info with crc32c := 0 })

/-- One message of the blocks, in order, with the message ID and of the length. -/
structure Reassembled (msgID : UInt32) (len : Nat) (blocks : List RcvdBlock)
    (desc : MessageDescriptor) : Prop where
  exactly : desc.map RecvMsgSegment.rcvd = blocks
  messageID : ∀ seg ∈ desc, seg.blockInfo.messageID = msgID
  sizes : (desc.map (·.size.toNat)).sum = len

/-- The infos of a message of `n` segments from the one with number `i` on. -/
def InOrder (msgID : UInt32) (n : Nat) : Nat → List BlockInfo → Prop
  | _, [] => True
  | i, info :: infos => info.messageID = msgID ∧ info.segmentNumber = UInt16.ofNat i ∧
      info.numSegments = UInt16.ofNat n ∧ InOrder msgID n (i + 1) infos

theorem InOrder.messageID {msgID : UInt32} {n i : Nat} {infos : List BlockInfo}
    (h : InOrder msgID n i infos) : ∀ info ∈ infos, info.messageID = msgID := by
  induction infos generalizing i with
  | nil => simp
  | cons info infos ih => exact List.forall_mem_cons.mpr ⟨h.1, ih h.2.2.2⟩

/-- The order does not depend on the checksums. -/
theorem inOrder_crc32c {msgID : UInt32} {n i : Nat} {infos : List BlockInfo} :
    InOrder msgID n i (infos.map fun info => { info with crc32c := 0 }) ↔
      InOrder msgID n i infos := by
  induction infos generalizing i with
  | nil => exact Iff.rfl
  | cons info infos ih => exact and_congr_right' (and_congr_right' (and_congr_right' ih))

/-! ## What is sent -/

namespace ClientImpl

variable {msgID : UInt32} {desc : List SendMsgSegment} {len : Nat} {sent : List (Nat × BlockInfo)}

theorem inOrder_infoLoop (n : Nat) {segIdx : Nat} (h : infoLoop msgID segIdx desc len = some sent) :
    InOrder msgID n segIdx (sent.map fun (_, info) =>
      { info with numSegments := UInt16.ofNat n }) := by
  induction desc generalizing segIdx len sent with
  | nil =>
    simp only [infoLoop] at h
    split at h
    · cases h
      trivial
    · cases h
  | cons seg segs ih =>
    simp only [infoLoop] at h
    split at h
    · cases h
      exact ⟨rfl, rfl, rfl, trivial⟩
    · obtain ⟨rest, eq, rfl⟩ := Option.map_eq_some_iff.mp h
      exact ⟨rfl, rfl, rfl, ih eq⟩

theorem infoLoop_ne_nil {segIdx : Nat} (segments : desc ≠ [])
    (h : infoLoop msgID segIdx desc len = some sent) : sent ≠ [] := by
  cases desc with
  | nil => exact absurd rfl segments
  | cons seg segs =>
    simp only [infoLoop] at h
    split at h
    · cases h
      exact List.cons_ne_nil _ _
    · obtain ⟨rest, -, rfl⟩ := Option.map_eq_some_iff.mp h
      exact List.cons_ne_nil _ _

theorem crc32c_infoLoop {segIdx : Nat} (h : infoLoop msgID segIdx desc len = some sent) :
    ∀ block ∈ sent, block.2.crc32c = 0 := by
  induction desc generalizing segIdx len sent with
  | nil =>
    simp only [infoLoop] at h
    split at h
    · cases h
      simp
    · cases h
  | cons seg segs ih =>
    simp only [infoLoop] at h
    split at h
    · cases h
      simp
    · obtain ⟨rest, eq, rfl⟩ := Option.map_eq_some_iff.mp h
      exact List.forall_mem_cons.mpr ⟨rfl, ih eq⟩

/-- Without checksums the infos arrive as they are. -/
theorem map_sent_sendDescriptor (h : sendDescriptor msgID desc len = some sent) (ptr : Nat) :
    (sent.map fun (blockID, info) => RcvdBlock.mk blockID ptr info).map RcvdBlock.sent = sent := by
  simp only [sendDescriptor] at h
  split at h
  · cases h
  · obtain ⟨infos, eq, rfl⟩ := Option.map_eq_some_iff.mp h
    rw [List.map_map, List.map_map]
    apply List.map_congr_left
    intro block mem
    have none := crc32c_infoLoop eq block mem
    simp only [Function.comp, RcvdBlock.sent, ← none]

/-- The infos of a message are numbered from 0 on, and there is at least one. -/
theorem inOrder_sendDescriptor (h : sendDescriptor msgID desc len = some sent) :
    sent ≠ [] ∧ InOrder msgID sent.length 0 (sent.map (·.2)) := by
  simp only [sendDescriptor] at h
  split at h
  · cases h
  · rename_i segments
    obtain ⟨infos, eq, rfl⟩ := Option.map_eq_some_iff.mp h
    constructor
    · exact List.map_eq_nil_iff.not.mpr (infoLoop_ne_nil segments eq)
    · rw [List.map_map, List.length_map]
      exact inOrder_infoLoop infos.length eq

/-- A descriptor that is filled up uses all its segments. -/
theorem sendDescriptor_full (msgID : UInt32) {desc : List SendMsgSegment} (size : Nat)
    (segments : desc ≠ []) (pos : 0 < size) (sizes : ∀ seg ∈ desc, seg.size = size) :
    ∃ sent, sendDescriptor msgID desc (desc.length * size) = some sent ∧
      sent.length = desc.length := by
  have full (segIdx : Nat) : ∃ sent, infoLoop msgID segIdx desc (desc.length * size) = some sent ∧
      sent.length = desc.length := by
    induction desc generalizing segIdx with
    | nil => exact ⟨[], by simp [infoLoop], rfl⟩
    | cons seg segs ih =>
      rw [List.forall_mem_cons] at sizes
      have left : (segs.length + 1) * size - size = segs.length * size := by
        rw [Nat.succ_mul, Nat.add_sub_cancel]
      have least : min ((segs.length + 1) * size) size = size :=
        Nat.min_eq_right (Nat.le_mul_of_pos_left size (Nat.succ_pos _))
      simp only [infoLoop, List.length_cons, sizes.1, least, left]
      cases segs with
      | nil =>
        rw [if_pos (show ([] : List SendMsgSegment).length * size = 0 from Nat.zero_mul size)]
        exact ⟨_, rfl, rfl⟩
      | cons seg' segs =>
        have more : ¬ (seg' :: segs).length * size = 0 :=
          (Nat.mul_pos (Nat.succ_pos segs.length) pos).ne'
        obtain ⟨sent, eq, length⟩ := ih (List.cons_ne_nil _ _) sizes.2 (segIdx + 1)
        rw [if_neg more, eq]
        exact ⟨_, rfl, congrArg (· + 1) length⟩
  obtain ⟨sent, eq, length⟩ := full 0
  rw [sendDescriptor, if_neg segments, eq]
  exact ⟨_, rfl, (List.length_map _).trans length⟩

end ClientImpl

/-! ## What is received -/

namespace ClientRecvManager
variable {msgID : UInt32} {n i : Nat}

/-- These blocks are pending, and no message was found. -/
structure Waits (r : ClientRecvManager) (blocks : List RcvdBlock) (numConsSlabs : Nat) : Prop where
  pending : r.pendingSegs.map RecvMsgSegment.rcvd = blocks
  sizes : ∀ seg ∈ r.pendingSegs, seg.size = seg.blockInfo.size
  message : r.pendingMsg = none
  slabs : r.numConsSlabs = numConsSlabs

section
variable {r : ClientRecvManager} {blocks : List RcvdBlock} {numConsSlabs : Nat}

theorem waits_empty (pending : r.pendingSegs = []) (message : r.pendingMsg = none) :
    r.Waits [] r.numConsSlabs := by
  constructor
  · rw [pending]
    rfl
  · rw [pending]
    intro seg mem
    cases mem
  · exact message
  · rfl

theorem Waits.addSegment (h : r.Waits blocks numConsSlabs) (block : RcvdBlock) :
    (r.addSegment block).Waits (blocks ++ [block]) numConsSlabs := by
  have stocked : (if r.freeSegs = [] then r.addMsgSegBlock else r).Waits blocks numConsSlabs := by
    split
    · exact ⟨h.pending, h.sizes, h.message, h.slabs⟩
    · exact h
  rw [ClientRecvManager.addSegment]
  generalize (if r.freeSegs = [] then r.addMsgSegBlock else r) = r' at stocked ⊢
  constructor
  · rw [List.map_append, stocked.pending]
    rfl
  · intro seg mem
    rcases List.mem_append.mp mem with before | here
    · exact stocked.sizes seg before
    · rw [List.mem_singleton.mp here]
  · exact stocked.message
  · exact stocked.slabs

theorem Waits.foldl_addSegment (h : r.Waits blocks numConsSlabs) (more : List RcvdBlock) :
    (more.foldl ClientRecvManager.addSegment r).Waits (blocks ++ more) numConsSlabs := by
  induction more generalizing r blocks with
  | nil =>
    rw [List.append_nil]
    exact h
  | cons block more ih =>
    have := ih (h.addSegment block)
    rwa [List.append_assoc] at this

theorem Waits.addSegments (h : r.Waits blocks numConsSlabs) (more : List RcvdBlock) :
    (r.addSegments more).Waits (blocks ++ more) numConsSlabs := by
  have added := h.foldl_addSegment more
  exact ⟨added.pending, added.sizes, added.message, added.slabs⟩

/-- It does not matter in how many calls they come. -/
theorem Waits.foldl_addSegments (h : r.Waits blocks numConsSlabs)
    (batches : List (List RcvdBlock)) :
    (batches.foldl ClientRecvManager.addSegments r).Waits (blocks ++ batches.flatten)
      numConsSlabs := by
  induction batches generalizing r blocks with
  | nil =>
    rw [List.flatten_nil, List.append_nil]
    exact h
  | cons batch batches ih =>
    have := ih (h.addSegments batch)
    rwa [List.append_assoc] at this

end

/-- A message found has as many segments as its first one says. -/
theorem length_findMessage {numConsSlabs : Nat} {segs : List RecvMsgSegment}
    {desc : MessageDescriptor} (found : (findMessage numConsSlabs segs).1 = some desc) :
    desc.length < 2 ^ 16 := by
  induction segs with
  | nil => cases found
  | cons seg0 segs ih =>
    unfold findMessage at found
    dsimp only at found
    split at found
    · exact ih found
    · split at found
      · cases found
      · split at found
        · exact ih found
        · cases found
          have := seg0.blockInfo.numSegments.toNat_lt
          rw [List.length_take]
          omega

theorem Waits.length_message {r r' : ClientRecvManager} {blocks : List RcvdBlock}
    {numConsSlabs : Nat} {msg : MessageDescriptor} (h : r.Waits blocks numConsSlabs)
    (got : r.getMessageDescriptor = (some msg, r')) : msg.length < 2 ^ 16 := by
  rw [getMessageDescriptor, h.message] at got
  exact length_findMessage (Prod.mk.inj got).1

theorem countMatches_all {first : BlockInfo} {segs : List RecvMsgSegment}
    (order : InOrder first.messageID n i (segs.map (·.blockInfo)))
    (fits : first.numSegments = UInt16.ofNat n) (small : n < 2 ^ 16) (all : i + segs.length = n) :
    countMatches first i segs = n := by
  induction segs generalizing i with
  | nil => exact all
  | cons seg segs ih =>
    obtain ⟨messageID, segmentNumber, numSegments, rest⟩ := order
    rw [List.length_cons] at all
    have number (k : Nat) (le : k ≤ n) : (UInt16.ofNat k).toNat = k := by
      rw [UInt16.toNat_ofNat']
      exact Nat.mod_eq_of_lt (by omega)
    rw [countMatches, if_pos]
    · exact ih rest (by omega)
    · rw [segmentNumber, numSegments, fits, number i (by omega), number n le_rfl]
      exact ⟨by omega, rfl, rfl, messageID⟩

/-- Segments numbered without a gap are one message. -/
theorem findMessage_all {numConsSlabs : Nat} {segs : List RecvMsgSegment}
    (segments : segs ≠ []) (order : InOrder msgID segs.length 0 (segs.map (·.blockInfo)))
    (small : segs.length < 2 ^ 16) (enough : segs.length ≤ numConsSlabs) :
    findMessage numConsSlabs segs = (some segs, [], []) := by
  cases segs with
  | nil => exact absurd rfl segments
  | cons seg0 segs =>
    obtain ⟨messageID, segmentNumber, numSegments, rest⟩ := order
    have number : seg0.blockInfo.numSegments.toNat = (seg0 :: segs).length := by
      rw [numSegments, UInt16.toNat_ofNat', Nat.mod_eq_of_lt small]
    have first : ¬ (seg0.blockInfo.segmentNumber ≠ 0 ∨ (seg0 :: segs).length = 0 ∨
        numConsSlabs < (seg0 :: segs).length) := by
      rintro (later | none | more)
      · exact later segmentNumber
      · cases none
      · omega
    have matching : countMatches seg0.blockInfo 1 segs = (seg0 :: segs).length := by
      apply countMatches_all (messageID ▸ rest) numSegments small
      rw [List.length_cons, Nat.add_comm]
    unfold findMessage
    dsimp only
    rw [number, if_neg first, if_neg (Nat.lt_irrefl _), matching, if_neg (Nat.lt_irrefl _),
      List.take_length, List.drop_length]

/-- A message comes back as it was sent if its segments can be counted in 16
bits, in whatever batches they come. -/
theorem reassembles_iff {desc : List SendMsgSegment} {len : Nat} {sent : List (Nat × BlockInfo)}
    (sends : ClientImpl.sendDescriptor msgID desc len = some sent) (small : len < 2 ^ 32)
    (r : ClientRecvManager) (pending : r.pendingSegs = []) (message : r.pendingMsg = none)
    (enough : sent.length ≤ r.numConsSlabs) (batches : List (List RcvdBlock))
    (delivered : batches.flatten.map RcvdBlock.sent = sent) :
    (∃ msg r', (batches.foldl addSegments r).getMessageDescriptor = (some msg, r') ∧
      r'.pendingSegs = [] ∧ Reassembled msgID len batches.flatten msg) ↔
    sent.length < 2 ^ 16 := by
  have waits := (waits_empty pending message).foldl_addSegments batches
  generalize batches.foldl addSegments r = r₁ at waits ⊢
  rw [List.nil_append] at waits
  constructor
  · rintro ⟨msg, r', got, -, whole⟩
    have short := waits.length_message got
    have length := congrArg List.length whole.exactly
    have count := congrArg List.length delivered
    rw [List.length_map] at length count
    omega
  · intro fits
    have count : r₁.pendingSegs.length = sent.length := by
      rw [← delivered, ← waits.pending, List.length_map, List.length_map]
    rw [getMessageDescriptor, waits.message]
    obtain ⟨segments, order⟩ := ClientImpl.inOrder_sendDescriptor sends
    have infos : sent.map (·.2) = (r₁.pendingSegs.map (·.blockInfo)).map fun info =>
        { info with crc32c := 0 } := by
      rw [← delivered, ← waits.pending]
      simp only [List.map_map]
      rfl
    rw [infos, inOrder_crc32c, ← count] at order
    have some : r₁.pendingSegs ≠ [] := by
      rw [← List.length_pos_iff, count]
      exact List.length_pos_of_ne_nil segments
    rw [findMessage_all some order (count ▸ fits) (by rw [count, waits.slabs]; exact enough)]
    refine ⟨_, _, rfl, rfl, waits.pending, ?_, ?_⟩
    · intro seg mem
      exact order.messageID _ (List.mem_map_of_mem mem)
    · have sizes : r₁.pendingSegs.map (·.size.toNat) = sent.map (·.2.size.toNat) := by
        have same : sent.map (·.2.size.toNat) = (sent.map (·.2)).map (·.size.toNat) := by
          rw [List.map_map]
          rfl
        rw [same, infos]
        simp only [List.map_map]
        apply List.map_congr_left
        intro seg mem
        exact congrArg UInt32.toNat (waits.sizes seg mem)
      rw [sizes]
      exact ClientImpl.sum_sizes_sendDescriptor small sends

/-- Ten bytes in blocks 3 and 4, of eight bytes each. -/
def twoBlocks : List RcvdBlock := [⟨3, 24, ⟨7, 8, 0, 0, 2, 0⟩⟩, ⟨4, 32, ⟨7, 2, 0, 1, 2, 0⟩⟩]

theorem reassembles_iff_twoBlocks :
    (∃ msg r', ([twoBlocks.take 1, twoBlocks.drop 1].foldl addSegments
        { numConsSlabs := 2 }).getMessageDescriptor = (some msg, r') ∧ r'.pendingSegs = [] ∧
      Reassembled 7 10 [twoBlocks.take 1, twoBlocks.drop 1].flatten msg) ↔
    (twoBlocks.map RcvdBlock.sent).length < 2 ^ 16 :=
  have sends : ClientImpl.sendDescriptor 7 [⟨3, 8⟩, ⟨4, 8⟩] 10 =
      some (twoBlocks.map RcvdBlock.sent) := by decide
  reassembles_iff sends (by decide) { numConsSlabs := 2 } rfl rfl (by decide) _ rfl

/-- 65536 blocks of 8192 bytes, all full: their number is 0 in the infos. -/
theorem not_reassembles : ¬ ∀ msgID desc len sent,
    ClientImpl.sendDescriptor msgID desc len = some sent → len < 2 ^ 32 →
      ∀ r : ClientRecvManager, r.pendingSegs = [] → r.pendingMsg = none →
        sent.length ≤ r.numConsSlabs → ∀ batches : List (List RcvdBlock),
          batches.flatten.map RcvdBlock.sent = sent →
            ∃ msg r', (batches.foldl addSegments r).getMessageDescriptor = (some msg, r') ∧
              r'.pendingSegs = [] ∧ Reassembled msgID len batches.flatten msg := by
  intro all
  have count : ((List.range 65536).map (SendMsgSegment.mk · 8192)).length = 65536 := by
    rw [List.length_map, List.length_range]
  have segments : (List.range 65536).map (SendMsgSegment.mk · 8192) ≠ [] := by
    intro none
    rw [none] at count
    cases count
  have sizes : ∀ seg ∈ (List.range 65536).map (SendMsgSegment.mk · 8192), seg.size = 8192 := by
    intro seg mem
    obtain ⟨blockID, -, rfl⟩ := List.mem_map.mp mem
    rfl
  obtain ⟨sent, sends, length⟩ := ClientImpl.sendDescriptor_full 7 8192 segments (by decide) sizes
  rw [count] at sends length
  have delivered := ClientImpl.map_sent_sendDescriptor sends 0
  generalize (sent.map fun (blockID, info) => RcvdBlock.mk blockID 0 info) = blocks at delivered
  have waits := (waits_empty (r := { numConsSlabs := 65536 }) rfl rfl).foldl_addSegments [blocks]
  obtain ⟨msg, r', got, -, whole⟩ := all 7 _ _ sent sends (by decide) { numConsSlabs := 65536 }
    rfl rfl length.le [blocks] (by rw [List.flatten_singleton, delivered])
  have short := waits.length_message got
  have all := congrArg List.length whole.exactly
  have many := congrArg List.length delivered
  rw [List.flatten_singleton, List.length_map] at all
  rw [List.length_map] at many
  omega

end ClientRecvManager
end Mcsb
