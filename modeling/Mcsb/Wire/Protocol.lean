import Mcsb.Lib.LittleEndian

/-!
# The socket protocol

Constants and records of `SocketProtocol.h` and `ShmDefs.h`, the framing of a
control message, and `dispatch`: the switch of `LocalHandleCtrlMsg`, from a
message ID and the memory at its payload to the handler that is called.
-/

namespace Mcsb
open LittleEndian

def kProtocolMagic : UInt32 := 0x4253434D
def kProtocolVersion : UInt32 := 1

/-- A slab ID on the wire has this bit set, a block ID has it clear. -/
def kSlabMask : UInt32 := 0x80000000

/-- The word that marks a control message. -/
def kToken : UInt32 := 0xFFFFFFFF

def kMaxPayloadSize : Nat := 1024
def sizeofCtrlMsgHdr : Nat := 8
def kMaxCtrlMsgSize : Nat := sizeofCtrlMsgHdr + kMaxPayloadSize

def kCtrlMsgID_ValidatePeer : UInt16 := 0
def kCtrlMsgID_CtrlString : UInt16 := 1
def kCtrlMsgID_BlocksAndInfo : UInt16 := 2
def kCtrlMsgID_NumSlabs : UInt16 := 3
def kCtrlMsgID_SequenceToken : UInt16 := 4
def kCtrlMsgID_ClientPID : UInt16 := 5
def kCtrlMsgID_ClientID : UInt16 := 6
def kCtrlMsgID_GroupID : UInt16 := 7
def kCtrlMsgID_ManagerEcho : UInt16 := 8
def kCtrlMsgID_DropReport : UInt16 := 9
def kCtrlMsgID_DropReportAck : UInt16 := 10
def kCtrlMsgID_RegistrationsWanted : UInt16 := 11
def kCtrlMsgID_Registration : UInt16 := 40
def kCtrlMsgID_ProdNiceLevel : UInt16 := 44

/-- The type of a registration message. -/
inductive RegType where
  | registerList
  | deregisterList
  | registerAllMsgs
  deriving DecidableEq, Repr

/-- Per-block record in shared memory; `sendTime` is the bits of a double. -/
structure BlockInfo where
  messageID : UInt32
  size : UInt32
  crc32c : UInt32
  segmentNumber : UInt16
  numSegments : UInt16
  sendTime : UInt64
  deriving DecidableEq, Repr, Inhabited

def sizeofBlockInfo : Nat := 24

def BlockInfo.bytes (b : BlockInfo) : List UInt8 :=
  word32 b.messageID ++ (word32 b.size ++ (word32 b.crc32c ++
    (word16 b.segmentNumber ++ (word16 b.numSegments ++ word64 b.sendTime))))

def BlockInfo.ofBytes (mem : List UInt8) : BlockInfo where
  messageID := get32 mem
  size := get32 (mem.drop 4)
  crc32c := get32 (mem.drop 8)
  segmentNumber := get16 (mem.drop 12)
  numSegments := get16 (mem.drop 14)
  sendTime := get64 (mem.drop 16)

@[simp] theorem BlockInfo.length_bytes (b : BlockInfo) : b.bytes.length = sizeofBlockInfo := by
  simp [BlockInfo.bytes, sizeofBlockInfo]

theorem BlockInfo.ofBytes_bytes (b : BlockInfo) (rest : List UInt8) :
    BlockInfo.ofBytes (b.bytes ++ rest) = b := by
  cases b
  simp [BlockInfo.bytes, BlockInfo.ofBytes]

/-- A control message: what `SendCtrlMsg` puts on the wire. -/
structure CtrlMsg where
  msgID : UInt16
  payload : List UInt8
  deriving DecidableEq, Repr

/-- Header (token, message ID, length), then the payload. -/
def CtrlMsg.bytes (m : CtrlMsg) : List UInt8 :=
  word32 kToken ++ (word16 m.msgID ++ (word16 (UInt16.ofNat m.payload.length) ++ m.payload))

@[simp] theorem CtrlMsg.length_bytes (m : CtrlMsg) :
    m.bytes.length = sizeofCtrlMsgHdr + m.payload.length := by
  simp [CtrlMsg.bytes, sizeofCtrlMsgHdr]
  omega

/-- The virtual handler a control message ends in, with its arguments. -/
inductive HandlerCall where
  | blocksAndInfo (blocks : List UInt32) (info : List BlockInfo)
  | managerEcho (bytes : List UInt8)
  | sequenceToken (token : UInt32)
  | registration (type : RegType) (clientID groupID : Int16) (msgIDs : List UInt32)
  | dropReport (segs bytes : UInt32)
  | dropReportAck
  | ctrlString (which : UInt32) (str : List UInt8)
  | validatePeer (magic version : UInt32)
  | numSlabs (prodSlabs consSlabs : UInt32)
  | clientID (id : Int16)
  | groupID (id : Int16)
  | clientPID (pid : UInt32)
  | registrationsWanted (wantNew wantCurrent : Bool)
  | prodNiceLevel (level : Int32)
  | ctrlMsg (msgID : UInt16) (bytes : List UInt8)
  deriving DecidableEq, Repr

/-- The BlocksAndInfo case: the block IDs, then the infos. -/
def dispatchBlocksAndInfo (ptr : List UInt8) (len : Nat) : Except String HandlerCall :=
  let unitSize := 4 + sizeofBlockInfo
  let count := len / unitSize
  if len ≠ count * unitSize then
    .error s!"error: kCtrlMsgID_BlocksAndInfo with len({len}) not a multiple of {unitSize}"
  else
    .ok (.blocksAndInfo (getArray 4 get32 count ptr)
      (getArray sizeofBlockInfo BlockInfo.ofBytes count (ptr.drop (4 * count))))

/-- The three Registration cases: a header of two 16-bit IDs, then message IDs. -/
def dispatchRegistration (type : RegType) (ptr : List UInt8) (len : Nat) :
    Except String HandlerCall :=
  if len < 4 then .error "error: payload smaller than RegistrationMsgHdr"
  else
    let count := (len - 4) / 4
    if len ≠ 4 + count * 4 then .error "error: registration message invalid size"
    else .ok (.registration type (get16 ptr).toInt16 (get16 (ptr.drop 2)).toInt16
      (getArray 4 get32 count (ptr.drop 4)))

/-- The switch of `LocalHandleCtrlMsg`. `ptr` is the receive buffer from the
payload on, including whatever stands after the payload. -/
def dispatch (msgID : UInt16) (ptr : List UInt8) (len : Nat) : Except String HandlerCall :=
  if msgID = kCtrlMsgID_BlocksAndInfo then dispatchBlocksAndInfo ptr len
  else if msgID = kCtrlMsgID_ManagerEcho then .ok (.managerEcho (ptr.take len))
  else if msgID = kCtrlMsgID_SequenceToken then
    if len ≠ 4 then .error "kCtrlMsgID_SequenceToken message invalid size"
    else .ok (.sequenceToken (get32 ptr))
  else if msgID = kCtrlMsgID_Registration then dispatchRegistration .registerList ptr len
  else if msgID = kCtrlMsgID_Registration + 1 then dispatchRegistration .deregisterList ptr len
  else if msgID = kCtrlMsgID_Registration + 2 then dispatchRegistration .registerAllMsgs ptr len
  else if msgID = kCtrlMsgID_DropReport then
    if len ≠ 8 then .error "kCtrlMsgID_DropReport message invalid size"
    else .ok (.dropReport (get32 ptr) (get32 (ptr.drop 4)))
  else if msgID = kCtrlMsgID_DropReportAck then
    if len ≠ 0 then .error "kCtrlMsgID_DropReportAck message invalid size"
    else .ok .dropReportAck
  else if msgID = kCtrlMsgID_CtrlString then
    -- no length check: both reads go as far as memory lets them
    .ok (.ctrlString (get32 ptr) ((ptr.drop 4).takeWhile (· ≠ 0)))
  else if msgID = kCtrlMsgID_ValidatePeer then
    if len ≠ 8 then .error "error: kCtrlMsgID_ValidatePeer message invalid size"
    else .ok (.validatePeer (get32 ptr) (get32 (ptr.drop 4)))
  else if msgID = kCtrlMsgID_NumSlabs then
    if len ≠ 8 then .error "kCtrlMsgID_NumSlabs incorrect size"
    else .ok (.numSlabs (get32 ptr) (get32 (ptr.drop 4)))
  else if msgID = kCtrlMsgID_ClientID then
    if len ≠ 4 then .error "kCtrlMsgID_ClientID incorrect size"
    else .ok (.clientID (get32 ptr).toUInt16.toInt16)
  else if msgID = kCtrlMsgID_GroupID then
    if len ≠ 4 then .error "kCtrlMsgID_GroupID incorrect size"
    else .ok (.groupID (get32 ptr).toUInt16.toInt16)
  else if msgID = kCtrlMsgID_ClientPID then
    if len ≠ 4 then .error "kCtrlMsgID_ClientID incorrect size"
    else .ok (.clientPID (get32 ptr))
  else if msgID = kCtrlMsgID_RegistrationsWanted then
    if len ≠ 4 then .error "kCtrlMsgID_RegistrationsWanted incorrect size"
    else .ok (.registrationsWanted (ptr.headD 0 ≠ 0) ((ptr.drop 1).headD 0 ≠ 0))
  else if msgID = kCtrlMsgID_ProdNiceLevel then
    if len ≠ 4 then .error "kCtrlMsgID_ProdNiceLevel incorrect size"
    else .ok (.prodNiceLevel (get32 ptr).toInt32)
  else .ok (.ctrlMsg msgID (ptr.take len))

/-- The payload of a BlocksAndInfo frame: the block IDs, then the infos. -/
def blocksAndInfoPayload (blocks : List UInt32) (info : List BlockInfo) : List UInt8 :=
  array word32 blocks ++ array BlockInfo.bytes info

theorem length_blocksAndInfoPayload (blocks : List UInt32) (info : List BlockInfo)
    (same : blocks.length = info.length) :
    (blocksAndInfoPayload blocks info).length = 28 * blocks.length := by
  rw [blocksAndInfoPayload, List.length_append, length_array length_word32,
    length_array BlockInfo.length_bytes, ← same, sizeofBlockInfo]
  omega

/-- A BlocksAndInfo frame is handled as the blocks and infos put into it. -/
theorem dispatch_blocksAndInfo (blocks : List UInt32) (info : List BlockInfo)
    (same : blocks.length = info.length) (after : List UInt8) :
    dispatch kCtrlMsgID_BlocksAndInfo (blocksAndInfoPayload blocks info ++ after)
      (blocksAndInfoPayload blocks info).length = .ok (.blocksAndInfo blocks info) := by
  have count : 28 * blocks.length / (4 + sizeofBlockInfo) = blocks.length := by
    simp only [sizeofBlockInfo]
    omega
  have sized : 28 * blocks.length = blocks.length * (4 + sizeofBlockInfo) := by
    simp only [sizeofBlockInfo]
    omega
  have front : (blocksAndInfoPayload blocks info ++ after).drop (4 * blocks.length) =
      array BlockInfo.bytes info ++ after := by
    rw [blocksAndInfoPayload, List.append_assoc,
      List.drop_left' (length_array length_word32 blocks)]
  have ids : getArray 4 get32 blocks.length (blocksAndInfoPayload blocks info ++ after) = blocks := by
    rw [blocksAndInfoPayload, List.append_assoc]
    exact getArray_array length_word32 get32_word32 blocks _
  have infos : getArray sizeofBlockInfo BlockInfo.ofBytes blocks.length
      (array BlockInfo.bytes info ++ after) = info := by
    rw [same]
    exact getArray_array BlockInfo.length_bytes BlockInfo.ofBytes_bytes info _
  rw [length_blocksAndInfoPayload blocks info same]
  simp only [dispatch, dispatchBlocksAndInfo, count, front, ids, infos, ← sized, ne_eq,
    not_true_eq_false, if_true, if_false]

end Mcsb
