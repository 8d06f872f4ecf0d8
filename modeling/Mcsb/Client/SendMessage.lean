import Mcsb.Manager.Segments
import Mcsb.Lib.LittleEndian

/-!
# Sending a message

The copying `ClientImpl::SendMessage`, the infos it fills out, and `SendCCI`,
which is meant to send a header and a payload through it.
-/

namespace Mcsb
open LittleEndian

/-- A segment of a send descriptor: the block of its buffer, and the buffer's size. -/
structure SendMsgSegment where
  blockID : Nat
  size : Nat
  deriving DecidableEq, Repr

/-- What is in the blocks, byte by byte. -/
abbrev BlockBytes := Nat → Nat → UInt8

namespace BlockBytes

/-- `memcpy` to the start of a block. -/
def copy (blocks : BlockBytes) (blockID : Nat) (src : List UInt8) : BlockBytes :=
  Function.update blocks blockID fun i => src.getD i (blocks blockID i)

def bytes (blocks : BlockBytes) (blockID n : Nat) : List UInt8 :=
  (List.range n).map (blocks blockID)

/-- The client-to-client header that a block starts with. -/
def cciHeader (blocks : BlockBytes) (blockID : Nat) : CCIHeader where
  srcClientID := UInt16.ofNat (read ((blocks.bytes blockID 8).drop 4 |>.take 2))
  dstClientID := UInt16.ofNat (read ((blocks.bytes blockID 8).drop 6))

end BlockBytes

namespace ClientImpl

/-- The copying loop of `SendMessage(msgID, msg, len)`: `none` is running off the
end of the descriptor. -/
def copyLoop : List SendMsgSegment → List UInt8 → BlockBytes → Option BlockBytes
  | _, [], blocks => some blocks
  | [], _ :: _, _ => none
  | seg :: segs, src, blocks =>
    copyLoop segs (src.drop seg.size) (blocks.copy seg.blockID (src.take seg.size))

/-- The loop over the segments of `SendMessage(msgID, desc, len)`, from segment
`segIdx` on: `none` is the message that did not fit in the descriptor. -/
def infoLoop (msgID : UInt32) : Nat → List SendMsgSegment → Nat → Option (List (Nat × BlockInfo))
  | _, [], bytesLeft => if bytesLeft = 0 then some [] else none
  | segIdx, seg :: segs, bytesLeft =>
    let segBytes := min bytesLeft seg.size
    let info : BlockInfo :=
      { messageID := msgID, size := UInt32.ofNat segBytes, crc32c := 0
        segmentNumber := UInt16.ofNat segIdx, numSegments := 0, sendTime := 0 }
    if bytesLeft - segBytes = 0 then some [(seg.blockID, info)]
    else (infoLoop msgID (segIdx + 1) segs (bytesLeft - segBytes)).map ((seg.blockID, info) :: ·)

/-- `SendMessage(msgID, desc, len)` without checksums: the blocks and infos sent. -/
def sendDescriptor (msgID : UInt32) (desc : List SendMsgSegment) (len : Nat) :
    Option (List (Nat × BlockInfo)) :=
  if desc = [] then none
  else (infoLoop msgID 0 desc len).map fun sent =>
    sent.map fun (blockID, info) => (blockID, { info with numSegments := UInt16.ofNat sent.length })

/-- `SendMessage(msgID, msg, len)`, when `GetSendMsgDesc` comes back with `desc`.
The bytes are those at `msg`, of which it takes `len`. -/
def sendMessage (msgID : UInt32) (msg : List UInt8) (len : Nat) (desc : List SendMsgSegment)
    (blocks : BlockBytes) : Option (BlockBytes × List (Nat × BlockInfo)) := do
  let blocks ← copyLoop desc (msg.take len) blocks
  let sent ← sendDescriptor msgID desc len
  return (blocks, sent)

/-- The bytes of `CCIHeader(cciMsgID, src, dst)`. -/
def cciHeaderBytes (cciMsgID : UInt32) (srcClientID dstClientID : UInt16) : List UInt8 :=
  word32 cciMsgID ++ (write 2 srcClientID.toNat ++ write 2 dstClientID.toNat)

/-- The array `iov` of `SendCCI` in memory: two addresses, each with its length. -/
def iovBytes (hdr msg : UInt64) (len : Nat) : List UInt8 :=
  write 8 hdr.toNat ++ (write 8 8 ++ (write 8 msg.toNat ++ write 8 len))

/-- `SendCCI`, with the header at address `hdr` and `len` bytes of payload at
`msg`. It passes `&iov`, which is no `const iovec*` but converts to the `const
void*` of the other overload, with `2` as the length. -/
def sendCCI (hdr msg : UInt64) (len : Nat) (desc : List SendMsgSegment) (blocks : BlockBytes) :
    Option (BlockBytes × List (Nat × BlockInfo)) :=
  sendMessage kCCIMessageID (iovBytes hdr msg len) 2 desc blocks

/-- The bytes of a message, as its receiver puts them together. -/
def messageBytes (blocks : BlockBytes) (sent : List (Nat × BlockInfo)) : List UInt8 :=
  sent.flatMap fun (blockID, info) => blocks.bytes blockID info.size.toNat

/-- The segments as the manager sees them. -/
def segments (blocks : BlockBytes) (sent : List (Nat × BlockInfo)) : List Segment :=
  sent.map fun (blockID, info) => { blockID, info, cci := blocks.cciHeader blockID }

/-- The CCI message of client `c` to `dst` arrives: its bytes are the header and
the payload, the manager accepts it, and it is offered to those it is for. -/
structure CCIArrives (m : Manager) (c dst : UInt16) (cciMsgID : UInt32) (payload : List UInt8)
    (blocks : BlockBytes) (sent : List (Nat × BlockInfo)) : Prop where
  intact : messageBytes blocks sent = cciHeaderBytes cciMsgID c dst ++ payload
  accepted : ∃ m', handleBlocksAndInfo c.toNat (segments blocks sent) m = .ok ⟨⟩ m'
  offered : ∀ x ∈ m.clients, ∀ seg ∈ segments blocks sent,
    (m.proxy x).wants seg ↔ dst.toNat = x ∨ dst = 0xFFFF

section
variable {msgID : UInt32} {desc : List SendMsgSegment} {blocks blocks' : BlockBytes}
  {sent : List (Nat × BlockInfo)} {msg : List UInt8} {len : Nat}

/-- The sizes filled out are the length of the message. -/
theorem sum_sizes_infoLoop (small : len < 2 ^ 32) {segIdx : Nat}
    (h : infoLoop msgID segIdx desc len = some sent) :
    (sent.map (·.2.size.toNat)).sum = len := by
  induction desc generalizing segIdx len sent with
  | nil =>
    simp only [infoLoop] at h
    split at h
    · cases h
      simp_all
    · cases h
  | cons seg segs ih =>
    have fits : (UInt32.ofNat (min len seg.size)).toNat = min len seg.size := by
      rw [UInt32.toNat_ofNat']
      exact Nat.mod_eq_of_lt (by omega)
    simp only [infoLoop] at h
    split at h
    · cases h
      simp only [List.map_cons, List.map_nil, List.sum_cons, List.sum_nil, fits]
      omega
    · obtain ⟨rest, eq, rfl⟩ := Option.map_eq_some_iff.mp h
      have := ih (by omega) eq
      simp only [List.map_cons, List.sum_cons, fits, this]
      omega

theorem sum_sizes_sendDescriptor (small : len < 2 ^ 32)
    (h : sendDescriptor msgID desc len = some sent) :
    (sent.map (·.2.size.toNat)).sum = len := by
  simp only [sendDescriptor] at h
  split at h
  · cases h
  · obtain ⟨infos, eq, rfl⟩ := Option.map_eq_some_iff.mp h
    rw [List.map_map]
    exact sum_sizes_infoLoop small eq

theorem length_messageBytes (blocks : BlockBytes) (sent : List (Nat × BlockInfo)) :
    (messageBytes blocks sent).length = (sent.map (·.2.size.toNat)).sum := by
  rw [messageBytes, List.length_flatMap]
  simp [BlockBytes.bytes]

/-- A message has the length that `SendMessage` was given. -/
theorem length_sendMessage (small : len < 2 ^ 32)
    (h : sendMessage msgID msg len desc blocks = some (blocks', sent)) :
    (messageBytes blocks' sent).length = len := by
  simp only [sendMessage, Option.bind_eq_bind, Option.bind_eq_some_iff, Option.pure_def,
    Option.some.injEq, Prod.mk.injEq] at h
  obtain ⟨_, _, _, filled, _, rfl⟩ := h
  rw [length_messageBytes, sum_sizes_sendDescriptor small filled]

end

/-- No CCI message arrives, whatever its payload and wherever it lies: what is
sent is the first two bytes of an address. -/
theorem not_cciArrives (m : Manager) (c dst : UInt16) (cciMsgID : UInt32) (payload : List UInt8)
    (hdr msg : UInt64) (desc : List SendMsgSegment) (blocks : BlockBytes) :
    ¬ ∃ blocks' sent, sendCCI hdr msg payload.length desc blocks = some (blocks', sent) ∧
      CCIArrives m c dst cciMsgID payload blocks' sent := by
  rintro ⟨blocks', sent, sends, arrives⟩
  have two := length_sendMessage (by decide) sends
  have whole := congrArg List.length arrives.intact
  rw [two, List.length_append] at whole
  simp only [cciHeaderBytes, word32, List.length_append, length_write] at whole
  omega

/-- One byte of payload from client 1, in a descriptor with room for 4096. -/
theorem not_cciArrives_oneByte : ¬ ∃ m blocks' sent,
    sendCCI 0x7FFC1000ABCD 0x7FFC1000ABD8 1 [⟨0, 4096⟩] (fun _ _ => 0) = some (blocks', sent) ∧
      CCIArrives m 1 0 7 [42] blocks' sent := by
  rintro ⟨m, blocks', sent, sends, arrives⟩
  have whole := congrArg List.length arrives.intact
  rw [length_sendMessage (by decide) sends] at whole
  exact absurd whole (by decide)

example : (sendCCI 0x7FFC1000ABCD 0x7FFC1000ABD8 1 [⟨0, 4096⟩] (fun _ _ => 0)).map
    (fun (blocks, sent) => messageBytes blocks sent) = some [0xCD, 0xAB] := by decide

end ClientImpl

/-- No client is offered a message to `0xFFFF`: the broadcast ID it is compared
with has 32 bits. -/
theorem ClientProxy.not_wants_broadcast {p : ClientProxy} {seg : Segment}
    (cci : seg.info.messageID = kCCIMessageID) (bcast : seg.cci.dstClientID = 0xFFFF)
    (small : p.clientID ≤ kMaxClientID) : p.wants seg = false := by
  have ne : (0xFFFF : UInt16).toNat ≠ p.clientID := by
    have : (0xFFFF : UInt16).toNat = 65535 := rfl
    unfold kMaxClientID at small
    omega
  simp only [wants, cci, bcast, if_true, ne, decide_false, Bool.false_or]
  decide

end Mcsb
