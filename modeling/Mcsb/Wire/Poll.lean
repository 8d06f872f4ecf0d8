import Mcsb.Wire.Protocol

/-!
# Receiving

`SocketEndpoint::Poll` and `Parse`. The receive buffer is split at the parse
position into the bytes already taken and the bytes still to parse; IDs have
their slab masks taken out in place. `calls` records what `Parse` called.
-/

namespace Mcsb
open LittleEndian

/-- The virtual handlers of an endpoint, over whatever state they keep. -/
structure Handlers (σ : Type) where
  handleBlockIDs : σ → List UInt32 → Except String σ
  handleSlabIDs : σ → List UInt32 → Except String σ
  handle : σ → HandlerCall → Except String σ

/-- A call `Parse` made. -/
inductive Call where
  | blockIDs (ids : List UInt32)
  | slabIDs (ids : List UInt32)
  | ctrlMsg (msg : CtrlMsg)
  deriving DecidableEq, Repr

/-- What the handlers of an endpoint see and change. -/
structure Peer (σ : Type) where
  validPeer : Bool
  user : σ
  calls : List Call

section
variable {σ : Type}

/-- `LocalHandleCtrlMsg`, with `ptr` the receive buffer from the payload on. -/
def localHandleCtrlMsg (h : Handlers σ) (peer : Peer σ) (msgID : UInt16) (ptr : List UInt8)
    (len : Nat) : Except String (Peer σ) :=
  if !peer.validPeer && decide (msgID ≠ kCtrlMsgID_ValidatePeer) then
    .error "peer protocol error: Startup message required"
  else
    match dispatch msgID ptr len with
    | .error e => .error e
    | .ok (.validatePeer magic version) =>
      if magic ≠ kProtocolMagic then .error s!"invalid kProtocolMagic: {magic}"
      else if version ≠ kProtocolVersion then
        .error s!"invalid kProtocolVersion: {version} (expect {kProtocolVersion})"
      else .ok { peer with validPeer := true }
    | .ok call => (h.handle peer.user call).map fun user => { peer with user }

/-- The number of IDs at the front of the bytes that are neither a control
token nor of the other kind than `first`. -/
def runLength (first : Option UInt32) : List UInt8 → Nat
  | a :: b :: c :: d :: rest =>
    let word := get32 [a, b, c, d]
    if word = kToken then 0
    else match first with
      | none => runLength (some word) rest + 1
      | some f => if f &&& kSlabMask ≠ word &&& kSlabMask then 0 else runLength first rest + 1
  | _ => 0

theorem runLength_le (first : Option UInt32) (data : List UInt8) :
    4 * runLength first data ≤ data.length := by
  fun_induction runLength first data <;> simp_all <;> omega

/-- A state of `Parse`. `consumed` and `rest` are the buffer before and from
the parse position, `thrown` the exception a handler let out. -/
structure Parsed (σ : Type) where
  peer : Peer σ
  consumed : List UInt8
  rest : List UInt8
  thrown : Option String := none

/-- The loop of `Parse`. `stale` is what the buffer holds past `recvBufLen`. -/
def parseLoop (h : Handlers σ) (stale : List UInt8) (peer : Peer σ) (consumed data : List UInt8) :
    Parsed σ :=
  let count := runLength none data
  if _ : 0 < count then
    let ids := getArray 4 get32 count data
    if !peer.validPeer then
      -- LocalHandleCtrlMsg(-1,0,0), to let it throw
      match localHandleCtrlMsg h peer 0xFFFF [] 0 with
      | .error e => ⟨peer, consumed, data, some e⟩
      | .ok peer => ⟨peer, consumed, data, none⟩
    else if (get32 data) &&& kSlabMask ≠ 0 then
      let slabIDs := ids.map (· &&& ~~~kSlabMask)
      let taken := consumed ++ array word32 slabIDs
      match h.handleSlabIDs peer.user slabIDs with
      | .error e => ⟨{ peer with calls := peer.calls ++ [.slabIDs slabIDs] }, taken,
          data.drop (4 * count), some e⟩
      | .ok user => parseLoop h stale
          { peer with user, calls := peer.calls ++ [.slabIDs slabIDs] } taken
          (data.drop (4 * count))
    else
      let taken := consumed ++ data.take (4 * count)
      match h.handleBlockIDs peer.user ids with
      | .error e => ⟨{ peer with calls := peer.calls ++ [.blockIDs ids] }, taken,
          data.drop (4 * count), some e⟩
      | .ok user => parseLoop h stale
          { peer with user, calls := peer.calls ++ [.blockIDs ids] } taken
          (data.drop (4 * count))
  else if _ : data.length < sizeofCtrlMsgHdr then ⟨peer, consumed, data, none⟩
  else
    let msgID := get16 (data.drop 4)
    let length := (get16 (data.drop 6)).toNat
    let msgSize := sizeofCtrlMsgHdr + length
    if length % 4 ≠ 0 then
      ⟨peer, consumed, data, some "assert(!(hdr->length & (sizeof(uint32_t)-1)))"⟩
    else if data.length < msgSize then ⟨peer, consumed, data, none⟩
    else if kMaxPayloadSize < length then
      ⟨peer, consumed, data,
        some "protocol error: control message len>CtrlMsgHdr::kMaxPayloadSize"⟩
    else
      let ptr := data.drop sizeofCtrlMsgHdr ++ stale
      let call := Call.ctrlMsg ⟨msgID, ptr.take length⟩
      match localHandleCtrlMsg h peer msgID ptr length with
      | .error e => ⟨{ peer with calls := peer.calls ++ [call] }, consumed, data, some e⟩
      | .ok peer' => parseLoop h stale { peer' with calls := peer.calls ++ [call] }
          (consumed ++ data.take msgSize) (data.drop msgSize)
termination_by data.length
decreasing_by
  all_goals
    have hle := runLength_le none data
    simp_all only [List.length_drop, sizeofCtrlMsgHdr]
    omega

/-- The receiving side of a `SocketEndpoint`: `recvBuf` is the whole vector. -/
structure Endpoint (σ : Type) where
  recvBuf : List UInt8
  recvBufLen : Nat
  peer : Peer σ

/-- A new endpoint: the buffer has room for at least one control message. -/
def Endpoint.new (user : σ) (recvBufCap : Nat) : Endpoint σ where
  recvBuf := List.replicate (max recvBufCap kMaxCtrlMsgSize) 0
  recvBufLen := 0
  peer := { validPeer := false, user, calls := [] }

inductive PollResult (σ : Type) where
  | returned (ep : Endpoint σ)
  | closed (ep : Endpoint σ)
  | threw (err : String) (ep : Endpoint σ)

/-- The while loop of `Poll`: call `Parse` until it consumes nothing, moving
the unconsumed bytes down after each call. -/
def parseAll (h : Handlers σ) (ep : Endpoint σ) : PollResult σ :=
  let data := ep.recvBuf.take ep.recvBufLen
  let stale := ep.recvBuf.drop ep.recvBufLen
  let res := parseLoop h stale ep.peer [] data
  match res.thrown with
  | some e => .threw e { ep with recvBuf := res.consumed ++ res.rest ++ stale, peer := res.peer }
  | none =>
    if _ : res.rest.length < ep.recvBufLen then
      let buf := res.consumed ++ res.rest ++ stale
      parseAll h
        { recvBuf := res.rest ++ buf.drop res.rest.length
          recvBufLen := res.rest.length
          peer := res.peer }
    else .returned { ep with peer := res.peer }
termination_by ep.recvBufLen

/-- One `Poll` in which `recv` put `chunk` into the buffer. Zero bytes mean
that the peer has closed, or that the buffer had no room. -/
def poll (h : Handlers σ) (ep : Endpoint σ) (chunk : List UInt8) : PollResult σ :=
  if chunk = [] then .closed ep
  else parseAll h
    { ep with
      recvBuf := ep.recvBuf.take ep.recvBufLen ++ chunk ++
        ep.recvBuf.drop (ep.recvBufLen + chunk.length)
      recvBufLen := ep.recvBufLen + chunk.length }

/-- Polling again and again, on a socket with `stream` still to come. The
`k`s are how many bytes the socket has ready each time; `recv` returns as many
of them as the buffer has room for, and `EAGAIN` when none is ready. -/
def polls (h : Handlers σ) : List Nat → Endpoint σ → List UInt8 → PollResult σ × List UInt8
  | [], ep, stream => (.returned ep, stream)
  | k :: ks, ep, stream =>
    if k = 0 ∨ stream = [] then polls h ks ep stream
    else
      let n := min k (ep.recvBuf.length - ep.recvBufLen)
      match poll h ep (stream.take n) with
      | .returned ep => polls h ks ep (stream.drop n)
      | result => (result, stream.drop n)

end

end Mcsb
