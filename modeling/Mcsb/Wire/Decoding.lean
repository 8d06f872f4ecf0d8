import Mathlib.Data.List.TakeWhile
import Mcsb.Wire.SendBlocks
import Mcsb.Wire.Poll

/-!
# What a control frame decodes to

A frame is meant to be decoded from its own payload. `decodedAlone_iff` says
which frames are not, and `roundTrips_iff` which control strings come back as
they were sent: both fail where a string has no terminator in its frame.
-/

namespace LittleEndian

variable {α : Type} {mem after : List UInt8}

theorem get32_append (h : 4 ≤ mem.length) : get32 (mem ++ after) = get32 mem := by
  simp only [get32, List.take_append_of_le_length h]

theorem get16_append (h : 2 ≤ mem.length) : get16 (mem ++ after) = get16 mem := by
  simp only [get16, List.take_append_of_le_length h]

theorem get64_append (h : 8 ≤ mem.length) : get64 (mem ++ after) = get64 mem := by
  simp only [get64, List.take_append_of_le_length h]

/-- An array is read from its own records if each record is. -/
theorem getArray_append {size n : Nat} {dec : List UInt8 → α}
    (alone : ∀ {mem after}, size ≤ mem.length → dec (mem ++ after) = dec mem)
    (h : n * size ≤ mem.length) :
    getArray size dec n (mem ++ after) = getArray size dec n mem := by
  induction n generalizing mem with
  | zero => rfl
  | succ n ih =>
    have both : (n + 1) * size = n * size + size := Nat.succ_mul n size
    have first : size ≤ mem.length := by omega
    have rest : n * size ≤ (mem.drop size).length := by
      simp only [List.length_drop]
      omega
    simp only [getArray, alone first, List.drop_append_of_le_length first, ih rest]

/-- The words at the front of two memories are equal only if their bytes are. -/
theorem take_of_get32 {mem mem' : List UInt8} (h : 4 ≤ mem.length) (h' : 4 ≤ mem'.length)
    (same : get32 mem = get32 mem') : mem.take 4 = mem'.take 4 := by
  simpa only [word32_get32 h, word32_get32 h'] using congrArg word32 same

end LittleEndian

namespace Mcsb
open LittleEndian

theorem BlockInfo.ofBytes_append {mem after : List UInt8} (h : sizeofBlockInfo ≤ mem.length) :
    BlockInfo.ofBytes (mem ++ after) = BlockInfo.ofBytes mem := by
  have h : 24 ≤ mem.length := h
  have inside (n : Nat) (le : n ≤ 16) : (mem ++ after).drop n = mem.drop n ++ after :=
    List.drop_append_of_le_length (by omega)
  simp only [BlockInfo.ofBytes, inside _ (by omega : 4 ≤ 16), inside _ (by omega : 8 ≤ 16),
    inside _ (by omega : 12 ≤ 16), inside _ (by omega : 14 ≤ 16), inside _ (le_refl 16)]
  have left (n : Nat) : (mem.drop n).length = mem.length - n := List.length_drop
  congr 1
  · exact get32_append (by omega)
  · exact get32_append (by have := left 4; omega)
  · exact get32_append (by have := left 8; omega)
  · exact get16_append (by have := left 12; omega)
  · exact get16_append (by have := left 14; omega)
  · exact get64_append (by have := left 16; omega)

/-! ## Frames of fixed sizes and arrays -/

section
variable {payload after : List UInt8} {msgID : UInt16}

/-- Only payloads of one size get to the handler. -/
theorem sized_eq {n : Nat} {e : String} {call call' : HandlerCall}
    (same : payload.length = n → call = call') :
    (if payload.length ≠ n then .error e else .ok call : Except String HandlerCall) =
      if payload.length ≠ n then .error e else .ok call' := by
  split
  · rfl
  · rename_i size
    exact congrArg Except.ok (same (not_not.mp size))

theorem dispatchBlocksAndInfo_append :
    dispatchBlocksAndInfo (payload ++ after) payload.length =
      dispatchBlocksAndInfo payload payload.length := by
  have alone (count : Nat) (size : payload.length = count * (4 + sizeofBlockInfo)) :
      getArray 4 get32 count (payload ++ after) = getArray 4 get32 count payload ∧
      getArray sizeofBlockInfo BlockInfo.ofBytes count ((payload ++ after).drop (4 * count)) =
        getArray sizeofBlockInfo BlockInfo.ofBytes count (payload.drop (4 * count)) := by
    simp only [sizeofBlockInfo] at size ⊢
    have blocks : count * 4 ≤ payload.length := by omega
    have infos : count * 24 ≤ (payload.drop (4 * count)).length := by
      simp only [List.length_drop]
      omega
    have front : (payload ++ after).drop (4 * count) = payload.drop (4 * count) ++ after :=
      List.drop_append_of_le_length (by omega)
    constructor
    · exact getArray_append get32_append blocks
    · simp only [front]
      exact getArray_append BlockInfo.ofBytes_append infos
  simp only [dispatchBlocksAndInfo]
  split
  · rfl
  · rename_i size
    simp only [alone _ (not_not.mp size)]

theorem dispatchRegistration_append (type : RegType) :
    dispatchRegistration type (payload ++ after) payload.length =
      dispatchRegistration type payload payload.length := by
  have alone (size : payload.length = 4 + (payload.length - 4) / 4 * 4) :
      get16 (payload ++ after) = get16 payload ∧
      get16 ((payload ++ after).drop 2) = get16 (payload.drop 2) ∧
      getArray 4 get32 ((payload.length - 4) / 4) ((payload ++ after).drop 4) =
        getArray 4 get32 ((payload.length - 4) / 4) (payload.drop 4) := by
    have inside (n : Nat) (le : n ≤ 4) : (payload ++ after).drop n = payload.drop n ++ after :=
      List.drop_append_of_le_length (by omega)
    have group : 2 ≤ (payload.drop 2).length := by
      simp only [List.length_drop]
      omega
    have msgIDs : (payload.length - 4) / 4 * 4 ≤ (payload.drop 4).length := by
      simp only [List.length_drop]
      omega
    constructor
    · exact get16_append (by omega)
    simp only [inside 2 (by omega), inside 4 (by omega)]
    exact ⟨get16_append group, getArray_append get32_append msgIDs⟩
  simp only [dispatchRegistration]
  split
  · rfl
  split
  · rfl
  · rename_i size
    simp only [alone (not_not.mp size)]

/-- All messages but control strings are decoded from the payload. -/
theorem dispatch_append (other : msgID ≠ kCtrlMsgID_CtrlString) :
    dispatch msgID (payload ++ after) payload.length = dispatch msgID payload payload.length := by
  have word (size : payload.length = 4) : get32 (payload ++ after) = get32 payload :=
    get32_append size.ge
  have words (size : payload.length = 8) : get32 (payload ++ after) = get32 payload ∧
      get32 ((payload ++ after).drop 4) = get32 (payload.drop 4) := by
    have front : (payload ++ after).drop 4 = payload.drop 4 ++ after :=
      List.drop_append_of_le_length (by omega)
    have second : 4 ≤ (payload.drop 4).length := by
      simp only [List.length_drop]
      omega
    simp only [front]
    exact ⟨get32_append (by omega), get32_append second⟩
  have flags (size : payload.length = 4) : (payload ++ after).headD 0 = payload.headD 0 ∧
      ((payload ++ after).drop 1).headD 0 = (payload.drop 1).headD 0 := by
    match payload, size with
    | [_, _, _, _], _ => exact ⟨rfl, rfl⟩
  unfold dispatch
  simp only [List.take_left, List.take_length, dispatchBlocksAndInfo_append,
    dispatchRegistration_append, if_neg other]
  -- of the cases left, each is called only for payloads of one size
  congr! 1
  congr! 1
  congr! 1
  · exact sized_eq fun size => by simp only [word size]
  congr! 1
  congr! 1
  congr! 1
  congr! 1
  · exact sized_eq fun size => by simp only [words size]
  congr! 1
  congr! 1
  · exact sized_eq fun size => by simp only [words size]
  congr! 1
  · exact sized_eq fun size => by simp only [words size]
  congr! 1
  · exact sized_eq fun size => by simp only [word size]
  congr! 1
  · exact sized_eq fun size => by simp only [word size]
  congr! 1
  · exact sized_eq fun size => by simp only [word size]
  congr! 1
  · exact sized_eq fun size => by simp only [flags size]
  congr! 1
  · exact sized_eq fun size => by simp only [word size]

/-! ## Control strings

Only these are read up to a zero byte instead of up to the end of the payload. -/

/-- The C string at the front of memory. -/
def cString (mem : List UInt8) : List UInt8 := mem.takeWhile (· ≠ 0)

theorem cString_append_of_mem {mem after : List UInt8} (terminated : 0 ∈ mem) :
    cString (mem ++ after) = cString mem := by
  have short : (mem.takeWhile (· ≠ 0)).length ≠ mem.length := by
    intro all
    have whole := (List.takeWhile_prefix fun byte : UInt8 => byte ≠ 0).eq_of_length all
    simpa using List.takeWhile_eq_self_iff.mp whole 0 terminated
  simp only [cString, List.takeWhile_append, if_neg short]

theorem cString_append_of_notMem {mem after : List UInt8} (runsOn : 0 ∉ mem) :
    cString (mem ++ after) = mem ++ cString after := by
  apply List.takeWhile_append_of_pos
  intro byte mem
  simpa using ne_of_mem_of_not_mem mem runsOn

theorem dispatch_ctrlString (ptr : List UInt8) (len : Nat) :
    dispatch kCtrlMsgID_CtrlString ptr len =
      .ok (.ctrlString (get32 ptr) (cString (ptr.drop 4))) := rfl

/-- A payload with a whole word in front and a terminator somewhere after it. -/
def Terminated (payload : List UInt8) : Prop := 4 ≤ payload.length ∧ 0 ∈ payload.drop 4

instance : Decidable (Terminated payload) := inferInstanceAs (Decidable (_ ∧ _))

theorem dispatch_ctrlString_append (whole : Terminated payload) :
    dispatch kCtrlMsgID_CtrlString (payload ++ after) payload.length =
      .ok (.ctrlString (get32 payload) (cString (payload.drop 4))) := by
  simp only [dispatch_ctrlString, get32_append whole.1, List.drop_append_of_le_length whole.1,
    cString_append_of_mem whole.2]

/-- Two buffers that agree on the payload of any other control string can
still show the handler different arguments. -/
theorem dispatch_ctrlString_ne (runsOn : ¬ Terminated payload) :
    dispatch kCtrlMsgID_CtrlString (payload ++ [0, 0, 0, 0]) payload.length ≠
      dispatch kCtrlMsgID_CtrlString (payload ++ [1, 0, 0, 0]) payload.length := by
  intro same
  simp only [dispatch_ctrlString, Except.ok.injEq, HandlerCall.ctrlString.injEq] at same
  obtain ⟨which, str⟩ := same
  by_cases short : payload.length < 4
  · -- the first byte after the payload belongs to `which`
    have bytes := take_of_get32 (by simp) (by simp) which
    have first := congrArg (·[payload.length]?) bytes
    simp [short] at first
  · have long : 4 ≤ payload.length := Nat.not_lt.mp short
    have noZero : 0 ∉ payload.drop 4 := fun mem => runsOn ⟨long, mem⟩
    simp only [List.drop_append_of_le_length long, cString_append_of_notMem noZero,
      List.append_cancel_left_eq] at str
    exact absurd str (by decide)

end

/-- The peer's frame means the same whatever stands after it in the buffer: any
handlers are called alike, or the call throws alike. -/
def DecodedAlone (validPeer : Bool) (msgID : UInt16) (payload : List UInt8) : Prop :=
  ∀ {σ : Type} (h : Handlers σ) (peer : Peer σ), peer.validPeer = validPeer →
    ∀ after after', localHandleCtrlMsg h peer msgID (payload ++ after) payload.length =
      localHandleCtrlMsg h peer msgID (payload ++ after') payload.length

theorem decodedAlone_of_dispatch {validPeer : Bool} {msgID : UInt16} {payload : List UInt8}
    (alone : ∀ after, dispatch msgID (payload ++ after) payload.length =
      dispatch msgID payload payload.length) : DecodedAlone validPeer msgID payload := by
  intro σ h peer valid after after'
  simp only [localHandleCtrlMsg, alone]

/-- Handlers that record the calls made to them. -/
def recorder : Handlers (List HandlerCall) where
  handleBlockIDs calls _ := .ok calls
  handleSlabIDs calls _ := .ok calls
  handle calls call := .ok (calls ++ [call])

theorem not_decodedAlone_of_runsOn {payload : List UInt8} (runsOn : ¬ Terminated payload) :
    ¬ DecodedAlone true kCtrlMsgID_CtrlString payload := by
  intro alone
  have same := alone recorder ⟨true, [], []⟩ rfl [0, 0, 0, 0] [1, 0, 0, 0]
  apply dispatch_ctrlString_ne runsOn
  simpa [localHandleCtrlMsg, dispatch_ctrlString, recorder, Except.map] using same

/-- A frame is decoded from its own payload, except a control string that is
not terminated within it. -/
theorem decodedAlone_iff (validPeer : Bool) (msgID : UInt16) (payload : List UInt8) :
    DecodedAlone validPeer msgID payload ↔
      msgID ≠ kCtrlMsgID_CtrlString ∨ validPeer = false ∨ Terminated payload := by
  constructor
  · intro alone
    by_contra runsOn
    simp only [not_or, not_not, Bool.not_eq_false] at runsOn
    obtain ⟨rfl, rfl, open_⟩ := runsOn
    exact not_decodedAlone_of_runsOn open_ alone
  · rintro (other | stranger | whole)
    · exact decodedAlone_of_dispatch fun after => dispatch_append other
    · intro σ h peer valid after after'
      by_cases first : msgID = kCtrlMsgID_ValidatePeer
      · simp only [localHandleCtrlMsg, first, dispatch_append
          (show kCtrlMsgID_ValidatePeer ≠ kCtrlMsgID_CtrlString by decide)]
      · simp [localHandleCtrlMsg, valid, stranger, first]
    · by_cases string : msgID = kCtrlMsgID_CtrlString
      · subst string
        apply decodedAlone_of_dispatch
        intro after
        simp only [dispatch_ctrlString_append whole, dispatch_ctrlString]
      · exact decodedAlone_of_dispatch fun after => dispatch_append string

/-- A group name cut off by the end of its frame goes on with what an earlier
frame left in the buffer. -/
theorem not_decodedAlone :
    ¬ DecodedAlone true kCtrlMsgID_CtrlString (word32 1 ++ [0x67, 0x72, 0x6f, 0x75]) :=
  not_decodedAlone_of_runsOn (by decide)

/-! ## What becomes of a control string

Its length with the terminator is kept in 16 bits. -/

/-- The bytes of a C string, without the terminator. -/
structure CString where
  bytes : List UInt8
  nonzero : 0 ∉ bytes

/-- `SocketEndpoint::SendCtrlString`: the length includes the terminating null. -/
def sendCtrlString (which : UInt32) (str : CString) : Except String CtrlMsg :=
  let len := UInt16.ofNat (str.bytes.length + 1)
  -- zero pad up to a multiple of four bytes
  let pad := (-len &&& 3).toNat
  sendCtrlMsg kCtrlMsgID_CtrlString
    [word32 which, (str.bytes ++ [0]).take len.toNat, List.replicate pad 0]

/-- The string is refused, or sent in a frame that `Parse` takes and of which
any handlers see just this string. -/
def RoundTrips (which : UInt32) (str : CString) : Prop :=
  match sendCtrlString which str with
  | .error _ => True
  | .ok msg => msg.payload.length ≤ kMaxPayloadSize ∧ msg.payload.length % 4 = 0 ∧
    ∀ {σ : Type} (h : Handlers σ) (peer : Peer σ), peer.validPeer = true →
      ∀ after, localHandleCtrlMsg h peer msg.msgID (msg.payload ++ after) msg.payload.length =
        (h.handle peer.user (.ctrlString which str.bytes)).map fun user => { peer with user }

theorem pad_eq (len : UInt16) : (-len &&& 3).toNat = (4 - len.toNat % 4) % 4 := by
  have low : (-len &&& 3).toNat = (-len).toNat % 4 := by
    simp only [UInt16.toNat_and]
    exact Nat.and_two_pow_sub_one_eq_mod _ 2
  have neg : (-len).toNat = (2 ^ 16 - len.toNat) % 2 ^ 16 := UInt16.toNat_neg len
  have lt : len.toNat < 2 ^ 16 := len.toNat_lt
  omega

section
variable (which : UInt32) {str : CString} {len : Nat}

/-- The payload when `len` is what is left of the length. -/
def stringPayload (which : UInt32) (str : CString) (len : Nat) : List UInt8 :=
  word32 which ++ ((str.bytes ++ [0]).take len ++ List.replicate ((4 - len % 4) % 4) 0)

theorem length_stringPayload (le : len ≤ str.bytes.length + 1) :
    (stringPayload which str len).length = 4 + (len + (4 - len % 4) % 4) := by
  simp [stringPayload, Nat.min_eq_left le]

theorem sendCtrlString_eq (h : (str.bytes.length + 1) % 2 ^ 16 = len) :
    sendCtrlString which str =
      if len ≤ 1020 then .ok ⟨kCtrlMsgID_CtrlString, stringPayload which str len⟩
      else .error "protocol error: can't send control message larger than kMaxCtrlMsgSize" := by
  have le : len ≤ str.bytes.length + 1 := h ▸ Nat.mod_le _ _
  have low : (UInt16.ofNat (str.bytes.length + 1)).toNat = len := by
    simpa only [UInt16.toNat_ofNat'] using h
  have joined : [word32 which, (str.bytes ++ [0]).take len,
      List.replicate ((4 - len % 4) % 4) 0].flatten = stringPayload which str len := by
    simp only [stringPayload, List.flatten_cons, List.flatten_nil, List.append_nil]
  simp only [sendCtrlString, pad_eq, low, sendCtrlMsg, joined, length_stringPayload which le,
    kMaxPayloadSize]
  by_cases fits : len ≤ 1020
  · have small : ¬ 1024 < 4 + (len + (4 - len % 4) % 4) := by omega
    simp only [fits, small, if_true, if_false]
  · have large : 1024 < 4 + (len + (4 - len % 4) % 4) := by omega
    simp only [fits, large, if_true, if_false]

/-- A string whose length fits in 16 bits is handed over as it is. -/
theorem dispatch_stringPayload (after : List UInt8) :
    dispatch kCtrlMsgID_CtrlString (stringPayload which str (str.bytes.length + 1) ++ after)
      (stringPayload which str (str.bytes.length + 1)).length = .ok (.ctrlString which str.bytes) := by
  have payload : stringPayload which str (str.bytes.length + 1) =
      word32 which ++ (str.bytes ++ 0 :: List.replicate ((4 - (str.bytes.length + 1) % 4) % 4) 0) := by
    have whole : (str.bytes ++ [0]).take (str.bytes.length + 1) = str.bytes ++ [0] :=
      List.take_of_length_le (by simp)
    simp [stringPayload, whole]
  simp only [dispatch_ctrlString, payload, List.append_assoc, get32_word32, List.cons_append,
    List.drop_left' (length_word32 which), cString_append_of_notMem str.nonzero]
  simp [cString]

/-- Of a longer string only the first bytes are handed over. -/
theorem dispatch_stringPayload_cut (le : len ≤ str.bytes.length) :
    dispatch kCtrlMsgID_CtrlString (stringPayload which str len ++ [0])
      (stringPayload which str len).length = .ok (.ctrlString which (str.bytes.take len)) := by
  have nonzero : 0 ∉ str.bytes.take len := fun mem => str.nonzero (List.mem_of_mem_take mem)
  simp only [dispatch_ctrlString, stringPayload, List.append_assoc, get32_word32,
    List.drop_left' (length_word32 which), List.take_append_of_le_length le,
    cString_append_of_notMem nonzero]
  have zeros : List.replicate ((4 - len % 4) % 4) 0 ++ [0] =
      (0 : UInt8) :: List.replicate ((4 - len % 4) % 4) 0 := List.replicate_succ'.symm
  simp [zeros, cString]

theorem localHandleCtrlMsg_ctrlString {σ : Type} (h : Handlers σ) (peer : Peer σ)
    (valid : peer.validPeer = true) (ptr bytes : List UInt8) (n : Nat)
    (call : dispatch kCtrlMsgID_CtrlString ptr n = .ok (.ctrlString which bytes)) :
    localHandleCtrlMsg h peer kCtrlMsgID_CtrlString ptr n =
      (h.handle peer.user (.ctrlString which bytes)).map fun user => { peer with user } := by
  simp [localHandleCtrlMsg, valid, call]

theorem not_roundTrips_of_cut (h : (str.bytes.length + 1) % 2 ^ 16 = len) (fits : len ≤ 1020)
    (cut : len < str.bytes.length) : ¬ RoundTrips which str := by
  simp only [RoundTrips, sendCtrlString_eq which h, if_pos fits]
  rintro ⟨-, -, same⟩
  have call := localHandleCtrlMsg_ctrlString which recorder ⟨true, [], []⟩ rfl _ _ _
    (dispatch_stringPayload_cut which cut.le)
  have both := call.symm.trans (same recorder ⟨true, [], []⟩ rfl [0])
  have bytes : str.bytes.take len = str.bytes := by
    simpa [recorder, Except.map] using both
  have size := congrArg List.length bytes
  simp only [List.length_take] at size
  omega

end

/-- A control string comes back as it was, unless its length with the
terminator is over 16 bits and its low 16 bits are within the payload limit. -/
theorem roundTrips_iff (which : UInt32) (str : CString) :
    RoundTrips which str ↔
      str.bytes.length + 1 < 2 ^ 16 ∨ 1020 < (str.bytes.length + 1) % 2 ^ 16 := by
  have sent := sendCtrlString_eq which (Eq.refl ((str.bytes.length + 1) % 2 ^ 16))
  by_cases fits : (str.bytes.length + 1) % 2 ^ 16 ≤ 1020
  · by_cases small : str.bytes.length + 1 < 2 ^ 16
    · have low : (str.bytes.length + 1) % 2 ^ 16 = str.bytes.length + 1 := Nat.mod_eq_of_lt small
      have size := length_stringPayload which (le_refl (str.bytes.length + 1))
      have trips : RoundTrips which str := by
        simp only [RoundTrips, sent, low, if_pos (low ▸ fits), size, kMaxPayloadSize]
        constructor
        · omega
        constructor
        · omega
        intro σ h peer valid after
        simp only [← size]
        exact localHandleCtrlMsg_ctrlString which h peer valid _ _ _
          (dispatch_stringPayload which after)
      exact iff_of_true trips (.inl small)
    · exact iff_of_false (not_roundTrips_of_cut which rfl fits (by omega)) (by omega)
  · have trips : RoundTrips which str := by
      simp only [RoundTrips, sent, if_neg fits]
    exact iff_of_true trips (.inr (Nat.not_le.mp fits))

/-- A string of 65539 bytes, sent as its first four. -/
def longString : CString where
  bytes := List.replicate 65539 0x61
  nonzero mem := absurd (List.eq_of_mem_replicate mem) (by decide)

theorem not_roundTrips_longString : ¬ RoundTrips 3 longString := by
  have size : longString.bytes.length = 65539 := List.length_replicate
  have low : (longString.bytes.length + 1) % 2 ^ 16 = 4 := by omega
  exact not_roundTrips_of_cut 3 low (by omega) (by omega)

end Mcsb
