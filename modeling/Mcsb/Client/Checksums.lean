import Mcsb.Client.Timing

/-!
# Looking ahead and checksums

`PendingRecvMessage` looks for a whole message, `GetRecvMsgDesc` for one with
valid checksums as well. `promise_kept_iff` says when the first speaks for the
second.
-/

namespace Mcsb

/-! ## The checksum -/

def kPolynomialCRC32C : UInt32 := 0x82F63B78

/-- One bit of `initialize_crc_table`. -/
def crcBit (crc : UInt32) : UInt32 :=
  if crc &&& 1 ≠ 0 then kPolynomialCRC32C ^^^ (crc >>> 1) else crc >>> 1

/-- An entry of `crc32c_table`. -/
def crc32cTable (i : UInt32) : UInt32 := crcBit^[8] i

def updateCrc32c (crc : UInt32) (buf : List UInt8) : UInt32 :=
  buf.foldl (fun crc b => crc32cTable ((crc ^^^ b.toUInt32) &&& 0xff) ^^^ (crc >>> 8)) crc

def crc32c (buf : List UInt8) : UInt32 := updateCrc32c 0xffffffff buf ^^^ 0xffffffff

/-- What is at each address. -/
abbrev Memory := Nat → UInt8

def Memory.bytes (mem : Memory) (ptr size : Nat) : List UInt8 :=
  (List.range size).map fun i => mem (ptr + i)

/-- `RecvMsgSegment::ValidCRC` for all segments of a message. -/
def validCRC (mem : Memory) (ignoreZeros : Bool) (desc : MessageDescriptor) : Bool :=
  desc.all fun seg =>
    -- zeros are ignored because the crc32c was likely not set
    (ignoreZeros && seg.blockInfo.crc32c == 0) ||
      crc32c (mem.bytes seg.buf seg.size.toNat) == seg.blockInfo.crc32c

inductive CrcPolicy where
  | noCrcs
  | setCrcs
  | verifyCrcs
  | setAndVerifyCrcs
  deriving DecidableEq, Repr

/-- `crcPolicy & eVerifyCrcs` -/
def CrcPolicy.verifies : CrcPolicy → Bool
  | .noCrcs => false
  | .setCrcs => false
  | .verifyCrcs => true
  | .setAndVerifyCrcs => true

/-! ## The messages to come -/

namespace ClientRecvManager

/-- The messages that can be taken without receiving more. -/
def messages (r : ClientRecvManager) : List MessageDescriptor :=
  r.pendingMsg.toList ++
    (((segmenter r.numConsSlabs).comap RecvMsgSegment.rcvd).scan r.pendingSegs).emitted

/-- The same, each with the segments that are retired on the way to it. -/
def arrivals (r : ClientRecvManager) : List (List RecvMsgSegment × MessageDescriptor) :=
  r.pendingMsg.toList.map (fun desc => ([], desc)) ++
    ((segmenter r.numConsSlabs).comap RecvMsgSegment.rcvd).arrivals [] r.pendingSegs

/-- An upper bound of their number. -/
def left (r : ClientRecvManager) : Nat := r.pendingSegs.length + r.pendingMsg.toList.length

variable {r r' : ClientRecvManager} {desc : MessageDescriptor}

theorem findMessage_ne_nil {numConsSlabs : Nat} {segs : List RecvMsgSegment}
    (found : (findMessage numConsSlabs segs).1 = some desc) : desc ≠ [] := by
  induction segs with
  | nil => cases found
  | cons seg0 segs ih =>
    simp only [findMessage] at found
    split at found
    · exact ih found
    · rename_i starts
      split at found
      · cases found
      split at found
      · exact ih found
      · obtain ⟨k, whole⟩ : ∃ k, seg0.blockInfo.numSegments.toNat = k + 1 :=
          Nat.exists_eq_add_one.mpr (by omega)
        cases found
        simp only [whole, List.take_succ_cons]
        exact List.cons_ne_nil _ _

theorem getMessageDescriptor_stash (stash : r.pendingMsg = some desc) :
    r.getMessageDescriptor = (some desc, { r with pendingMsg := none }) := by
  simp only [getMessageDescriptor, stash]

/-- Taking a message leaves the others. -/
theorem messages_getMessageDescriptor (r : ClientRecvManager) :
    r.messages = r.getMessageDescriptor.1.toList ++
      if r.getMessageDescriptor.1 = none then [] else r.getMessageDescriptor.2.messages := by
  cases stash : r.pendingMsg with
  | some desc =>
    simp only [getMessageDescriptor_stash stash, messages, stash, reduceCtorEq, if_false]
    rfl
  | none =>
    have next := next_comap_segmenter r.numConsSlabs r.pendingSegs
    have scan := ((segmenter r.numConsSlabs).comap RecvMsgSegment.rcvd).scan_next r.pendingSegs
    have left := ((segmenter r.numConsSlabs).comap RecvMsgSegment.rcvd).scan_left r.pendingSegs
    simp only [next] at scan left
    simp only [messages, getMessageDescriptor, stash, Option.toList_none, List.nil_append]
    generalize findMessage r.numConsSlabs r.pendingSegs = found at scan left ⊢
    obtain ⟨result, retired, pending⟩ := found
    dsimp only at scan left ⊢
    cases result with
    | none => simp only [scan, Scan.andThen, left rfl, if_true, List.append_nil]
    | some desc => simp only [scan, Scan.andThen, reduceCtorEq, if_false]

theorem arrivals_none (got : r.getMessageDescriptor.1 = none) : r.arrivals = [] := by
  cases stash : r.pendingMsg with
  | some desc =>
    rw [getMessageDescriptor_stash stash] at got
    cases got
  | none =>
    have next := next_comap_segmenter r.numConsSlabs r.pendingSegs
    simp only [getMessageDescriptor, stash] at got
    simp only [arrivals, stash, Option.toList_none, List.map_nil, List.nil_append]
    exact Scanner.arrivals_none (by rw [next]; exact got) []

/-- A message is taken with those retired before it. -/
theorem arrivals_some (got : r.getMessageDescriptor = (some desc, r')) :
    ∃ gone, r.arrivals = (gone, desc) :: r'.arrivals ∧ r'.retiredSegs = r.retiredSegs ++ gone := by
  cases stash : r.pendingMsg with
  | some found =>
    simp only [getMessageDescriptor_stash stash, Prod.mk.injEq, Option.some.injEq] at got
    obtain ⟨rfl, rfl⟩ := got
    refine ⟨[], ?_, (List.append_nil _).symm⟩
    simp only [arrivals, stash, Option.toList_some, Option.toList_none, List.map_cons, List.map_nil,
      List.cons_append, List.nil_append]
  | none =>
    have next := next_comap_segmenter r.numConsSlabs r.pendingSegs
    simp only [getMessageDescriptor, stash, Prod.mk.injEq] at got
    obtain ⟨found, rfl⟩ := got
    refine ⟨(findMessage r.numConsSlabs r.pendingSegs).2.1, ?_, rfl⟩
    have first : (((segmenter r.numConsSlabs).comap RecvMsgSegment.rcvd).next r.pendingSegs).1 =
        some desc := by
      rw [next]
      exact found
    have some := Scanner.arrivals_some first []
    simp only [arrivals, stash, Option.toList_none, List.map_nil, List.nil_append, some, next]

theorem getMessageDescriptor_none (coming : r.arrivals = []) :
    r.getMessageDescriptor = (none, r.getMessageDescriptor.2) := by
  cases found : r.getMessageDescriptor with
  | mk result r' =>
    cases result with
    | none => rfl
    | some desc =>
      obtain ⟨gone, eq, -⟩ := arrivals_some found
      cases coming.symm.trans eq

theorem getMessageDescriptor_some {gone : List RecvMsgSegment}
    {rest : List (List RecvMsgSegment × MessageDescriptor)}
    (coming : r.arrivals = (gone, desc) :: rest) :
    ∃ r', r.getMessageDescriptor = (some desc, r') ∧ r'.arrivals = rest ∧
      r'.retiredSegs = r.retiredSegs ++ gone := by
  cases found : r.getMessageDescriptor with
  | mk result r' =>
    cases result with
    | none => cases coming.symm.trans (arrivals_none (congrArg Prod.fst found))
    | some desc' =>
      obtain ⟨gone', eq, retired⟩ := arrivals_some found
      cases coming.symm.trans eq
      exact ⟨r', rfl, rfl, retired⟩

/-- Released segments are retired, and leave only the busy ones. -/
theorem releaseMessageDescriptor_eq (r : ClientRecvManager) (desc : MessageDescriptor) :
    ∃ busySegs, r.releaseMessageDescriptor desc =
      { r with busySegs, retiredSegs := r.retiredSegs ++ desc } := by
  unfold releaseMessageDescriptor
  induction desc generalizing r with
  | nil => exact ⟨r.busySegs, by simp⟩
  | cons seg desc ih =>
    obtain ⟨busySegs, eq⟩ := ih (r.releaseSegment seg)
    refine ⟨busySegs, ?_⟩
    simp only [List.foldl_cons, eq]
    simp only [releaseSegment, List.append_assoc, List.singleton_append]

theorem left_getMessageDescriptor (got : r.getMessageDescriptor = (some desc, r')) :
    r'.left < r.left := by
  cases stash : r.pendingMsg with
  | some result =>
    simp only [getMessageDescriptor_stash stash, Prod.mk.injEq] at got
    obtain ⟨-, rfl⟩ := got
    simp [left, stash]
  | none =>
    have split := congrArg List.length (RecvHistory.findMessage_split r.numConsSlabs r.pendingSegs)
    have some := @findMessage_ne_nil desc r.numConsSlabs r.pendingSegs
    simp only [getMessageDescriptor, stash, Prod.mk.injEq] at got
    generalize findMessage r.numConsSlabs r.pendingSegs = found at split some got
    obtain ⟨result, retired, pending⟩ := found
    obtain ⟨rfl, rfl⟩ := got
    have more := List.length_pos_iff.mpr (some rfl)
    simp only [List.length_append, Option.getD_some] at split
    simp only [left, stash]
    omega

theorem real_getMessageDescriptor {result : Option MessageDescriptor}
    (real : r.pendingMsg ≠ some []) (got : r.getMessageDescriptor = (result, r')) :
    result ≠ some [] ∧ r'.pendingMsg = none := by
  cases stash : r.pendingMsg with
  | some desc =>
    simp only [getMessageDescriptor_stash stash, Prod.mk.injEq] at got
    obtain ⟨rfl, rfl⟩ := got
    exact ⟨stash ▸ real, rfl⟩
  | none =>
    simp only [getMessageDescriptor, stash, Prod.mk.injEq] at got
    obtain ⟨rfl, rfl⟩ := got
    exact ⟨fun found => findMessage_ne_nil found rfl, rfl⟩

/-- A look ahead keeps the message it finds. -/
theorem pendingMessage_true (real : r.pendingMsg ≠ some [])
    (found : r.pendingMessage = (true, r')) :
    (∃ desc, desc ≠ [] ∧ r'.pendingMsg = some desc) ∧ r'.messages = r.messages := by
  cases stash : r.pendingMsg with
  | some desc =>
    simp only [pendingMessage, stash, Prod.mk.injEq, true_and] at found
    subst found
    have nonempty : desc ≠ [] := by
      rintro rfl
      exact real stash
    exact ⟨⟨desc, nonempty, stash⟩, rfl⟩
  | none =>
    have all := r.messages_getMessageDescriptor
    have search : r.getMessageDescriptor.1 = (findMessage r.numConsSlabs r.pendingSegs).1 ∧
        r.getMessageDescriptor.2.pendingMsg = none := by
      simp only [getMessageDescriptor, stash, and_self]
    simp only [pendingMessage, stash, Prod.mk.injEq] at found
    generalize r.getMessageDescriptor = got at all search found
    obtain ⟨result, mgr⟩ := got
    obtain ⟨isSome, rfl⟩ := found
    obtain ⟨desc, rfl⟩ := Option.isSome_iff_exists.mp isSome
    dsimp only at all search
    constructor
    · exact ⟨desc, findMessage_ne_nil search.1.symm, rfl⟩
    · simp only [all, reduceCtorEq, if_false]
      simp only [messages, search.2, Option.toList_none, List.nil_append]

end ClientRecvManager

/-! ## The receiving side of a client -/

/-- What `ClientImpl` receives with. `sentBlockIDs` are those given back to the
manager. The socket takes `writesLeft` more writes before one fails, or all of them,
and once `sendFailed` every call that sends throws. -/
structure Receiver where
  recvMgr : ClientRecvManager
  crcPolicy : CrcPolicy
  sendFailed : Bool := false
  writesLeft : Option Nat := none
  crcErrors : Nat := 0
  sentBlockIDs : List Nat := []
  deriving DecidableEq, Repr

namespace Receiver
open ClientRecvManager

def sendRetiredSegments (c : Receiver) : Except String Receiver :=
  let numRetiredSegments := c.recvMgr.retiredSegs.length
  if numRetiredSegments ≠ 0 then
    let (blockIDs, recvMgr) := c.recvMgr.getRetiredSegments numRetiredSegments
    if c.sendFailed then .error "send error: refusing after send failure"
    else if c.writesLeft = some 0 then .error "send error: " -- and what errno says
    else .ok { c with
      recvMgr
      writesLeft := c.writesLeft.map (· - 1)
      sentBlockIDs := c.sentBlockIDs ++ blockIDs }
  else .ok c

/-- `ClientImpl::PendingRecvMessage` -/
def pendingRecvMessage (c : Receiver) : Except String (Bool × Receiver) := do
  let (result, recvMgr) := c.recvMgr.pendingMessage
  let c ← sendRetiredSegments { c with recvMgr }
  return (result, c)

/-- `ClientImpl::ReleaseRecvMsgDesc` -/
def releaseRecvMsgDesc (c : Receiver) (desc : MessageDescriptor) : Except String Receiver :=
  sendRetiredSegments { c with recvMgr := c.recvMgr.releaseMessageDescriptor desc }

/-- Nothing was done but give segments back. -/
structure SameInput (c c' : Receiver) : Prop where
  pending : c'.recvMgr.pendingSegs = c.recvMgr.pendingSegs
  stash : c'.recvMgr.pendingMsg = c.recvMgr.pendingMsg
  slabs : c'.recvMgr.numConsSlabs = c.recvMgr.numConsSlabs
  policy : c'.crcPolicy = c.crcPolicy
  failed : c'.sendFailed = c.sendFailed

/-- The next `n` sends succeed. -/
def Lets (c : Receiver) (n : Nat) : Prop :=
  n = 0 ∨ c.sendFailed = false ∧ ∀ m, c.writesLeft = some m → n ≤ m

/-- All sends succeed. -/
structure Up (c : Receiver) : Prop where
  alive : c.sendFailed = false
  takes : c.writesLeft = none

theorem SameInput.left {c c' : Receiver} (same : SameInput c c') :
    c'.recvMgr.left = c.recvMgr.left := by
  simp only [ClientRecvManager.left, same.pending, same.stash]

theorem SameInput.messages {c c' : Receiver} (same : SameInput c c') :
    c'.recvMgr.messages = c.recvMgr.messages := by
  simp only [ClientRecvManager.messages, same.pending, same.stash, same.slabs]

/-- A send that succeeds leaves no segment retired. -/
theorem sameInput_sendRetiredSegments {c c' : Receiver} (sent : c.sendRetiredSegments = .ok c') :
    SameInput c c' ∧ c'.recvMgr.retiredSegs = [] := by
  simp only [sendRetiredSegments] at sent
  split at sent
  · split at sent
    · cases sent
    split at sent
    · cases sent
    · cases sent
      exact ⟨⟨rfl, rfl, rfl, rfl, rfl⟩, List.drop_length⟩
  · rename_i none
    cases sent
    exact ⟨⟨rfl, rfl, rfl, rfl, rfl⟩, List.length_eq_zero_iff.mp (not_not.mp none)⟩

theorem Up.sendRetiredSegments {c : Receiver} (up : c.Up) :
    ∃ c', c.sendRetiredSegments = .ok c' ∧ c'.Up := by
  obtain ⟨alive, takes⟩ := up
  simp only [Receiver.sendRetiredSegments, alive, takes, Bool.false_eq_true, if_false, reduceCtorEq]
  split
  · exact ⟨_, rfl, rfl, rfl⟩
  · exact ⟨_, rfl, alive, takes⟩

/-- Segments are given back with one send. -/
theorem lets_sendRetiredSegments {c c' : Receiver} (some : c.recvMgr.retiredSegs ≠ [])
    (sent : c.sendRetiredSegments = .ok c') (n : Nat) : c'.Lets n ↔ c.Lets (n + 1) := by
  have more : c.recvMgr.retiredSegs.length ≠ 0 := mt List.length_eq_zero_iff.mp some
  simp only [Receiver.sendRetiredSegments, if_pos more] at sent
  split at sent
  · cases sent
  rename_i alive
  split at sent
  · cases sent
  rename_i left
  cases sent
  simp only [Bool.not_eq_true] at alive
  simp only [Lets, alive, true_and, Nat.add_one_ne_zero, false_or]
  cases writes : c.writesLeft with
  | none => simp
  | some m =>
    have pos : m ≠ 0 := fun none => left (writes.trans (congrArg Option.some none))
    simp only [Option.map_some, Option.some.injEq, forall_eq']
    omega

theorem sendRetiredSegments_iff {c : Receiver} (some : c.recvMgr.retiredSegs ≠ []) :
    (∃ c', c.sendRetiredSegments = .ok c') ↔ c.Lets 1 := by
  have more : c.recvMgr.retiredSegs.length ≠ 0 := mt List.length_eq_zero_iff.mp some
  simp only [Receiver.sendRetiredSegments, if_pos more, Lets, Nat.one_ne_zero, false_or]
  cases c.sendFailed with
  | true => simp
  | false =>
    cases writes : c.writesLeft with
    | none => simp
    | some m =>
      cases m with
      | zero => simp
      | succ m => simp

theorem Lets.mono {c : Receiver} {m n : Nat} (h : c.Lets n) (le : m ≤ n) : c.Lets m := by
  rcases h with rfl | ⟨alive, takes⟩
  · exact .inl (Nat.le_zero.mp le)
  · exact .inr ⟨alive, fun k left => le.trans (takes k left)⟩

/-- With segments to give back, the first of so many sends gives them back. -/
theorem lets_succ_iff {c : Receiver} (some : c.recvMgr.retiredSegs ≠ []) (n : Nat) :
    c.Lets (n + 1) ↔ ∃ c', c.sendRetiredSegments = .ok c' ∧ c'.Lets n := by
  constructor
  · intro all
    obtain ⟨c', sent⟩ := (sendRetiredSegments_iff some).mpr (all.mono (Nat.le_add_left 1 n))
    exact ⟨c', sent, (lets_sendRetiredSegments some sent n).mpr all⟩
  · rintro ⟨c', sent, later⟩
    exact (lets_sendRetiredSegments some sent n).mp later

theorem sendRetiredSegments_none {c : Receiver} (none : c.recvMgr.retiredSegs = []) :
    c.sendRetiredSegments = .ok c := by
  simp only [sendRetiredSegments, none, List.length_nil, ne_eq, not_true_eq_false, if_false]

theorem Up.releaseRecvMsgDesc {c : Receiver} (up : c.Up) (desc : MessageDescriptor) :
    ∃ c', c.releaseRecvMsgDesc desc = .ok c' ∧ c'.Up :=
  Up.sendRetiredSegments ⟨up.alive, up.takes⟩

theorem sameInput_releaseRecvMsgDesc {c c' : Receiver} {desc : MessageDescriptor}
    (released : c.releaseRecvMsgDesc desc = .ok c') : SameInput c c' := by
  have sent := (sameInput_sendRetiredSegments released).1
  obtain ⟨busySegs, eq⟩ := releaseMessageDescriptor_eq c.recvMgr desc
  simp only [eq] at sent
  exact ⟨sent.pending, sent.stash, sent.slabs, sent.policy, sent.failed⟩

/-- The loop of `ClientImpl::GetRecvMsgDesc`. -/
def getRecvMsgDescLoop (mem : Memory) (c : Receiver) :
    Except String (Option MessageDescriptor × Receiver) :=
  match _ : c.recvMgr.getMessageDescriptor with
  | (none, recvMgr) => .ok (none, { c with recvMgr })
  | (some desc, recvMgr) =>
    if c.crcPolicy.verifies && !validCRC mem true desc then
      match _ : releaseRecvMsgDesc { c with recvMgr, crcErrors := c.crcErrors + 1 } desc with
      | .error e => .error e
      | .ok c => getRecvMsgDescLoop mem c
    else .ok (some desc, { c with recvMgr })
termination_by c.recvMgr.left
decreasing_by
  rename_i got _ released
  have less := left_getMessageDescriptor got
  have same := (sameInput_releaseRecvMsgDesc released).left
  dsimp only at same
  omega

def getRecvMsgDesc (mem : Memory) (c : Receiver) :
    Except String (Option MessageDescriptor × Receiver) := do
  let (desc, c) ← getRecvMsgDescLoop mem c
  -- this may have retired segments
  let c ← sendRetiredSegments c
  return (desc, c)

variable {mem : Memory} {c c' : Receiver} {desc : MessageDescriptor}

theorem loop_none {recvMgr : ClientRecvManager}
    (got : c.recvMgr.getMessageDescriptor = (none, recvMgr)) :
    getRecvMsgDescLoop mem c = .ok (none, { c with recvMgr }) := by
  unfold getRecvMsgDescLoop
  split
  · rename_i eq
    cases got.symm.trans eq
    rfl
  · rename_i eq
    cases got.symm.trans eq

theorem loop_taken {recvMgr : ClientRecvManager}
    (got : c.recvMgr.getMessageDescriptor = (some desc, recvMgr))
    (good : (c.crcPolicy.verifies && !validCRC mem true desc) = false) :
    getRecvMsgDescLoop mem c = .ok (some desc, { c with recvMgr }) := by
  unfold getRecvMsgDescLoop
  split
  · rename_i eq
    cases got.symm.trans eq
  · rename_i eq
    cases got.symm.trans eq
    simp only [good, Bool.false_eq_true, if_false]

theorem loop_released {recvMgr : ClientRecvManager}
    (got : c.recvMgr.getMessageDescriptor = (some desc, recvMgr))
    (bad : (c.crcPolicy.verifies && !validCRC mem true desc) = true) :
    getRecvMsgDescLoop mem c =
      releaseRecvMsgDesc { c with recvMgr, crcErrors := c.crcErrors + 1 } desc >>=
        getRecvMsgDescLoop mem := by
  conv => lhs; unfold getRecvMsgDescLoop
  split
  · rename_i eq
    cases got.symm.trans eq
  · rename_i eq
    cases got.symm.trans eq
    simp only [bad, if_true]
    split
    · rename_i e released
      simp only [released]
      rfl
    · rename_i c' released
      simp only [released]
      rfl

/-- What `PendingRecvMessage` leaves when it finds a message. -/
theorem pendingRecvMessage_true (real : c.recvMgr.pendingMsg ≠ some [])
    (pending : c.pendingRecvMessage = .ok (true, c')) :
    (∃ desc, desc ≠ [] ∧ c'.recvMgr.pendingMsg = some desc) ∧ c'.recvMgr.retiredSegs = [] ∧
      c'.recvMgr.messages = c.recvMgr.messages ∧ c'.crcPolicy = c.crcPolicy ∧
      c'.sendFailed = c.sendFailed := by
  simp only [pendingRecvMessage] at pending
  generalize found : c.recvMgr.pendingMessage = result at pending
  obtain ⟨isSome, recvMgr⟩ := result
  cases sent : sendRetiredSegments { c with recvMgr } with
  | error e => simp [sent, bind, Except.bind] at pending
  | ok c₁ =>
    simp only [sent, bind, Except.bind, pure, Except.pure, Except.ok.injEq, Prod.mk.injEq] at pending
    obtain ⟨rfl, rfl⟩ := pending
    obtain ⟨same, none⟩ := sameInput_sendRetiredSegments sent
    obtain ⟨stash, messages⟩ := pendingMessage_true real found
    exact ⟨same.stash ▸ stash, none, same.messages.trans messages, same.policy, same.failed⟩

/-- The promise: the next `GetRecvMsgDesc` returns a message. -/
def Returns (mem : Memory) (c : Receiver) : Prop :=
  ∃ desc c', c.getRecvMsgDesc mem = .ok (some desc, c')

theorem returns_first (stash : c.recvMgr.pendingMsg = some desc)
    (none : c.recvMgr.retiredSegs = [])
    (good : (c.crcPolicy.verifies && !validCRC mem true desc) = false) : c.Returns mem := by
  have taken := loop_taken (getMessageDescriptor_stash stash) good
  generalize eq : { c with recvMgr := { c.recvMgr with pendingMsg := .none } } = c₁ at taken
  have sent : c₁.sendRetiredSegments = .ok c₁ := by
    apply sendRetiredSegments_none
    rw [← eq]
    exact none
  refine ⟨desc, c₁, ?_⟩
  simp only [getRecvMsgDesc, taken, sent, bind, Except.bind, pure, Except.pure]

/-- A message with a wrong checksum is given back, and the search goes on. -/
theorem returns_released {recvMgr : ClientRecvManager}
    (got : c.recvMgr.getMessageDescriptor = (some desc, recvMgr))
    (bad : (c.crcPolicy.verifies && !validCRC mem true desc) = true) :
    c.Returns mem ↔ ∃ c', sendRetiredSegments { c with
      recvMgr := recvMgr.releaseMessageDescriptor desc
      crcErrors := c.crcErrors + 1 } = .ok c' ∧ c'.Returns mem := by
  have goes : c.getRecvMsgDesc mem =
      releaseRecvMsgDesc { c with recvMgr, crcErrors := c.crcErrors + 1 } desc >>=
        getRecvMsgDesc mem := by
    unfold getRecvMsgDesc
    rw [loop_released got bad, bind_assoc]
  unfold Returns
  rw [goes, releaseRecvMsgDesc]
  cases sendRetiredSegments { c with
    recvMgr := recvMgr.releaseMessageDescriptor desc
    crcErrors := c.crcErrors + 1 } with
  | error e => simp [bind, Except.bind]
  | ok c' => simp [bind, Except.bind]

/-- How many sends it takes to get to the first message with valid checksums. Each
message before it is given back with those retired, and at last those retired just
before it. -/
def sendsFor (mem : Memory) : List (List RecvMsgSegment × MessageDescriptor) → Option Nat
  | [] => none
  | (gone, desc) :: rest =>
    if validCRC mem true desc then some (if gone = [] then 0 else 1)
    else (sendsFor mem rest).map (· + 1)

theorem returns_taken {recvMgr : ClientRecvManager} (none : c.recvMgr.retiredSegs = [])
    {gone : List RecvMsgSegment} (retired : recvMgr.retiredSegs = c.recvMgr.retiredSegs ++ gone)
    (got : c.recvMgr.getMessageDescriptor = (some desc, recvMgr))
    (good : (c.crcPolicy.verifies && !validCRC mem true desc) = false) :
    c.Returns mem ↔ c.Lets (if gone = [] then 0 else 1) := by
  rw [none, List.nil_append] at retired
  have returns : c.Returns mem ↔ ∃ c', sendRetiredSegments { c with recvMgr } = .ok c' := by
    unfold Returns getRecvMsgDesc
    rw [loop_taken got good]
    simp only [bind, Except.bind, pure, Except.pure]
    cases sendRetiredSegments { c with recvMgr } with
    | error e => simp
    | ok c' => simp
  rw [returns]
  by_cases empty : gone = []
  · rw [if_pos empty]
    have sent : sendRetiredSegments { c with recvMgr } = .ok { c with recvMgr } :=
      sendRetiredSegments_none (retired.trans empty)
    exact iff_of_true ⟨_, sent⟩ (.inl rfl)
  · rw [if_neg empty]
    exact sendRetiredSegments_iff (c := { c with recvMgr }) (by rw [retired]; exact empty)

/-- With checksums verified, a message is returned if one is valid and the socket
takes all that has to be given back before. -/
theorem returns_verifies_iff (real : c.recvMgr.pendingMsg ≠ some [])
    (none : c.recvMgr.retiredSegs = []) (verifies : c.crcPolicy.verifies = true) :
    c.Returns mem ↔ ∃ n, sendsFor mem c.recvMgr.arrivals = some n ∧ c.Lets n := by
  generalize coming : c.recvMgr.arrivals = arrivals
  induction arrivals generalizing c with
  | nil =>
    refine iff_of_false ?_ (by simp [sendsFor])
    rintro ⟨desc, c', returned⟩
    unfold getRecvMsgDesc at returned
    rw [loop_none (getMessageDescriptor_none coming)] at returned
    simp only [bind, Except.bind, pure, Except.pure] at returned
    split at returned <;> cases returned
  | cons arrival rest ih =>
    obtain ⟨gone, desc⟩ := arrival
    obtain ⟨recvMgr, got, later, retired⟩ := getMessageDescriptor_some coming
    cases good : validCRC mem true desc with
    | true =>
      rw [returns_taken none retired got (by simp [good])]
      simp [sendsFor, good]
    | false =>
      have bad : (c.crcPolicy.verifies && !validCRC mem true desc) = true := by
        simp [verifies, good]
      obtain ⟨nonempty, stash⟩ := real_getMessageDescriptor real got
      let c₁ : Receiver := { c with
        recvMgr := recvMgr.releaseMessageDescriptor desc
        crcErrors := c.crcErrors + 1 }
      obtain ⟨busySegs, released⟩ : ∃ busySegs, c₁.recvMgr =
          { recvMgr with busySegs, retiredSegs := recvMgr.retiredSegs ++ desc } :=
        releaseMessageDescriptor_eq recvMgr desc
      have some : c₁.recvMgr.retiredSegs ≠ [] := by
        rw [released]
        exact List.append_ne_nil_of_right_ne_nil _ fun empty => nonempty (congrArg Option.some empty)
      have searches (c₂ : Receiver) (sent : c₁.sendRetiredSegments = .ok c₂) :
          c₂.Returns mem ↔ ∃ n, sendsFor mem rest = .some n ∧ c₂.Lets n := by
        obtain ⟨same, clear⟩ := sameInput_sendRetiredSegments sent
        have stash₂ : c₂.recvMgr.pendingMsg = .none := by
          rw [same.stash, released]
          exact stash
        apply ih (by simp [stash₂]) clear (same.policy ▸ verifies)
        simp only [← later, ClientRecvManager.arrivals, same.pending, same.stash, same.slabs, released]
      calc c.Returns mem
        _ ↔ ∃ c₂, c₁.sendRetiredSegments = .ok c₂ ∧ c₂.Returns mem := returns_released got bad
        _ ↔ ∃ c₂, c₁.sendRetiredSegments = .ok c₂ ∧ ∃ n, sendsFor mem rest = .some n ∧ c₂.Lets n :=
          exists_congr fun c₂ => and_congr_right (searches c₂)
        _ ↔ ∃ n, sendsFor mem rest = .some n ∧ c₁.Lets (n + 1) := by
          simp only [lets_succ_iff some]
          tauto
        _ ↔ ∃ n, sendsFor mem ((gone, desc) :: rest) = .some n ∧ c.Lets n := by
          simp only [sendsFor, good, Bool.false_eq_true, if_false, Option.map_eq_some_iff]
          constructor
          · rintro ⟨n, needed, all⟩
            exact ⟨n + 1, ⟨n, needed, rfl⟩, all⟩
          · rintro ⟨-, ⟨n, needed, rfl⟩, all⟩
            exact ⟨n, needed, all⟩

/-- After `PendingRecvMessage` has returned true, `GetRecvMsgDesc` returns a
message unless checksums are verified and the first whole message fails them,
and so do all others or the socket does not take what is given back before one
that passes. -/
theorem promise_kept_iff (real : c.recvMgr.pendingMsg ≠ some [])
    (pending : c.pendingRecvMessage = .ok (true, c')) :
    c'.Returns mem ↔ c.crcPolicy.verifies = false ∨
      (∃ desc ∈ c.recvMgr.messages.head?, validCRC mem true desc) ∨
      ∃ n, sendsFor mem c'.recvMgr.arrivals = some n ∧ c'.Lets n := by
  obtain ⟨⟨desc, nonempty, stash⟩, none, messages, policy, -⟩ :=
    pendingRecvMessage_true real pending
  have head : c.recvMgr.messages.head? = some desc := by
    rw [← messages, ClientRecvManager.messages, stash]
    rfl
  simp only [head, Option.mem_def, Option.some.injEq, exists_eq_left']
  cases verifies : c.crcPolicy.verifies with
  | false => exact iff_of_true (returns_first stash none (by simp [policy, verifies])) (.inl rfl)
  | true =>
    cases good : validCRC mem true desc with
    | true => exact iff_of_true (returns_first stash none (by simp [good])) (.inr (.inl rfl))
    | false =>
      rw [returns_verifies_iff (by simp [stash, nonempty]) none (by rw [policy, verifies])]
      simp

/-- One byte came with a checksum that is not its own. -/
def corrupted : Receiver where
  recvMgr := ({ numConsSlabs := 1 } : ClientRecvManager).addSegments
    [⟨3, 24, ⟨7, 1, 1, 0, 1, 0⟩⟩]
  crcPolicy := .verifyCrcs

/-- The same after `PendingRecvMessage`, which has found the message. -/
def corruptedAhead : Receiver where
  recvMgr := (corrupted.recvMgr.pendingMessage).2
  crcPolicy := .verifyCrcs

theorem pendingRecvMessage_corrupted :
    corrupted.pendingRecvMessage = .ok (true, corruptedAhead) := rfl

theorem not_returns_corruptedAhead : ¬ corruptedAhead.Returns fun _ => 0 := by
  have none : corruptedAhead.recvMgr.pendingSegs = [] := rfl
  have only : corruptedAhead.recvMgr.arrivals = [([], [⟨0, 24, 1, 3, ⟨7, 1, 1, 0, 1, 0⟩⟩])] := by
    rw [ClientRecvManager.arrivals, none, Scanner.arrivals_none rfl]
    rfl
  have never : sendsFor (fun _ => 0) corruptedAhead.recvMgr.arrivals = .none := by
    rw [only]
    decide
  rw [returns_verifies_iff (by decide) rfl rfl, never]
  simp

theorem not_promise_kept : ¬ ∀ mem (c c' : Receiver), c.recvMgr.pendingMsg ≠ some [] →
    c.pendingRecvMessage = .ok (true, c') → c'.Returns mem := fun promise =>
  not_returns_corruptedAhead
    (promise _ corrupted corruptedAhead (by decide) pendingRecvMessage_corrupted)

/-- Another message came after it, with no checksum set. -/
def twoMessages : ClientRecvManager := ({ numConsSlabs := 1 } : ClientRecvManager).addSegments
  [⟨3, 24, ⟨7, 1, 1, 0, 1, 0⟩⟩, ⟨4, 48, ⟨7, 1, 0, 0, 1, 0⟩⟩]

theorem sendsFor_twoMessages : sendsFor (fun _ => 0) twoMessages.pendingMessage.2.arrivals = some 1 := by
  have pending : twoMessages.pendingMessage.2.pendingSegs = [⟨1, 48, 1, 4, ⟨7, 1, 0, 0, 1, 0⟩⟩] := rfl
  rw [ClientRecvManager.arrivals, pending, Scanner.arrivals_some rfl, Scanner.arrivals_none rfl]
  decide

theorem head_twoMessages : twoMessages.messages.head? = some [⟨0, 24, 1, 3, ⟨7, 1, 1, 0, 1, 0⟩⟩] := by
  rw [ClientRecvManager.messages_getMessageDescriptor]
  rfl

/-- The second message is returned if the first can be given back. -/
theorem promise_kept_iff_twoMessages :
    Returns (fun _ => 0) { recvMgr := twoMessages.pendingMessage.2, crcPolicy := .verifyCrcs } ∧
    ¬ Returns (fun _ => 0)
      { recvMgr := twoMessages.pendingMessage.2, crcPolicy := .verifyCrcs, writesLeft := some 0 } := by
  have looked (writesLeft : Option Nat) :
      Receiver.pendingRecvMessage { recvMgr := twoMessages, crcPolicy := .verifyCrcs, writesLeft } =
        .ok (true, { recvMgr := twoMessages.pendingMessage.2, crcPolicy := .verifyCrcs, writesLeft }) :=
    rfl
  constructor
  · exact (promise_kept_iff (by decide) (looked none)).mpr
      (.inr (.inr ⟨1, sendsFor_twoMessages, .inr ⟨rfl, by simp⟩⟩))
  · rw [promise_kept_iff (by decide) (looked (some 0))]
    rintro (off | ⟨desc, head, valid⟩ | ⟨n, needed, allowed⟩)
    · cases off
    · rw [head_twoMessages, Option.mem_some_iff] at head
      subst head
      revert valid
      decide
    · rw [sendsFor_twoMessages, Option.some.injEq] at needed
      subst needed
      rcases allowed with zero | ⟨-, all⟩
      · cases zero
      · exact absurd (all 0 rfl) (by decide)

end Receiver
end Mcsb
