import Mathlib.Algebra.BigOperators.Group.List.Basic
import Mcsb.Client.Checksums
import Mcsb.Client.SendHistory
import Mcsb.Client.SendMessage
import Mcsb.Lib.Cells

/-!
# Scatter and gather

The two copying `SendMessage`s write a message into the buffers of a descriptor,
one from contiguous bytes and one from an iovec array. `CopyToBuffer` puts the
segments received together again.
-/

namespace Mcsb

/-- The segments of a descriptor, in order. They have buffers of their own. -/
structure SendChain where
  segs : List MessageSegment
  nonempty : segs ≠ []
  sizes : ∀ seg ∈ segs, seg.size < 2 ^ 32
  apart : segs.Pairwise fun a b => Cells.Apart a.buf a.size b.buf b.size

/-- `MessageSegment::TotalSize` -/
def totalSize (segs : List MessageSegment) : Nat := (segs.map (·.size)).sum

namespace ClientImpl

/-- The copying loop of `SendMessage(msgID, msg, len)` over the segments: `none`
is running off the end of them. -/
def copyToSegs : List MessageSegment → List UInt8 → Memory → Option Memory
  | _, [], mem => some mem
  | [], _ :: _, _ => none
  | seg :: segs, src, mem =>
    copyToSegs segs (src.drop seg.size) (Cells.write mem seg.buf (src.take seg.size))

/-- The copying loop of `SendMessage(msgID, iov, iovcnt)`. `src` are the
`iovBytesLeft` bytes at `src`, and `none` is running off the end of `iov` or of
the segments. -/
def scatterLoop (iov : List (List UInt8)) (segs : List MessageSegment) (bytesLeft : Nat)
    (src : List UInt8) (dst segBytesLeft : Nat) (mem : Memory) : Option Memory :=
  if bytesLeft = 0 then some mem
  else if src = [] then
    match iov with
    | [] => none
    | piece :: iov =>
      scatterLoop iov segs bytesLeft (piece.take (piece.length % 2 ^ 32)) dst segBytesLeft mem
  else if segBytesLeft = 0 then
    match segs with
    | [] => none
    | seg :: segs => scatterLoop iov segs bytesLeft src seg.buf seg.size mem
  else
    let bytes := min (min bytesLeft src.length) segBytesLeft
    scatterLoop iov segs (bytesLeft - bytes) (src.drop bytes) (dst + bytes) (segBytesLeft - bytes)
      (Cells.write mem dst (src.take bytes))
termination_by iov.length + segs.length + bytesLeft
decreasing_by
  · simp_all
  · simp_all
  · have some := List.length_pos_iff.mpr ‹¬src = []›
    omega

/-- A segment as `SendMessage(msgID, desc, len)` sees it. -/
def sendSeg (seg : MessageSegment) : SendMsgSegment := ⟨seg.blockID.toNat, seg.size⟩

/-- `SendMessage(msgID, msg, len)` with the descriptor it has got. -/
def copyingSend (msgID : UInt32) (msg : List UInt8) (desc : List MessageSegment) (mem : Memory) :
    Option (Memory × List (Nat × BlockInfo)) := do
  let mem ← copyToSegs desc msg mem
  let sent ← sendDescriptor msgID (desc.map sendSeg) msg.length
  return (mem, sent)

/-- `SendMessage(msgID, iov, iovcnt)` with the descriptor it has got. The lengths
are added up as `size_t`, and `bytesLeft` has 32 bits. -/
def scatteringSend (msgID : UInt32) (iov : List (List UInt8)) (desc : List MessageSegment)
    (mem : Memory) : Option (Memory × List (Nat × BlockInfo)) := do
  let len := (iov.map List.length).sum % 2 ^ 32
  let mem ← scatterLoop iov desc len [] 0 0 mem
  let sent ← sendDescriptor msgID (desc.map sendSeg) len
  return (mem, sent)

/-- The first bytes of the segments sent, as many as the infos say. -/
def gather (mem : Memory) (desc : List MessageSegment) (sent : List (Nat × BlockInfo)) :
    List UInt8 :=
  (desc.zipWith (fun seg (_, info) => Cells.read mem seg.buf info.size.toNat) sent).flatten

end ClientImpl

/-- The loop of `RecvMsgSegment::CopyToBuffer`. -/
def copyToBufferLoop (maxlen : Nat) : MessageDescriptor → Nat → Nat → Memory → Nat × Memory
  | [], _, totalLen, mem => (totalLen, mem)
  | seg :: segs, dst, totalLen, mem =>
    let bytesToCopy :=
      if maxlen < totalLen + seg.size.toNat then maxlen - totalLen else seg.size.toNat
    copyToBufferLoop maxlen segs (dst + bytesToCopy) (totalLen + bytesToCopy)
      (Cells.write mem dst (Cells.read mem seg.buf bytesToCopy))

/-- `RecvMsgSegment::CopyToBuffer`: how many bytes, and the memory afterwards. -/
def copyToBuffer (mem : Memory) (desc : MessageDescriptor) (dst maxlen : Nat) : Nat × Memory :=
  copyToBufferLoop maxlen desc dst 0 mem

namespace ClientImpl

variable {segs : List MessageSegment} {iov : List (List UInt8)} {src : List UInt8}
  {mem mem' : Memory} {msgID : UInt32} {sent : List (Nat × BlockInfo)}

theorem copyToSegs_nil (segs : List MessageSegment) (mem : Memory) :
    copyToSegs segs [] mem = some mem := by
  cases segs <;> rfl

/-- What is left is what the buffer in hand takes and what the other segments get. -/
theorem scatterLoop_eq {dst segBytesLeft bytesLeft : Nat} (short : ∀ piece ∈ iov, piece.length < 2 ^ 32)
    (all : bytesLeft = (src ++ iov.flatten).length) :
    scatterLoop iov segs bytesLeft src dst segBytesLeft mem =
      copyToSegs segs ((src ++ iov.flatten).drop segBytesLeft)
        (Cells.write mem dst ((src ++ iov.flatten).take segBytesLeft)) := by
  fun_induction scatterLoop with
  | case1 iov segs src dst segBytesLeft mem =>
    have empty : src ++ iov.flatten = [] := List.length_eq_zero_iff.mp all.symm
    rw [empty, List.drop_nil, List.take_nil, Cells.write_nil, copyToSegs_nil]
  | case2 segs bytesLeft dst segBytesLeft mem some => exact absurd all some
  | case3 segs bytesLeft dst segBytesLeft mem some piece iov ih =>
    obtain ⟨small, short⟩ := List.forall_mem_cons.mp short
    rw [Nat.mod_eq_of_lt small, List.take_length] at ih ⊢
    exact ih short all
  | case4 iov bytesLeft src dst mem some more =>
    obtain ⟨byte, rest, rfl⟩ := List.exists_cons_of_ne_nil more
    rfl
  | case5 iov bytesLeft src dst mem some more seg segs ih =>
    obtain ⟨byte, rest, rfl⟩ := List.exists_cons_of_ne_nil more
    rw [ih short all, List.drop_zero, List.take_zero, Cells.write_nil]
    rfl
  | case6 iov segs bytesLeft src dst segBytesLeft mem some more room bytes ih =>
    have within : bytes ≤ src.length := by omega
    have most : bytes ≤ segBytesLeft := by omega
    have left : bytesLeft - bytes = (src.drop bytes ++ iov.flatten).length := by
      rw [all, List.length_append, List.length_append, List.length_drop]
      omega
    have first : (src ++ iov.flatten).take bytes = src.take bytes :=
      List.take_append_of_le_length within
    have rest : (src ++ iov.flatten).drop bytes = src.drop bytes ++ iov.flatten :=
      List.drop_append_of_le_length within
    -- the bytes copied come first in what the buffer takes
    have copied : (src ++ iov.flatten).take segBytesLeft =
        src.take bytes ++ (src.drop bytes ++ iov.flatten).take (segBytesLeft - bytes) := by
      rw [← first, ← rest, ← List.take_add, Nat.add_sub_cancel' most]
    have others : (src ++ iov.flatten).drop segBytesLeft =
        (src.drop bytes ++ iov.flatten).drop (segBytesLeft - bytes) := by
      rw [← rest, List.drop_drop, Nat.add_sub_cancel' most]
    rw [ih short left, copied, others, Cells.write_append, List.length_take,
      Nat.min_eq_left within]

/-- There is room for all of it. -/
theorem copyToSegs_isSome (room : src.length ≤ totalSize segs) :
    (copyToSegs segs src mem).isSome := by
  induction segs generalizing src mem with
  | nil =>
    have empty : src = [] := List.length_eq_zero_iff.mp (Nat.le_zero.mp room)
    subst empty
    rfl
  | cons seg segs ih =>
    cases src with
    | nil => rfl
    | cons byte rest =>
      apply ih
      simp only [totalSize, List.map_cons, List.sum_cons] at room
      simp only [totalSize, List.length_drop]
      omega

/-- Only the buffers of the segments are written. -/
theorem read_copyToSegs {ptr size : Nat} (copied : copyToSegs segs src mem = some mem')
    (apart : ∀ seg ∈ segs, Cells.Apart ptr size seg.buf seg.size) :
    Cells.read mem' ptr size = Cells.read mem ptr size := by
  induction segs generalizing src mem with
  | nil =>
    cases src with
    | nil =>
      cases copied
      rfl
    | cons => cases copied
  | cons seg segs ih =>
    cases src with
    | nil =>
      cases copied
      rfl
    | cons byte rest =>
      obtain ⟨here, later⟩ := List.forall_mem_cons.mp apart
      rw [ih copied later]
      exact Cells.read_write_apart (here.mono (Nat.le_refl _) (List.length_take_le _ _))

/-- The sizes filled out say where the bytes are. -/
theorem gather_infoLoop {segIdx : Nat} (short : src.length < 2 ^ 32)
    (apart : segs.Pairwise fun a b => Cells.Apart a.buf a.size b.buf b.size)
    (copied : copyToSegs segs src mem = some mem')
    (filled : infoLoop msgID segIdx (segs.map sendSeg) src.length = some sent) :
    gather mem' segs sent = src := by
  induction segs generalizing src mem segIdx sent with
  | nil =>
    simp only [List.map_nil, infoLoop] at filled
    split at filled
    · rename_i empty
      rw [List.length_eq_zero_iff.mp empty]
      rfl
    · cases filled
  | cons seg segs ih =>
    obtain ⟨here, apart⟩ := List.pairwise_cons.mp apart
    have size : (UInt32.ofNat (min src.length seg.size)).toNat = min src.length seg.size := by
      rw [UInt32.toNat_ofNat']
      exact Nat.mod_eq_of_lt (by omega)
    -- the other segments leave the first one as it was written
    have further : copyToSegs segs (src.drop seg.size) (Cells.write mem seg.buf (src.take seg.size)) =
        some mem' := by
      cases src with
      | nil => rw [List.drop_nil, List.take_nil, Cells.write_nil, copyToSegs_nil, ← copied]; rfl
      | cons => exact copied
    have first : Cells.read mem' seg.buf (min src.length seg.size) = src.take seg.size := by
      rw [read_copyToSegs further fun other mem =>
        (here other mem).mono (Nat.min_le_right _ _) (Nat.le_refl _)]
      have length : (src.take seg.size).length = min src.length seg.size := by
        rw [List.length_take, Nat.min_comm]
      rw [← length]
      exact Cells.read_write _ _ _
    simp only [List.map_cons, infoLoop, sendSeg] at filled
    split at filled
    · rename_i done
      cases filled
      have fits : src.length ≤ seg.size := by omega
      simp only [gather, List.zipWith_cons_cons, List.zipWith_nil_right, List.flatten_cons,
        List.flatten_nil, List.append_nil, size, first, List.take_of_length_le fits]
    · obtain ⟨others, rest, rfl⟩ := Option.map_eq_some_iff.mp filled
      have left : src.length - min src.length seg.size = (src.drop seg.size).length := by
        rw [List.length_drop]
        omega
      rw [left] at rest
      have later := ih (by rw [← left]; omega) apart further rest
      simp only [gather, List.zipWith_cons_cons, List.flatten_cons, size, first] at later ⊢
      rw [later, List.take_append_drop]

theorem infoLoop_isSome {segIdx len : Nat} (room : len ≤ totalSize segs) :
    (infoLoop msgID segIdx (segs.map sendSeg) len).isSome := by
  induction segs generalizing segIdx len with
  | nil =>
    have none : len = 0 := Nat.le_zero.mp room
    simp only [List.map_nil, infoLoop, none, if_true, Option.isSome_some]
  | cons seg segs ih =>
    simp only [totalSize, List.map_cons, List.sum_cons] at room
    simp only [List.map_cons, infoLoop, sendSeg]
    split
    · rfl
    · rw [Option.isSome_map]
      apply ih
      unfold totalSize
      omega

/-- Filling out the number of segments leaves their sizes. -/
theorem gather_sendDescriptor (short : src.length < 2 ^ 32) (chain : SendChain)
    (copied : copyToSegs chain.segs src mem = some mem')
    (filled : sendDescriptor msgID (chain.segs.map sendSeg) src.length = some sent) :
    gather mem' chain.segs sent = src := by
  unfold sendDescriptor at filled
  split at filled
  · cases filled
  · obtain ⟨infos, eq, rfl⟩ := Option.map_eq_some_iff.mp filled
    have whole := gather_infoLoop short chain.apart copied eq
    unfold gather at whole ⊢
    rw [List.zipWith_map_right]
    exact whole

theorem sendDescriptor_isSome {len : Nat} (chain : SendChain)
    (room : len ≤ totalSize chain.segs) :
    (sendDescriptor msgID (chain.segs.map sendSeg) len).isSome := by
  unfold sendDescriptor
  rw [if_neg (by simpa using chain.nonempty), Option.isSome_map]
  exact infoLoop_isSome room

/-- Both ways of sending a message write the same and send the same. -/
theorem scatteringSend_eq (segs : List MessageSegment)
    (short : iov.flatten.length < 2 ^ 32) :
    scatteringSend msgID iov segs mem = copyingSend msgID iov.flatten segs mem := by
  have pieces : ∀ piece ∈ iov, piece.length < 2 ^ 32 := fun piece mem =>
    (List.Sublist.length_le (List.sublist_flatten_of_mem mem)).trans_lt short
  have len : (iov.map List.length).sum % 2 ^ 32 = iov.flatten.length := by
    rw [← List.length_flatten]
    exact Nat.mod_eq_of_lt short
  have loop : scatterLoop iov segs iov.flatten.length [] 0 0 mem =
      copyToSegs segs iov.flatten mem := by
    have all : iov.flatten.length = ([] ++ iov.flatten).length := rfl
    rw [scatterLoop_eq pieces all, List.nil_append, List.drop_zero, List.take_zero,
      Cells.write_nil]
  simp only [scatteringSend, copyingSend, len, loop]

end ClientImpl

/-! ## Received segments -/

/-- A descriptor of the segments sent, as the receiver has mapped them. -/
def Receives (mem : Memory) (segs : List MessageSegment) (sent : List (Nat × BlockInfo))
    (recvMem : Memory) (desc : MessageDescriptor) : Prop :=
  List.Forall₂ (fun (seg, _, info) recv => recv.size = info.size ∧
    Cells.read recvMem recv.buf info.size.toNat = Cells.read mem seg.buf info.size.toNat)
    (segs.zip sent) desc

/-- The bytes of a message received. -/
def received (mem : Memory) (desc : MessageDescriptor) : List UInt8 :=
  desc.flatMap fun seg => Cells.read mem seg.buf seg.size.toNat

theorem Receives.received {mem recvMem : Memory} {segs : List MessageSegment}
    {sent : List (Nat × BlockInfo)} {desc : MessageDescriptor}
    (h : Receives mem segs sent recvMem desc) :
    Mcsb.received recvMem desc = ClientImpl.gather mem segs sent := by
  have zipped : ClientImpl.gather mem segs sent = (segs.zip sent).flatMap fun (seg, _, info) =>
      Cells.read mem seg.buf info.size.toNat := by
    unfold ClientImpl.gather
    rw [List.flatMap_def, List.map_zip_eq_zipWith]
    rfl
  rw [zipped]
  unfold Receives at h
  generalize segs.zip sent = pairs at h ⊢
  induction h with
  | nil => rfl
  | cons same rest ih =>
    unfold Mcsb.received at ih ⊢
    rw [List.flatMap_cons, List.flatMap_cons, ih, same.1, same.2]

theorem copyToBufferLoop_eq {maxlen dst totalLen : Nat} {mem : Memory} {desc : MessageDescriptor}
    (within : totalLen ≤ maxlen)
    (apart : ∀ seg ∈ desc, Cells.Apart seg.buf seg.size.toNat dst
      (min (maxlen - totalLen) (received mem desc).length)) :
    copyToBufferLoop maxlen desc dst totalLen mem =
      (totalLen + min (maxlen - totalLen) (received mem desc).length,
        Cells.write mem dst ((received mem desc).take (maxlen - totalLen))) := by
  induction desc generalizing dst totalLen mem with
  | nil => simp [copyToBufferLoop, received]
  | cons seg desc ih =>
    obtain ⟨-, others⟩ := List.forall_mem_cons.mp apart
    have whole : received mem (seg :: desc) =
        Cells.read mem seg.buf seg.size.toNat ++ received mem desc := rfl
    have length : (received mem (seg :: desc)).length =
        seg.size.toNat + (received mem desc).length := by
      rw [whole, List.length_append, Cells.length_read]
    rw [length] at others ⊢
    unfold copyToBufferLoop
    dsimp only
    generalize bytes : (if maxlen < totalLen + seg.size.toNat then maxlen - totalLen
      else seg.size.toNat) = bytesToCopy
    have least : bytesToCopy = min (maxlen - totalLen) seg.size.toNat := by
      subst bytes
      split <;> omega
    -- the other segments are not written to
    have still : received (Cells.write mem dst (Cells.read mem seg.buf bytesToCopy)) desc =
        received mem desc := by
      apply List.flatMap_congr
      intro other mem_desc
      apply Cells.read_write_apart
      exact (others other mem_desc).mono (Nat.le_refl _) (by rw [Cells.length_read]; omega)
    have apart : ∀ other ∈ desc, Cells.Apart other.buf other.size.toNat (dst + bytesToCopy)
        (min (maxlen - (totalLen + bytesToCopy)) (received mem desc).length) := by
      intro other mem_desc
      have apart := others other mem_desc
      unfold Cells.Apart at apart ⊢
      omega
    have first : (Cells.read mem seg.buf seg.size.toNat).take (maxlen - totalLen) =
        Cells.read mem seg.buf bytesToCopy := by
      rw [Cells.take_read, least]
    have rest : maxlen - totalLen - seg.size.toNat = maxlen - (totalLen + bytesToCopy) := by omega
    rw [ih (by omega) (still.symm ▸ apart), still, whole, List.take_append, first,
      Cells.length_read, rest, Cells.write_append, Cells.length_read]
    congr 1
    omega

/-- `CopyToBuffer` stores what fits of a message, if the buffer is not where the
message is. -/
theorem copyToBuffer_eq {maxlen dst : Nat} {mem : Memory} {desc : MessageDescriptor}
    (apart : ∀ seg ∈ desc, Cells.Apart seg.buf seg.size.toNat dst
      (min maxlen (received mem desc).length)) :
    copyToBuffer mem desc dst maxlen =
      (min maxlen (received mem desc).length,
        Cells.write mem dst ((received mem desc).take maxlen)) := by
  unfold copyToBuffer
  rw [copyToBufferLoop_eq (Nat.zero_le _) apart, Nat.zero_add, Nat.sub_zero]

/-- A message is written, sent and received as it is, whichever way it is divided. -/
theorem scatter_gather (msgID : UInt32) (msg : List UInt8) (short : msg.length < 2 ^ 32)
    (chain : SendChain) (room : msg.length ≤ totalSize chain.segs) (mem : Memory) :
    ∃ mem' sent, ClientImpl.copyingSend msgID msg chain.segs mem = some (mem', sent) ∧
      (∀ iov, iov.flatten = msg →
        ClientImpl.scatteringSend msgID iov chain.segs mem = some (mem', sent)) ∧
      ClientImpl.gather mem' chain.segs sent = msg ∧
      ∀ recvMem desc, Receives mem' chain.segs sent recvMem desc → ∀ dst maxlen,
        (∀ seg ∈ desc, Cells.Apart seg.buf seg.size.toNat dst (min msg.length maxlen)) →
        copyToBuffer recvMem desc dst maxlen =
          (min msg.length maxlen, Cells.write recvMem dst (msg.take maxlen)) := by
  obtain ⟨mem', copied⟩ := Option.isSome_iff_exists.mp
    (@ClientImpl.copyToSegs_isSome chain.segs msg mem room)
  obtain ⟨sent, filled⟩ := Option.isSome_iff_exists.mp
    (@ClientImpl.sendDescriptor_isSome msgID _ chain room)
  have send : ClientImpl.copyingSend msgID msg chain.segs mem = some (mem', sent) := by
    simp only [ClientImpl.copyingSend, copied, filled, Option.bind_eq_bind, Option.bind_some,
      Option.pure_def]
  have whole := ClientImpl.gather_sendDescriptor short chain copied filled
  refine ⟨mem', sent, send, ?_, whole, ?_⟩
  · rintro iov rfl
    rw [ClientImpl.scatteringSend_eq chain.segs short]
    exact send
  · intro recvMem desc receives dst maxlen apart
    have message := receives.received.trans whole
    rw [Nat.min_comm] at apart ⊢
    rw [← message] at apart ⊢
    exact copyToBuffer_eq apart

/-- Segments of two and of 14 bytes, in buffers of their own. -/
def sixteen : SendChain where
  segs := [⟨256, 2, 4, some 1⟩, ⟨512, 14, 6, none⟩]
  nonempty := by decide
  sizes := by decide
  apart := by
    simp only [List.pairwise_cons, List.mem_singleton, forall_eq, List.not_mem_nil,
      false_imp_iff, implies_true, List.Pairwise.nil, and_self, and_true]
    exact .inl (by decide)

theorem scatter_gather_sixteen : ∃ mem' sent, sent.map (·.2.size) = [2, 1] ∧
    ClientImpl.copyingSend 7 [1, 2, 3] sixteen.segs (fun _ => 0) = some (mem', sent) ∧
      (∀ iov, iov.flatten = [1, 2, 3] →
        ClientImpl.scatteringSend 7 iov sixteen.segs (fun _ => 0) = some (mem', sent)) ∧
      ClientImpl.gather mem' sixteen.segs sent = [1, 2, 3] ∧
      ∀ recvMem desc, Receives mem' sixteen.segs sent recvMem desc → ∀ dst maxlen,
        (∀ seg ∈ desc, Cells.Apart seg.buf seg.size.toNat dst (min 3 maxlen)) →
        copyToBuffer recvMem desc dst maxlen =
          (min 3 maxlen, Cells.write recvMem dst (List.take maxlen [1, 2, 3])) := by
  have ran : (ClientImpl.copyingSend 7 [1, 2, 3] sixteen.segs fun _ => 0).map
      (fun sent => sent.2.map (·.2.size)) = some [2, 1] := by
    decide +kernel
  obtain ⟨mem', sent, copied, rest⟩ :=
    scatter_gather 7 [1, 2, 3] (by decide) sixteen (by decide) fun _ => 0
  rw [copied, Option.map_some, Option.some.injEq] at ran
  exact ⟨mem', sent, ran, copied, rest⟩

/-! ## Descriptors of the allocator -/

namespace SendHistory.Consistent
open ClientSendManager

variable {p : SizeParams} {h : SendHistory}

/-- A segment lies in the memory of its slab. -/
theorem within_slab (consistent : Consistent p h) {g : Nat} (mem : g ∈ h.mgr.busySegs) :
    ∃ first, first + segBlocks p (h.mgr.segs g) ≤ p.blocksPerSlab ∧
      (h.mgr.segs g).blockID.toNat = slabOf p (h.mgr.segs g) * p.blocksPerSlab + first ∧
      (h.mgr.segs g).buf =
        (h.mgr.slabInfo (slabOf p (h.mgr.segs g))).buf + first * p.blockSize.toNat ∧
      (h.mgr.segs g).size = segBlocks p (h.mgr.segs g) * p.blockSize.toNat := by
  obtain ⟨-, -, size, within, buf⟩ := consistent.inside g mem
  have used := consistent.used (slabOf p (h.mgr.segs g))
  have parts : slabOf p (h.mgr.segs g) * p.blocksPerSlab +
      (h.mgr.segs g).blockID.toNat % p.blocksPerSlab = (h.mgr.segs g).blockID.toNat :=
    Nat.div_add_mod' _ _
  refine ⟨(h.mgr.segs g).blockID.toNat % p.blocksPerSlab, ?_, parts.symm, buf, size⟩
  omega

/-- Where the slabs do not overlap, the segments do not either. -/
theorem apart_bufs (consistent : Consistent p h)
    (areas : ∀ s ∈ h.slabs, ∀ s' ∈ h.slabs, s ≠ s' →
      Cells.Apart (h.mgr.slabInfo s).buf p.slabSize.toNat (h.mgr.slabInfo s').buf
        p.slabSize.toNat) :
    h.mgr.busySegs.Pairwise fun g g' => Cells.Apart (h.mgr.segs g).buf (h.mgr.segs g).size
      (h.mgr.segs g').buf (h.mgr.segs g').size := by
  apply consistent.apart.imp_of_mem
  intro g g' mem mem' apart
  obtain ⟨first, room, start, buf, size⟩ := consistent.within_slab mem
  obtain ⟨first', room', start', buf', size'⟩ := consistent.within_slab mem'
  have held := consistent.held.mem_iff.mp (consistent.inside g mem).slab
  have held' := consistent.held.mem_iff.mp (consistent.inside g' mem').slab
  have last := Nat.mul_le_mul_right p.blockSize.toNat room
  have last' := Nat.mul_le_mul_right p.blockSize.toNat room'
  rw [← p.whole, Nat.add_mul] at last last'
  unfold ClientSendManager.Apart at apart
  rw [start, start'] at apart
  rw [size, size', buf, buf']
  unfold Cells.Apart
  by_cases same : slabOf p (h.mgr.segs g) = slabOf p (h.mgr.segs g')
  · rw [same] at apart ⊢
    rcases apart with before | after
    · left
      have le := Nat.mul_le_mul_right p.blockSize.toNat
        (show first + segBlocks p (h.mgr.segs g) ≤ first' by omega)
      rw [Nat.add_mul] at le
      omega
    · right
      have le := Nat.mul_le_mul_right p.blockSize.toNat
        (show first' + segBlocks p (h.mgr.segs g') ≤ first by omega)
      rw [Nat.add_mul] at le
      omega
  · have area := areas _ held _ held' same
    unfold Cells.Apart at area
    omega

/-- A live descriptor is a chain to send a message with. -/
theorem sendChain (consistent : Consistent p h)
    (areas : ∀ s ∈ h.slabs, ∀ s' ∈ h.slabs, s ≠ s' →
      Cells.Apart (h.mgr.slabInfo s).buf p.slabSize.toNat (h.mgr.slabInfo s').buf
        p.slabSize.toNat) {desc : Nat} (live : desc ∈ h.live) :
    ∃ (chain : List Nat) (send : SendChain), Linked h.mgr.next (some desc) chain ∧
      send.segs = chain.map h.mgr.segs := by
  obtain ⟨chain, linked, owns⟩ := consistent.live.takes live
  obtain ⟨chains, -, perm⟩ := owns
  have busy : ∀ g ∈ chain, g ∈ h.mgr.busySegs := fun g mem =>
    perm.mem_iff.mp (List.mem_append_right _ mem)
  have sizes : ∀ seg ∈ chain.map h.mgr.segs, seg.size < 2 ^ 32 := by
    intro seg mem
    obtain ⟨g, inChain, rfl⟩ := List.mem_map.mp mem
    obtain ⟨first, room, -, -, size⟩ := consistent.within_slab (busy g inChain)
    have last := Nat.mul_le_mul_right p.blockSize.toNat room
    have small := p.slabSize.toNat_lt
    rw [← p.whole, Nat.add_mul] at last
    omega
  have apart := (consistent.apart_bufs areas).perm perm.symm fun apart => apart.symm
  refine ⟨chain, ⟨chain.map h.mgr.segs, ?_, sizes, ?_⟩, linked, rfl⟩
  · exact fun empty => linked.ne_nil (List.map_eq_nil_iff.mp empty)
  · exact List.pairwise_map.mpr (List.pairwise_append.mp apart).2.1

end SendHistory.Consistent

end Mcsb
