import Mcsb.Wire.Protocol

/-!
# Sending blocks and infos

`SendBlocksAndInfo` cuts a message into frames of at most `maxPerSend` segments.
Its loop adds up the bytes sent and compares them with the number of segments
left, so it can stop with segments unsent. `sentWhole_iff` says for which counts.
-/

namespace Mcsb
open LittleEndian

/-- `SendCtrlMsg` on a socket that takes every byte: the frame written. The
call returns the number of its bytes. -/
def sendCtrlMsg (msgID : UInt16) (pieces : List (List UInt8)) : Except String CtrlMsg :=
  if kMaxPayloadSize < pieces.flatten.length then
    .error "protocol error: can't send control message larger than kMaxCtrlMsgSize"
  else
    .ok ⟨msgID, pieces.flatten⟩

def maxPerSend : Nat := kMaxPayloadSize / (4 + sizeofBlockInfo)

/-- The loop of `SendBlocksAndInfo`: the frames sent and `totalSent` at the end. -/
def sendBlocksLoop (totalSent count : UInt32) (blockNums : List UInt32)
    (blockInfo : List BlockInfo) : Except String (List CtrlMsg × UInt32) :=
  if _ : count.toNat = 0 then .ok ([], totalSent)
  else
    let toSend := min count.toNat maxPerSend
    match sendCtrlMsg kCtrlMsgID_BlocksAndInfo
        [array word32 (blockNums.take toSend), array BlockInfo.bytes (blockInfo.take toSend)] with
    | .error e => .error e
    | .ok msg =>
      let totalSent := totalSent + UInt32.ofNat msg.bytes.length
      if totalSent = count then .ok ([msg], totalSent)
      else
        match sendBlocksLoop totalSent (count - UInt32.ofNat toSend)
            (blockNums.drop toSend) (blockInfo.drop toSend) with
        | .error e => .error e
        | .ok (msgs, sent) => .ok (msg :: msgs, sent)
termination_by count.toNat
decreasing_by
  have hlt := count.toNat_lt
  have hle : UInt32.ofNat (min count.toNat maxPerSend) ≤ count := by
    rw [UInt32.le_iff_toNat_le, UInt32.toNat_ofNat']
    omega
  rw [UInt32.toNat_sub_of_le _ _ hle, UInt32.toNat_ofNat']
  simp only [maxPerSend, kMaxPayloadSize, sizeofBlockInfo]
  omega

def sendBlocksAndInfo (count : UInt32) (blockNums : List UInt32) (blockInfo : List BlockInfo) :
    Except String (List CtrlMsg × UInt32) :=
  sendBlocksLoop 0 count blockNums blockInfo

/-- The frame is within the payload limit and its receiver takes it for these
blocks and infos, whatever follows it in the receive buffer. -/
def Carries (msg : CtrlMsg) (part : List UInt32 × List BlockInfo) : Prop :=
  msg.payload.length ≤ kMaxPayloadSize ∧ part.1.length = part.2.length ∧
  ∀ after, dispatch msg.msgID (msg.payload ++ after) msg.payload.length =
    .ok (.blocksAndInfo part.1 part.2)

/-- The frames hand the receiver exactly these blocks and infos, in order. -/
def Delivers (msgs : List CtrlMsg) (blocks : List UInt32) (infos : List BlockInfo) : Prop :=
  ∃ parts, List.Forall₂ Carries msgs parts ∧
    parts.flatMap Prod.fst = blocks ∧ parts.flatMap Prod.snd = infos

def SentWhole (count : UInt32) (blockNums : List UInt32) (blockInfo : List BlockInfo) : Prop :=
  ∃ msgs sent, sendBlocksAndInfo count blockNums blockInfo = .ok (msgs, sent) ∧
    Delivers msgs blockNums blockInfo

/-- After `j` full frames the bytes sent, as a 32-bit count, are the number of
segments that were left before the last of them, and segments remain. Below
2^32 bytes these are the counts 1016, 2068, 3120, .. -/
def StopsEarly (count : Nat) : Prop :=
  ∃ j, 1 ≤ j ∧ 36 * j < count ∧ 1016 * j % 2 ^ 32 = count - 36 * (j - 1)

/-- One round of the loop on a frame of `toSend` segments. -/
theorem frame_carries (blocks : List UInt32) (infos : List BlockInfo)
    (same : blocks.length = infos.length) (fits : blocks.length ≤ 36) :
    sendCtrlMsg kCtrlMsgID_BlocksAndInfo [array word32 blocks, array BlockInfo.bytes infos] =
      .ok ⟨kCtrlMsgID_BlocksAndInfo, blocksAndInfoPayload blocks infos⟩ ∧
    Carries ⟨kCtrlMsgID_BlocksAndInfo, blocksAndInfoPayload blocks infos⟩ (blocks, infos) := by
  have len := length_blocksAndInfoPayload blocks infos same
  have limit : (blocksAndInfoPayload blocks infos).length ≤ kMaxPayloadSize := by
    rw [len, kMaxPayloadSize]
    omega
  have joined : [array word32 blocks, array BlockInfo.bytes infos].flatten =
      blocksAndInfoPayload blocks infos := by
    simp [blocksAndInfoPayload]
  refine ⟨?_, limit, same, dispatch_blocksAndInfo blocks infos same⟩
  rw [sendCtrlMsg, joined, if_neg (Nat.not_lt.mpr limit)]

theorem delivers_cons {msg : CtrlMsg} {msgs : List CtrlMsg} {b blocks : List UInt32}
    {i infos : List BlockInfo} (head : Carries msg (b, i)) :
    Delivers (msg :: msgs) (b ++ blocks) (i ++ infos) ↔ Delivers msgs blocks infos := by
  constructor
  · rintro ⟨parts, all, hb, hi⟩
    cases all with
    | @cons _ p _ ps first rest =>
      have agree := (head.2.2 []).symm.trans (first.2.2 [])
      obtain ⟨rfl, rfl⟩ : b = p.1 ∧ i = p.2 := by simpa using agree
      exact ⟨ps, rest, by simpa using hb, by simpa using hi⟩
  · rintro ⟨parts, all, hb, hi⟩
    exact ⟨(b, i) :: parts, .cons head all, by simp [hb], by simp [hi]⟩

/-- The whole message came through the loop entered with `totalSent`. -/
def LoopSendsWhole (totalSent count : UInt32) (blocks : List UInt32) (infos : List BlockInfo) :
    Prop :=
  ∃ msgs sent, sendBlocksLoop totalSent count blocks infos = .ok (msgs, sent) ∧
    Delivers msgs blocks infos

/-- One turn of the loop: it sends a frame, then stops or goes on. -/
theorem sendBlocksLoop_step (totalSent count : UInt32) (blocks : List UInt32)
    (infos : List BlockInfo) (hb : blocks.length = count.toNat) (hi : infos.length = count.toNat)
    (more : count.toNat ≠ 0) :
    let k := min count.toNat 36
    let total := totalSent + UInt32.ofNat (8 + 28 * k)
    LoopSendsWhole totalSent count blocks infos ↔
      if total = count then count.toNat ≤ 36
      else LoopSendsWhole total (count - UInt32.ofNat k) (blocks.drop k) (infos.drop k) := by
  intro k total
  have full : maxPerSend = 36 := rfl
  have hk : (blocks.take k).length = k := by
    rw [List.length_take]
    omega
  have hk' : (infos.take k).length = k := by
    rw [List.length_take]
    omega
  obtain ⟨sends, carries⟩ := frame_carries (blocks.take k) (infos.take k)
    (hk.trans hk'.symm) (by omega)
  have bytes : (⟨kCtrlMsgID_BlocksAndInfo, blocksAndInfoPayload (blocks.take k) (infos.take k)⟩ :
      CtrlMsg).bytes.length = 8 + 28 * k := by
    rw [CtrlMsg.length_bytes, length_blocksAndInfoPayload _ _ (hk.trans hk'.symm), hk]
    rfl
  unfold LoopSendsWhole
  rw [sendBlocksLoop]
  simp only [more, dite_false, full]
  simp only [show min count.toNat 36 = k from rfl, sends, bytes]
  simp only [show totalSent + UInt32.ofNat (8 + 28 * k) = total from rfl]
  have splits (msgs : List CtrlMsg) :=
    @delivers_cons _ msgs _ (blocks.drop k) _ (infos.drop k) carries
  simp only [List.take_append_drop] at splits
  by_cases stop : total = count
  · -- the loop leaves here: it sent everything exactly when nothing was left
    simp only [stop, if_true]
    constructor
    · rintro ⟨msgs, sent, eq, whole⟩
      obtain ⟨rfl, -⟩ : [_] = msgs ∧ _ = sent := by simpa using eq
      obtain ⟨parts, all, hbs, -⟩ := (splits []).mp whole
      cases all
      have none : (blocks.drop k).length = 0 := by rw [← hbs]; rfl
      rw [List.length_drop] at none
      omega
    · intro small
      refine ⟨_, _, rfl, (splits []).mpr ⟨[], .nil, ?_, ?_⟩⟩
      · exact (List.drop_eq_nil_of_le (by omega)).symm
      · exact (List.drop_eq_nil_of_le (by omega)).symm
  · simp only [stop, if_false]
    cases rest : sendBlocksLoop total (count - UInt32.ofNat k) (blocks.drop k) (infos.drop k) with
    | error e => simp
    | ok r =>
      obtain ⟨msgs, sent⟩ := r
      simp only [Except.ok.injEq, Prod.mk.injEq]
      constructor
      · rintro ⟨_, _, ⟨rfl, rfl⟩, whole⟩
        exact ⟨_, _, ⟨rfl, rfl⟩, (splits msgs).mp whole⟩
      · rintro ⟨_, _, ⟨rfl, rfl⟩, whole⟩
        exact ⟨_, _, ⟨rfl, rfl⟩, (splits msgs).mpr whole⟩

/-- The segments left before a frame, counted from one frame later. -/
theorem left_before (n i : Nat) (h : 1 ≤ i) : n - 36 * (i + 1 - 1) = n - 36 - 36 * (i - 1) := by
  omega

/-- The loop entered after `j` full frames sends the rest of the message whole,
unless some later full frame brings the bytes sent to the segments left. -/
theorem sendBlocksLoop_whole_iff (j : Nat) (totalSent count : UInt32) (blocks : List UInt32)
    (infos : List BlockInfo) (hb : blocks.length = count.toNat) (hi : infos.length = count.toNat)
    (sent : totalSent.toNat = 1016 * j % 2 ^ 32) :
    LoopSendsWhole totalSent count blocks infos ↔
      ¬ ∃ i, 1 ≤ i ∧ 36 * i < count.toNat ∧
        1016 * (j + i) % 2 ^ 32 = count.toNat - 36 * (i - 1) := by
  generalize left : count.toNat = n
  induction n using Nat.strongRecOn generalizing j totalSent count blocks infos with
  | ind n ih =>
    by_cases more : count.toNat = 0
    · have emptyB : blocks = [] := List.eq_nil_of_length_eq_zero (by omega)
      have emptyI : infos = [] := List.eq_nil_of_length_eq_zero (by omega)
      subst emptyB emptyI
      refine iff_of_true ⟨[], totalSent, ?_, [], .nil, rfl, rfl⟩ (by rintro ⟨i, _, _, _⟩; omega)
      rw [sendBlocksLoop]
      simp [more]
    · have step := sendBlocksLoop_step totalSent count blocks infos hb hi more
      simp only at step
      rw [step]
      generalize htotal : totalSent + UInt32.ofNat (8 + 28 * min count.toNat 36) = total
      have bytes : total.toNat = (1016 * j + (8 + 28 * min count.toNat 36)) % 2 ^ 32 := by
        rw [← htotal, UInt32.toNat_add, UInt32.toNat_ofNat', sent]
        omega
      have less : (count - UInt32.ofNat (min count.toNat 36)).toNat =
          count.toNat - min count.toNat 36 := by
        have hlt := count.toNat_lt
        have hle : UInt32.ofNat (min count.toNat 36) ≤ count := by
          rw [UInt32.le_iff_toNat_le, UInt32.toNat_ofNat']
          omega
        rw [UInt32.toNat_sub_of_le _ _ hle, UInt32.toNat_ofNat']
        omega
      have same : total = count ↔ total.toNat = count.toNat := UInt32.toNat_inj.symm
      by_cases last : count.toNat ≤ 36
      · -- the last frame: stopping here and going round once more agree
        refine iff_of_true ?_ (by rintro ⟨i, _, _, _⟩; omega)
        split
        · exact last
        · unfold LoopSendsWhole
          rw [sendBlocksLoop]
          refine ⟨[], total, ?_, [], .nil, ?_, ?_⟩
          · rw [dif_pos (by omega)]
          · exact (List.drop_eq_nil_of_le (by omega)).symm
          · exact (List.drop_eq_nil_of_le (by omega)).symm
      · have k36 : min count.toNat 36 = 36 := by omega
        rw [k36] at bytes less ⊢
        have full : total.toNat = 1016 * (j + 1) % 2 ^ 32 := by
          rw [bytes, show 1016 * j + (8 + 28 * 36) = 1016 * (j + 1) by omega]
        simp only [same, full, left]
        rw [left] at last less
        split
        · rename_i stop
          exact iff_of_false last (not_not.mpr ⟨1, le_refl 1, by omega, stop⟩)
        · rename_i goOn
          have rest := ih (n - 36) (Nat.sub_lt (by omega) (by decide)) (j + 1) total
            (count - UInt32.ofNat 36) (blocks.drop 36) (infos.drop 36)
            (by rw [List.length_drop, less, hb, left])
            (by rw [List.length_drop, less, hi, left]) full less
          rw [rest]
          apply not_congr
          constructor
          · rintro ⟨i, one, room, eq⟩
            exact ⟨i + 1, Nat.le_add_left 1 i, Nat.add_lt_of_lt_sub room, by
              rw [show j + (i + 1) = j + 1 + i by ring, eq, left_before n i one]⟩
          · rintro ⟨_ | _ | i, one, room, eq⟩
            · cases one
            · exact absurd eq goOn
            · exact ⟨i + 1, Nat.le_add_left 1 i, Nat.lt_sub_of_add_lt room, by
                rw [show j + 1 + (i + 1) = j + (i + 1 + 1) by ring, eq,
                  left_before n (i + 1) (Nat.le_add_left 1 i)]⟩

/-- `SendBlocksAndInfo` sends the whole message, in frames that decode to it,
exactly for the counts at which its loop does not stop early. -/
theorem sentWhole_iff (count : UInt32) (blockNums : List UInt32) (blockInfo : List BlockInfo)
    (hb : blockNums.length = count.toNat) (hi : blockInfo.length = count.toNat) :
    SentWhole count blockNums blockInfo ↔ ¬ StopsEarly count.toNat := by
  have h := sendBlocksLoop_whole_iff 0 0 count blockNums blockInfo hb hi (by simp)
  simp only [Nat.zero_add] at h
  exact h

theorem sentWhole_iff_segments :
    SentWhole 2 [7, 8] [default, default] ↔ ¬ StopsEarly 2 :=
  sentWhole_iff 2 [7, 8] [default, default] rfl rfl

/-- 1016 segments: the first frame of 36 takes 1016 bytes, and the other 980
segments are never sent. -/
theorem not_sentWhole_1016 :
    ¬ SentWhole 1016 (List.replicate 1016 0) (List.replicate 1016 default) := by
  have h := sendBlocksLoop_whole_iff 0 0 1016 (List.replicate 1016 0) (List.replicate 1016 default)
    List.length_replicate List.length_replicate rfl
  exact fun whole => h.mp whole ⟨1, by decide, by decide, by decide⟩

end Mcsb
