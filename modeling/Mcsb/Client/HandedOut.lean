import Mcsb.Client.Checksums

/-!
# Messages handed out

What the receiving side of a connected client does with its messages, some of
which were handed out and not released yet.
-/

namespace Mcsb

/-- The record of the first segment. -/
def MessageDescriptor.first (desc : MessageDescriptor) : Nat := (desc.head?.map (·.ref)).getD 0

theorem MessageDescriptor.first_mem {msg : MessageDescriptor} (nonempty : msg ≠ []) :
    ∃ seg ∈ msg, seg.ref = msg.first := by
  cases msg with
  | nil => exact absurd rfl nonempty
  | cons seg _ => exact ⟨seg, List.mem_cons_self, rfl⟩

theorem MessageDescriptor.nodup_firsts {held : List MessageDescriptor}
    (nonempty : ∀ msg ∈ held, msg ≠ []) (distinct : (held.flatten.map (·.ref)).Nodup) :
    (held.map MessageDescriptor.first).Nodup := by
  induction held with
  | nil => exact List.nodup_nil
  | cons msg held ih =>
    obtain ⟨here, later⟩ := List.forall_mem_cons.mp nonempty
    rw [List.flatten_cons, List.map_append] at distinct
    obtain ⟨-, rest, apart⟩ := List.nodup_append.mp distinct
    apply List.nodup_cons.mpr
    constructor
    · intro mem
      obtain ⟨other, listed, same⟩ := List.mem_map.mp mem
      obtain ⟨seg, inside, eq⟩ := first_mem here
      obtain ⟨seg', inside', eq'⟩ := first_mem (later other listed)
      apply apart _ (List.mem_map.mpr ⟨seg, inside, eq⟩) _
        (List.mem_map.mpr ⟨seg', List.mem_flatten.mpr ⟨other, listed, inside'⟩, eq'⟩)
      exact same.symm
    · exact ih later rest

namespace ClientRecvManager

/-- The segments of messages not handed out yet. -/
def awaiting (r : ClientRecvManager) : List RecvMsgSegment := r.pendingSegs ++ r.pendingMsg.getD []

theorem awaiting_getMessageDescriptor {r r' : ClientRecvManager} {result : Option MessageDescriptor}
    (got : r.getMessageDescriptor = (result, r')) :
    ∀ seg ∈ result.getD [] ++ r'.awaiting, seg ∈ r.awaiting := by
  cases stash : r.pendingMsg with
  | some desc =>
    simp only [getMessageDescriptor_stash stash, Prod.mk.injEq] at got
    obtain ⟨rfl, rfl⟩ := got
    intro seg mem
    simp only [awaiting, stash, Option.getD_some, Option.getD_none, List.append_nil,
      List.mem_append] at mem ⊢
    exact mem.symm
  | none =>
    have split := RecvHistory.findMessage_split r.numConsSlabs r.pendingSegs
    simp only [getMessageDescriptor, stash] at got
    generalize findMessage r.numConsSlabs r.pendingSegs = found at split got
    obtain ⟨message, retired, pending⟩ := found
    simp only [Prod.mk.injEq] at got
    obtain ⟨rfl, rfl⟩ := got
    intro seg mem
    simp only [awaiting, stash, Option.getD_none, List.append_nil] at mem ⊢
    rw [split]
    exact List.mem_append_right retired mem

theorem pendingSegs_addSegments (r : ClientRecvManager) (blocks : List RcvdBlock) :
    ∃ new, (r.addSegments blocks).pendingSegs = r.pendingSegs ++ new := by
  unfold addSegments
  dsimp only
  induction blocks generalizing r with
  | nil => exact ⟨[], (List.append_nil _).symm⟩
  | cons block blocks ih =>
    obtain ⟨new, rest⟩ := ih (r.addSegment block)
    have first : ∃ seg, (r.addSegment block).pendingSegs = r.pendingSegs ++ [seg] := by
      unfold addSegment
      by_cases none : r.freeSegs = []
      · rw [if_pos none]
        exact ⟨_, rfl⟩
      · rw [if_neg none]
        exact ⟨_, rfl⟩
    obtain ⟨seg, first⟩ := first
    refine ⟨seg :: new, ?_⟩
    rw [List.foldl_cons, rest, first, List.append_assoc]
    rfl

end ClientRecvManager

namespace Receiver
open ClientRecvManager RecvHistory

/-- The messages handed out and not released are `live`. -/
def Holds (numConsSlabs : Nat) (c : Receiver) (live : List MessageDescriptor) : Prop :=
  ∃ h : RecvHistory, RecvHistory.Sound numConsSlabs h ∧ h.mgr = c.recvMgr ∧ h.live.Perm live

variable {numConsSlabs : Nat} {mem : Memory} {c c' : Receiver} {live : List MessageDescriptor}
  {desc : MessageDescriptor}

theorem Holds.perm {live' : List MessageDescriptor} (h : Holds numConsSlabs c live)
    (same : live.Perm live') : Holds numConsSlabs c live' := by
  obtain ⟨hist, sound, mgr, perm⟩ := h
  exact ⟨hist, sound, mgr, perm.trans same⟩

/-- Every record is in one place. -/
theorem Holds.distinct (h : Holds numConsSlabs c live) :
    ((c.recvMgr.awaiting ++ live.flatten).map (·.ref)).Nodup := by
  obtain ⟨hist, sound, mgr, perm⟩ := h
  have lists := sound.lists
  have busy := sound.busy.trans (perm.flatten.append_right _)
  rw [mgr] at lists busy
  have records := (List.nodup_append.mp (lists.nodup_iff.mpr List.nodup_range)).2.1
  have moved : (c.recvMgr.pendingSegs ++ c.recvMgr.busySegs ++ c.recvMgr.retiredSegs).Perm
      (c.recvMgr.awaiting ++ live.flatten ++ c.recvMgr.retiredSegs) := by
    apply List.Perm.append_right
    unfold awaiting
    rw [List.append_assoc]
    exact (busy.trans List.perm_append_comm).append_left _
  have all := (moved.map (·.ref)).nodup_iff.mp records
  rw [List.map_append] at all
  exact (List.nodup_append.mp all).1

theorem Holds.apart (h : Holds numConsSlabs c live) (mem : desc ∈ live) (nonempty : desc ≠ [])
    {seg : RecvMsgSegment} (waits : seg ∈ c.recvMgr.awaiting) : seg.ref ≠ desc.first := by
  have distinct := h.distinct
  rw [List.map_append] at distinct
  obtain ⟨first, inside, eq⟩ := MessageDescriptor.first_mem nonempty
  rw [← eq]
  exact (List.nodup_append.mp distinct).2.2 _ (List.mem_map.mpr ⟨seg, waits, rfl⟩) _
    (List.mem_map.mpr ⟨first, List.mem_flatten.mpr ⟨desc, mem, inside⟩, rfl⟩)

theorem Holds.nodup_firsts (h : Holds numConsSlabs c live) (nonempty : ∀ msg ∈ live, msg ≠ []) :
    (live.map MessageDescriptor.first).Nodup := by
  have distinct := h.distinct
  rw [List.map_append] at distinct
  exact MessageDescriptor.nodup_firsts nonempty (List.nodup_append.mp distinct).2.1

theorem Holds.sendRetiredSegments (h : Holds numConsSlabs c live)
    (sent : c.sendRetiredSegments = .ok c') : Holds numConsSlabs c' live := by
  obtain ⟨hist, sound, mgr, perm⟩ := h
  simp only [Receiver.sendRetiredSegments] at sent
  split at sent
  · split at sent
    · cases sent
    split at sent
    · cases sent
    · cases sent
      refine ⟨_, sound.step (.getRetiredSegments c.recvMgr.retiredSegs.length) trivial, ?_, perm⟩
      simp only [RecvHistory.step, mgr]
  · cases sent
    exact ⟨hist, sound, mgr, perm⟩

theorem Holds.releaseRecvMsgDesc (h : Holds numConsSlabs c live) (mem : desc ∈ live)
    (released : c.releaseRecvMsgDesc desc = .ok c') : Holds numConsSlabs c' (live.erase desc) := by
  obtain ⟨hist, sound, mgr, perm⟩ := h
  have gone : Holds numConsSlabs { c with recvMgr := c.recvMgr.releaseMessageDescriptor desc }
      (live.erase desc) := by
    refine ⟨_, sound.step (.releaseMessageDescriptor desc) (perm.mem_iff.mpr mem), ?_,
      perm.erase desc⟩
    simp only [RecvHistory.step, mgr]
  exact gone.sendRetiredSegments released

/-- What `GetRecvMsgDesc` leaves. -/
structure Takes (numConsSlabs : Nat) (c : Receiver) (live : List MessageDescriptor)
    (result : Option MessageDescriptor) (c' : Receiver) : Prop where
  up : c'.Up
  holds : Holds numConsSlabs c' (live ++ result.toList)
  real : c'.recvMgr.pendingMsg ≠ some [] ∧ result ≠ some []
  waiting : ∀ seg ∈ result.getD [] ++ c'.recvMgr.awaiting, seg ∈ c.recvMgr.awaiting

theorem Holds.getMessageDescriptor {result : Option MessageDescriptor} {recvMgr : ClientRecvManager}
    (h : Holds numConsSlabs c live) (up : c.Up)
    (real : c.recvMgr.pendingMsg ≠ some [])
    (got : c.recvMgr.getMessageDescriptor = (result, recvMgr)) :
    Takes numConsSlabs c live result { c with recvMgr } := by
  obtain ⟨hist, sound, mgr, perm⟩ := h
  obtain ⟨message, stash⟩ := real_getMessageDescriptor real got
  constructor
  case up => exact ⟨up.alive, up.takes⟩
  case holds =>
    refine ⟨_, sound.step .getMessageDescriptor trivial, ?_, ?_⟩
    · simp only [RecvHistory.step, mgr, got]
    · simp only [RecvHistory.step, mgr, got]
      exact perm.append_right _
  case real =>
    constructor
    · simp only [stash, ne_eq, reduceCtorEq, not_false_eq_true]
    · exact message
  case waiting => exact awaiting_getMessageDescriptor got

theorem awaiting_sameInput (same : SameInput c c') : c'.recvMgr.awaiting = c.recvMgr.awaiting := by
  simp only [awaiting, same.pending, same.stash]

/-- The loop returns, whatever it has to release on the way. -/
theorem Holds.loop (h : Holds numConsSlabs c live) (up : c.Up)
    (real : c.recvMgr.pendingMsg ≠ some []) :
    ∃ result c', getRecvMsgDescLoop mem c = .ok (result, c') ∧
      Takes numConsSlabs c live result c' := by
  induction left : c.recvMgr.left using Nat.strongRecOn generalizing c with
  | ind n ih =>
    cases got : c.recvMgr.getMessageDescriptor with
    | mk result recvMgr =>
      have takes := h.getMessageDescriptor up real got
      cases result with
      | none => exact ⟨none, _, loop_none got, takes⟩
      | some desc =>
        cases bad : c.crcPolicy.verifies && !validCRC mem true desc with
        | false => exact ⟨some desc, _, loop_taken got bad, takes⟩
        | true =>
          generalize eq : { c with recvMgr, crcErrors := c.crcErrors + 1 } = c₁
          have mgr₁ : c₁.recvMgr = recvMgr := by rw [← eq]
          have up₁ : c₁.Up := by
            rw [← eq]
            exact ⟨up.alive, up.takes⟩
          obtain ⟨c₂, released, up₂⟩ := up₁.releaseRecvMsgDesc desc
          have same := sameInput_releaseRecvMsgDesc released
          have holds₁ : Holds numConsSlabs c₁ (live ++ [desc]) := by
            obtain ⟨hist, sound, mgr, perm⟩ := takes.holds
            exact ⟨hist, sound, mgr.trans mgr₁.symm, perm⟩
          have holds₂ : Holds numConsSlabs c₂ live := by
            apply (holds₁.releaseRecvMsgDesc (by simp) released).perm
            exact (List.perm_append_comm.erase desc).trans (.of_eq (List.erase_cons_head ..))
          have less : c₂.recvMgr.left < n := by
            rw [same.left, mgr₁, ← left]
            exact left_getMessageDescriptor got
          have real₂ : c₂.recvMgr.pendingMsg ≠ some [] := by
            rw [same.stash, mgr₁]
            exact takes.real.1
          obtain ⟨result, c₃, loop, rest⟩ := ih _ less holds₂ up₂ real₂ rfl
          refine ⟨result, c₃, ?_, rest.up, rest.holds, rest.real, ?_⟩
          · rw [loop_released got bad, eq, released]
            exact loop
          · intro seg mem
            have waiting := rest.waiting seg mem
            rw [awaiting_sameInput same, mgr₁] at waiting
            exact takes.waiting seg (List.mem_append_right _ waiting)

theorem Holds.getRecvMsgDesc (h : Holds numConsSlabs c live) (up : c.Up)
    (real : c.recvMgr.pendingMsg ≠ some []) :
    ∃ result c', c.getRecvMsgDesc mem = .ok (result, c') ∧
      Takes numConsSlabs c live result c' := by
  obtain ⟨result, c₁, loop, takes⟩ := @Holds.loop _ mem _ _ h up real
  obtain ⟨c₂, sent, up₂⟩ := takes.up.sendRetiredSegments
  have same := (sameInput_sendRetiredSegments sent).1
  refine ⟨result, c₂, ?_, up₂, takes.holds.sendRetiredSegments sent, ?_, ?_⟩
  · simp only [Receiver.getRecvMsgDesc, loop, sent, bind, Except.bind, pure, Except.pure]
  · rw [same.stash]
    exact takes.real
  · rw [awaiting_sameInput same]
    exact takes.waiting

theorem Holds.pendingRecvMessage (h : Holds numConsSlabs c live) (up : c.Up)
    (real : c.recvMgr.pendingMsg ≠ some []) :
    ∃ result c', c.pendingRecvMessage = .ok (result, c') ∧ c'.Up ∧
      Holds numConsSlabs c' live ∧ c'.recvMgr.pendingMsg ≠ some [] ∧
      ∀ seg ∈ c'.recvMgr.awaiting, seg ∈ c.recvMgr.awaiting := by
  obtain ⟨hist, sound, mgr, perm⟩ := h
  generalize found : c.recvMgr.pendingMessage = looked
  obtain ⟨result, recvMgr⟩ := looked
  have holds : Holds numConsSlabs { c with recvMgr } live := by
    refine ⟨_, sound.step .pendingMessage trivial, ?_, perm⟩
    simp only [RecvHistory.step, mgr, found]
  have kept : recvMgr.pendingMsg ≠ some [] ∧ ∀ seg ∈ recvMgr.awaiting, seg ∈ c.recvMgr.awaiting := by
    cases stash : c.recvMgr.pendingMsg with
    | some desc =>
      simp only [pendingMessage, stash, Prod.mk.injEq] at found
      obtain ⟨-, rfl⟩ := found
      exact ⟨real, fun _ mem => mem⟩
    | none =>
      generalize got : c.recvMgr.getMessageDescriptor = search
      obtain ⟨message, recvMgr₁⟩ := search
      simp only [pendingMessage, stash, got, Prod.mk.injEq] at found
      obtain ⟨-, rfl⟩ := found
      obtain ⟨nonempty, none⟩ := real_getMessageDescriptor real got
      refine ⟨nonempty, fun seg mem => awaiting_getMessageDescriptor got seg ?_⟩
      simp only [awaiting, none, Option.getD_none, List.append_nil, List.mem_append] at mem ⊢
      exact mem.symm
  have searched : Up { c with recvMgr } := ⟨up.alive, up.takes⟩
  obtain ⟨c', sent, up'⟩ := searched.sendRetiredSegments
  have same := (sameInput_sendRetiredSegments sent).1
  refine ⟨result, c', ?_, up', holds.sendRetiredSegments sent, ?_, ?_⟩
  · simp only [Receiver.pendingRecvMessage, found, sent, bind, Except.bind, pure, Except.pure]
  · rw [same.stash]
    exact kept.1
  · rw [awaiting_sameInput same]
    exact kept.2

end Receiver

end Mcsb
