import Mcsb.Client.Reassembly
import Mcsb.Lib.Pool
import Mcsb.Lib.Scanner

/-!
# Reassembly at any time

`ClientRecvManager` may be asked for messages at any time, and its callers may
hold on to them as long as they like. Neither changes which messages it finds
and which segments it drops: `timing_independent` compares any run of calls with
one scan of all that was received.
-/

namespace Mcsb

/-- The blocks go on with a message of which `first` is the first segment, from
the segment with number `i` on. -/
def GoesOn (first : BlockInfo) : Nat → List RcvdBlock → Prop
  | _, [] => True
  | i, block :: blocks =>
    (block.info.numSegments = first.numSegments ∧ block.info.segmentNumber.toNat = i ∧
      block.info.messageID = first.messageID) ∧ GoesOn first (i + 1) blocks

instance GoesOn.decide (first : BlockInfo) (i : Nat) (blocks : List RcvdBlock) :
    Decidable (GoesOn first i blocks) :=
  match blocks with
  | [] => .isTrue trivial
  | _ :: rest =>
    have := GoesOn.decide first (i + 1) rest
    inferInstanceAs (Decidable (_ ∧ _))

/-- What becomes of the head of the segments received: it is dropped if it can
not begin a message, waits if the message can not be complete, and is emitted
with the message if that matches. -/
def verdict (numConsSlabs : Nat) (head : RcvdBlock) (rest : List RcvdBlock) : Verdict :=
  let numSegments := head.info.numSegments.toNat
  if head.info.segmentNumber ≠ 0 ∨ numSegments = 0 ∨ numConsSlabs < numSegments then .drop
  else if rest.length + 1 < numSegments then .wait
  else if GoesOn head.info 1 (rest.take (numSegments - 1)) then .emit (numSegments - 1)
  else .drop

/-- The segmenter that is given all segments at once. -/
def segmenter (numConsSlabs : Nat) : Scanner RcvdBlock where
  verdict := verdict numConsSlabs
  inside {head rest k} emits := by
    simp only [verdict] at emits
    split at emits
    · cases emits
    split at emits
    · cases emits
    split at emits
    · cases emits
      omega
    · cases emits
  stable {head rest} decided more := by
    simp only [verdict] at decided ⊢
    split
    · rfl
    · rename_i starts
      simp only [if_neg starts] at decided
      split at decided
      · exact absurd rfl decided
      · rename_i enough
        have later : ¬ (rest ++ more).length + 1 < head.info.numSegments.toNat := by
          simp only [List.length_append]
          omega
        have same : (rest ++ more).take (head.info.numSegments.toNat - 1) =
            rest.take (head.info.numSegments.toNat - 1) :=
          List.take_append_of_le_length (by omega)
        simp only [if_neg enough, if_neg later, same]

namespace ClientRecvManager

def pendingMessage (r : ClientRecvManager) : Bool × ClientRecvManager :=
  match r.pendingMsg with
  | some _ => (true, r)
  | none =>
    let (result, r) := r.getMessageDescriptor
    (result.isSome, { r with pendingMsg := result })

/-- One turn of the loop of `ReleaseMessageDescriptor`. -/
def releaseSegment (r : ClientRecvManager) (seg : RecvMsgSegment) : ClientRecvManager :=
  { r with busySegs := r.busySegs.erase seg, retiredSegs := r.retiredSegs ++ [seg] }

def releaseMessageDescriptor (r : ClientRecvManager) (desc : MessageDescriptor) :
    ClientRecvManager :=
  desc.foldl releaseSegment r

def getRetiredSegments (r : ClientRecvManager) (maxCount : Nat) : List Nat × ClientRecvManager :=
  ((r.retiredSegs.take maxCount).map (·.blockID),
    { r with
      retiredSegs := r.retiredSegs.drop maxCount
      freeSegs := r.freeSegs ++ (r.retiredSegs.take maxCount).map (·.ref) })

/-! ## The scan stays inside -/

/-- The scan of `GetMessageDescriptor` for segments that match: `none` is an
iterator that steps past the end of `pendingSegs`. -/
def walkMatches (first : BlockInfo) (numSegMatches : Nat) :
    List RecvMsgSegment → Option Nat
  | [] => if numSegMatches < first.numSegments.toNat then none else some numSegMatches
  | seg :: segs =>
    if numSegMatches < first.numSegments.toNat then
      if seg.blockInfo.numSegments = first.numSegments ∧
          seg.blockInfo.segmentNumber.toNat = numSegMatches ∧
          seg.blockInfo.messageID = first.messageID then
        walkMatches first (numSegMatches + 1) segs
      else some numSegMatches
    else some numSegMatches

/-- The loop of `GetMessageDescriptor` with that scan. -/
def walkMessage (numConsSlabs : Nat) : List RecvMsgSegment →
    Option (Option MessageDescriptor × List RecvMsgSegment × List RecvMsgSegment)
  | [] => some (none, [], [])
  | seg0 :: segs =>
    let numSegments := seg0.blockInfo.numSegments.toNat
    let dropped := (walkMessage numConsSlabs segs).map
      fun (result, retired, pending) => (result, seg0 :: retired, pending)
    if seg0.blockInfo.segmentNumber ≠ 0 ∨ numSegments = 0 ∨ numConsSlabs < numSegments then dropped
    else if (seg0 :: segs).length < numSegments then some (none, [], seg0 :: segs)
    else (walkMatches seg0.blockInfo 1 segs).bind fun numSegMatches =>
      if numSegMatches < numSegments then dropped
      else some (some ((seg0 :: segs).take numSegments), [], (seg0 :: segs).drop numSegments)

theorem walkMatches_inside {first : BlockInfo} {i : Nat} {segs : List RecvMsgSegment}
    (enough : first.numSegments.toNat ≤ i + segs.length) :
    walkMatches first i segs = some (countMatches first i segs) := by
  induction segs generalizing i with
  | nil =>
    have done : ¬ i < first.numSegments.toNat := by simpa using enough
    simp only [walkMatches, countMatches, if_neg done]
  | cons seg segs ih =>
    simp only [List.length_cons] at enough
    have rest := ih (i := i + 1) (by omega)
    simp only [walkMatches, countMatches, rest, ite_and]
    split
    · split
      · split
        · split <;> rfl
        · rfl
      · rfl
    · rfl

theorem walkMessage_inside (numConsSlabs : Nat) (segs : List RecvMsgSegment) :
    walkMessage numConsSlabs segs = some (findMessage numConsSlabs segs) := by
  induction segs with
  | nil => rfl
  | cons seg0 segs ih =>
    simp only [walkMessage, findMessage, ih, Option.map_some]
    split
    · rfl
    split
    · rfl
    · rename_i enough
      simp only [List.length_cons] at enough
      rw [walkMatches_inside (by omega)]
      simp only [Option.bind_some]
      split <;> rfl

/-! ## What it finds -/

/-- The matches are enough for a message exactly where it goes on. -/
theorem countMatches_lt {first : BlockInfo} {i : Nat} {segs : List RecvMsgSegment}
    (le : i ≤ first.numSegments.toNat) (enough : first.numSegments.toNat ≤ i + segs.length) :
    countMatches first i segs < first.numSegments.toNat ↔
      ¬ GoesOn first i ((segs.map RecvMsgSegment.rcvd).take (first.numSegments.toNat - i)) := by
  induction segs generalizing i with
  | nil =>
    have done : i = first.numSegments.toNat := by
      simp only [List.length_nil] at enough
      omega
    simp [countMatches, GoesOn, done]
  | cons seg segs ih =>
    simp only [List.length_cons] at enough
    by_cases more : i < first.numSegments.toNat
    · have left : first.numSegments.toNat - i = first.numSegments.toNat - (i + 1) + 1 := by omega
      have rest := ih (i := i + 1) (by omega) (by omega)
      simp only [countMatches, more, true_and, left, List.map_cons, List.take_succ_cons, GoesOn,
        RecvMsgSegment.rcvd]
      split
      · rename_i matching
        simpa [matching] using rest
      · rename_i other
        simp only [more, true_iff, not_and]
        exact fun matching => absurd matching other
    · have done : first.numSegments.toNat - i = 0 := by omega
      have still : countMatches first i (seg :: segs) = i := by
        simp [countMatches, more]
      simp only [still, more, done, List.take_zero, GoesOn, not_true_eq_false]

/-- A search among the segments pending is a step of the segmenter. -/
theorem next_comap_segmenter (numConsSlabs : Nat) (segs : List RecvMsgSegment) :
    ((segmenter numConsSlabs).comap RecvMsgSegment.rcvd).next segs =
      findMessage numConsSlabs segs := by
  induction segs with
  | nil => rfl
  | cons seg0 segs ih =>
    by_cases starts : seg0.blockInfo.segmentNumber ≠ 0 ∨ seg0.blockInfo.numSegments.toNat = 0 ∨
        numConsSlabs < seg0.blockInfo.numSegments.toNat
    · have drops : ((segmenter numConsSlabs).comap RecvMsgSegment.rcvd).verdict seg0 segs =
          .drop := if_pos starts
      simp only [Scanner.next_drop drops, ih, findMessage, if_pos starts]
    by_cases few : segs.length + 1 < seg0.blockInfo.numSegments.toNat
    · have waits : ((segmenter numConsSlabs).comap RecvMsgSegment.rcvd).verdict seg0 segs =
          .wait := by
        simp only [Scanner.comap, segmenter, verdict, RecvMsgSegment.rcvd, List.length_map,
          if_neg starts, if_pos few]
      simp [Scanner.next_wait waits, findMessage, starts, few]
    have matching : countMatches seg0.blockInfo 1 segs < seg0.blockInfo.numSegments.toNat ↔
        ¬ GoesOn seg0.blockInfo 1 ((segs.map RecvMsgSegment.rcvd).take
          (seg0.blockInfo.numSegments.toNat - 1)) :=
      countMatches_lt (by omega) (by omega)
    have value : ((segmenter numConsSlabs).comap RecvMsgSegment.rcvd).verdict seg0 segs =
        if countMatches seg0.blockInfo 1 segs < seg0.blockInfo.numSegments.toNat then .drop
        else .emit (seg0.blockInfo.numSegments.toNat - 1) := by
      simp only [Scanner.comap, segmenter, verdict, RecvMsgSegment.rcvd, List.length_map,
        if_neg starts, if_neg few, matching]
      split <;> rfl
    by_cases mismatch : countMatches seg0.blockInfo 1 segs < seg0.blockInfo.numSegments.toNat
    · simp only [if_pos mismatch] at value
      simp only [Scanner.next_drop value, ih, findMessage, List.length_cons, if_neg starts,
        if_neg few, if_pos mismatch]
    · simp only [if_neg mismatch] at value
      -- the segments after the head are one less than the message has
      obtain ⟨k, whole⟩ : ∃ k, seg0.blockInfo.numSegments.toNat = k + 1 :=
        Nat.exists_eq_add_one.mpr (by omega)
      simp only [Scanner.next_emit value, findMessage, List.length_cons, if_neg starts,
        if_neg few, if_neg mismatch]
      simp only [whole, Nat.add_sub_cancel, List.take_succ_cons, List.drop_succ_cons]

end ClientRecvManager

/-! ## Runs -/

/-- A call of a `ClientRecvManager`. -/
inductive RecvCall where
  | addSegments (blocks : List RcvdBlock)
  | pendingMessage
  | getMessageDescriptor
  | getRetiredSegments (maxCount : Nat)
  | releaseMessageDescriptor (desc : MessageDescriptor)

/-- A manager with what its callers have seen: all segments added, the messages
returned and those of them not released yet, the segments that a search retired,
and whether the last search was after all segments and returned none. -/
structure RecvHistory where
  mgr : ClientRecvManager
  stream : List RcvdBlock := []
  returned : List MessageDescriptor := []
  live : List MessageDescriptor := []
  dropped : List RecvMsgSegment := []
  quiet : Bool := false

namespace RecvHistory
open ClientRecvManager

/-- What the manager has retired since. -/
def retiredSince (h : RecvHistory) (mgr : ClientRecvManager) : List RecvMsgSegment :=
  mgr.retiredSegs.drop h.mgr.retiredSegs.length

def step (h : RecvHistory) : RecvCall → RecvHistory
  | .addSegments blocks =>
    { h with
      mgr := h.mgr.addSegments blocks
      stream := h.stream ++ blocks
      quiet := h.quiet && blocks.isEmpty }
  | .pendingMessage =>
    let mgr := h.mgr.pendingMessage.2
    { h with mgr, dropped := h.dropped ++ h.retiredSince mgr }
  | .getMessageDescriptor =>
    let (result, mgr) := h.mgr.getMessageDescriptor
    { h with
      mgr
      returned := h.returned ++ result.toList
      live := h.live ++ result.toList
      dropped := h.dropped ++ h.retiredSince mgr
      quiet := result.isNone }
  | .getRetiredSegments maxCount => { h with mgr := (h.mgr.getRetiredSegments maxCount).2 }
  | .releaseMessageDescriptor desc =>
    { h with mgr := h.mgr.releaseMessageDescriptor desc, live := h.live.erase desc }

/-- A message is released once, after it was returned. -/
def Legal (h : RecvHistory) : RecvCall → Prop
  | .releaseMessageDescriptor desc => desc ∈ h.live
  | _ => True

/-- The histories of a new manager. -/
inductive Run (numConsSlabs : Nat) : RecvHistory → Prop where
  | start : Run numConsSlabs { mgr := { numConsSlabs } }
  | step {h : RecvHistory} (run : Run numConsSlabs h) (call : RecvCall) (legal : h.Legal call) :
      Run numConsSlabs (h.step call)

/-- Every record is on one of the four lists, once. -/
def EachOnOneList (r : ClientRecvManager) : Prop :=
  (r.freeSegs ++ (r.pendingSegs ++ r.busySegs ++ r.retiredSegs).map (·.ref)).Perm
    (List.range r.numSegs)

/-- What holds between the calls. -/
structure Sound (numConsSlabs : Nat) (h : RecvHistory) : Prop where
  slabs : h.mgr.numConsSlabs = numConsSlabs
  lists : EachOnOneList h.mgr
  busy : h.mgr.busySegs.Perm (h.live.flatten ++ h.mgr.pendingMsg.getD [])
  resumes : (segmenter numConsSlabs).Resumes h.stream
    ((h.returned ++ h.mgr.pendingMsg.toList).map (·.map RecvMsgSegment.rcvd))
    (h.dropped.map RecvMsgSegment.rcvd) (h.mgr.pendingSegs.map RecvMsgSegment.rcvd)
  waits : h.quiet = true → h.mgr.pendingMsg = none ∧
    (segmenter numConsSlabs).scan (h.mgr.pendingSegs.map RecvMsgSegment.rcvd) =
      ⟨[], [], h.mgr.pendingSegs.map RecvMsgSegment.rcvd⟩

theorem findMessage_split (numConsSlabs : Nat) (segs : List RecvMsgSegment) :
    segs = (findMessage numConsSlabs segs).2.1 ++ ((findMessage numConsSlabs segs).1.getD [] ++
      (findMessage numConsSlabs segs).2.2) := by
  induction segs with
  | nil => rfl
  | cons seg0 segs ih =>
    simp only [findMessage]
    split
    · simpa only [List.cons_append, List.cons.injEq, true_and] using ih
    split
    · rfl
    split
    · simpa only [List.cons_append, List.cons.injEq, true_and] using ih
    · simp only [Option.getD_some, List.nil_append, List.take_append_drop]

/-- What a search for a message leaves. -/
structure Searched (numConsSlabs : Nat) (h : RecvHistory) (result : Option MessageDescriptor)
    (mgr : ClientRecvManager) : Prop where
  slabs : mgr.numConsSlabs = numConsSlabs
  stash : mgr.pendingMsg = none
  lists : EachOnOneList mgr
  busy : mgr.busySegs.Perm (h.live.flatten ++ result.getD [])
  resumes : (segmenter numConsSlabs).Resumes h.stream
    ((h.returned ++ result.toList).map (·.map RecvMsgSegment.rcvd))
    ((h.dropped ++ h.retiredSince mgr).map RecvMsgSegment.rcvd)
    (mgr.pendingSegs.map RecvMsgSegment.rcvd)
  waits : result = none → (segmenter numConsSlabs).scan (mgr.pendingSegs.map RecvMsgSegment.rcvd) =
    ⟨[], [], mgr.pendingSegs.map RecvMsgSegment.rcvd⟩
  quiet : h.quiet = true → result = none

variable {numConsSlabs : Nat} {h : RecvHistory}

/-- Segments go from list to list. -/
theorem EachOnOneList.perm {r r' : ClientRecvManager} (each : EachOnOneList r)
    (free : r'.freeSegs = r.freeSegs) (size : r'.numSegs = r.numSegs)
    (moved : (r'.pendingSegs ++ r'.busySegs ++ r'.retiredSegs).Perm
      (r.pendingSegs ++ r.busySegs ++ r.retiredSegs)) : EachOnOneList r' := by
  unfold EachOnOneList at each ⊢
  simp only [free, size]
  exact ((moved.map _).append_left _).trans each

theorem Sound.search (sound : Sound numConsSlabs h) (stash : h.mgr.pendingMsg = none) :
    Searched numConsSlabs h h.mgr.getMessageDescriptor.1 h.mgr.getMessageDescriptor.2 := by
  have split := findMessage_split h.mgr.numConsSlabs h.mgr.pendingSegs
  have next := Scanner.next_map RecvMsgSegment.rcvd (segmenter h.mgr.numConsSlabs)
    h.mgr.pendingSegs
  simp only [next_comap_segmenter] at next
  have left := (segmenter h.mgr.numConsSlabs).scan_left
    (h.mgr.pendingSegs.map RecvMsgSegment.rcvd)
  simp only [getMessageDescriptor, stash]
  generalize findMessage h.mgr.numConsSlabs h.mgr.pendingSegs = found at split next ⊢
  obtain ⟨result, retired, pending⟩ := found
  dsimp only at split next ⊢
  simp only [next] at left
  constructor
  case slabs => exact sound.slabs
  case stash => rfl
  case lists =>
    refine sound.lists.perm rfl rfl ?_
    simp only [split]
    apply List.perm_iff_count.mpr
    intro seg
    simp only [List.count_append]
    omega
  case busy =>
    have busy := sound.busy
    simp only [stash, Option.getD_none, List.append_nil] at busy
    exact busy.append_right _
  case resumes =>
    have resumes := sound.resumes.next
    simp only [stash, Option.toList_none, List.append_nil, ← sound.slabs, next] at resumes
    simp only [← sound.slabs, List.map_append, retiredSince, List.drop_left]
    cases result <;> exact resumes
  case waits =>
    intro none
    simp only [← sound.slabs]
    exact left (by simp only [none, Option.map_none])
  case quiet =>
    intro quiet
    have waits := congrArg Scan.emitted (sound.waits quiet).2
    simp only [← sound.slabs] at waits
    simpa only [next, Option.map_eq_none_iff] using Scanner.next_eq_none waits

theorem EachOnOneList.addMsgSegBlock {r : ClientRecvManager} (each : EachOnOneList r) :
    EachOnOneList r.addMsgSegBlock := by
  unfold EachOnOneList at each ⊢
  simp only [ClientRecvManager.addMsgSegBlock, Pool.range_add]
  refine List.Perm.trans ?_ (each.append_right _)
  simp only [List.append_assoc]
  exact List.perm_append_comm.append_left _

/-- What `AddSegments` changes. -/
structure Added (r r' : ClientRecvManager) (blocks : List RcvdBlock) : Prop where
  pending : r'.pendingSegs.map RecvMsgSegment.rcvd = r.pendingSegs.map RecvMsgSegment.rcvd ++ blocks
  busy : r'.busySegs = r.busySegs
  stash : r'.pendingMsg = r.pendingMsg
  slabs : r'.numConsSlabs = r.numConsSlabs
  lists : EachOnOneList r → EachOnOneList r'

theorem added_addSegment (r : ClientRecvManager) (block : RcvdBlock) :
    Added r (r.addSegment block) [block] := by
  unfold addSegment
  generalize stocks : (if r.freeSegs = [] then r.addMsgSegBlock else r) = stocked
  have same : stocked.pendingSegs = r.pendingSegs ∧ stocked.busySegs = r.busySegs ∧
      stocked.pendingMsg = r.pendingMsg ∧ stocked.numConsSlabs = r.numConsSlabs := by
    subst stocks
    split <;> exact ⟨rfl, rfl, rfl, rfl⟩
  have free : stocked.freeSegs ≠ [] := by
    subst stocks
    split
    · simp [ClientRecvManager.addMsgSegBlock, kNumSegs]
    · assumption
  obtain ⟨pending, busy, stash, slabs⟩ := same
  constructor
  case pending => simp only [List.map_append, pending, List.map_cons, List.map_nil,
    RecvMsgSegment.rcvd]
  case busy => exact busy
  case stash => exact stash
  case slabs => exact slabs
  case lists =>
    intro each
    have still : EachOnOneList stocked := by
      subst stocks
      split
      · exact each.addMsgSegBlock
      · exact each
    obtain ⟨ref, rest, eq⟩ := List.exists_cons_of_ne_nil free
    unfold EachOnOneList at still ⊢
    simp only [eq, List.headD_cons, List.tail_cons, List.map_append] at still ⊢
    refine List.Perm.trans ?_ still
    apply List.perm_iff_count.mpr
    intro x
    simp only [List.count_append, List.count_cons, List.map_cons, List.map_nil, List.count_nil]
    omega

theorem added_addSegments (r : ClientRecvManager) (blocks : List RcvdBlock) :
    Added r (r.addSegments blocks) blocks := by
  have each : Added r (blocks.foldl addSegment r) blocks := by
    induction blocks generalizing r with
    | nil => exact ⟨(List.append_nil _).symm, rfl, rfl, rfl, id⟩
    | cons block blocks ih =>
      have first := added_addSegment r block
      have rest := ih (r.addSegment block)
      simp only [List.foldl_cons]
      constructor
      case pending => simp only [rest.pending, first.pending, List.append_assoc, List.singleton_append]
      case busy => exact rest.busy.trans first.busy
      case stash => exact rest.stash.trans first.stash
      case slabs => exact rest.slabs.trans first.slabs
      case lists => exact rest.lists ∘ first.lists
  exact ⟨each.pending, each.busy, each.stash, each.slabs, each.lists⟩

/-- What `ReleaseMessageDescriptor` changes, when the segments are busy. -/
structure Released (r r' : ClientRecvManager) (desc : MessageDescriptor) : Prop where
  pending : r'.pendingSegs = r.pendingSegs
  stash : r'.pendingMsg = r.pendingMsg
  slabs : r'.numConsSlabs = r.numConsSlabs
  busy : r.busySegs.Perm (desc ++ r'.busySegs)
  lists : EachOnOneList r → EachOnOneList r'

theorem released {r : ClientRecvManager} {desc : MessageDescriptor} {others : List RecvMsgSegment}
    (busy : r.busySegs.Perm (desc ++ others)) :
    Released r (r.releaseMessageDescriptor desc) desc := by
  unfold releaseMessageDescriptor
  induction desc generalizing r with
  | nil => exact ⟨rfl, rfl, rfl, .refl _, id⟩
  | cons seg desc ih =>
    have mem : seg ∈ r.busySegs := busy.mem_iff.mpr List.mem_cons_self
    have here := List.perm_cons_erase mem
    have left : (r.releaseSegment seg).busySegs.Perm (desc ++ others) :=
      (here.symm.trans busy).cons_inv
    have rest := ih left
    simp only [List.foldl_cons]
    constructor
    case pending => exact rest.pending
    case stash => exact rest.stash
    case slabs => exact rest.slabs
    case busy => exact here.trans (rest.busy.cons seg)
    case lists =>
      intro each
      apply rest.lists
      refine each.perm rfl rfl ?_
      simp only [releaseSegment]
      refine List.Perm.trans ?_ ((here.symm.append_left _).append_right _)
      apply List.perm_iff_count.mpr
      intro x
      simp only [List.count_append, List.count_cons, List.count_nil]
      omega

theorem eachOnOneList_getRetiredSegments {r : ClientRecvManager} (each : EachOnOneList r)
    (maxCount : Nat) : EachOnOneList (r.getRetiredSegments maxCount).2 := by
  unfold EachOnOneList at each ⊢
  simp only [getRetiredSegments]
  refine List.Perm.trans ?_ each
  conv => rhs; rw [← List.take_append_drop maxCount r.retiredSegs]
  apply List.perm_iff_count.mpr
  intro ref
  simp only [List.map_append, List.count_append]
  omega

theorem sound_start (numConsSlabs : Nat) :
    Sound numConsSlabs { mgr := { numConsSlabs } } where
  slabs := rfl
  lists := .refl _
  busy := .refl _
  resumes := Scanner.resumes_start
  waits none := by cases none

/-- One call keeps it. -/
theorem Sound.step (sound : Sound numConsSlabs h) (call : RecvCall) (legal : h.Legal call) :
    Sound numConsSlabs (h.step call) := by
  cases call with
  | addSegments blocks =>
    have added := added_addSegments h.mgr blocks
    constructor
    case slabs => exact added.slabs.trans sound.slabs
    case lists => exact added.lists sound.lists
    case busy =>
      simp only [RecvHistory.step, added.busy, added.stash]
      exact sound.busy
    case resumes =>
      simp only [RecvHistory.step, added.pending, added.stash]
      exact sound.resumes.feed blocks
    case waits =>
      simp only [RecvHistory.step, Bool.and_eq_true, List.isEmpty_iff]
      rintro ⟨quiet, rfl⟩
      simp only [added.pending, added.stash, List.append_nil]
      exact sound.waits quiet
  | pendingMessage =>
    cases stash : h.mgr.pendingMsg with
    | some result =>
      have same : h.step .pendingMessage = h := by
        simp only [RecvHistory.step, pendingMessage, stash, retiredSince, List.drop_length,
          List.append_nil]
      rw [same]
      exact sound
    | none =>
      have found := sound.search stash
      simp only [RecvHistory.step, pendingMessage, stash]
      generalize h.mgr.getMessageDescriptor = got at found ⊢
      obtain ⟨result, mgr⟩ := got
      dsimp only at found ⊢
      constructor
      case slabs => exact found.slabs
      case lists => exact found.lists
      case busy => exact found.busy
      case resumes => exact found.resumes
      case waits => exact fun quiet => ⟨found.quiet quiet, found.waits (found.quiet quiet)⟩
  | getMessageDescriptor =>
    cases stash : h.mgr.pendingMsg with
    | some result =>
      have got : h.mgr.getMessageDescriptor = (some result, { h.mgr with pendingMsg := none }) := by
        simp only [getMessageDescriptor, stash]
      have busy := sound.busy
      have resumes := sound.resumes
      simp only [stash, Option.getD_some, Option.toList_some] at busy resumes
      simp only [RecvHistory.step, got, retiredSince, List.drop_length, List.append_nil]
      constructor
      case slabs => exact sound.slabs
      case lists => exact sound.lists
      case busy => simpa using busy
      case resumes => simpa using resumes
      case waits =>
        intro quiet
        cases quiet
    | none =>
      have found := sound.search stash
      simp only [RecvHistory.step]
      generalize h.mgr.getMessageDescriptor = got at found ⊢
      obtain ⟨result, mgr⟩ := got
      dsimp only at found ⊢
      have busy := found.busy
      have resumes := found.resumes
      constructor
      case slabs => exact found.slabs
      case lists => exact found.lists
      case busy => cases result <;> simpa [found.stash] using busy
      case resumes => simpa [found.stash] using resumes
      case waits =>
        intro none
        exact ⟨found.stash, found.waits (Option.isNone_iff_eq_none.mp none)⟩
  | getRetiredSegments maxCount =>
    exact ⟨sound.slabs, eachOnOneList_getRetiredSegments sound.lists maxCount, sound.busy,
      sound.resumes, sound.waits⟩
  | releaseMessageDescriptor desc =>
    have live : (h.live.flatten).Perm (desc ++ (h.live.erase desc).flatten) :=
      (List.perm_cons_erase legal).flatten
    have gone := released ((sound.busy.trans (live.append_right _)).trans
      (.of_eq (List.append_assoc _ _ _)))
    constructor
    case slabs => exact gone.slabs.trans sound.slabs
    case lists => exact gone.lists sound.lists
    case busy =>
      simp only [RecvHistory.step, gone.stash]
      have both := gone.busy.symm.trans ((sound.busy.trans (live.append_right _)).trans
        (.of_eq (List.append_assoc _ _ _)))
      exact (List.perm_append_left_iff desc).mp both
    case resumes =>
      simp only [RecvHistory.step, gone.stash, gone.pending]
      exact sound.resumes
    case waits =>
      simp only [RecvHistory.step, gone.stash, gone.pending]
      exact sound.waits

theorem Run.sound (run : Run numConsSlabs h) : Sound numConsSlabs h := by
  induction run with
  | start => exact sound_start numConsSlabs
  | step _ call legal ih => exact ih.step call legal

/-- However the calls are interleaved, every record is on one list, a search
does not step past the end of the segments pending, and once a search after the
last segment has returned none, the messages and the segments dropped are those
of one scan of the whole stream. -/
theorem timing_independent (run : Run numConsSlabs h) :
    EachOnOneList h.mgr ∧
    walkMessage h.mgr.numConsSlabs h.mgr.pendingSegs =
      some (findMessage h.mgr.numConsSlabs h.mgr.pendingSegs) ∧
    (h.quiet = true →
      h.returned.map (·.map RecvMsgSegment.rcvd) =
        ((segmenter numConsSlabs).scan h.stream).emitted ∧
      h.dropped.map RecvMsgSegment.rcvd = ((segmenter numConsSlabs).scan h.stream).dropped) := by
  have sound := run.sound
  constructor
  · exact sound.lists
  constructor
  · exact walkMessage_inside _ _
  intro quiet
  obtain ⟨stash, waits⟩ := sound.waits quiet
  have whole := sound.resumes.finished waits
  simp only [stash, Option.toList_none, List.append_nil] at whole
  simp only [whole, and_self]

/-- The end of a message, as left over from one that was dropped. -/
def stray : RcvdBlock := ⟨2, 16, ⟨7, 2, 0, 1, 2, 0⟩⟩

/-- The message comes in two pieces, with a look ahead after the first. -/
def strayHistory : RecvHistory :=
  ([.addSegments [stray, ⟨3, 24, ⟨7, 8, 0, 0, 2, 0⟩⟩], .pendingMessage, .getRetiredSegments 1,
    .addSegments [⟨4, 32, ⟨7, 2, 0, 1, 2, 0⟩⟩], .pendingMessage, .getMessageDescriptor,
    .getMessageDescriptor] : List RecvCall).foldl step { mgr := { numConsSlabs := 2 } }

theorem strayHistory_run : Run 2 strayHistory := by
  simp only [strayHistory, List.foldl_cons, List.foldl_nil]
  iterate 7 refine .step ?_ _ trivial
  exact .start

theorem timing_independent_stray :
    [twoBlocks] = ((segmenter 2).scan (stray :: twoBlocks)).emitted ∧
      [stray] = ((segmenter 2).scan (stray :: twoBlocks)).dropped :=
  (timing_independent strayHistory_run).2.2 rfl

end RecvHistory
end Mcsb
