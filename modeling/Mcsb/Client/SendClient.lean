import Mcsb.Client.SendHistory
import Mcsb.Client.SendMessage

/-!
# The sending side of a client

What `ClientImpl` does with a descriptor, whether its sends return or throw.
-/

namespace Mcsb

/-- What `ClientImpl` sends with. `takes` says of each write whether the socket
takes it. -/
structure SendClient where
  params : SizeParams
  clientID : Int16
  numProdSlabs : UInt32
  mgr : ClientSendManager := {}
  takes : Nat → Bool
  numWrites : Nat := 0
  sendFailed : Bool := false

namespace SendClient

def maxSendMessageSize (c : SendClient) : UInt32 := c.numProdSlabs * c.params.slabSize

/-- The segments that follow a pointer. -/
def segments (mgr : ClientSendManager) : Nat → Option Nat → List SendMsgSegment
  | fuel + 1, some seg =>
    ⟨(mgr.segs seg).blockID.toNat, (mgr.segs seg).size⟩ :: segments mgr fuel (mgr.segs seg).next
  | _, _ => []

/-- A send, and whether it returned. After one that threw all others do. -/
def write (c : SendClient) : Bool × SendClient :=
  if c.sendFailed then (false, c)
  else (c.takes c.numWrites,
    { c with numWrites := c.numWrites + 1, sendFailed := !c.takes c.numWrites })

def sendRetiredSlabs (c : SendClient) : Bool × SendClient :=
  let numRetiredSlabs := c.mgr.retiredSlabs.length
  if numRetiredSlabs ≠ 0 then
    { c with mgr := (c.mgr.getRetiredSlabs numRetiredSlabs).2 }.write
  else (true, c)

/-- `sendMgr.ReleaseMessageDescriptor` -/
def release (c : SendClient) (seg : Nat) : Option SendClient :=
  (c.mgr.releaseMessageDescriptor c.params seg).map fun mgr => { c with mgr }

/-- `ReleaseSendMsgDesc`. An exception of its send is caught by `Reset`. -/
def releaseSendMsgDesc (c : SendClient) (seg : Nat) : Option SendClient :=
  (c.release seg).map fun c => c.sendRetiredSlabs.2

/-- `SendMessage(msgID, desc, len)` up to its end or to where it throws. -/
def sendBlocks (c : SendClient) (msgID : UInt32) (seg : Nat) (len : UInt32) : SendClient :=
  match ClientImpl.sendDescriptor msgID (segments c.mgr c.mgr.busySegs.length (some seg)) len.toNat with
  | none => c -- the message didn't fit
  | some _ =>
    let (sent, c) := c.write
    if sent then c.sendRetiredSlabs.2 else c

/-- The `DescriptorReleaser` goes last, whether it throws or returns. -/
def sendMessage (c : SendClient) (msgID : UInt32) (seg : Nat) (len : UInt32) : Option SendClient :=
  (c.sendBlocks msgID seg len).release seg

/-! ## Descriptors to send with -/

/-- What a turn of the loop of `GetSendMsgDesc` does last. Whoever polls comes back
for another turn. -/
inductive Turn where
  | again
  | polls
  | throws
  | returns (seg : Option Nat)
  deriving DecidableEq, Repr

/-- The segment returned, if any. -/
def Turn.seg : Turn → Option Nat
  | .returns seg => seg
  | _ => none

/-- Working slabs are flushed if there are no retired ones. -/
def spare (c : SendClient) : SendClient :=
  if c.mgr.retiredSlabs.length = 0 then { c with mgr := c.mgr.flushWorkingSlabs } else c

/-- When all slabs are here, those that can be spared go back to the manager. -/
def squeeze (c : SendClient) : Turn × SendClient :=
  let c := c.spare
  if c.mgr.retiredSlabs.length ≠ 0 then
    let (sent, c) := c.sendRetiredSlabs
    (if sent then .again else .throws, c)
  else (.throws, c) -- we have all the slabs we're going to get

/-- One turn of the loop, `none` if a call in it is undefined. -/
def turn (c : SendClient) (len : UInt32) (contiguous poll : Bool) : Option (Turn × SendClient) :=
  match c.mgr.getMessageDescriptor c.params len contiguous with
  | .error .undefined => none
  | .error (.thrown _) => some (.throws, c)
  | .ok (some seg, mgr) => some (.returns (some seg), { c with mgr })
  | .ok (none, mgr) =>
    let c := { c with mgr }
    if c.clientID < 0 ∨ c.numProdSlabs < 1 ∨ c.mgr.slabsHeld < c.numProdSlabs.toNat then
      -- we're not initialized, or waiting for slabs from the manager
      some (if poll then .polls else .returns none, c)
    else some c.squeeze

/-- The loop, for at most so many turns. -/
def turns (len : UInt32) (contiguous poll : Bool) : Nat → SendClient → Option (Turn × SendClient)
  | 0, _ => none
  | n + 1, c =>
    match c.turn len contiguous poll with
    | some (.again, c) => turns len contiguous poll n c
    | ret => ret

/-- `GetSendMsgDesc` up to where it polls. The third turn has nothing left to send
back (`turns_isSome`). -/
def getSendMsgDesc (c : SendClient) (len : UInt32) (contiguous poll : Bool) :
    Option (Turn × SendClient) :=
  if c.sendFailed then some (.throws, c) else turns len contiguous poll 3 c

/-! ## What they leave alone -/

variable {fit : Prop} {c c' c'' : SendClient} {seg : Nat}

/-- What sends leave alone: the live descriptors. -/
structure Sends (fit : Prop) (c c' : SendClient) : Prop where
  params : c'.params = c.params
  sound : ∀ live, ClientSendManager.Sound fit c.params c.mgr live [] →
    ClientSendManager.Sound fit c.params c'.mgr live []
  failed : c'.sendFailed = false → c.sendFailed = false

theorem Sends.refl (c : SendClient) : Sends fit c c := ⟨rfl, fun _ h => h, fun h => h⟩

theorem Sends.trans (h : Sends fit c c') (h' : Sends fit c' c'') : Sends fit c c'' where
  params := h'.params.trans h.params
  sound live sound := by
    have next := h'.sound live
    rw [h.params] at next
    exact next (h.sound live sound)
  failed up := h.failed (h'.failed up)

theorem sends_write (c : SendClient) : Sends fit c c.write.2 := by
  unfold write
  cases failed : c.sendFailed with
  | true => exact .refl c
  | false => exact ⟨rfl, fun _ h => h, fun _ => failed⟩

theorem sends_sendRetiredSlabs (c : SendClient) : Sends fit c c.sendRetiredSlabs.2 := by
  unfold sendRetiredSlabs
  by_cases some : c.mgr.retiredSlabs.length ≠ 0
  · simp only [if_pos some]
    refine Sends.trans ?_ (sends_write _)
    exact ⟨rfl, fun _ sound => (sound.getRetiredSlabs _).1, fun up => up⟩
  · simp only [if_neg some]
    exact .refl c

theorem sends_sendBlocks (c : SendClient) (msgID : UInt32) (seg : Nat) (len : UInt32) :
    Sends fit c (c.sendBlocks msgID seg len) := by
  unfold sendBlocks
  cases ClientImpl.sendDescriptor msgID (segments c.mgr c.mgr.busySegs.length (some seg))
    len.toNat with
  | none => exact .refl c
  | some _ =>
    have first := @sends_write fit c
    dsimp only
    by_cases sent : c.write.1 = true
    · rw [if_pos sent]
      exact first.trans (sends_sendRetiredSlabs _)
    · rw [if_neg sent]
      exact first

/-- The descriptor goes, and nothing else. -/
structure Drops (fit : Prop) (c : SendClient) (seg : Nat) (c' : SendClient) : Prop where
  params : c'.params = c.params
  sound : ∀ live, seg ∈ live → ClientSendManager.Sound fit c.params c.mgr live [] →
    ClientSendManager.Sound fit c.params c'.mgr (live.erase seg) []
  failed : c'.sendFailed = false → c.sendFailed = false

theorem Drops.sends (h : Drops fit c seg c') (h' : Sends fit c' c'') : Drops fit c seg c'' where
  params := h'.params.trans h.params
  sound live mem sound := by
    have next := h'.sound (live.erase seg)
    rw [h.params] at next
    exact next (h.sound live mem sound)
  failed up := h.failed (h'.failed up)

theorem Sends.drops (h : Sends fit c c') (h' : Drops fit c' seg c'') : Drops fit c seg c'' where
  params := h'.params.trans h.params
  sound live mem sound := by
    have next := h'.sound live mem
    rw [h.params] at next
    exact next (h.sound live sound)
  failed up := h.failed (h'.failed up)

theorem drops_release (released : c.release seg = some c') : Drops fit c seg c' := by
  obtain ⟨mgr, ret, rfl⟩ := Option.map_eq_some_iff.mp released
  exact ⟨rfl, fun _ mem sound => ((sound.releaseMessageDescriptor mem).1 mgr ret).1, fun up => up⟩

theorem release_isSome {live : List Nat} (fits : fit) (mem : seg ∈ live)
    (sound : ClientSendManager.Sound fit c.params c.mgr live []) : (c.release seg).isSome := by
  unfold release
  rw [Option.isSome_map]
  exact (sound.releaseMessageDescriptor mem).2 fits

theorem drops_releaseSendMsgDesc (released : c.releaseSendMsgDesc seg = some c') :
    Drops fit c seg c' := by
  obtain ⟨c₁, ret, rfl⟩ := Option.map_eq_some_iff.mp released
  exact (drops_release ret).sends (sends_sendRetiredSlabs c₁)

theorem drops_sendMessage {msgID len : UInt32} (sent : c.sendMessage msgID seg len = some c') :
    Drops fit c seg c' :=
  (sends_sendBlocks c msgID seg len).drops (drops_release sent)

theorem sendMessage_isSome {live : List Nat} (msgID len : UInt32) (fits : fit) (mem : seg ∈ live)
    (sound : ClientSendManager.Sound fit c.params c.mgr live []) :
    (c.sendMessage msgID seg len).isSome := by
  have sends := @sends_sendBlocks fit c msgID seg len
  apply release_isSome fits mem
  rw [sends.params]
  exact sends.sound live sound

/-! ## A descriptor that is got -/

/-- A turn may get a segment. Those before it are left alone. -/
structure Turns (fit : Prop) (c : SendClient) (ret : Turn) (c' : SendClient) : Prop where
  params : c'.params = c.params
  sound : ∀ live, ClientSendManager.Sound fit c.params c.mgr live [] →
    ClientSendManager.Sound fit c.params c'.mgr (live ++ ret.seg.toList) []
  failed : c'.sendFailed = false → c.sendFailed = false

variable {len : UInt32} {contiguous poll : Bool} {ret : Turn} {live : List Nat}

theorem Sends.turns (h : Sends fit c c') (null : ret.seg = none) : Turns fit c ret c' := by
  refine ⟨h.params, fun live sound => ?_, h.failed⟩
  rw [null, Option.toList_none, List.append_nil]
  exact h.sound live sound

theorem Sends.turned (h : Sends fit c c') (h' : Turns fit c' ret c'') : Turns fit c ret c'' where
  params := h'.params.trans h.params
  sound live sound := by
    have next := h'.sound live
    rw [h.params] at next
    exact next (h.sound live sound)
  failed up := h.failed (h'.failed up)

theorem sends_spare (c : SendClient) : Sends fit c c.spare := by
  unfold spare
  split
  · exact ⟨rfl, fun _ sound => sound.flushWorkingSlabs, fun up => up⟩
  · exact .refl c

theorem sends_squeeze (c : SendClient) : Sends fit c c.squeeze.2 := by
  unfold squeeze
  dsimp only
  split
  · exact (sends_spare c).trans (sends_sendRetiredSlabs c.spare)
  · exact sends_spare c

theorem seg_squeeze (c : SendClient) : c.squeeze.1.seg = none := by
  unfold squeeze
  dsimp only
  split
  · cases c.spare.sendRetiredSlabs.1 <;> rfl
  · rfl

/-- Without a segment nothing has changed. -/
theorem sends_none {mgr : ClientSendManager}
    (got : c.mgr.getMessageDescriptor c.params len contiguous = .ok (none, mgr)) :
    Sends fit c { c with mgr } := by
  refine ⟨rfl, fun live sound => ?_, fun up => up⟩
  rcases sound.getMessageDescriptor got with ⟨-, same⟩ | ⟨_, _, eq, -⟩
  · rw [same]
    exact sound
  · cases eq

theorem turns_turn (turned : c.turn len contiguous poll = some (ret, c')) :
    Turns fit c ret c' := by
  unfold turn at turned
  split at turned
  · cases turned
  · cases turned
    exact (Sends.refl c).turns rfl
  · rename_i seg mgr got
    cases turned
    refine ⟨rfl, fun live sound => ?_, fun up => up⟩
    rcases sound.getMessageDescriptor got with ⟨eq, -⟩ | ⟨_, _, eq, gets⟩
    · cases eq
    · cases eq
      exact gets.sound
  · rename_i mgr got
    have same : Sends fit c { c with mgr } := sends_none got
    dsimp only at turned
    split at turned
    · cases turned
      refine same.turns ?_
      split <;> rfl
    · have eq := Option.some.inj turned
      have first := congrArg Prod.fst eq
      have second := congrArg Prod.snd eq
      cases first
      cases second
      exact (same.trans (sends_squeeze _)).turns (seg_squeeze _)

theorem turns_turns {n : Nat} (turned : turns len contiguous poll n c = some (ret, c')) :
    Turns fit c ret c' := by
  induction n generalizing c with
  | zero => cases turned
  | succ n ih =>
    unfold turns at turned
    split at turned
    · rename_i c₁ first
      have sends : Turns fit c .again c₁ := turns_turn first
      refine Sends.turned ⟨sends.params, fun live sound => ?_, sends.failed⟩ (ih turned)
      simpa only [Turn.seg, Option.toList_none, List.append_nil] using sends.sound live sound
    · exact turns_turn turned

/-- Whatever comes of it, the descriptors before it are left alone. -/
theorem turns_getSendMsgDesc (got : c.getSendMsgDesc len contiguous poll = some (ret, c')) :
    Turns fit c ret c' := by
  unfold getSendMsgDesc at got
  split at got
  · cases got
    exact (Sends.refl c).turns rfl
  · exact turns_turns got

/-! ## Three turns -/

theorem mgr_write (c : SendClient) : c.write.2.mgr = c.mgr := by
  unfold write
  split <;> rfl

theorem mgr_sendRetiredSlabs (c : SendClient) : c.sendRetiredSlabs.2.mgr.retiredSlabs = [] ∧
    c.sendRetiredSlabs.2.mgr.workingSlabs = c.mgr.workingSlabs := by
  unfold sendRetiredSlabs
  dsimp only
  split
  · rw [mgr_write]
    exact ⟨List.drop_length, rfl⟩
  · rename_i none
    exact ⟨List.length_eq_zero_iff.mp (not_not.mp none), rfl⟩

/-- What is left for another turn: no retired slabs, and after two turns no working
ones either. -/
theorem squeeze_again (squeezed : c.squeeze = (.again, c')) : c'.mgr.retiredSlabs = [] ∧
    (c.mgr.retiredSlabs = [] → c'.mgr.workingSlabs = [] ∧ c.mgr.workingSlabs ≠ []) := by
  unfold squeeze at squeezed
  dsimp only at squeezed
  split at squeezed
  · rename_i some
    obtain ⟨retired, working⟩ := mgr_sendRetiredSlabs c.spare
    have same := congrArg Prod.snd squeezed
    dsimp only at same
    subst same
    refine ⟨retired, fun none => ?_⟩
    have spare : c.spare = { c with mgr := c.mgr.flushWorkingSlabs } :=
      if_pos (List.length_eq_zero_iff.mpr none)
    rw [working, spare]
    refine ⟨ClientSendManager.workingSlabs_flushWorkingSlabs c.mgr, fun idle => some ?_⟩
    rw [spare, ClientSendManager.flushWorkingSlabs_nil idle]
    exact List.length_eq_zero_iff.mpr none
  · cases squeezed

theorem turn_again (sound : ClientSendManager.Sound fit c.params c.mgr live [])
    (turned : c.turn len contiguous poll = some (.again, c')) : c.squeeze = (.again, c') := by
  unfold turn at turned
  split at turned
  · cases turned
  · cases turned
  · cases turned
  · rename_i mgr got
    have same : mgr = c.mgr := by
      rcases sound.getMessageDescriptor got with ⟨-, same⟩ | ⟨_, _, eq, -⟩
      · exact same
      · cases eq
    subst same
    dsimp only at turned
    split at turned
    · have polled := congrArg Prod.fst (Option.some.inj turned)
      dsimp only at polled
      split at polled <;> cases polled
    · exact Option.some.inj turned

theorem turn_isSome (sound : ClientSendManager.Sound fit c.params c.mgr live [])
    (sized : c.params.Sized) : (c.turn len contiguous poll).isSome := by
  unfold turn
  split
  · rename_i got
    exact absurd got (sound.getMessageDescriptor_defined sized)
  · rfl
  · rfl
  · dsimp only
    split <;> rfl

theorem sound_again (sound : ClientSendManager.Sound fit c.params c.mgr live [])
    (turned : c.turn len contiguous poll = some (.again, c')) : c'.params = c.params ∧
      ClientSendManager.Sound fit c'.params c'.mgr live [] := by
  have turns : Turns fit c .again c' := turns_turn turned
  have next := turns.sound live sound
  rw [← turns.params] at next
  exact ⟨turns.params, by simpa only [Turn.seg, Option.toList_none, List.append_nil] using next⟩

/-- Three turns are enough. -/
theorem getSendMsgDesc_isSome (sound : ClientSendManager.Sound fit c.params c.mgr live [])
    (sized : c.params.Sized) : (c.getSendMsgDesc len contiguous poll).isSome := by
  unfold getSendMsgDesc
  split
  · rfl
  unfold turns
  split
  case h_2 other => exact turn_isSome sound sized
  rename_i c₁ first
  obtain ⟨params₁, sound₁⟩ := sound_again sound first
  have sized₁ : c₁.params.Sized := params₁ ▸ sized
  have retired₁ := (squeeze_again (turn_again sound first)).1
  unfold turns
  split
  case h_2 other => exact turn_isSome sound₁ sized₁
  rename_i c₂ second
  obtain ⟨params₂, sound₂⟩ := sound_again sound₁ second
  have sized₂ : c₂.params.Sized := params₂ ▸ sized₁
  obtain ⟨retired₂, left⟩ := squeeze_again (turn_again sound₁ second)
  unfold turns
  split
  case h_2 other => exact turn_isSome sound₂ sized₂
  rename_i c₃ third
  exact absurd (left retired₁).1 ((squeeze_again (turn_again sound₂ third)).2 retired₂).2

end SendClient

end Mcsb
