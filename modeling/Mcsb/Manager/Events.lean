import Mcsb.Manager.Segments
import Mathlib.Data.List.Sort

/-!
# The events of the manager

The other handlers of a client proxy, connecting and deleting clients, and
`Manager.step`: one event of the manager's loop. A handler that throws is
followed by the deletion of its client.
-/

namespace Mcsb
open Effect

def kCtrlString_ShmName : UInt32 := 1
def kMaxMsgIDs : Nat := (kMaxPayloadSize - 4) / 4

section buffers

/-- The loop of `ShmMapper::NumBuffers(n)`: create and map `n` more buffers. -/
def createAndMap : Nat → Act Unit
  | 0 => pure ()
  | n + 1 => do
    let m ← get
    let shm := m.shmMapper
    match m.params.createBuffer shm.attempts with
    | .fails =>
      set { m with shmMapper := { shm with attempts := shm.attempts + 1 } }
      fail "shm_open error"
    | .unlocked => set { m with shmMapper :=
        { numBuffers := shm.numBuffers + 1, attempts := shm.attempts + 1
          lockErrors := shm.lockErrors + 1 } }
    | .locked => set { m with shmMapper :=
        { shm with numBuffers := shm.numBuffers + 1, attempts := shm.attempts + 1 } }
    createAndMap n

/-- `ClientProxy::CheckBufferParams`. -/
def checkBufferParams (c : Nat) : Act Unit := do
  let m ← get
  modifyProxy c fun p => { p with
    slabs := p.slabs.setTotalNumSlabs m.totalNumSlabs
    announced := p.announced ++ [(p.sock.out.length, m.shmMapper.numBuffers)] }
  swallow (sendCtrl c (.ctrlString kCtrlString_ShmName m.params.shmNameFormat))

def checkAllBufferParams : List Nat → Act Unit
  | [] => pure ()
  | c :: cs => do
    checkBufferParams c
    checkAllBufferParams cs

/-- `Manager::IncreaseNumBuffers`: 0 asks for one more. `true` is success. -/
def increaseNumBuffers (newNumBuffers : Nat) : Act Bool := do
  let m ← get
  let numBuffers := m.shmMapper.numBuffers
  if newNumBuffers = numBuffers then
    return true
  else
    let newNumBuffers := if newNumBuffers = 0 then numBuffers + 1 else newNumBuffers
    if m.params.maxNumBuffers < newNumBuffers ∨ newNumBuffers < numBuffers then
      return false
    else
      createAndMap (newNumBuffers - numBuffers)
      let m ← get
      if m.shmMapper.lockErrors ≠ 0 ∧ ¬ m.params.allowUnlockedMemory then
        fail "failed to lock MCSB buffer memory"
      set { m with slabManager := m.slabManager.setNumBuffers newNumBuffers }
      checkAllBufferParams m.clients
      return true

/-- The loop of `Manager::GetSlabReservation`. -/
def reserveLoop (numSlabs : Nat) : Nat → Act Bool
  | 0 => throw .stuck
  | fuel + 1 => do
    let m ← get
    match m.slabManager.getSlabReservation numSlabs with
    | some slabManager =>
      set { m with slabManager }
      return true
    | none =>
      if ← increaseNumBuffers 0 then reserveLoop numSlabs fuel
      else return false

/-- Each turn but the last adds a buffer. -/
def getSlabReservation (numSlabs : Nat) : Act Bool := do
  reserveLoop numSlabs ((← get).params.maxNumBuffers + 1)

/-- A 32-bit difference as an `int`, with negative ones refused. -/
def slabIncrease (slabs numSlabs : Nat) : Nat :=
  let d := (slabs + 2 ^ 32 - numSlabs) % 2 ^ 32
  if d < 2 ^ 31 then d else 0

/-- `HandleNumSlabs` up to the call that keeps the producer pool full.
`sockoptOK` is whether the socket options could be set. -/
def grantNumSlabs (c : Nat) (prodSlbs consSlbs : UInt32) (sockoptOK : Bool) : Act Unit := do
  let t := (← getProxy c).slabs
  let dProdSlabs := slabIncrease prodSlbs.toNat t.numProdSlabs
  let dConsSlabs := slabIncrease consSlbs.toNat t.numConsSlabs
  if ← getSlabReservation ((dProdSlabs + dConsSlabs) % 2 ^ 32) then
    let numProdSlabs := (t.numProdSlabs + dProdSlabs) % 2 ^ 32
    let numConsSlabs := (t.numConsSlabs + dConsSlabs) % 2 ^ 32
    modifyProxy c fun p => { p with slabs := { p.slabs with numProdSlabs, numConsSlabs } }
    sendCtrl c (.numSlabs (UInt32.ofNat numProdSlabs) (UInt32.ofNat numConsSlabs))
    if !sockoptOK then
      fail "setsockopt error"
  else
    sendCtrl c (.numSlabs (UInt32.ofNat t.numProdSlabs) (UInt32.ofNat t.numConsSlabs))
    fail "Manager::ReserveSlabs was denied"

/-- `ClientProxy::HandleNumSlabs`. -/
def handleNumSlabs (c : Nat) (prodSlbs consSlbs : UInt32) (sockoptOK : Bool) : Act Unit := do
  grantNumSlabs c prodSlbs consSlbs sockoptOK
  fillProducerSlabs c

end buffers

section registrations

/-- `SocketEndpoint::SendRegistration`, in messages of at most `kMaxMsgIDs`, by
the endpoint of client `c` on the socket of client `fd`. -/
def sendRegistrationOn (c fd : Nat) (type : RegType) (clientID groupID : Int16) :
    List (List UInt32) → Act Unit
  | [] => pure ()
  | msgIDs :: rest => do
    sendOn c fd (.ctrl (.registration type clientID groupID msgIDs))
    sendRegistrationOn c fd type clientID groupID rest

/-- The message IDs in messages of at most `kMaxMsgIDs`. -/
def regMessages (msgIDs : List UInt32) : List (List UInt32) := msgIDs.toChunks kMaxMsgIDs

/-- `Manager::SendRegistration`: tell every client that wants to know. Each
proxy prints its own errors. -/
def sendRegistration (type : RegType) (clientID groupID : Int16) (msgIDs : List UInt32) :
    List Nat → Act Unit
  | [] => pure ()
  | c :: cs => do
    if (← getProxy c).wantRegistrations then
      swallow (sendRegistrationOn c c type clientID groupID (regMessages msgIDs))
    sendRegistration type clientID groupID msgIDs cs

/-- Insert the message IDs not registered yet, which are returned. A reserved
ID throws with the earlier ones inserted. -/
def registerMsgIDs (c : Nat) : List UInt32 → Act (List UInt32)
  | [] => pure []
  | msgID :: msgIDs => do
    if msgID = kCCIMessageID then
      fail "Cannot register for reserved msgID (kCCIMessageID)"
    if msgID ∈ (← getProxy c).registeredMsgIDs then
      registerMsgIDs c msgIDs
    else
      modifyProxy c fun p =>
        { p with registeredMsgIDs := p.registeredMsgIDs.orderedInsert (· ≤ ·) msgID }
      let inserted ← registerMsgIDs c msgIDs
      return msgID :: inserted

def deregisterMsgIDs (c : Nat) : List UInt32 → Act (List UInt32)
  | [] => pure []
  | msgID :: msgIDs => do
    if msgID ∈ (← getProxy c).registeredMsgIDs then
      modifyProxy c fun p => { p with registeredMsgIDs := p.registeredMsgIDs.erase msgID }
      let erased ← deregisterMsgIDs c msgIDs
      return msgID :: erased
    else
      deregisterMsgIDs c msgIDs

/-- `ClientProxy::HandleRegistration`. -/
def handleRegistration (c : Nat) (type : RegType) (cid gid : Int16) (msgIDs : List UInt32) :
    Act Unit := do
  if cid.toInt ≠ c then
    fail "error: clientID mismatch in registration message"
  if gid ≠ (← getProxy c).groupID then
    fail "error: groupID mismatch in registration message"
  match type with
  | .registerList =>
    let inserted ← registerMsgIDs c msgIDs
    if inserted ≠ [] then
      sendRegistration .registerList cid gid inserted (← get).clients
  | .deregisterList =>
    let erased ← deregisterMsgIDs c msgIDs
    if erased ≠ [] then
      sendRegistration type cid gid erased (← get).clients
  | .registerAllMsgs => pure ()

/-- The loop of `ClientProxy::SendRegistrationsToFD`, which puts the socket of
the requester in the place of its own. Every message is tried. -/
def sendRegistrationsLoop (c fd : Nat) (clientID groupID : Int16) : List (List UInt32) → Act Unit
  | [] => pure ()
  | msgIDs :: rest => do
    swallow (sendOn c fd (.ctrl (.registration .registerList clientID groupID msgIDs)))
    sendRegistrationsLoop c fd clientID groupID rest

/-- `SendRegistrationsToFD` of the manager, over the clients. -/
def sendRegistrationsToFD (fd : Nat) : List Nat → Act Unit
  | [] => pure ()
  | c :: cs => do
    let p ← getProxy c
    sendRegistrationsLoop c fd (Int16.ofNat c) p.groupID (regMessages p.registeredMsgIDs)
    sendRegistrationsToFD fd cs

/-- `ClientProxy::HandleRegistrationsWanted`. -/
def handleRegistrationsWanted (c : Nat) (wantNew wantCurrent : Bool) : Act Unit := do
  modifyProxy c fun p => { p with wantRegistrations := wantNew }
  if wantCurrent then
    sendRegistrationsToFD c (← get).clients

/-- `ClientProxy::HandleGroupIDStr`. `SendGroupID` sets the group first. -/
def handleGroupIDStr (c : Nat) (groupStr : String) : Act Unit := do
  let p ← getProxy c
  if p.registeredMsgIDs ≠ [] then
    fail s!"error: client[{c}] changing groupID while registered for messages"
  if p.groupID ≠ 0 then
    fail s!"error: client[{c}] changing groupID after already set"
  let gid ← onGroups (GroupManager.getGroupID groupStr)
  modifyProxy c fun p => { p with groupID := gid }
  sendCtrl c (.groupID gid)

/-- `ClientProxy::DeregisterAllMsgIDs`. -/
def deregisterAllMsgIDs (c : Nat) (groupID : Int16) : List (List UInt32) → Act Unit
  | [] => pure ()
  | msgIDs :: rest => do
    modifyProxy c fun p => { p with registeredMsgIDs := p.registeredMsgIDs.drop msgIDs.length }
    sendRegistration .deregisterList (Int16.ofNat c) groupID msgIDs (← get).clients
    deregisterAllMsgIDs c groupID rest

end registrations

/-- `ClientProxy::HandleDropReportAck`. -/
def handleDropReportAck (c : Nat) : Act Unit := do
  modifyProxy c fun p => { p with dropReporter := p.dropReporter.ack }
  sendDropReport c 0 0

/-- What `Parse` hands to the handlers of a client proxy. `invalid` is any
frame that `LocalHandleCtrlMsg` throws on. -/
inductive Frame where
  | blockIDs (ids : List Nat)
  | slabIDs (ids : List Nat)
  | blocksAndInfo (segs : List Segment)
  | numSlabs (prodSlabs consSlabs : UInt32) (sockoptOK : Bool)
  | registration (type : RegType) (clientID groupID : Int16) (msgIDs : List UInt32)
  | registrationsWanted (wantNew wantCurrent : Bool)
  | dropReportAck
  | prodNiceLevel (level : Int32)
  | managerEcho (bytes : List UInt8)
  | sequenceToken (token : UInt32)
  | groupID (id : Int16)
  | groupIDStr (str : String)
  | invalid
  | ignored

def Frame.handle (c : Nat) : Frame → Act Unit
  | .blockIDs ids => handleBlockIDs c ids
  | .slabIDs ids => handleSlabIDs c ids
  | .blocksAndInfo segs => handleBlocksAndInfo c segs
  | .numSlabs prodSlabs consSlabs sockoptOK => handleNumSlabs c prodSlabs consSlabs sockoptOK
  | .registration type cid gid msgIDs => handleRegistration c type cid gid msgIDs
  | .registrationsWanted wantNew wantCurrent => handleRegistrationsWanted c wantNew wantCurrent
  | .dropReportAck => handleDropReportAck c
  -- the level is kept in a char
  | .prodNiceLevel level => modifyProxy c fun p =>
      { p with prodNiceLevel := level.toInt.bmod (2 ^ 8) }
  | .managerEcho bytes => sendCtrl c (.managerEcho bytes)
  | .sequenceToken token => sendCtrl c (.sequenceToken token)
  | .groupID id => modifyProxy c fun p => { p with groupID := id }
  | .groupIDStr str => handleGroupIDStr c str
  | .invalid => fail "peer protocol error"
  | .ignored => pure ()

/-- Empty out the wanted queue. -/
def releaseQueue (c : Nat) : List WantedSegment → Act Unit
  | [] => pure ()
  | seg :: rest => do
    modifyProxy c fun p => { p with wantedQueue := rest }
    releaseWantedSegment seg
    releaseQueue c rest

/-- `~ClientProxy`. -/
def destroyProxy (c : Nat) : Act Unit := do
  releaseQueue c (← getProxy c).wantedQueue
  let t := (← getProxy c).slabs
  modify fun m => { m with slabManager :=
    m.slabManager.releaseSlabReservation ((t.numProdSlabs + t.numConsSlabs) % 2 ^ 32) }
  if t.prodSlabsHeld ≠ 0 then
    let prodSlabIDs ← onTracker c (SlabTracker.getAndEraseProdSlabs t.prodSlabsHeld)
    swallow (decrementHeldRefcnt (prodSlabIDs.map (·, 1)))
  if t.consSlabsHeld ≠ 0 then
    let consSlabIDs ← onTracker c (SlabTracker.getAndEraseConsSlabs t.consSlabsHeld)
    swallow (decrementHeldRefcnt consSlabIDs)
  let p ← getProxy c
  if p.groupID ≠ 0 then
    onGroups (GroupManager.decGroupID p.groupID)
  swallow (deregisterAllMsgIDs c p.groupID (regMessages p.registeredMsgIDs))

/-- `SocketDaemon::DeleteClient`. An exception that leaves the destructor ends
the process. -/
def deleteClient (c : Nat) : Act Unit := fun m =>
  match destroyProxy c { m with clients := m.clients.erase c } with
  | .error _ m' => .error .stuck m'
  | .ok _ m' => .ok ⟨⟩ m'

/-- The loop of `GetNewClientID`. -/
def getNewClientID : Nat → Act Nat
  | 0 => throw .stuck
  | fuel + 1 => do
    let m ← get
    let newID := m.nextNewClientID
    set { m with nextNewClientID := if kMaxClientID ≤ newID then 0 else newID + 1 }
    if newID ∈ m.clients then getNewClientID fuel
    else return newID

/-- `SocketDaemon::AddConnectedClient` and the constructors it runs, for an
object at `addr` with a new socket. A constructor that throws adds nobody. A first
write that would block is refused here, where the source hangs in
`SocketEndpoint::HandleSendWouldBlock`. -/
def addConnectedClient (addr : Nat) (accepts : Nat → Bool) : Act Unit := do
  let m ← get
  if m.params.maxNumClients ≤ m.clients.length then
    pure ()
  else
    let c ← getNewClientID (kMaxClientID + 2)
    modify (·.setProxy c { clientID := c, addr, sock := { accepts } })
    swallow do
      sendCtrl c (.validatePeer kProtocolMagic kProtocolVersion)
      sendCtrl c (.clientID (Int16.ofNat c))
      checkBufferParams c
      fillProducerSlabs c
      modify fun m => { m with clients := m.clients.orderedInsert (· ≤ ·) c }

/-- An event of the manager's loop: a connection, a client whose `Poll`
returns 0 or throws on `recv`, or one call of a handler within `Poll`. -/
inductive Event where
  | connect (addr : Nat) (accepts : Nat → Bool)
  | hangup (c : Nat)
  | frame (c : Nat) (f : Frame)

/-- The allocator does not give out the address of a live proxy. -/
def Event.Enabled (m : Manager) : Event → Prop
  | .connect addr _ => ∀ c ∈ m.clients, (m.proxy c).addr ≠ addr
  | .hangup c => c ∈ m.clients
  | .frame c _ => c ∈ m.clients

instance (m : Manager) : DecidablePred (Event.Enabled m)
  | .connect addr _ => inferInstanceAs (Decidable (∀ c ∈ m.clients, (m.proxy c).addr ≠ addr))
  | .hangup c => inferInstanceAs (Decidable (c ∈ m.clients))
  | .frame c _ => inferInstanceAs (Decidable (c ∈ m.clients))

def Event.run : Event → Act Unit
  | .connect addr accepts => addConnectedClient addr accepts
  | .hangup c => deleteClient c
  | .frame c f => fun m =>
    match f.handle c m with
    | .error (.runtimeError _) m' => deleteClient c m'
    | result => result

section
variable {m : Manager} {c : Nat} {Q : Unit → Manager → Prop} {E : Exc → Manager → Prop}

theorem wp_deleteClient : wp (deleteClient c) m Q E ↔
    wp (destroyProxy c) { m with clients := m.clients.erase c } Q (fun _ m' => E .stuck m') := by
  unfold wp deleteClient
  split <;> rename_i eq <;> split at eq <;> simp_all

theorem wp_run_frame {f : Frame} : wp (Event.frame c f).run m Q E ↔
    wp (f.handle c) m Q fun e m' =>
      match e with
      | .runtimeError _ => wp (deleteClient c) m' Q E
      | .stuck => E .stuck m' := by
  unfold wp Event.run
  dsimp only
  cases f.handle c m with
  | ok a m' => rfl
  | error e m' => cases e <;> rfl

end

namespace Manager

/-- The manager after an event, if it comes back from it. -/
def step (m : Manager) (e : Event) : Option Manager :=
  match e.run m with
  | .ok _ m' => some m'
  | .error _ _ => none

theorem step_eq_some {m m' : Manager} {e : Event} {Q : Manager → Prop} {E : Exc → Manager → Prop}
    (h : wp e.run m (fun _ m' => Q m') E) (stepped : m.step e = some m') : Q m' := by
  unfold step at stepped
  unfold wp at h
  split at stepped
  · rename_i eq
    cases stepped
    simpa only [eq] using h
  · cases stepped

/-- `Manager::Manager`, if creating the first buffers does not throw. -/
def start (params : Params) : Option Manager :=
  let slabManager := SlabManager.new params.slabsPerBuf params.numBuffers params.pctNonreservable
  let m : Manager := { params, slabManager }
  match increaseNumBuffers params.numBuffers m with
  | .ok _ m' => some m'
  | .error _ _ => none

theorem start_eq_some {params : Params} {m : Manager} {Q : Manager → Prop}
    {E : Exc → Manager → Prop}
    (h : ∀ slabManager, slabManager = SlabManager.new params.slabsPerBuf params.numBuffers
      params.pctNonreservable →
      wp (increaseNumBuffers params.numBuffers) { params, slabManager } (fun _ m' => Q m') E)
    (first : start params = some m) : Q m := by
  have h := h _ rfl
  unfold start at first
  unfold wp at h
  dsimp only at first
  split at first
  · rename_i eq
    cases first
    simpa only [eq] using h
  · cases first

/-- What happened in a run, the latest first: each state with the event in it. -/
abbrev History := List (Manager × Event)

/-- The runs of the manager in which every event is as `ok` says. -/
inductive Run (params : Params) (ok : History → Manager → Event → Prop) :
    History → Manager → Prop where
  | start {m} : start params = some m → Run params ok [] m
  | step {hist m e m'} : Run params ok hist m → e.Enabled m → ok hist m e → m.step e = some m' →
      Run params ok ((m, e) :: hist) m'

theorem Run.mono {params : Params} {ok ok' : History → Manager → Event → Prop}
    (h : ∀ hist m e, ok hist m e → ok' hist m e) {hist : History} {m : Manager}
    (run : Run params ok hist m) : Run params ok' hist m := by
  induction run with
  | start first => exact .start first
  | step _ enabled fine stepped ih => exact .step ih enabled (h _ _ _ fine) stepped

/-- The run along given events, the first of them first. -/
def trace (params : Params) (ok : History → Manager → Event → Prop)
    [∀ hist m e, Decidable (ok hist m e)] (events : List Event) : Option (History × Manager) :=
  events.foldl (fun run e => run.bind fun (hist, m) =>
    if e.Enabled m ∧ ok hist m e then (m.step e).map (((m, e) :: hist, ·)) else none)
    ((start params).map ([], ·))

theorem run_of_trace {params : Params} {ok : History → Manager → Event → Prop}
    [∀ hist m e, Decidable (ok hist m e)] {events : List Event} {hist : History} {m : Manager}
    (h : trace params ok events = some (hist, m)) : Run params ok hist m := by
  induction events using List.reverseRecOn generalizing hist m with
  | nil =>
    obtain ⟨m, first, eq⟩ := Option.map_eq_some_iff.mp h
    cases eq
    exact .start first
  | append_singleton events e ih =>
    rw [trace, List.foldl_append, List.foldl_cons, List.foldl_nil] at h
    obtain ⟨⟨hist₀, m₀⟩, before, last⟩ := Option.bind_eq_some_iff.mp h
    dsimp only at last
    split at last
    · rename_i fine
      obtain ⟨m, stepped, eq⟩ := Option.map_eq_some_iff.mp last
      cases eq
      exact .step (ih before) fine.1 fine.2 stepped
    · cases last

end Manager
end Mcsb
