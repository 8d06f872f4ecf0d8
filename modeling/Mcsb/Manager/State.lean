import Mcsb.Manager.SlabTracker
import Mcsb.Manager.SlabRequestManager
import Mcsb.Manager.Registry
import Mcsb.Wire.Protocol

/-!
# The state of the manager

The manager, its client proxies and their sockets. What the environment
decides is given in advance: the outcome of each buffer creation in `Params`,
the outcome of each write to a socket in its `accepts`.
-/

namespace Mcsb
open Effect

def kCCIMessageID : UInt32 := 0xFFFFFFFF
def kCCIBcastID : Nat := 0xFFFFFFFF
def kMaxClientID : Nat := 9999
def maxWantedQueueSize : Nat := 1024

/-- The client-to-client header at the start of a block. -/
structure CCIHeader where
  srcClientID : UInt16
  dstClientID : UInt16
  deriving DecidableEq, Repr

inductive BufferCreation where
  | fails
  | unlocked
  | locked
  deriving DecidableEq, Repr

/-- The manager's parameters, what each attempt to create a buffer comes to, and how
many slab IDs the stack has room for. Memory runs out before the block IDs below the
slab mask do. -/
structure Params where
  slabsPerBuf : Nat
  blocksPerSlab : Nat
  numBuffers : Nat
  maxNumBuffers : Nat
  pctNonreservable : ℚ
  maxNumClients : Nat
  allowUnlockedMemory : Bool
  playbackMode : Bool
  shmNameFormat : List UInt8
  createBuffer : Nat → BufferCreation
  stackSlabs : Nat := 2 ^ 21
  slabs_pos : 0 < slabsPerBuf
  blocks_pos : 0 < blocksPerSlab
  fits : numBuffers * (slabsPerBuf * blocksPerSlab) ≤ 2 ^ 31
  memory : ∀ i, createBuffer i ≠ .fails →
    ((List.range i).countP (createBuffer · ≠ .fails) + 1) * (slabsPerBuf * blocksPerSlab) ≤ 2 ^ 31
  pct_nonneg : 0 ≤ pctNonreservable
  pct_le : pctNonreservable ≤ 80

/-- How many of the first `n` attempts create a buffer. -/
def Params.created (params : Params) (n : Nat) : Nat :=
  (List.range n).countP (params.createBuffer · ≠ .fails)

theorem Params.created_succ (params : Params) (n : Nat) :
    params.created (n + 1) =
      params.created n + if params.createBuffer n ≠ .fails then 1 else 0 := by
  rw [created, List.range_succ, List.countP_append, List.countP_singleton]
  simp only [decide_eq_true_eq]
  rfl

theorem Params.created_le (params : Params) (n : Nat) :
    params.created n * (params.slabsPerBuf * params.blocksPerSlab) ≤ 2 ^ 31 := by
  induction n with
  | zero => exact (Nat.zero_mul _).trans_le (Nat.zero_le _)
  | succ n ih =>
    rw [created_succ]
    split
    · rename_i success
      exact params.memory n success
    · exact ih

/-- `attempts` counts the buffers ever tried. -/
structure ShmMapper where
  numBuffers : Nat := 0
  lockErrors : Nat := 0
  attempts : Nat := 0
  deriving DecidableEq, Repr

/-- There are as many buffers as were created. -/
def ShmMapper.Counted (shm : ShmMapper) (params : Params) : Prop :=
  shm.numBuffers = params.created shm.attempts

/-- What one write puts on a socket: IDs, or a control message for this handler. -/
inductive Sent where
  | blockIDs (ids : List Nat)
  | slabIDs (ids : List Nat)
  | ctrl (call : HandlerCall)
  deriving DecidableEq, Repr

/-- The manager's side of a connection. `out` is all it has taken. -/
structure Sock where
  accepts : Nat → Bool
  attempts : Nat := 0
  out : List Sent := []

/-- `addr` is where the object is in memory. `dropLog` and `announced` are
history: the arguments `SendDropReport` was called with; where in `sock.out` the
name of the buffers was to be put, and how many buffers were mapped then. -/
structure ClientProxy where
  clientID : Nat
  addr : Nat
  sock : Sock
  sendFailed : Bool := false
  groupID : Int16 := 0
  slabs : SlabTracker := {}
  registeredMsgIDs : List UInt32 := []
  wantRegistrations : Bool := false
  prodNiceLevel : Int := 0
  pendingFreeSlabRqsts : Nat := 0
  dropReporter : DropReporter := {}
  wantedQueue : List WantedSegment := []
  dropLog : List (Nat × Nat) := []
  announced : List (Nat × Nat) := []

def ClientProxy.connected (p : ClientProxy) : Bool := !p.sendFailed

structure ManagerStats where
  rcvdSegs : Nat := 0
  rcvdBytes : Nat := 0
  sentSegs : Nat := 0
  sentBytes : Nat := 0
  droppedSegs : Nat := 0
  droppedBytes : Nat := 0
  deriving DecidableEq, Repr

/-- `clients` are the keys of the client map in order, and `proxy` has the
object of each, also while it is being built or destroyed. `blockInfo` is in
shared memory. `limitReached` and `outOfRange` are history: a consumer count or the
count of requests was incremented at its machine limit, a tracker was indexed beyond
its vectors. -/
structure Manager where
  params : Params
  shmMapper : ShmMapper := {}
  slabManager : SlabManager
  groupManager : GroupManager := {}
  slabRqstManager : SlabRequestManager := {}
  stats : ManagerStats := {}
  clients : List Nat := []
  proxy : Nat → ClientProxy :=
    fun clientID => { clientID, addr := 0, sock := { accepts := fun _ => true } }
  nextNewClientID : Nat := 0
  blockInfo : Nat → BlockInfo := fun _ => default
  limitReached : Bool := false
  outOfRange : Bool := false

/-- A method of the manager or of one of its proxies. -/
abbrev Act := EStateM Exc Manager

namespace Manager

def blocksPerSlab (m : Manager) : Nat := m.params.blocksPerSlab

def totalNumSlabs (m : Manager) : Nat := m.params.slabsPerBuf * m.shmMapper.numBuffers

def totalNumBlocks (m : Manager) : Nat := m.totalNumSlabs * m.blocksPerSlab

def numFreeSlabs (m : Manager) : Nat := m.slabManager.freeSlabs.length

/-- Some count was incremented at its machine limit. -/
def AtLimit (m : Manager) : Prop := m.limitReached = true ∨ m.slabManager.limitReached = true

def setProxy (m : Manager) (c : Nat) (p : ClientProxy) : Manager :=
  { m with proxy := Function.update m.proxy c p }

def setSlabs (m : Manager) (slabManager : SlabManager) : Manager := { m with slabManager }

def setRequests (m : Manager) (slabRqstManager : SlabRequestManager) : Manager :=
  { m with slabRqstManager }

end Manager

def fail (what : String) : Act Unit := throw (.runtimeError what)

/-- A call on the slab manager. -/
def onSlabs {α : Type} (x : EStateM Exc SlabManager α) : Act α :=
  zoom Manager.slabManager (fun slabManager m => { m with slabManager }) x

/-- A call on the slab tracker of a client. -/
def onTracker {α : Type} (c : Nat) (x : EStateM Exc SlabTracker α) : Act α :=
  zoom (fun m => (m.proxy c).slabs) (fun slabs m => m.setProxy c { m.proxy c with slabs }) x

def onGroups {α : Type} (x : EStateM Exc GroupManager α) : Act α :=
  zoom Manager.groupManager (fun groupManager m => { m with groupManager }) x

def modifyProxy (c : Nat) (f : ClientProxy → ClientProxy) : Act Unit :=
  modify fun m => m.setProxy c (f (m.proxy c))

def getProxy (c : Nat) : Act ClientProxy := return (← get).proxy c

/-- The tracker of a client is about to look at the entries of these slabs. -/
def indexing (c : Nat) (slabIDs : List Nat) : Act Unit :=
  modify fun m => { m with
    outOfRange := m.outOfRange || slabIDs.any ((m.proxy c).slabs.totalNumSlabs ≤ ·) }

/-- `catch(std::runtime_error)` with a handler that only prints. -/
def swallow (x : Act Unit) : Act Unit := fun m =>
  match x m with
  | .error (.runtimeError _) m' => .ok ⟨⟩ m'
  | result => result

/-- A write by the endpoint of client `c` while its `sockFD` is the socket of
client `fd`. A socket that does not take the write fails it for good, as a
proxy's `HandleSendWouldBlock` does not wait. -/
def sendOn (c fd : Nat) (sent : Sent) : Act Unit := do
  if (← getProxy c).sendFailed then
    fail "send error: refusing after send failure"
  let sock := (← getProxy fd).sock
  if sock.accepts sock.attempts then
    modifyProxy fd fun p => { p with
      sock := { p.sock with attempts := p.sock.attempts + 1, out := p.sock.out ++ [sent] } }
  else
    modifyProxy fd fun p => { p with sock := { p.sock with attempts := p.sock.attempts + 1 } }
    modifyProxy c fun p => { p with sendFailed := true }
    fail "send error"

def sendCtrl (c : Nat) (call : HandlerCall) : Act Unit := sendOn c c (.ctrl call)

/-- `SocketEndpoint::SendBlockIDs` and `SendSlabIDs`: no ID is no write. -/
def sendIDs (c : Nat) (kind : List Nat → Sent) (ids : List Nat) : Act Unit := do
  if (← getProxy c).sendFailed then
    fail "send error: refusing after send failure"
  if ids ≠ [] then
    sendOn c c (kind ids)

section
variable {m : Manager} {c : Nat} {α : Type} {E : Exc → Manager → Prop}

@[simp] theorem wp_fail {what : String} {Q : Unit → Manager → Prop} :
    wp (fail what) m Q E ↔ E (.runtimeError what) m := Iff.rfl

@[simp] theorem wp_getProxy {Q : ClientProxy → Manager → Prop} :
    wp (getProxy c) m Q E ↔ Q (m.proxy c) m := Iff.rfl

@[simp] theorem wp_modifyProxy {f : ClientProxy → ClientProxy} {Q : Unit → Manager → Prop} :
    wp (modifyProxy c f) m Q E ↔ Q ⟨⟩ (m.setProxy c (f (m.proxy c))) := Iff.rfl

theorem wp_onSlabs {x : EStateM Exc SlabManager α} {Q : α → Manager → Prop} :
    wp (onSlabs x) m Q E ↔
      wp x m.slabManager (fun a sm => Q a (m.setSlabs sm)) (fun e sm => E e (m.setSlabs sm)) :=
  wp_zoom

theorem wp_onTracker {x : EStateM Exc SlabTracker α} {Q : α → Manager → Prop} :
    wp (onTracker c x) m Q E ↔
      wp x (m.proxy c).slabs (fun a slabs => Q a (m.setProxy c { m.proxy c with slabs }))
        (fun e slabs => E e (m.setProxy c { m.proxy c with slabs })) :=
  wp_zoom

theorem wp_swallow {x : Act Unit} {Q : Unit → Manager → Prop} :
    wp (swallow x) m Q E ↔ wp x m Q fun e m' =>
      match e with
      | .runtimeError _ => Q ⟨⟩ m'
      | .stuck => E .stuck m' := by
  unfold wp swallow
  cases x m with
  | ok a m' => rfl
  | error e m' => cases e <;> rfl

end

namespace Manager

@[simp] theorem proxy_setProxy (m : Manager) (c : Nat) (p : ClientProxy) :
    (m.setProxy c p).proxy c = p := Function.update_self ..

theorem proxy_setProxy_of_ne (m : Manager) {c x : Nat} (ne : x ≠ c) (p : ClientProxy) :
    (m.setProxy c p).proxy x = m.proxy x := Function.update_of_ne ne ..

@[simp] theorem setProxy_setProxy (m : Manager) (c : Nat) (p q : ClientProxy) :
    (m.setProxy c p).setProxy c q = m.setProxy c q := by
  simp [setProxy]

section
variable (m : Manager) (c : Nat) (p : ClientProxy) (sm : SlabManager) (rm : SlabRequestManager)

@[simp] theorem params_setProxy : (m.setProxy c p).params = m.params := rfl
@[simp] theorem shmMapper_setProxy : (m.setProxy c p).shmMapper = m.shmMapper := rfl
@[simp] theorem slabManager_setProxy : (m.setProxy c p).slabManager = m.slabManager := rfl
@[simp] theorem slabRqstManager_setProxy :
    (m.setProxy c p).slabRqstManager = m.slabRqstManager := rfl
@[simp] theorem clients_setProxy : (m.setProxy c p).clients = m.clients := rfl
@[simp] theorem blockInfo_setProxy : (m.setProxy c p).blockInfo = m.blockInfo := rfl

@[simp] theorem params_setSlabs : (m.setSlabs sm).params = m.params := rfl
@[simp] theorem shmMapper_setSlabs : (m.setSlabs sm).shmMapper = m.shmMapper := rfl
@[simp] theorem slabManager_setSlabs : (m.setSlabs sm).slabManager = sm := rfl
@[simp] theorem slabRqstManager_setSlabs :
    (m.setSlabs sm).slabRqstManager = m.slabRqstManager := rfl
@[simp] theorem clients_setSlabs : (m.setSlabs sm).clients = m.clients := rfl
@[simp] theorem proxy_setSlabs : (m.setSlabs sm).proxy = m.proxy := rfl
@[simp] theorem blockInfo_setSlabs : (m.setSlabs sm).blockInfo = m.blockInfo := rfl

@[simp] theorem params_setRequests : (m.setRequests rm).params = m.params := rfl
@[simp] theorem shmMapper_setRequests : (m.setRequests rm).shmMapper = m.shmMapper := rfl
@[simp] theorem slabManager_setRequests : (m.setRequests rm).slabManager = m.slabManager := rfl
@[simp] theorem slabRqstManager_setRequests : (m.setRequests rm).slabRqstManager = rm := rfl
@[simp] theorem clients_setRequests : (m.setRequests rm).clients = m.clients := rfl
@[simp] theorem proxy_setRequests : (m.setRequests rm).proxy = m.proxy := rfl
@[simp] theorem blockInfo_setRequests : (m.setRequests rm).blockInfo = m.blockInfo := rfl

end

@[simp] theorem setProxy_self (m : Manager) (c : Nat) : m.setProxy c (m.proxy c) = m := by
  simp [setProxy]

end Manager
end Mcsb
