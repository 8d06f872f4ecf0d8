import Mcsb.Manager.Indexing
import Mcsb.Manager.Callbacks
import Mcsb.Manager.Tracking

/-!
# Two sets of books

The slab manager counts the references to each slab and lists the segments wanted
on it. The trackers and the wanted queues of the proxies say the same from the
clients' side. Within a handler the two may differ by what is under way; each
call says how it moves that.
-/

namespace Mcsb
open Effect

set_option maxRecDepth 2000
set_option synthInstance.maxSize 10000

/-- What is under way in a handler. Trackers have taken the references `owed`
before the slab manager counts them. It still counts those of `surplus`, and
still lists the segments `rest`. The slabs `firm` stay held, the clients `live`
connected. Those of `absent` are not in the map, and have such a tracker and
queue. With `settled` no request waits beside a free slab. -/
structure Transit where
  owed : Nat → Nat := fun _ => 0
  surplus : Nat → Nat := fun _ => 0
  rest : List WantedSegment := []
  firm : List Nat := []
  live : List Nat := []
  absent : List (Nat × SlabTracker × List WantedSegment) := []
  settled : Bool := false

namespace Manager

/-- The references that the clients' trackers have to a slab. -/
def refs (m : Manager) (s : Nat) : Nat := (m.clients.map fun c => (m.proxy c).slabs.refs s).sum

/-- The segments in the wanted queues of the clients. -/
def queued (m : Manager) : List WantedSegment :=
  m.clients.flatMap fun c => (m.proxy c).wantedQueue

/-- The segments whose block is in a slab. -/
def ofSlab (m : Manager) (s : Nat) (segs : List WantedSegment) : List WantedSegment :=
  segs.filter (·.blockID / m.blocksPerSlab = s)

/-- No request waits, or no slab is free. -/
def Settled (m : Manager) : Prop := m.slabRqstManager.numRequests = 0 ∨ m.numFreeSlabs = 0

/-- What a client has of the slabs and segments. -/
def holdings (m : Manager) (c : Nat) : SlabTracker × List WantedSegment :=
  ((m.proxy c).slabs, (m.proxy c).wantedQueue)

/-- The tracker of every client has an entry for each slab of the slab manager. -/
structure Fitted (m : Manager) : Prop where
  counted : m.shmMapper.Counted m.params
  perBuf : m.slabManager.slabsPerBuf = m.params.slabsPerBuf
  total : m.slabManager.numSlabs ≤ m.totalNumSlabs
  trackers : ∀ c ∈ m.clients,
    m.slabManager.numSlabs ≤ m.tracked c ∧ m.tracked c ≤ m.totalNumSlabs

/-- Both sets of books agree up to what is under way. -/
structure Books (t : Transit) (m : Manager) : Prop where
  nodup : m.clients.Nodup
  fitted : m.Fitted
  sound : m.slabManager.Sound
  requests : m.slabRqstManager.Counted
  trackers : ∀ c ∈ m.clients, (m.proxy c).slabs.OK (m.tracked c)
  held : ∀ s, (m.slabManager.info s).heldRefcnt + t.owed s = m.refs s + t.surplus s
  wanted : ∀ s, (m.slabManager.info s).wantedSegs.Perm (m.ofSlab s (m.queued ++ t.rest))
  owners : ∀ c ∈ m.clients, ∀ seg ∈ (m.proxy c).wantedQueue, seg.clientID = c
  firm : ∀ s ∈ t.firm, (m.slabManager.info s).heldRefcnt ≠ 0
  live : ∀ c ∈ t.live, c ∈ m.clients
  absent : ∀ d ∈ t.absent, d.1 ∉ m.clients ∧ m.holdings d.1 = d.2
  settled : t.settled = true → m.Settled

/-- A count was at its limit, or the books are in order. -/
def Kept (t : Transit) (m : Manager) : Prop := m.AtLimit ∨ m.Books t

section
variable {m m' : Manager} {t t' : Transit} {c : Nat}

theorem holdings_setProxy {p : ClientProxy} (slabs : p.slabs = (m.proxy c).slabs)
    (queue : p.wantedQueue = (m.proxy c).wantedQueue) : (m.setProxy c p).holdings = m.holdings :=
  inner_setProxy (fun p => (p.slabs, p.wantedQueue)) (Prod.ext slabs queue)

theorem Fitted.of_sizes (h : m.Fitted) (params : m'.params = m.params)
    (clients : m'.clients = m.clients) (shm : m'.shmMapper = m.shmMapper)
    (slabs : m'.slabManager.shape = m.slabManager.shape) (tracked : m'.tracked = m.tracked) :
    m'.Fitted := by
  simp only [SlabManager.shape, Prod.mk.injEq] at slabs
  have num : m'.slabManager.numSlabs = m.slabManager.numSlabs := by
    rw [SlabManager.numSlabs, SlabManager.numSlabs, slabs.1, slabs.2]
  constructor
  · rw [shm, params]
    exact h.counted
  · rw [slabs.2, params]
    exact h.perBuf
  · rw [num, totalNumSlabs, params, shm]
    exact h.total
  · rw [clients, num, tracked, totalNumSlabs, params, shm]
    exact h.trackers

theorem Books.of_holdings (h : m.Books t) (params : m'.params = m.params)
    (clients : m'.clients = m.clients) (shm : m'.shmMapper = m.shmMapper)
    (slabs : m'.slabManager = m.slabManager) (requests : m'.slabRqstManager = m.slabRqstManager)
    (holdings : m'.holdings = m.holdings) : m'.Books t := by
  have trackers (c : Nat) : (m'.proxy c).slabs = (m.proxy c).slabs :=
    congrArg Prod.fst (congrFun holdings c)
  have queues (c : Nat) : (m'.proxy c).wantedQueue = (m.proxy c).wantedQueue :=
    congrArg Prod.snd (congrFun holdings c)
  have tracked : m'.tracked = m.tracked := by
    funext c
    rw [Manager.tracked, Manager.tracked, trackers]
  constructor
  · rw [clients]
    exact h.nodup
  · exact h.fitted.of_sizes params clients shm (by rw [slabs]) tracked
  · rw [slabs]
    exact h.sound
  · rw [requests]
    exact h.requests
  · simp only [clients, trackers, tracked]
    exact h.trackers
  · simp only [slabs, refs, clients, trackers]
    exact h.held
  · simp only [slabs, ofSlab, queued, clients, queues, blocksPerSlab, params]
    exact h.wanted
  · simp only [clients, queues]
    exact h.owners
  · rw [slabs]
    exact h.firm
  · rw [clients]
    exact h.live
  · rw [clients, holdings]
    exact h.absent
  · rw [Settled, numFreeSlabs, requests, slabs]
    exact h.settled

end

instance : Steady (Stays AtLimit) where
  inside _ calm limit h := h.imp limit calm.limit
  proxy _ h := h

instance : Sending (Stays AtLimit) := ⟨fun _ _ h => h⟩
instance : Reporting (Stays AtLimit) := ⟨fun _ _ h => h, fun _ _ h => h⟩
instance : Registering (Stays AtLimit) := ⟨fun _ h => h⟩
instance : Wanting (Stays AtLimit) := ⟨fun _ h => h⟩
instance : Ranking (Stays AtLimit) := ⟨fun _ h => h⟩
instance : Grouping (Stays AtLimit) := ⟨fun _ h => h, fun _ h => h⟩
instance : Copying (Stays AtLimit) := ⟨fun _ _ h => h⟩
instance : Resizing (Stays AtLimit) := ⟨fun _ _ h => h⟩
instance : Growing (Stays AtLimit) := ⟨fun _ _ limit h => h.imp id limit, fun _ _ h => h⟩

instance (t : Transit) : Gentle (Stays (Books t)) where
  beside {m m'} same slabs requests _ _ h := by
    simp only [Manager.settings, Prod.mk.injEq] at same
    apply h.of_holdings same.1 same.2.1 same.2.2.1 slabs requests
    funext c
    simp only [holdings, same.2.2.2.2.2.2]
  pending _ slabs queue h := h.of_holdings rfl rfl rfl rfl rfl (holdings_setProxy slabs queue)

instance (t : Transit) : Sending (Stays (Books t)) where
  sending _ _ h := h.of_holdings rfl rfl rfl rfl rfl (holdings_setProxy rfl rfl)

instance (t : Transit) : Reporting (Stays (Books t)) where
  reporting _ _ h := h.of_holdings rfl rfl rfl rfl rfl (holdings_setProxy rfl rfl)
  dropped _ _ h := h.of_holdings rfl rfl rfl rfl rfl rfl

instance (t : Transit) : Registering (Stays (Books t)) where
  registering _ h := h.of_holdings rfl rfl rfl rfl rfl (holdings_setProxy rfl rfl)

instance (t : Transit) : Wanting (Stays (Books t)) where
  wanting _ h := h.of_holdings rfl rfl rfl rfl rfl (holdings_setProxy rfl rfl)

instance (t : Transit) : Ranking (Stays (Books t)) where
  ranking _ h := h.of_holdings rfl rfl rfl rfl rfl (holdings_setProxy rfl rfl)

instance (t : Transit) : Grouping (Stays (Books t)) where
  groups _ h := h.of_holdings rfl rfl rfl rfl rfl rfl
  member _ h := h.of_holdings rfl rfl rfl rfl rfl (holdings_setProxy rfl rfl)

instance (t : Transit) : Copying (Stays (Books t)) where
  blockInfo _ _ h := h.of_holdings rfl rfl rfl rfl rfl rfl

instance (t : Transit) (c : Nat) (slabIDs : List Nat) :
    Moves (Stays (Books t)) (indexing c slabIDs) :=
  .modify fun _ h => h.of_holdings rfl rfl rfl rfl rfl rfl

/-! ## One side changes -/

section
variable {m : Manager} {t t' : Transit} {c : Nat}

/-- Less is known to be under way. -/
theorem Books.forget (h : m.Books t) (owed : t'.owed = t.owed) (surplus : t'.surplus = t.surplus)
    (rest : t'.rest = t.rest) (firm : t'.firm ⊆ t.firm) (live : t'.live ⊆ t.live)
    (absent : t'.absent ⊆ t.absent) (settled : t'.settled = true → m.Settled) : m.Books t' := by
  constructor
  · exact h.nodup
  · exact h.fitted
  · exact h.sound
  · exact h.requests
  · exact h.trackers
  · rw [owed, surplus]
    exact h.held
  · rw [rest]
    exact h.wanted
  · exact h.owners
  · exact fun s mem => h.firm s (firm mem)
  · exact fun c mem => h.live c (live mem)
  · exact fun d mem => h.absent d (absent mem)
  · exact settled

/-- The slab manager takes and gives up references. -/
theorem Books.setSlabs (h : m.Books t) {sm : SlabManager} {taken given : Nat → Nat}
    (moved : m.slabManager.Rebooked sm taken given) (rest : t'.rest = t.rest)
    (live : t'.live = t.live) (absent : t'.absent = t.absent)
    (balance : ∀ s, t.surplus s + taken s + t'.owed s = t'.surplus s + t.owed s + given s)
    (firm : ∀ s ∈ t'.firm, (sm.info s).heldRefcnt ≠ 0)
    (settled : t'.settled = true → (m.setSlabs sm).Settled) : (m.setSlabs sm).Books t' := by
  constructor
  · exact h.nodup
  · exact h.fitted.of_sizes rfl rfl rfl (Prod.ext moved.shape.buffers moved.shape.perBuf) rfl
  · exact h.sound.rebooked moved
  · exact h.requests
  · exact h.trackers
  · intro s
    have count := moved.count s
    have held := h.held s
    have balance := balance s
    show (sm.info s).heldRefcnt + t'.owed s = m.refs s + t'.surplus s
    omega
  · intro s
    rw [rest]
    exact (moved.shape.wanted s).symm ▸ h.wanted s
  · exact h.owners
  · exact firm
  · rw [live]
    exact h.live
  · rw [absent]
    exact h.absent
  · exact settled

theorem refs_setProxy (nodup : m.clients.Nodup) (live : c ∈ m.clients) (p : ClientProxy)
    (s : Nat) : (m.setProxy c p).refs s + (m.proxy c).slabs.refs s = m.refs s + p.slabs.refs s := by
  have change := Accounts.sum_change nodup live (f := fun c => (m.proxy c).slabs.refs s)
    (g := fun x => ((m.setProxy c p).proxy x).slabs.refs s)
    fun x ne => by rw [proxy_setProxy_of_ne _ ne]
  rw [proxy_setProxy] at change
  exact change

theorem queued_setProxy (nodup : m.clients.Nodup) (live : c ∈ m.clients) (p : ClientProxy) :
    ((m.setProxy c p).queued ++ (m.proxy c).wantedQueue).Perm (m.queued ++ p.wantedQueue) := by
  have change := Accounts.flatMap_change nodup live (f := fun c => (m.proxy c).wantedQueue)
    (g := fun x => ((m.setProxy c p).proxy x).wantedQueue)
    fun x ne => by rw [proxy_setProxy_of_ne _ ne]
  rw [proxy_setProxy] at change
  exact change

/-- A client has other references and another queue. -/
theorem Books.setProxy (h : m.Books t) (live : c ∈ m.clients) {p : ClientProxy}
    (ok : p.slabs.OK (m.tracked c)) (owner : ∀ seg ∈ p.wantedQueue, seg.clientID = c)
    (same : t'.firm = t.firm ∧ t'.live = t.live ∧ t'.absent = t.absent ∧ t'.settled = t.settled)
    (balance : ∀ s, (m.proxy c).slabs.refs s + t.surplus s + t'.owed s =
      p.slabs.refs s + t'.surplus s + t.owed s)
    (queue : ((m.proxy c).wantedQueue ++ t.rest).Perm (p.wantedQueue ++ t'.rest)) :
    (m.setProxy c p).Books t' := by
  have tracked : (m.setProxy c p).tracked = m.tracked :=
    inner_setProxy (fun p => p.slabs.totalNumSlabs) ok.total
  constructor
  · exact h.nodup
  · exact h.fitted.of_sizes rfl rfl rfl rfl tracked
  · exact h.sound
  · exact h.requests
  · intro x live
    rw [tracked]
    by_cases here : x = c
    · rw [here, proxy_setProxy]
      exact ok
    · rw [proxy_setProxy_of_ne _ here]
      exact h.trackers x live
  · intro s
    have change := refs_setProxy h.nodup live p s
    have held := h.held s
    have balance := balance s
    show (m.slabManager.info s).heldRefcnt + t'.owed s = _
    omega
  · intro s
    have moved : (m.queued ++ t.rest).Perm ((m.setProxy c p).queued ++ t'.rest) := by
      have change := queued_setProxy h.nodup live p
      rw [List.perm_iff_count] at change queue ⊢
      intro seg
      have change := change seg
      have queue := queue seg
      simp only [List.count_append] at change queue ⊢
      omega
    exact (h.wanted s).trans (moved.filter _)
  · intro x live
    by_cases here : x = c
    · rw [here, proxy_setProxy]
      exact owner
    · rw [proxy_setProxy_of_ne _ here]
      exact h.owners x live
  · rw [same.1]
    exact h.firm
  · rw [same.2.1]
    exact h.live
  · rw [same.2.2.1]
    intro d mem
    obtain ⟨gone, holds⟩ := h.absent d mem
    have ne : d.1 ≠ c := fun here => gone (here ▸ live)
    refine ⟨gone, Eq.trans ?_ holds⟩
    rw [holdings, holdings, proxy_setProxy_of_ne _ ne]
  · rw [same.2.2.2]
    exact h.settled

end

/-! ## Free slabs are handed out -/

section
variable {m : Manager} {t : Transit} {c : Nat}

theorem Books.of_proxy (h : m.Books t) {p : ClientProxy} (slabs : p.slabs = (m.proxy c).slabs)
    (queue : p.wantedQueue = (m.proxy c).wantedQueue) : (m.setProxy c p).Books t :=
  h.of_holdings rfl rfl rfl rfl rfl (holdings_setProxy slabs queue)

/-- No tracker refers to a slab that nobody holds. -/
theorem Books.unheld (h : m.Books t) (owed : ∀ s, t.owed s = 0) (live : c ∈ m.clients) {s : Nat}
    (free : (m.slabManager.info s).heldRefcnt = 0) : (m.proxy c).slabs.refs s = 0 := by
  have held := h.held s
  have one := Accounts.le_sum live fun c => (m.proxy c).slabs.refs s
  rw [free, owed, refs] at held
  omega

/-- The trackers look at their entries, and nothing else happens. -/
theorem Books.indexing (h : m.Books t) (slabIDs : List Nat) : wp (indexing c slabIDs) m
    (fun _ m' => m'.Books t ∧ m'.slabManager = m.slabManager ∧
      m'.slabRqstManager = m.slabRqstManager ∧ m'.clients = m.clients ∧ m'.proxy = m.proxy)
    (fun _ _ => False) :=
  ⟨h.of_holdings rfl rfl rfl rfl rfl rfl, rfl, rfl, rfl, rfl⟩

/-- The slabs are counted already. -/
theorem Books.takeFreeSlabs {slabIDs : List Nat}
    (h : m.Books { t with surplus := fun s => t.surplus s + slabIDs.count s })
    (live : c ∈ m.clients) (nodup : slabIDs.Nodup)
    (new : ∀ s ∈ slabIDs, s < m.tracked c ∧ (m.proxy c).slabs.prodSlabRefcnt s = false) :
    wp (takeFreeSlabs c slabIDs) m (fun _ m' => m'.Books t ∧
      m'.slabManager = m.slabManager ∧ m'.slabRqstManager = m.slabRqstManager)
      (fun _ _ => False) := by
  rw [Mcsb.takeFreeSlabs, wp_bind]
  apply wp_mono (h.indexing slabIDs)
  · rintro _ m₁ ⟨books, slabs, requests, clients, proxy⟩
    have new : ∀ s ∈ slabIDs, s < m₁.tracked c ∧ (m₁.proxy c).slabs.prodSlabRefcnt s = false := by
      rw [tracked, proxy]
      exact new
    have live : c ∈ m₁.clients := clients ▸ live
    have inserted := (books.trackers c live).insertProdSlabs nodup new
    have taken : Books t (m₁.setProxy c { m₁.proxy c with
        slabs := slabIDs.foldl SlabTracker.insertProdSlab (m₁.proxy c).slabs }) := by
      apply books.setProxy live
      case ok => exact inserted.ok
      case owner => exact books.owners c live
      case same => exact ⟨rfl, rfl, rfl, rfl⟩
      case queue => exact List.Perm.refl _
      case balance =>
        intro s
        have refs := inserted.refs s
        dsimp only
        omega
    rw [wp_bind, wp_onTracker, SlabTracker.insertProdSlabs_ok nodup fun s mem => (new s mem).2,
      wp_bind]
    apply wp_swallow_sendIDs
    intro sock sendFailed
    rw [wp_modifyProxy]
    refine ⟨?_, slabs, requests⟩
    apply Books.of_proxy
    case h =>
      apply Books.of_proxy
      case h => exact taken
      all_goals rfl
    all_goals rfl
  · intro _ _
    exact id

/-- A client gets the first free slabs. -/
structure Granted (t : Transit) (n : Nat) (m m' : Manager) : Prop where
  books : m'.Books t
  free : m'.slabManager.freeSlabs = m.slabManager.freeSlabs.drop n
  requests : m'.slabRqstManager = m.slabRqstManager

theorem Books.grant (h : m.Books t) (owed : ∀ s, t.owed s = 0) (live : c ∈ m.clients) (n : Nat) :
    wp (onSlabs (SlabManager.getFreeSlabs n)) m (fun slabIDs m₁ =>
      wp (Mcsb.takeFreeSlabs c slabIDs) m₁ (fun _ m' => Granted t n m m') (fun _ _ => False))
      (fun _ _ => False) := by
  have partition := h.sound.partition
  rw [wp_onSlabs]
  apply wp_mono (partition.getFreeSlabs h.sound.small n)
  · rintro slabIDs sm ⟨taken, left, moved⟩
    have counted : (m.setSlabs sm).Books
        { t with surplus := fun s => t.surplus s + slabIDs.count s } := by
      apply h.setSlabs moved
      case balance =>
        intro s
        rfl
      case firm =>
        intro s mem
        have := h.firm s mem
        have := moved.count s
        omega
      case settled =>
        intro settled
        apply (h.settled settled).imp id
        intro none
        show sm.freeSlabs.length = 0
        rw [left, List.length_drop, show m.slabManager.freeSlabs.length = 0 from none, Nat.zero_sub]
      all_goals rfl
    have nodup : slabIDs.Nodup := taken ▸ partition.free_nodup.sublist (List.take_sublist n _)
    apply wp_mono (counted.takeFreeSlabs live nodup _)
    · rintro _ m' ⟨books, slabs, requests⟩
      exact ⟨books, (congrArg _ slabs).trans left, requests⟩
    · intro _ _
      exact id
    · intro s mem
      obtain ⟨lt, free, -⟩ := (partition.mem_free s).mp (List.mem_of_mem_take (taken ▸ mem))
      constructor
      · exact lt.trans_le (h.fitted.trackers c live).1
      · have none := h.unheld owed live free
        show (m.proxy c).slabs.prodSlabRefcnt s = false
        by_contra held
        simp [SlabTracker.refs, held] at none
  · intro _ _
    exact id

theorem Books.setRequests (h : m.Books t) (unsettled : t.settled = false)
    {rm : SlabRequestManager} (counted : rm.Counted) : (m.setRequests rm).Books t := by
  constructor
  case requests => exact counted
  case settled =>
    intro settled
    rw [unsettled] at settled
    cases settled
  case fitted => exact h.fitted.of_sizes rfl rfl rfl rfl rfl
  all_goals first | exact h.nodup | exact h.sound | exact h.trackers | exact h.held | exact h.wanted | exact h.owners | exact h.firm | exact h.live | exact h.absent

/-- What the loop of `ServiceSlabRequests` uses up. -/
def toServe (m : Manager) : Nat := m.numFreeSlabs + m.slabRqstManager.numRequests

theorem Books.serveRequest (h : m.Books t) (owed : ∀ s, t.owed s = 0)
    (unsettled : t.settled = false) (some : m.numFreeSlabs ≠ 0)
    (room : m.slabRqstManager.numRequests + 1 < 2 ^ 32) (level : Nat) (req : SlabRequest) :
    wp (serveRequest level req) m (fun _ m' => m'.Books t ∧ m'.toServe ≤ m.toServe)
      (fun _ _ => False) := by
  rw [Mcsb.serveRequest, wp_bind, wp_get]
  by_cases live : req.id ∈ m.clients ∧ (m.proxy req.id).addr = req.arg
  · rw [if_pos live, wp_bind]
    apply wp_mono (h.grant owed live.1 1)
    · intro slabIDs m₁ granted
      rw [wp_bind]
      apply wp_mono granted
      · intro _ m' granted
        have fewer : m'.toServe + 1 = m.toServe := by
          have free := congrArg List.length granted.free
          rw [List.length_drop] at free
          unfold toServe numFreeSlabs at *
          rw [granted.requests]
          omega
        rw [← granted.requests] at room
        generalize (req.numSlabs + (2 ^ 32 - 1)) % 2 ^ 32 = slabsPending
        rw [wp_ite]
        split
        · rw [wp_modify]
          constructor
          · exact granted.books.setRequests unsettled (granted.books.requests.addRequest room.ne ..)
          · rw [← fewer]
            exact Nat.add_le_add_left (Nat.mod_le _ _) _
        · exact ⟨granted.books, fewer ▸ Nat.le_succ _⟩
      · intro _ _
        exact id
    · intro _ _
      exact id
  · rw [if_neg live]
    exact ⟨h, le_rfl⟩

theorem Books.serviceLoop (h : m.Books t) (owed : ∀ s, t.owed s = 0)
    (unsettled : t.settled = false) (fuel : Nat) (enough : m.toServe < fuel) :
    wp (serviceLoop fuel) m (fun _ m' => m'.Books t ∧ m'.Settled) (fun _ _ => False) := by
  induction fuel generalizing m with
  | zero => cases enough
  | succ fuel ih =>
    rw [Mcsb.serviceLoop, wp_bind, wp_get, wp_ite]
    split
    · exact ⟨h, ‹_›⟩
    · rename_i both
      rw [not_or] at both
      obtain ⟨level, req, rm, lowest, popped⟩ := h.requests.lowest both.1
      have le := (SlabRequestManager.le_of_lowestLevelPending lowest).1
      obtain ⟨counted, fewer⟩ := h.requests.popFrontRequest le popped
      simp only [lowest, popped]
      rw [wp_bind, wp_set, wp_bind]
      have books : (m.setRequests rm).Books t := h.setRequests unsettled counted
      have lt := h.requests.lt
      have room : rm.numRequests + 1 < 2 ^ 32 := fewer ▸ lt
      apply wp_mono (books.serveRequest owed unsettled both.2 room level req)
      · rintro _ m' ⟨books', less⟩
        apply ih books'
        have : (m.setRequests rm).toServe + 1 = m.toServe := congrArg (m.numFreeSlabs + ·) fewer
        omega
      · intro _ _
        exact id

/-- All requests are served, or all slabs are taken. -/
theorem Books.serviceSlabRequests (h : m.Books { t with settled := false })
    (owed : ∀ s, t.owed s = 0) :
    wp serviceSlabRequests m (fun _ m' => m'.Books t) (fun _ _ => False) := by
  rw [Mcsb.serviceSlabRequests, wp_bind, wp_get]
  apply wp_mono (h.serviceLoop owed rfl _ (Nat.lt_succ_self _))
  · rintro _ m' ⟨books, settled⟩
    apply books.forget
    case settled => exact fun _ => settled
    case firm => exact List.Subset.refl _
    case live => exact List.Subset.refl _
    case absent => exact List.Subset.refl _
    all_goals rfl
  · intro _ _
    exact id

/-! ## References are given up -/

/-- Only a change to free makes more slabs free. -/
theorem Books.handleSlabStateChange {change : Option StateChange}
    (h : m.Books { t with settled := false }) (owed : ∀ s, t.owed s = 0)
    (same : change ≠ some .heldToFree → change ≠ some .wantedToFree → t.settled = true →
      m.Settled) :
    wp (handleSlabStateChange change) m (fun _ m' => m'.Books t) (fun _ _ => False) := by
  have still (held : change ≠ some .heldToFree) (wanted : change ≠ some .wantedToFree) :
      m.Books t := by
    apply h.forget
    case settled => exact same held wanted
    case firm => exact List.Subset.refl _
    case live => exact List.Subset.refl _
    case absent => exact List.Subset.refl _
    all_goals rfl
  unfold Mcsb.handleSlabStateChange
  split
  · exact h.serviceSlabRequests owed
  · exact h.serviceSlabRequests owed
  · exact still (by simp) (by simp)
  · exact still (by simp) (by simp)

theorem freeSlabs_unhold (sm : SlabManager) (s amount : Nat)
    (notFree : sm.unholdChange s amount ≠ some .heldToFree) :
    (sm.unhold s amount).freeSlabs = sm.freeSlabs := by
  unfold SlabManager.unholdChange at notFree
  unfold SlabManager.unhold
  dsimp only
  split
  · rfl
  · split
    · rfl
    · simp_all

theorem freeSlabs_unwant (sm : SlabManager) (seg : WantedSegment) (s : Nat)
    (notFree : sm.unwantChange seg s ≠ some .wantedToFree) :
    (sm.unwant seg s).freeSlabs = sm.freeSlabs := by
  unfold SlabManager.unwantChange at notFree
  unfold SlabManager.unwant
  dsimp only
  split
  · simp_all
  · rfl

/-- What a list of amounts comes to for a slab. -/
def due (slabs : List (Nat × Nat)) (s : Nat) : Nat :=
  (slabs.map fun slab => if s = slab.1 then slab.2 else 0).sum

theorem Books.decrementHeldRefcnt (slabs : List (Nat × Nat))
    (h : m.Books { t with surplus := fun s => t.surplus s + due slabs s })
    (owed : ∀ s, t.owed s = 0) (firm : t.firm = []) (pos : ∀ slab ∈ slabs, 0 < slab.2) :
    wp (decrementHeldRefcnt slabs) m (fun _ m' => m'.Books t) (fun _ _ => False) := by
  induction slabs generalizing m with
  | nil => exact h
  | cons slab slabs ih =>
    obtain ⟨s, amount⟩ := slab
    rw [List.forall_mem_cons] at pos
    have partition := h.sound.partition
    have enough : amount ≤ (m.slabManager.info s).heldRefcnt := by
      have held := h.held s
      have here : due ((s, amount) :: slabs) s = amount + due slabs s := by
        rw [due, List.map_cons, List.sum_cons, if_pos rfl]
        rfl
      have := owed s
      dsimp only at held
      omega
    rw [Mcsb.decrementHeldRefcnt, wp_bind, wp_onSlabs,
      SlabManager.decrementHeldRefcnt_ok partition pos.1 enough, wp_bind]
    have given : (m.setSlabs (m.slabManager.unhold s amount)).Books
        { t with surplus := fun x => t.surplus x + due slabs x, settled := false } := by
      apply h.setSlabs (partition.rebooked_unhold h.sound.small pos.1 enough)
      case balance =>
        intro x
        have here : due ((s, amount) :: slabs) x = (if x = s then amount else 0) + due slabs x := by
          rw [due, List.map_cons, List.sum_cons]
          rfl
        dsimp only
        omega
      case firm =>
        intro x mem
        rw [firm] at mem
        cases mem
      case settled =>
        intro no
        cases no
      all_goals rfl
    apply wp_mono
    · apply Books.handleSlabStateChange (t := { t with surplus := fun x => t.surplus x + due slabs x })
      · exact given
      · exact owed
      · intro notFree _ settled
        show m.slabRqstManager.numRequests = 0 ∨ (m.slabManager.unhold s amount).freeSlabs.length = 0
        rw [freeSlabs_unhold _ _ _ notFree]
        exact h.settled settled
    · intro _ m' books
      exact ih books pos.2
    · intro _ _
      exact id

/-! ## Wanted segments leave -/

theorem heldRefcnt_unwant (sm : SlabManager) (seg : WantedSegment) (s x : Nat) :
    ((sm.unwant seg s).info x).heldRefcnt = (sm.info x).heldRefcnt := by
  rw [SlabManager.info_unwant]
  split
  · rename_i here
    rw [here]
  · rfl

theorem shape_unwant (sm : SlabManager) (seg : WantedSegment) (s : Nat) :
    (sm.unwant seg s).shape = sm.shape := by
  unfold SlabManager.unwant
  dsimp only
  split <;> rfl

/-- A segment still listed is on the slab of its block. -/
theorem Books.listed {seg : WantedSegment} (h : m.Books t) (listed : seg ∈ m.queued ++ t.rest) :
    seg ∈ (m.slabManager.info (seg.blockID / m.blocksPerSlab)).wantedSegs := by
  apply (h.wanted _).mem_iff.mpr
  exact List.mem_filter.mpr ⟨listed, decide_eq_true rfl⟩

theorem Books.unwant {seg : WantedSegment} (h : m.Books { t with rest := seg :: t.rest }) :
    (m.setSlabs (m.slabManager.unwant seg (seg.blockID / m.blocksPerSlab))).Books
      { t with settled := false } := by
  have mem := h.listed (List.mem_append_right _ List.mem_cons_self)
  constructor
  case nodup => exact h.nodup
  case fitted => exact h.fitted.of_sizes rfl rfl rfl (shape_unwant ..) rfl
  case sound => exact h.sound.unwant mem
  case requests => exact h.requests
  case trackers => exact h.trackers
  case held =>
    intro s
    rw [slabManager_setSlabs, heldRefcnt_unwant]
    exact h.held s
  case wanted =>
    intro s
    have split : (m.ofSlab s (m.queued ++ seg :: t.rest)).Perm
        (m.ofSlab s (seg :: (m.queued ++ t.rest))) := List.perm_middle.filter _
    have before := (h.wanted s).trans split
    rw [ofSlab, List.filter_cons] at before
    rw [slabManager_setSlabs, SlabManager.info_unwant]
    by_cases here : seg.blockID / m.blocksPerSlab = s
    · rw [if_pos (decide_eq_true here)] at before
      rw [if_pos here.symm, here]
      have erased := before.erase seg
      rw [List.erase_cons_head] at erased
      exact erased
    · rw [if_neg (by simp [here])] at before
      rw [if_neg (Ne.symm here)]
      exact before
  case owners => exact h.owners
  case firm =>
    intro s mem
    rw [slabManager_setSlabs, heldRefcnt_unwant]
    exact h.firm s mem
  case live => exact h.live
  case absent => exact h.absent
  case settled =>
    intro no
    cases no

theorem Books.releaseWantedSegment {seg : WantedSegment}
    (h : m.Books { t with rest := seg :: t.rest }) (owed : ∀ s, t.owed s = 0) :
    wp (releaseWantedSegment seg) m (fun _ m' => m'.Books t) (fun _ _ => False) := by
  have mem := h.listed (List.mem_append_right _ List.mem_cons_self)
  rw [Mcsb.releaseWantedSegment, wp_bind, wp_get]
  dsimp only
  rw [wp_bind, wp_onSlabs, SlabManager.releaseWantedSegment_ok h.sound.partition mem]
  apply h.unwant.handleSlabStateChange owed
  intro _ notFree settled
  show m.slabRqstManager.numRequests = 0 ∨ (m.slabManager.unwant _ _).freeSlabs.length = 0
  rw [freeSlabs_unwant _ _ _ notFree]
  exact h.settled settled

/-- A segment leaves a client's queue. -/
theorem Books.dequeue (h : m.Books t) (live : c ∈ m.clients) {p : ClientProxy}
    (slabs : p.slabs = (m.proxy c).slabs) {seg : WantedSegment}
    (queue : (m.proxy c).wantedQueue.Perm (seg :: p.wantedQueue)) :
    (m.setProxy c p).Books { t with rest := seg :: t.rest } := by
  apply h.setProxy live
  case ok =>
    rw [slabs]
    exact h.trackers c live
  case owner =>
    intro other mem
    exact h.owners c live other (queue.mem_iff.mpr (List.mem_cons_of_mem seg mem))
  case same => exact ⟨rfl, rfl, rfl, rfl⟩
  case balance =>
    intro s
    rw [slabs]
  case queue => exact (queue.append_right _).trans List.perm_middle.symm

theorem Books.popFrontWanted {seg : WantedSegment} {queue : List WantedSegment} (h : m.Books t)
    (owed : ∀ s, t.owed s = 0) (live : c ∈ m.clients)
    (front : (m.proxy c).wantedQueue = seg :: queue) :
    wp (popFrontWanted c seg) m (fun _ m' => m'.Books t) (fun _ _ => False) := by
  rw [Mcsb.popFrontWanted, wp_bind, wp_modifyProxy]
  apply Books.releaseWantedSegment _ owed
  apply h.dequeue live
  case slabs => rfl
  case queue =>
    rw [front]
    exact List.Perm.refl _

theorem sendDropReport_returns (m : Manager) (c segs bytes : Nat) :
    wp (sendDropReport c segs bytes) m (fun _ _ => True) (fun _ _ => False) := by
  simp only [sendDropReport, wp_bind, wp_modifyProxy, wp_getProxy]
  split
  · rw [wp_bind]
    apply wp_swallow_sendOn
    trivial
  · trivial

/-- A call that returns in any case, and changes nothing the books are about. -/
theorem Books.returns (h : m.Books t) {x : Act Unit} [Moves (Stays (Books t)) x]
    (returns : wp x m (fun _ _ => True) (fun _ _ => False)) :
    wp x m (fun _ m' => m'.Books t) (fun _ _ => False) :=
  wp_mono (wp_and (Moves.wp_stays h) returns) (fun _ _ both => both.1) (fun _ _ both => both.2)

theorem Books.eraseWantedSegment {seg : WantedSegment} (h : m.Books t)
    (owed : ∀ s, t.owed s = 0) (live : c ∈ m.clients) (mem : seg ∈ (m.proxy c).wantedQueue) :
    wp (eraseWantedSegment c seg) m (fun _ m' => m'.Books t) (fun _ _ => False) := by
  rw [Mcsb.eraseWantedSegment, wp_bind, wp_get, if_neg (List.ne_nil_of_mem mem), wp_bind,
    wp_modifyProxy, wp_bind]
  have left : Books { t with rest := seg :: t.rest } (m.setProxy c
      { m.proxy c with wantedQueue := (m.proxy c).wantedQueue.erase seg }) := by
    apply h.dequeue live
    case slabs => rfl
    case queue => exact List.perm_cons_erase mem
  apply wp_mono (left.releaseWantedSegment owed)
  · intro _ m' books
    exact books.returns (sendDropReport_returns ..)
  · intro _ _
    exact id

/-! ## Slabs are asked for -/

/-- A segment on a slab is in the queue of the client it is for. -/
theorem Books.owner (h : m.Books t) (rest : t.rest = []) {s : Nat} {seg : WantedSegment}
    (mem : seg ∈ (m.slabManager.info s).wantedSegs) :
    seg.clientID ∈ m.clients ∧ seg ∈ (m.proxy seg.clientID).wantedQueue := by
  have listed := ((h.wanted s).mem_iff.mp mem)
  rw [rest, List.append_nil] at listed
  obtain ⟨c, live, queued⟩ := List.mem_flatMap.mp (List.mem_of_mem_filter listed)
  rw [h.owners c live seg queued]
  exact ⟨live, queued⟩

theorem wp_frontWantedSegment {sm : SlabManager} {Q : WantedSegment → SlabManager → Prop}
    {E : Exc → SlabManager → Prop}
    (ok : ∀ s seg, seg ∈ (sm.info s).wantedSegs → Q seg sm)
    (err : ∀ what, E (.runtimeError what) sm) : wp SlabManager.frontWantedSegment sm Q E := by
  rw [SlabManager.frontWantedSegment, wp_bind, wp_get]
  split
  · exact err _
  · rename_i s _ _
    split
    · exact err _
    · rename_i seg segs front
      apply ok s
      rw [front]
      exact List.mem_cons_self

theorem Books.harvestLoop (h : m.Books t) (owed : ∀ s, t.owed s = 0) (rest : t.rest = [])
    (orig count fuel : Nat) :
    wp (harvestLoop orig count fuel) m (fun _ m' => m'.Books t) (fun _ m' => m'.Books t) := by
  induction fuel generalizing m with
  | zero => exact h
  | succ fuel ih =>
    rw [Mcsb.harvestLoop, wp_bind, wp_get, wp_ite]
    split
    · rw [wp_bind, wp_onSlabs]
      apply wp_frontWantedSegment
      · intro s seg mem
        obtain ⟨live, queued⟩ := h.owner rest mem
        rw [show m.setSlabs m.slabManager = m from rfl, if_pos live, wp_bind]
        apply wp_mono (h.eraseWantedSegment owed live queued)
        · intro _ m' books
          exact ih books
        · intro _ _
          exact False.elim
      · intro _
        exact h
    · exact h

theorem Books.requestFreeSlabs (h : m.Books t) (owed : ∀ s, t.owed s = 0) (rest : t.rest = [])
    (live : c ∈ t.live) (n : Nat) (niceLevel : Int) :
    wp (requestFreeSlabs n c niceLevel) m (fun _ m' => m'.AtLimit ∨ m'.Books t)
      (fun _ m' => m'.AtLimit ∨ m'.Books t) := by
  rw [Mcsb.requestFreeSlabs, wp_bind, wp_get]
  generalize niceLevel + (if m.params.playbackMode = true then 1 else 0) = level
  dsimp only
  rw [wp_ite]
  split
  · rw [wp_bind, wp_modify, wp_bind, wp_modify]
    by_cases last : m.slabRqstManager.numRequests + 1 = 2 ^ 32
    · have limited : AtLimit { m with
          limitReached := m.limitReached || m.slabRqstManager.numRequests + 1 == 2 ^ 32
          slabRqstManager := m.slabRqstManager.addRequest level n c (m.proxy c).addr } := by
        left
        dsimp only
        rw [beq_iff_eq.mpr last, Bool.or_true]
      exact wp_mono (Moves.wp_stays limited) (fun _ _ => .inl) (fun _ _ => .inl)
    · have unsettled : m.Books { t with settled := false } := by
        apply h.forget
        case settled =>
          intro no
          cases no
        case firm => exact List.Subset.refl _
        case live => exact List.Subset.refl _
        case absent => exact List.Subset.refl _
        all_goals rfl
      have marked (limitReached : Bool) : Books { t with settled := false }
          { m with limitReached } := unsettled.of_holdings rfl rfl rfl rfl rfl rfl
      have asked := (marked (m.limitReached || m.slabRqstManager.numRequests + 1 == 2 ^ 32)).setRequests
        rfl (h.requests.addRequest last level n c (m.proxy c).addr)
      apply wp_mono (asked.serviceSlabRequests owed)
      · intro _ _
        exact .inr
      · intro _ _
        exact False.elim
  · rw [wp_ite]
    split
    · exact .inr h
    · rw [wp_bind, harvestWantedSlabs, wp_bind, wp_get]
      apply wp_mono (h.harvestLoop owed rest _ _ _)
      · intro _ m₁ books
        rw [wp_bind]
        apply wp_mono (books.grant owed (books.live c live) n)
        · intro slabIDs m₂ granted
          apply wp_mono granted
          · intro _ m' granted
            exact .inr granted.books
          · intro _ _
            exact False.elim
        · intro _ _
          exact False.elim
      · intro _ _
        exact .inr

theorem Books.fillProducerSlabs (h : m.Books t) (owed : ∀ s, t.owed s = 0) (rest : t.rest = [])
    (live : c ∈ t.live) :
    wp (fillProducerSlabs c) m (fun _ m' => m'.AtLimit ∨ m'.Books t)
      (fun _ m' => m'.AtLimit ∨ m'.Books t) := by
  rw [Mcsb.fillProducerSlabs, wp_bind, wp_getProxy, wp_ite]
  split
  · exact .inr h
  · rw [wp_bind, wp_modifyProxy]
    apply Books.requestFreeSlabs _ owed rest live
    apply Books.of_proxy h
    all_goals rfl

end

end Manager
end Mcsb
