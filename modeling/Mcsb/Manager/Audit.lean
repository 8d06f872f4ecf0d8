import Mcsb.Manager.Balance

/-!
# The books over whole runs

Buffers are added, clients come and go. What a client leaves behind is released
after it has left the map, and then the books balance again.
-/

namespace Mcsb
open Effect

set_option maxRecDepth 2000
set_option synthInstance.maxSize 10000

namespace SlabManager

variable {sm : SlabManager}

/-- New buffers have only free slabs. -/
theorem Partition.info_setNumBuffers (h : sm.Partition) (n : Nat) :
    (sm.setNumBuffers n).info = sm.info := by
  have kept := setNumBuffers_keeps (P := fun sm' => sm'.Partition ∧ sm'.info = sm.info)
    (fun sm' both => ⟨both.1.addBuffer, (funext both.1.info_addBuffer).trans both.2⟩)
    (fun sm' _ both => ⟨⟨both.1.slabs_pos, both.1.free_nodup, both.1.held_nodup,
      both.1.wanted_nodup, both.1.mem_free, both.1.mem_held, both.1.mem_wanted,
      both.1.outside⟩, both.2⟩)
    ⟨h, rfl⟩ n
  exact kept.2

theorem Sound.reserve (h : sm.Sound) (numSlabsReserved : Nat) :
    Sound { sm with numSlabsReserved } where
  partition := ⟨h.partition.slabs_pos, h.partition.free_nodup, h.partition.held_nodup,
    h.partition.wanted_nodup, h.partition.mem_free, h.partition.mem_held, h.partition.mem_wanted,
    h.partition.outside⟩
  segments := h.segments
  small := h.small

end SlabManager

namespace Manager

/-! ## Buffers are added -/

/-- Trackers got entries for more slabs, none of them held. -/
structure Refitted (m m' : Manager) : Prop where
  params : m'.params = m.params
  shm : m'.shmMapper = m.shmMapper
  requests : m'.slabRqstManager = m.slabRqstManager
  queues : ∀ c, (m'.proxy c).wantedQueue = (m.proxy c).wantedQueue
  trackers : ∀ c, (m.proxy c).slabs.OK (m.tracked c) → m.tracked c ≤ m.totalNumSlabs →
    m.totalNumSlabs < 2 ^ 32 → (m'.proxy c).slabs.OK (m'.tracked c) ∧
      m'.tracked c ≤ m.totalNumSlabs ∧ (m'.proxy c).slabs.refs = (m.proxy c).slabs.refs

section
variable {m m' m'' : Manager} {t : Transit} {c : Nat}

theorem Refitted.refl (m : Manager) : m.Refitted m :=
  ⟨rfl, rfl, rfl, fun _ => rfl, fun _ ok le _ => ⟨ok, le, rfl⟩⟩

theorem Refitted.trans (h : m.Refitted m') (h' : m'.Refitted m'') : m.Refitted m'' where
  params := h'.params.trans h.params
  shm := h'.shm.trans h.shm
  requests := h'.requests.trans h.requests
  queues c := (h'.queues c).trans (h.queues c)
  trackers c ok le small := by
    have total : m'.totalNumSlabs = m.totalNumSlabs := by
      rw [totalNumSlabs, totalNumSlabs, h.params, h.shm]
    have first := h.trackers c ok le small
    have second := h'.trackers c first.1 (total ▸ first.2.1) (total ▸ small)
    exact ⟨second.1, total ▸ second.2.1, second.2.2.trans first.2.2⟩

theorem wp_checkBufferParams_refitted (c : Nat) (m : Manager) :
    wp (checkBufferParams c) m (fun _ m' => m.Refitted m') (fun _ _ => False) := by
  simp only [checkBufferParams, wp_bind, wp_get, wp_modifyProxy, sendCtrl]
  apply wp_swallow_sendOn
  rw [setProxy_setProxy]
  constructor
  case queues =>
    intro x
    by_cases here : x = c
    · rw [here, proxy_setProxy, ClientProxy.wantedQueue_send, proxy_setProxy]
    · rw [proxy_setProxy_of_ne _ here]
  case trackers =>
    intro x ok le small
    by_cases here : x = c
    · subst here
      rw [tracked, proxy_setProxy, ClientProxy.slabs_send, proxy_setProxy]
      refine ⟨ok.setTotalNumSlabs le small, le_rfl, ?_⟩
      dsimp only
      rw [ok.setTotalNumSlabs_eq le]
      rfl
    · rw [tracked, proxy_setProxy_of_ne _ here]
      exact ⟨ok, le, rfl⟩
  all_goals rfl

theorem wp_checkAllBufferParams_refitted (cs : List Nat) (m : Manager) :
    wp (checkAllBufferParams cs) m (fun _ m' => m.Refitted m') (fun _ _ => False) := by
  induction cs generalizing m with
  | nil => exact .refl m
  | cons c cs ih =>
    apply wp_bind.mpr
    apply wp_mono (wp_checkBufferParams_refitted c m)
    · intro _ m₁ first
      apply wp_mono (ih m₁)
      · intro _ m' rest
        exact first.trans rest
      · intro _ _
        exact id
    · intro _ _
      exact id

theorem Fitted.mapped (h : m.Fitted) {shm : ShmMapper} (counted : shm.Counted m.params)
    (more : m.shmMapper.numBuffers ≤ shm.numBuffers) : Fitted { m with shmMapper := shm } where
  counted := counted
  perBuf := h.perBuf
  total := h.total.trans (Nat.mul_le_mul_left _ more)
  trackers c live := (h.trackers c live).imp_right (·.trans (Nat.mul_le_mul_left _ more))

/-- Buffers have been mapped that the slab manager does not know of. -/
theorem Books.mapped (h : m.Books t) {shm : ShmMapper} (counted : shm.Counted m.params)
    (more : m.shmMapper.numBuffers ≤ shm.numBuffers) : Books t { m with shmMapper := shm } where
  nodup := h.nodup
  fitted := h.fitted.mapped counted more
  sound := h.sound
  requests := h.requests
  trackers := h.trackers
  held := h.held
  wanted := h.wanted
  owners := h.owners
  firm := h.firm
  live := h.live
  absent := h.absent
  settled := h.settled

theorem ShmMapper.totalNumSlabs_lt (counted : m.shmMapper.Counted m.params) :
    m.totalNumSlabs < 2 ^ 32 := by
  have := m.params.created_le m.shmMapper.attempts
  have blocks := m.params.blocks_pos
  rw [← show m.shmMapper.numBuffers = _ from counted] at this
  have le : m.totalNumSlabs ≤ m.shmMapper.numBuffers * (m.params.slabsPerBuf * m.params.blocksPerSlab) := by
    rw [totalNumSlabs, ← Nat.mul_assoc, Nat.mul_comm m.shmMapper.numBuffers]
    exact Nat.le_mul_of_pos_right _ blocks
  omega

theorem Fitted.buffers_le (h : m.Fitted) : m.slabManager.numBuffers ≤ m.shmMapper.numBuffers := by
  have total := h.total
  rw [SlabManager.numSlabs, h.perBuf] at total
  exact Nat.le_of_mul_le_mul_left total m.params.slabs_pos

theorem Books.grown (h : m.Books t) (absent : t.absent = [])
    (idle : t.settled = true → m.slabRqstManager.numRequests = 0) {shm : ShmMapper}
    (counted : shm.Counted m.params) (more : m.shmMapper.numBuffers ≤ shm.numBuffers)
    (refitted : (m.grownTo shm.numBuffers shm).Refitted m')
    (resized : (m.grownTo shm.numBuffers shm).Resized m.clients m') : m'.Books t := by
  have mapped := h.fitted.mapped counted more
  have clients : m'.clients = m.clients := resized.clients
  have slabs : m'.slabManager = m.slabManager.setNumBuffers shm.numBuffers := resized.slabs
  have info : m'.slabManager.info = m.slabManager.info := by
    rw [slabs]
    exact h.sound.partition.info_setNumBuffers _
  have fits : m'.slabManager.numSlabs = m'.totalNumSlabs := by
    rw [SlabManager.numSlabs, totalNumSlabs, slabs, SlabManager.slabsPerBuf_setNumBuffers,
      numBuffers_setNumBuffers, h.fitted.perBuf, resized.params, resized.shm]
    rw [max_eq_right (h.fitted.buffers_le.trans more)]
    rfl
  have total : m'.totalNumSlabs = (m.grownTo shm.numBuffers shm).totalNumSlabs := by
    rw [totalNumSlabs, totalNumSlabs, refitted.params, refitted.shm]
  have grown (c : Nat) (live : c ∈ m.clients) := refitted.trackers c (h.trackers c live)
    (mapped.trackers c live).2 (ShmMapper.totalNumSlabs_lt mapped.counted)
  have refs : m'.refs = m.refs := by
    funext s
    rw [Manager.refs, Manager.refs, clients]
    apply congrArg
    apply List.map_congr_left
    intro c live
    exact congrFun (grown c live).2.2 s
  have queued : m'.queued = m.queued := by
    rw [Manager.queued, Manager.queued, clients]
    simp only [refitted.queues]
    rfl
  constructor
  case nodup => exact clients ▸ h.nodup
  case fitted =>
    constructor
    case counted =>
      rw [refitted.params, refitted.shm]
      exact counted
    case perBuf =>
      rw [slabs, SlabManager.slabsPerBuf_setNumBuffers, refitted.params]
      exact h.fitted.perBuf
    case total => exact fits.le
    case trackers =>
      intro c live
      rw [resized.listed c (clients ▸ live), fits, total]
      exact ⟨le_rfl, le_rfl⟩
  case sound =>
    rw [slabs]
    exact h.sound.setNumBuffers _
  case requests =>
    rw [refitted.requests]
    exact h.requests
  case trackers =>
    intro c live
    exact (grown c (clients ▸ live)).1
  case held =>
    rw [info, refs]
    exact h.held
  case wanted =>
    simp only [info, queued, ofSlab, blocksPerSlab, refitted.params]
    exact h.wanted
  case owners =>
    simp only [clients, refitted.queues]
    exact h.owners
  case firm =>
    rw [info]
    exact h.firm
  case live =>
    rw [clients]
    exact h.live
  case absent =>
    rw [absent]
    intro _ mem
    cases mem
  case settled =>
    intro settled
    left
    rw [refitted.requests]
    exact idle settled

/-- No request waits, or a reservation is not going to add a buffer. -/
def NoneLeftWaiting (m : Manager) (n : Nat) : Prop :=
  m.slabRqstManager.numRequests = 0 ∨ m.slabManager.getSlabReservation n ≠ none ∨
    ¬ m.CanGrowTo (m.shmMapper.numBuffers + 1)

instance (m : Manager) (n : Nat) : Decidable (m.NoneLeftWaiting n) :=
  inferInstanceAs (Decidable (_ ∨ _ ∨ _))

theorem Books.increaseNumBuffers (h : m.Books t) (absent : t.absent = [])
    (idle : t.settled = true → m.slabRqstManager.numRequests = 0 ∨
      ¬ m.CanGrowTo (m.shmMapper.numBuffers + 1)) :
    wp (increaseNumBuffers 0) m (fun _ m' => m'.Books t ∧
      (m' = m ∨ (t.settled = true → m'.slabRqstManager.numRequests = 0)))
      (fun _ m' => m'.Books t) := by
  apply wp_increaseNumBuffers_cases
  case still =>
    intro _ _
    exact ⟨h, .inl rfl⟩
  case fails =>
    rintro k shm _ ⟨j, lt, made, all, fails, rfl⟩ what
    apply h.mapped
    · exact CreationFails.counted ⟨j, lt, made, all, fails, rfl⟩ h.fitted.counted
    · exact all.1.symm ▸ Nat.le_add_right _ _
  case unlocked =>
    intro k shm _ all _ what
    apply h.mapped (all.counted h.fitted.counted)
    exact all.1.symm ▸ Nat.le_add_right _ _
  case grown =>
    intro k shm tries all allowed
    have can := (canGrowTo_iff tries all).mpr allowed
    rw [tries.one] at can
    have idle (settled : t.settled = true) : m.slabRqstManager.numRequests = 0 :=
      (idle settled).resolve_right (not_not.mpr can)
    rw [← all.1]
    have resized := wp_resizeAll m.clients (m.grownTo shm.numBuffers shm)
    apply wp_mono (wp_and resized (wp_checkAllBufferParams_refitted m.clients _))
    · rintro _ m' ⟨resized, refitted⟩
      constructor
      · apply h.grown absent idle (all.counted h.fitted.counted) _ refitted resized
        exact all.1.symm ▸ Nat.le_add_right _ _
      · right
        intro settled
        rw [refitted.requests]
        exact idle settled
    · intro _ _ both
      exact both.1.elim

theorem Books.reserve (h : m.Books t) (numSlabsReserved : Nat) :
    Books t { m with slabManager := { m.slabManager with numSlabsReserved } } where
  nodup := h.nodup
  fitted := h.fitted.of_sizes rfl rfl rfl rfl rfl
  sound := h.sound.reserve numSlabsReserved
  requests := h.requests
  trackers := h.trackers
  held := h.held
  wanted := h.wanted
  owners := h.owners
  firm := h.firm
  live := h.live
  absent := h.absent
  settled := h.settled

theorem Books.reserveLoop (h : m.Books t) (absent : t.absent = []) (n fuel : Nat)
    (idle : t.settled = true → m.NoneLeftWaiting n) :
    wp (reserveLoop n fuel) m (fun _ m' => m'.Books t) (fun _ m' => m'.Books t) := by
  induction fuel generalizing m with
  | zero => exact h
  | succ fuel ih =>
    rw [Mcsb.reserveLoop, wp_bind, wp_get]
    split
    · rename_i slabManager granted
      obtain ⟨numSlabsReserved, rfl⟩ := SlabManager.getSlabReservation_eq granted
      exact h.reserve numSlabsReserved
    · rename_i denied
      rw [wp_bind]
      apply wp_mono (h.increaseNumBuffers absent _)
      · rintro grown m' ⟨books, waiting⟩
        cases grown with
        | true =>
          apply ih books
          intro settled
          rcases waiting with rfl | none
          · exact idle settled
          · exact .inl (none settled)
        | false => exact books
      · intro _ _
        exact id
      · intro settled
        exact (idle settled).imp_right (·.resolve_left (not_not.mpr denied))

/-- What a client was granted does not matter to the books. -/
theorem Books.regrant (h : m.Books t) (live : c ∈ m.clients) (numProdSlabs numConsSlabs : Nat) :
    (m.setProxy c { m.proxy c with
      slabs := { (m.proxy c).slabs with numProdSlabs, numConsSlabs } }).Books t := by
  have ok := h.trackers c live
  apply h.setProxy live
  case ok => exact ⟨ok.total, ok.small, ok.prodHeld, ok.consHeld, ok.consSmall, ok.outside⟩
  case owner => exact h.owners c live
  case same => exact ⟨rfl, rfl, rfl, rfl⟩
  case queue => exact List.Perm.refl _
  case balance =>
    intro s
    rfl

theorem Books.grantNumSlabs (h : m.Books t) (absent : t.absent = []) (live : c ∈ t.live)
    (prodSlbs consSlbs : UInt32) (sockoptOK : Bool)
    (idle : t.settled = true → m.NoneLeftWaiting (m.increaseAsked c prodSlbs consSlbs)) :
    wp (grantNumSlabs c prodSlbs consSlbs sockoptOK) m (fun _ m' => m'.Books t)
      (fun _ m' => m'.Books t) := by
  unfold Mcsb.grantNumSlabs
  apply wp_bind.mpr
  apply wp_getProxy.mpr
  apply wp_bind.mpr
  unfold getSlabReservation
  apply wp_bind.mpr
  apply wp_get.mpr
  apply wp_mono (h.reserveLoop absent _ _ idle)
  · intro granted m' books
    cases granted with
    | true =>
      rw [if_pos rfl]
      apply wp_bind.mpr
      apply wp_modifyProxy.mpr
      exact Moves.wp_stays (books.regrant (books.live c live) _ _)
    | false =>
      rw [if_neg Bool.false_ne_true]
      exact Moves.wp_stays books
  · intro _ _
    exact id

theorem Books.handleNumSlabs {settled : Bool} (h : m.Books (Manager.resting settled))
    (live : c ∈ m.clients) (prodSlbs consSlbs : UInt32) (sockoptOK : Bool)
    (idle : settled = true → m.NoneLeftWaiting (m.increaseAsked c prodSlbs consSlbs)) :
    Balanced (Manager.resting settled) (handleNumSlabs c prodSlbs consSlbs sockoptOK) m := by
  apply Balanced.resting (t := { live := [c], settled })
  · rw [Mcsb.handleNumSlabs]
    apply wp_bind.mpr
    apply wp_mono ((h.serving live).grantNumSlabs rfl (List.mem_singleton_self c) _ _ _ idle)
    · intro _ m' books
      apply books.fillProducerSlabs
      · exact fun _ => rfl
      · rfl
      · exact List.mem_singleton_self c
    · intro _ m' books
      exact .inr books
  · exact fun _ => rfl
  · rfl

/-! ## Clients leave -/

/-- What a client leaves behind when it is taken out of the map. -/
def left (m : Manager) (c : Nat) (settled : Bool) : Transit :=
  { surplus := (m.proxy c).slabs.refs
    rest := (m.proxy c).wantedQueue
    absent := [(c, m.holdings c)]
    settled }

theorem Books.leave {settled : Bool} (h : m.Books (Manager.resting settled))
    (live : c ∈ m.clients) :
    Books (m.left c settled) { m with clients := m.clients.erase c } where
  nodup := h.nodup.erase c
  fitted := by
    constructor
    · exact h.fitted.counted
    · exact h.fitted.perBuf
    · exact h.fitted.total
    · exact fun x mem => h.fitted.trackers x (List.mem_of_mem_erase mem)
  sound := h.sound
  requests := h.requests
  trackers x mem := h.trackers x (List.mem_of_mem_erase mem)
  held s := by
    have sum := Accounts.sum_erase live fun c => (m.proxy c).slabs.refs s
    have held := h.held s
    rw [Manager.refs] at held
    dsimp only at held
    show (m.slabManager.info s).heldRefcnt + 0 =
      ((m.clients.erase c).map fun c => (m.proxy c).slabs.refs s).sum + (m.proxy c).slabs.refs s
    omega
  wanted s := by
    have perm := Accounts.flatMap_erase live fun c => (m.proxy c).wantedQueue
    apply (h.wanted s).trans
    rw [show (Manager.resting settled).rest = [] from rfl, List.append_nil]
    exact perm.symm.filter _
  owners x mem := h.owners x (List.mem_of_mem_erase mem)
  firm _ mem := by cases mem
  live _ mem := by cases mem
  absent d mem := by
    rw [List.mem_singleton.mp mem]
    exact ⟨h.nodup.not_mem_erase, rfl⟩
  settled := h.settled

/-- A proxy that is not in the map changes. -/
theorem Books.setAbsent {had : SlabTracker × List WantedSegment} (h : m.Books t)
    (absent : t.absent = [(c, had)]) (p : ClientProxy) :
    (m.setProxy c p).Books { t with absent := [(c, (p.slabs, p.wantedQueue))] } := by
  have gone : c ∉ m.clients := (h.absent (c, had) (absent ▸ List.mem_singleton_self _)).1
  have others (x : Nat) (live : x ∈ m.clients) : (m.setProxy c p).proxy x = m.proxy x :=
    proxy_setProxy_of_ne _ (ne_of_mem_of_not_mem live gone) _
  have refs : (m.setProxy c p).refs = m.refs := by
    funext s
    apply congrArg List.sum
    apply List.map_congr_left
    intro x live
    rw [others x live]
  have queued : (m.setProxy c p).queued = m.queued := by
    apply List.flatMap_congr
    intro x live
    rw [others x live]
  constructor
  case nodup => exact h.nodup
  case fitted =>
    constructor
    · exact h.fitted.counted
    · exact h.fitted.perBuf
    · exact h.fitted.total
    · intro x live
      rw [tracked, others x live]
      exact h.fitted.trackers x live
  case sound => exact h.sound
  case requests => exact h.requests
  case trackers =>
    intro x live
    rw [tracked, others x live]
    exact h.trackers x live
  case held =>
    rw [refs]
    exact h.held
  case wanted =>
    rw [queued]
    exact h.wanted
  case owners =>
    intro x live
    rw [others x live]
    exact h.owners x live
  case firm => exact h.firm
  case live => exact h.live
  case absent =>
    intro d mem
    rw [List.mem_singleton.mp mem]
    refine ⟨gone, ?_⟩
    rw [holdings, proxy_setProxy]
  case settled => exact h.settled

theorem Books.holds {had : SlabTracker × List WantedSegment} (h : m.Books t)
    (absent : t.absent = [(c, had)]) : m.holdings c = had :=
  (h.absent (c, had) (absent ▸ List.mem_singleton_self _)).2

theorem Books.releaseQueue {tracker : SlabTracker} (owed : ∀ s, t.owed s = 0)
    (queue : List WantedSegment) (had : List WantedSegment)
    (h : m.Books { t with rest := queue, absent := [(c, tracker, had)] }) :
    wp (releaseQueue c queue) m
      (fun _ m' => ∃ had, m'.Books { t with rest := [], absent := [(c, tracker, had)] })
      (fun _ _ => False) := by
  induction queue generalizing m had with
  | nil => exact ⟨had, h⟩
  | cons seg queue ih =>
    rw [Mcsb.releaseQueue, wp_bind, wp_modifyProxy, wp_bind]
    have kept := h.setAbsent rfl { m.proxy c with wantedQueue := queue }
    rw [show (m.proxy c).slabs = tracker from congrArg Prod.fst (h.holds rfl)] at kept
    apply wp_mono
    · apply Books.releaseWantedSegment
        (t := { t with rest := queue, absent := [(c, tracker, queue)] })
      · exact kept
      · exact owed
    · intro _ m' books
      exact ih queue books
    · intro _ _
      exact id

theorem due_prodSlabs {tracker : SlabTracker} {n : Nat} (ok : tracker.OK n) (s : Nat) :
    due (tracker.prodSlabs.map (·, 1)) s = if tracker.prodSlabRefcnt s then 1 else 0 := by
  rw [due_ones]
  by_cases held : tracker.prodSlabRefcnt s = true
  · rw [if_pos held]
    exact List.count_eq_one_of_mem tracker.prodSlabs_nodup (ok.mem_prodSlabs.mpr held)
  · rw [if_neg held]
    exact List.count_eq_zero_of_not_mem fun mem => held (ok.mem_prodSlabs.mp mem)

theorem due_of_nodup {slabIDs : List Nat} (nodup : slabIDs.Nodup) (count : Nat → Nat) (s : Nat) :
    due (slabIDs.map fun s => (s, count s)) s = if s ∈ slabIDs then count s else 0 := by
  induction slabIDs with
  | nil => rfl
  | cons x slabIDs ih =>
    obtain ⟨notin, nodup⟩ := List.nodup_cons.mp nodup
    have rest := ih nodup
    have first : due ((x :: slabIDs).map fun s => (s, count s)) s =
        (if s = x then count x else 0) + due (slabIDs.map fun s => (s, count s)) s := rfl
    rw [first, rest]
    by_cases here : s = x
    · rw [here, if_pos rfl, if_neg notin, if_pos List.mem_cons_self]
      rfl
    · rw [if_neg here, Nat.zero_add]
      apply if_congr _ rfl rfl
      rw [List.mem_cons, or_iff_right here]

theorem due_consSlabs {tracker : SlabTracker} {n : Nat} (ok : tracker.OK n) (s : Nat) :
    due (tracker.consSlabs.map fun s => (s, tracker.consSlabRefcnt s)) s =
      tracker.consSlabRefcnt s := by
  rw [due_of_nodup tracker.consSlabs_nodup]
  by_cases held : tracker.consSlabRefcnt s = 0
  · rw [held, ite_self]
  · rw [if_pos (ok.mem_consSlabs.mpr held)]

/-- Errors would be printed, but there are none. -/
theorem Books.swallow_decrement (slabs : List (Nat × Nat))
    (h : m.Books { t with surplus := fun s => t.surplus s + due slabs s })
    (owed : ∀ s, t.owed s = 0) (firm : t.firm = []) (pos : ∀ slab ∈ slabs, 0 < slab.2) :
    wp (swallow (Mcsb.decrementHeldRefcnt slabs)) m (fun _ m' => m'.Books t) (fun _ _ => False) := by
  apply wp_swallow.mpr
  apply wp_mono (h.decrementHeldRefcnt slabs owed firm pos)
  · intro _ _
    exact id
  · intro _ _
    exact False.elim

/-- What is under way while `c`, with what it `had`, is destroyed. -/
abbrev leaving (c : Nat) (surplus : Nat → Nat) (had : SlabTracker × List WantedSegment)
    (settled : Bool) : Transit :=
  { surplus, absent := [(c, had)], settled }

/-- The producer slabs of a client that is destroyed. -/
def giveUpProd (c : Nat) (t : SlabTracker) : Act Unit :=
  if t.prodSlabsHeld ≠ 0 then do
    let prodSlabIDs ← onTracker c (SlabTracker.getAndEraseProdSlabs t.prodSlabsHeld)
    swallow (Mcsb.decrementHeldRefcnt (prodSlabIDs.map (·, 1)))
  else
    pure ()

/-- The consumer slabs of a client that is destroyed. -/
def giveUpCons (c : Nat) (t : SlabTracker) : Act Unit :=
  if t.consSlabsHeld ≠ 0 then do
    let consSlabIDs ← onTracker c (SlabTracker.getAndEraseConsSlabs t.consSlabsHeld)
    swallow (Mcsb.decrementHeldRefcnt consSlabIDs)
  else
    pure ()

theorem giveUpSlabs_eq (c : Nat) : giveUpSlabs c = (do
    Mcsb.releaseQueue c (← getProxy c).wantedQueue
    let t := (← getProxy c).slabs
    modify fun m => { m with slabManager :=
      m.slabManager.releaseSlabReservation ((t.numProdSlabs + t.numConsSlabs) % 2 ^ 32) }
    giveUpProd c t
    giveUpCons c t) := by
  unfold giveUpSlabs giveUpProd giveUpCons
  apply bind_congr
  intro p
  apply bind_congr
  intro _
  apply bind_congr
  intro p
  apply bind_congr
  intro _
  by_cases none : p.slabs.prodSlabsHeld = 0
  · simp [none]
  · simp [none]

theorem Books.releaseProd {settled : Bool} {tracker : SlabTracker} {had : List WantedSegment}
    {n : Nat} (ok : tracker.OK n) (h : m.Books (leaving c tracker.refs (tracker, had) settled)) :
    wp (giveUpProd c tracker) m
      (fun _ m' => ∃ t', t'.consSlabRefcnt = tracker.consSlabRefcnt ∧
        t'.consSlabsHeld = tracker.consSlabsHeld ∧ t'.totalNumSlabs = tracker.totalNumSlabs ∧
        m'.Books (leaving c tracker.consSlabRefcnt (t', had) settled)) (fun _ _ => False) := by
  have total : tracker.refs = fun s =>
      tracker.consSlabRefcnt s + due (tracker.prodSlabs.map (·, 1)) s := by
    funext s
    rw [due_prodSlabs ok, SlabTracker.refs, Nat.add_comm]
  unfold giveUpProd
  split
  · rw [wp_bind, wp_onTracker]
    rw [show (m.proxy c).slabs = tracker from congrArg Prod.fst (h.holds rfl)]
    apply SlabTracker.getAndEraseProdSlabs_all ok
    intro t' cons held same
    have given := h.setAbsent rfl { m.proxy c with slabs := t' }
    rw [show (m.proxy c).wantedQueue = had from congrArg Prod.snd (h.holds rfl)] at given
    apply wp_mono
    · apply Books.swallow_decrement (t := leaving c tracker.consSlabRefcnt (t', had) settled)
      · rw [total] at given
        exact given
      · exact fun _ => rfl
      · rfl
      · exact ones_pos
    · intro _ m' books
      exact ⟨t', cons, held, same, books⟩
    · intro _ _
      exact id
  · rename_i none
    have empty : tracker.prodSlabs = [] := by
      rw [← List.length_eq_zero_iff, ok.prodSlabs_length]
      exact not_not.mp none
    refine ⟨tracker, rfl, rfl, rfl, ?_⟩
    rw [total, empty] at h
    exact h

theorem Books.releaseCons {settled : Bool} {tracker t' : SlabTracker} {had : List WantedSegment}
    {n : Nat} (ok : tracker.OK n) (cons : t'.consSlabRefcnt = tracker.consSlabRefcnt)
    (held : t'.consSlabsHeld = tracker.consSlabsHeld)
    (same : t'.totalNumSlabs = tracker.totalNumSlabs)
    (h : m.Books (leaving c tracker.consSlabRefcnt (t', had) settled)) :
    wp (giveUpCons c tracker) m (fun _ m' => m'.Books (Manager.resting settled)) (fun _ _ => False) := by
  have slabs : t'.consSlabs = tracker.consSlabs := by
    rw [SlabTracker.consSlabs, SlabTracker.consSlabs, same, cons]
  have total : tracker.consSlabRefcnt = fun s =>
      0 + due (tracker.consSlabs.map fun s => (s, tracker.consSlabRefcnt s)) s := by
    funext s
    rw [due_consSlabs ok, Nat.zero_add]
  unfold giveUpCons
  split
  · rw [wp_bind, wp_onTracker, ← held]
    rw [show (m.proxy c).slabs = t' from congrArg Prod.fst (h.holds rfl)]
    apply SlabTracker.getAndEraseConsSlabs_all
    · rw [slabs, held]
      exact ok.consOK.consSlabs_length
    · intro t''
      have given := h.setAbsent rfl { m.proxy c with slabs := t'' }
      rw [slabs, cons]
      apply wp_mono
      · apply Books.swallow_decrement
          (t := leaving c (fun _ => 0) (t'', (m.proxy c).wantedQueue) settled)
        · rw [total] at given
          exact given
        · exact fun _ => rfl
        · rfl
        · intro slab mem
          obtain ⟨s, here, rfl⟩ := List.mem_map.mp mem
          exact Nat.pos_of_ne_zero (ok.mem_consSlabs.mp here)
      · intro _ m' books
        exact books.resting (fun _ => rfl) rfl
      · intro _ _
        exact id
  · rename_i none
    have empty : tracker.consSlabs = [] := by
      rw [← List.length_eq_zero_iff, ok.consOK.consSlabs_length]
      exact not_not.mp none
    rw [total, empty] at h
    exact h.resting (fun _ => rfl) rfl

theorem Books.giveUpSlabs {settled : Bool} {tracker : SlabTracker} {queue : List WantedSegment}
    {n : Nat} (ok : tracker.OK n)
    (h : m.Books
      { surplus := tracker.refs, rest := queue, absent := [(c, tracker, queue)], settled }) :
    wp (giveUpSlabs c) m (fun _ m' => m'.Books (Manager.resting settled)) (fun _ _ => False) := by
  rw [giveUpSlabs_eq, wp_bind, wp_getProxy, wp_bind]
  rw [show (m.proxy c).wantedQueue = queue from congrArg Prod.snd (h.holds rfl)]
  apply wp_mono
  · apply Books.releaseQueue (t := { surplus := tracker.refs, settled }) (fun _ => rfl) queue queue
    exact h
  · rintro _ m₁ ⟨had, books⟩
    apply wp_bind.mpr
    apply wp_getProxy.mpr
    rw [show (m₁.proxy c).slabs = tracker from congrArg Prod.fst (books.holds rfl)]
    apply wp_bind.mpr
    apply wp_modify.mpr
    obtain ⟨numSlabsReserved, eq⟩ := m₁.slabManager.release_eq
      ((tracker.numProdSlabs + tracker.numConsSlabs) % 2 ^ 32)
    rw [eq]
    apply wp_bind.mpr
    apply wp_mono (Books.releaseProd ok (books.reserve numSlabsReserved))
    · rintro _ m₂ ⟨t', cons, held, same, books⟩
      apply wp_mono (Books.releaseCons ok cons held same books)
      · intro _ _
        exact id
      · intro _ _
        exact False.elim
    · intro _ _
      exact id
  · intro _ _
    exact id

theorem Books.deleteClient {settled : Bool} (h : m.Books (Manager.resting settled))
    (live : c ∈ m.clients) :
    wp (deleteClient c) m (fun _ m' => m'.Books (Manager.resting settled)) (fun _ _ => True) := by
  rw [wp_deleteClient, destroyProxy_eq, wp_bind]
  apply wp_mono ((h.leave live).giveUpSlabs (h.trackers c live))
  · intro _ m' books
    apply wp_mono (Moves.wp_stays books)
    · intro _ _
      exact id
    · intro _ _ _
      trivial
  · intro _ _
    exact False.elim

/-! ## Clients come -/

theorem Books.aside (h : m.Books t) (new : c ∉ m.clients) :
    m.Books { t with absent := [(c, m.holdings c)] } where
  nodup := h.nodup
  fitted := h.fitted
  sound := h.sound
  requests := h.requests
  trackers := h.trackers
  held := h.held
  wanted := h.wanted
  owners := h.owners
  firm := h.firm
  live := h.live
  absent d mem := by
    rw [List.mem_singleton.mp mem]
    exact ⟨new, rfl⟩
  settled := h.settled

/-- A proxy is made for an ID that is not in the map. -/
theorem Books.newProxy {settled : Bool} (h : m.Books (Manager.resting settled))
    (new : c ∉ m.clients) (next : Nat) (p : ClientProxy) :
    Books (leaving c (fun _ => 0) (p.slabs, p.wantedQueue) settled)
      (Manager.setProxy { m with nextNewClientID := next } c p) := by
  have moved : Books (Manager.resting settled) { m with nextNewClientID := next } :=
    h.of_holdings rfl rfl rfl rfl rfl rfl
  exact (moved.aside new).setAbsent rfl p

/-- The new tracker gets an entry for each slab there is. -/
theorem Books.checkNew {settled : Bool}
    (h : m.Books (leaving c (fun _ => 0) ({}, []) settled)) :
    wp (checkBufferParams c) m (fun _ m' => ∃ n, m'.slabManager.numSlabs ≤ n ∧
      n ≤ m'.totalNumSlabs ∧
      m'.Books (leaving c (fun _ => 0) (SlabTracker.setTotalNumSlabs {} n, []) settled))
      (fun _ _ => False) := by
  simp only [checkBufferParams, wp_bind, wp_get, wp_modifyProxy, sendCtrl]
  apply wp_swallow_sendOn
  rw [setProxy_setProxy, proxy_setProxy]
  have fresh : m.holdings c = ({}, []) := h.holds rfl
  refine ⟨m.totalNumSlabs, h.fitted.total, le_rfl, ?_⟩
  generalize sent : ClientProxy.send _ _ = p
  have same : (p.slabs, p.wantedQueue) = (SlabTracker.setTotalNumSlabs {} m.totalNumSlabs, []) := by
    rw [← sent, ClientProxy.slabs_send, ClientProxy.wantedQueue_send]
    exact congrArg (fun had => (had.1.setTotalNumSlabs m.totalNumSlabs, had.2)) fresh
  have sized := h.setAbsent rfl p
  rw [same] at sized
  exact sized

/-- The client joins the map with nothing. -/
theorem Books.join {settled : Bool} {n : Nat} (all : m.slabManager.numSlabs ≤ n)
    (le : n ≤ m.totalNumSlabs)
    (h : m.Books (leaving c (fun _ => 0) (SlabTracker.setTotalNumSlabs {} n, []) settled)) :
    Books (Manager.resting settled) { m with clients := m.clients.orderedInsert (· ≤ ·) c } := by
  have new : c ∉ m.clients := (h.absent _ (List.mem_singleton_self _)).1
  have fresh : m.holdings c = (SlabTracker.setTotalNumSlabs {} n, []) := h.holds rfl
  have slabs : (m.proxy c).slabs = SlabTracker.setTotalNumSlabs {} n := congrArg Prod.fst fresh
  have queue : (m.proxy c).wantedQueue = [] := congrArg Prod.snd fresh
  have perm := m.clients.perm_orderedInsert (· ≤ ·) c
  have small := ShmMapper.totalNumSlabs_lt h.fitted.counted
  have either {x : Nat} (mem : x ∈ m.clients.orderedInsert (· ≤ ·) c) : x = c ∨ x ∈ m.clients :=
    List.mem_cons.mp (perm.mem_iff.mp mem)
  have ok : (SlabTracker.setTotalNumSlabs {} n).OK n := .fresh (by omega)
  have none (s : Nat) : (SlabTracker.setTotalNumSlabs {} n).refs s = 0 := by
    simp [SlabTracker.refs, SlabTracker.setTotalNumSlabs]
  constructor
  case nodup => exact perm.nodup_iff.mpr (List.nodup_cons.mpr ⟨new, h.nodup⟩)
  case fitted =>
    constructor
    · exact h.fitted.counted
    · exact h.fitted.perBuf
    · exact h.fitted.total
    · intro x mem
      rcases either mem with rfl | before
      · show _ ≤ (m.proxy x).slabs.totalNumSlabs ∧ (m.proxy x).slabs.totalNumSlabs ≤ _
        rw [slabs]
        exact ⟨all, le⟩
      · exact h.fitted.trackers x before
  case sound => exact h.sound
  case requests => exact h.requests
  case trackers =>
    intro x mem
    rcases either mem with rfl | before
    · show (m.proxy x).slabs.OK (m.proxy x).slabs.totalNumSlabs
      rw [slabs]
      exact ok
    · exact h.trackers x before
  case held =>
    intro s
    have held := h.held s
    have sum := (perm.map fun c => (m.proxy c).slabs.refs s).sum_eq
    rw [List.map_cons, List.sum_cons, slabs, none s] at sum
    show _ + 0 = (List.map (fun c => (m.proxy c).slabs.refs s) _).sum + 0
    rw [sum, Nat.zero_add]
    exact held
  case wanted =>
    intro s
    apply (h.wanted s).trans
    have moved := perm.flatMap_right fun c => (m.proxy c).wantedQueue
    rw [List.flatMap_cons, queue, List.nil_append] at moved
    exact (moved.symm.append_right []).filter _
  case owners =>
    intro x mem
    rcases either mem with rfl | before
    · show ∀ seg ∈ (m.proxy x).wantedQueue, _
      rw [queue]
      intro _ mem
      cases mem
    · exact h.owners x before
  case firm =>
    intro _ mem
    cases mem
  case live =>
    intro _ mem
    cases mem
  case absent =>
    intro _ mem
    cases mem
  case settled => exact h.settled

/-- A new client has asked for no slabs yet. -/
theorem Books.fillNew {settled : Bool} {n : Nat}
    (h : m.Books (leaving c (fun _ => 0) (SlabTracker.setTotalNumSlabs {} n, []) settled)) :
    wp (Mcsb.fillProducerSlabs c) m (fun _ m' => m' = m) (fun _ _ => False) := by
  have slabs : (m.proxy c).slabs = SlabTracker.setTotalNumSlabs {} n :=
    congrArg Prod.fst (h.holds rfl)
  have none : (m.proxy c).slabs.prodSlabsNeeded ≤ (m.proxy c).pendingFreeSlabRqsts := by
    rw [slabs]
    exact Nat.zero_le _
  rw [Mcsb.fillProducerSlabs, wp_bind, wp_getProxy, if_pos none]
  exact rfl

theorem Books.addConnectedClient {settled : Bool} (h : m.Books (Manager.resting settled))
    (addr : Nat) (accepts : Nat → Bool) :
    wp (addConnectedClient addr accepts) m (fun _ m' => m'.Books (Manager.resting settled))
      (fun _ _ => True) := by
  have drop {c : Nat} {m' : Manager} {had : SlabTracker × List WantedSegment}
      (books : m'.Books (leaving c (fun _ => 0) had settled)) :
      m'.Books (Manager.resting settled) := books.resting (fun _ => rfl) rfl
  have joins (c : Nat) (m₁ : Manager)
      (books : m₁.Books (leaving c (fun _ => 0) ({}, []) settled)) : wp (do
        checkBufferParams c
        Mcsb.fillProducerSlabs c
        modify fun m => { m with clients := m.clients.orderedInsert (· ≤ ·) c }) m₁
        (fun _ m' => m'.Books (Manager.resting settled))
        (fun _ m' => m'.Books (Manager.resting settled)) := by
    apply wp_bind.mpr
    apply wp_mono books.checkNew
    · rintro _ m₂ ⟨n, all, le, sized⟩
      apply wp_bind.mpr
      apply wp_mono sized.fillNew
      · rintro _ _ rfl
        exact Books.join all le sized
      · intro _ _
        exact False.elim
    · intro _ _
      exact False.elim
  have sends (c : Nat) (call : HandlerCall) (k : Act Unit)
      (rest : ∀ m', m'.Books (leaving c (fun _ => 0) ({}, []) settled) →
        wp k m' (fun _ m' => m'.Books (Manager.resting settled))
          (fun _ m' => m'.Books (Manager.resting settled))) (m₁ : Manager)
      (books : m₁.Books (leaving c (fun _ => 0) ({}, []) settled)) :
      wp (sendCtrl c call >>= fun _ => k) m₁ (fun _ m' => m'.Books (Manager.resting settled))
        (fun _ m' => m'.Books (Manager.resting settled)) := by
    apply wp_bind.mpr
    apply wp_mono (Moves.wp_stays books)
    · intro _ m' sent
      exact rest m' sent
    · intro _ m' sent
      exact drop sent
  rw [Mcsb.addConnectedClient, wp_bind, wp_get, wp_ite]
  split
  · exact h
  · rw [wp_bind]
    apply wp_mono (Gentle.wp_getNewClientID _ m)
    · rintro c _ ⟨new, next, rfl, -⟩
      rw [wp_bind, wp_modify]
      apply wp_swallow.mpr
      have made := h.newProxy new next { clientID := c, addr, sock := { accepts } }
      apply wp_mono (sends c _ _ (sends c _ _ (joins c)) _ made)
      · intro _ _
        exact id
      · intro e m' books
        cases e with
        | runtimeError what => exact books
        | stuck => trivial
    · intro _ _ _
      trivial

end

end Manager

/-! ## Runs -/

/-- What a client of this library sends: IDs in range, a batch of slabs without
repetition, and segments in slabs that it holds. -/
def Event.Honest (m : Manager) : Event → Prop
  | .frame _ (.blockIDs ids) => ∀ b ∈ ids, b < m.totalNumBlocks
  | .frame _ (.slabIDs ids) => ids.Nodup ∧ ∀ s ∈ ids, s < m.totalNumSlabs
  | .frame c (.blocksAndInfo segs) =>
    ∀ s ∈ m.slabsOf segs, (m.proxy c).slabs.prodSlabRefcnt s = true
  | _ => True

instance (m : Manager) : DecidablePred (Event.Honest m) := fun e => by
  unfold Event.Honest
  split <;> infer_instance

/-- A frame of segments names slabs that its sender holds. -/
def Event.Owning (m : Manager) : Event → Prop
  | .frame c (.blocksAndInfo segs) =>
    ∀ s ∈ m.slabsOf segs, (m.proxy c).slabs.prodSlabRefcnt s = true
  | _ => True

instance (m : Manager) : DecidablePred (Event.Owning m) := fun e => by
  unfold Event.Owning
  split <;> infer_instance

/-- A batch of slabs that is not refused names no slab twice. -/
def Event.ListsOnce (m : Manager) : Event → Prop
  | .frame c (.slabIDs ids) => ids.Nodup ∨ (m.proxy c).slabs.Refused ids
  | _ => True

instance (m : Manager) : DecidablePred (Event.ListsOnce m) := fun e => by
  unfold Event.ListsOnce
  split <;> infer_instance

theorem Event.Honest.owning {m : Manager} {e : Event} (honest : e.Honest m) : e.Owning m := by
  cases e with
  | connect => trivial
  | hangup => trivial
  | frame c f =>
    cases f with
    | blocksAndInfo segs => exact honest
    | _ => trivial

theorem Event.Honest.listsOnce {m : Manager} {e : Event} (honest : e.Honest m) : e.ListsOnce m := by
  cases e with
  | connect => trivial
  | hangup => trivial
  | frame c f =>
    cases f with
    | slabIDs ids => exact .inl honest.1
    | _ => trivial

/-- No buffer is added while a request waits. -/
def Event.LeavesNoneWaiting (m : Manager) : Event → Prop
  | .frame c (.numSlabs prodSlbs consSlbs _) =>
    m.NoneLeftWaiting (m.increaseAsked c prodSlbs consSlbs)
  | _ => True

instance (m : Manager) : DecidablePred (Event.LeavesNoneWaiting m) := fun e => by
  cases e with
  | connect => exact instDecidableTrue
  | hangup => exact instDecidableTrue
  | frame c f =>
    cases f with
    | numSlabs prodSlbs consSlbs =>
      exact inferInstanceAs (Decidable (m.NoneLeftWaiting (m.increaseAsked c prodSlbs consSlbs)))
    | _ => exact instDecidableTrue

namespace Manager

section
variable {m : Manager} {settled : Bool}

theorem Books.handle (h : m.Books (Manager.resting settled)) {c : Nat} {f : Frame}
    (live : c ∈ m.clients) (owning : (Event.frame c f).Owning m)
    (once : (Event.frame c f).ListsOnce m)
    (idle : settled = true → (Event.frame c f).LeavesNoneWaiting m) :
    Balanced (Manager.resting settled) (f.handle c) m := by
  cases f with
  | blockIDs ids => exact h.handleBlockIDs live ids
  | slabIDs ids => exact h.handleSlabIDs live once
  | blocksAndInfo segs => exact h.handleBlocksAndInfo live owning
  | numSlabs prod cons ok => exact h.handleNumSlabs live prod cons ok idle
  | registration type cid gid msgIDs =>
    exact .of_wp (Moves.wp_stays (x := handleRegistration c type cid gid msgIDs) h)
  | registrationsWanted new current =>
    exact .of_wp (Moves.wp_stays (x := handleRegistrationsWanted c new current) h)
  | dropReportAck => exact .of_wp (Moves.wp_stays (x := handleDropReportAck c) h)
  | prodNiceLevel n =>
    exact .of_wp (Moves.wp_stays (x := modifyProxy c fun p =>
      { p with prodNiceLevel := n.toInt.bmod (2 ^ 8) }) h)
  | managerEcho bytes => exact .of_wp (Moves.wp_stays (x := sendCtrl c (.managerEcho bytes)) h)
  | sequenceToken token =>
    exact .of_wp (Moves.wp_stays (x := sendCtrl c (.sequenceToken token)) h)
  | groupID id =>
    exact .of_wp (Moves.wp_stays (x := modifyProxy c fun p => { p with groupID := id }) h)
  | groupIDStr str => exact .of_wp (Moves.wp_stays (x := handleGroupIDStr c str) h)
  | invalid => exact .of_wp (Moves.wp_stays (x := fail "peer protocol error") h)
  | ignored => exact .inr h

/-- A count that was at its limit stays so. -/
theorem AtLimit.run (limited : m.AtLimit) (e : Event) :
    wp e.run m (fun _ m' => m'.AtLimit) (fun _ _ => True) := by
  have delete (c : Nat) (m : Manager) (limited : m.AtLimit) :
      wp (deleteClient c) m (fun _ m' => m'.AtLimit) (fun _ _ => True) := by
    apply wp_deleteClient.mpr
    apply wp_mono (Moves.wp_stays (show AtLimit { m with clients := m.clients.erase c } from limited))
    · intro _ _
      exact id
    · intro _ _ _
      trivial
  cases e with
  | connect addr accepts =>
    apply Gentle.wp_addConnectedClient (R := Stays AtLimit) limited
    intro c next m' _ stays
    exact ⟨stays limited, stays limited⟩
  | hangup c => exact delete c m limited
  | frame c f =>
    have moves : Moves (Stays AtLimit) (f.handle c) := by
      apply Gentle.moves_handle
      · intro type cid gid msgIDs _
        infer_instance
      · intro new current _
        infer_instance
      · intro level _
        infer_instance
    apply wp_run_frame.mpr
    apply wp_mono (Moves.wp_stays limited)
    · intro _ _
      exact id
    · intro e m' limited
      cases e with
      | runtimeError what => exact delete c m' limited
      | stuck => trivial

/-- Every event that the library's clients can cause keeps the books. -/
theorem Books.run (h : m.Books (Manager.resting settled)) {e : Event} (enabled : e.Enabled m)
    (owning : e.Owning m) (once : e.ListsOnce m) (idle : settled = true → e.LeavesNoneWaiting m) :
    wp e.run m (fun _ m' => m'.Kept (Manager.resting settled)) (fun _ _ => True) := by
  have delete (c : Nat) (m : Manager) (live : c ∈ m.clients)
      (kept : m.Kept (Manager.resting settled)) :
      wp (Mcsb.deleteClient c) m (fun _ m' => m'.Kept (Manager.resting settled))
        (fun _ _ => True) := by
    rcases kept with limited | books
    · apply wp_mono (limited.run (.hangup c))
      · intro _ _
        exact .inl
      · intro _ _
        exact id
    · apply wp_mono (books.deleteClient live)
      · intro _ _
        exact .inr
      · intro _ _
        exact id
  cases e with
  | connect addr accepts =>
    apply wp_mono (h.addConnectedClient addr accepts)
    · intro _ _
      exact .inr
    · intro _ _
      exact id
  | hangup c => exact delete c m enabled (.inr h)
  | frame c f =>
    have moves : Moves (Keeps clients) (f.handle c) := by
      apply Gentle.moves_handle
      · intro type cid gid msgIDs _
        infer_instance
      · intro new current _
        infer_instance
      · intro level _
        infer_instance
    apply wp_run_frame.mpr
    apply wp_mono (wp_and (h.handle enabled owning once idle) (moves.moves m))
    · intro _ m' both
      exact both.1
    · intro e m' both
      cases e with
      | runtimeError what =>
        apply delete c m' _ both.1
        rw [show m'.clients = m.clients from both.2]
        exact enabled
      | stuck => trivial

/-- A new slab manager, all of whose buffers are mapped. -/
theorem books_new {params : Params} {slabManager : SlabManager} {shm : ShmMapper}
    (made : slabManager = SlabManager.new params.slabsPerBuf params.numBuffers
      params.pctNonreservable)
    (counted : shm.Counted params) (buffers : shm.numBuffers = params.numBuffers) :
    Books (Manager.resting settled) { params, slabManager, shmMapper := shm } := by
  have empty := SlabManager.sound_empty params.slabsPerBuf params.pctNonreservable params.slabs_pos
  have perBuf : slabManager.slabsPerBuf = params.slabsPerBuf := by
    rw [made]
    exact SlabManager.slabsPerBuf_setNumBuffers ..
  have info (s : Nat) : slabManager.info s = {} := by
    rw [made]
    exact congrFun (empty.partition.info_setNumBuffers _) s
  constructor
  case nodup => exact List.nodup_nil
  case fitted =>
    constructor
    · exact counted
    · exact perBuf
    · show slabManager.slabsPerBuf * slabManager.numBuffers ≤ params.slabsPerBuf * shm.numBuffers
      rw [perBuf, buffers, made, SlabManager.new, numBuffers_setNumBuffers]
      exact (congrArg _ (Nat.zero_max _)).le
    · intro _ mem
      cases mem
  case sound =>
    show slabManager.Sound
    rw [made]
    exact empty.setNumBuffers _
  case requests => exact ⟨rfl, Nat.two_pow_pos 32⟩
  case trackers =>
    intro _ mem
    cases mem
  case held =>
    intro s
    show (slabManager.info s).heldRefcnt + 0 = _
    rw [info]
    rfl
  case wanted =>
    intro s
    show (slabManager.info s).wantedSegs.Perm _
    rw [info]
    exact List.Perm.nil
  case owners =>
    intro _ mem
    cases mem
  case firm =>
    intro _ mem
    cases mem
  case live =>
    intro _ mem
    cases mem
  case absent =>
    intro _ mem
    cases mem
  case settled => exact fun _ => .inl rfl

theorem start_books {params : Params} (fits : params.numBuffers ≤ params.maxNumBuffers)
    (first : start params = some m) : m.Books (Manager.resting settled) := by
  apply start_eq_some (E := fun _ _ => True) _ first
  intro slabManager made
  apply wp_increaseNumBuffers_cases
  case still =>
    intro grown refused
    have none : params.numBuffers = 0 := by
      by_contra some
      rw [show buffersAsked { params, slabManager } params.numBuffers = _ from if_neg some] at refused
      rcases refused with ⟨-, none⟩ | ⟨-, more | fewer⟩
      · exact some none
      · exact absurd fits (Nat.not_le.mpr more)
      · cases fewer
    exact books_new made rfl none.symm
  case fails =>
    intro _ _ _ _ _
    trivial
  case unlocked =>
    intro _ _ _ _ _ _
    trivial
  case grown =>
    intro k shm tries all _
    have asked : buffersAsked { params, slabManager } params.numBuffers = params.numBuffers :=
      if_neg tries.other
    have target : params.numBuffers = 0 + k := asked.symm.trans tries.asked
    have buffers : shm.numBuffers = params.numBuffers := all.1.trans target.symm
    have same : slabManager.setNumBuffers (0 + k) = slabManager := by
      rw [← target]
      apply if_pos
      rw [made, SlabManager.new, numBuffers_setNumBuffers]
      exact Nat.le_max_right _ _
    have books : Books (Manager.resting settled) { params, slabManager, shmMapper := shm } :=
      books_new made (all.counted rfl) buffers
    show Books _ (grownTo { params, slabManager } (0 + k) shm)
    rw [grownTo]
    dsimp only
    rw [same]
    exact books

variable {params : Params} {ok : History → Manager → Event → Prop} {hist : History}

theorem Run.kept (fits : params.numBuffers ≤ params.maxNumBuffers)
    (owning : ∀ hist m e, ok hist m e → e.Owning m)
    (once : ∀ hist m e, ok hist m e → e.ListsOnce m)
    (idle : settled = true → ∀ hist m e, ok hist m e → e.LeavesNoneWaiting m)
    (run : Run params ok hist m) : m.Kept (Manager.resting settled) := by
  induction run with
  | start first => exact .inr (start_books fits first)
  | @step hist m e m' _ enabled fine stepped ih =>
    rcases ih with limited | books
    · exact .inl (step_eq_some (limited.run e) stepped)
    · exact step_eq_some (books.run enabled (owning hist m e fine) (once hist m e fine)
        fun settled => idle settled hist m e fine) stepped

end

/-- The slab manager counts the holders of each slab and lists the segments
queued on it, and keeps every slab and segment record in one place. -/
structure BooksAgree (m : Manager) : Prop where
  held : ∀ s, (m.slabManager.info s).heldRefcnt =
    m.clients.countP (fun c => (m.proxy c).slabs.prodSlabRefcnt s) +
      (m.clients.map fun c => (m.proxy c).slabs.consSlabRefcnt s).sum
  wanted : ∀ s, (m.slabManager.info s).wantedSegs.Perm
    ((m.clients.flatMap fun c => (m.proxy c).wantedQueue).filter (·.blockID / m.blocksPerSlab = s))
  owners : ∀ c ∈ m.clients, ∀ seg ∈ (m.proxy c).wantedQueue, seg.clientID = c
  sound : m.slabManager.Sound

theorem refs_eq (m : Manager) (s : Nat) : m.refs s =
    m.clients.countP (fun c => (m.proxy c).slabs.prodSlabRefcnt s) +
      (m.clients.map fun c => (m.proxy c).slabs.consSlabRefcnt s).sum := by
  unfold refs SlabTracker.refs
  induction m.clients with
  | nil => rfl
  | cons c cs ih =>
    simp only [List.map_cons, List.sum_cons, List.countP_cons, ih]
    omega

theorem Books.agree {m : Manager} (h : m.Books (Manager.resting false)) : m.BooksAgree := by
  constructor
  case held =>
    intro s
    rw [← refs_eq]
    exact h.held s
  case wanted =>
    intro s
    have wanted := h.wanted s
    rw [show (Manager.resting false).rest = [] from rfl, List.append_nil] at wanted
    exact wanted
  case owners => exact h.owners
  case sound => exact h.sound

/-- In every state between events, until a count is at its limit, what the slab
manager counts and lists is what the live clients hold and have queued. -/
theorem books_agree {params : Params} {hist : History} {m : Manager}
    (fits : params.numBuffers ≤ params.maxNumBuffers)
    (run : Run params (fun _ m e => e.Honest m) hist m) (below : ¬ m.AtLimit) :
    m.BooksAgree := by
  have kept : m.Kept (Manager.resting false) :=
    run.kept fits (fun _ _ _ honest => honest.owning) (fun _ _ _ honest => honest.listsOnce)
      fun no => absurd no Bool.false_ne_true
  exact (kept.resolve_left below).agree

/-- A segment with message ID 7. -/
def segmentIn (blockID : Nat) : Segment :=
  { blockID, info := { (default : BlockInfo) with messageID := 7 } }

/-- The second client takes the segment that the first one sends in its slab. -/
def sharedSlab : List Event :=
  [.connect 1 fun _ => true, .connect 2 fun _ => true, .frame 0 (.numSlabs 1 0 true),
    .frame 1 (.numSlabs 0 1 true), .frame 1 (.registration .registerList 1 0 [7]),
    .frame 0 (.blocksAndInfo [segmentIn 0])]

instance (m : Manager) : Decidable m.AtLimit := inferInstanceAs (Decidable (_ ∨ _))

theorem books_agree_sharedSlab : ∃ hist m,
    trace fourSlabs (fun _ m e => e.Honest m) sharedSlab = some (hist, m) ∧
      (m.slabManager.info 0).heldRefcnt = 2 ∧ m.BooksAgree := by
  have ran : (trace fourSlabs (fun _ m e => e.Honest m) sharedSlab).any (fun run =>
      (run.2.slabManager.info 0).heldRefcnt = 2 ∧ ¬ run.2.AtLimit) = true := by
    decide +kernel
  obtain ⟨⟨hist, m⟩, eq, shared⟩ := (Option.any_eq_true _ _).mp ran
  obtain ⟨two, below⟩ := of_decide_eq_true shared
  exact ⟨hist, m, eq, two, books_agree (by decide) (run_of_trace eq) below⟩

/-! ## Free slabs beside waiting requests -/

/-- The slab request manager holds a request of a live client. -/
def Waiting (m : Manager) : Prop :=
  ∃ level ≤ m.slabRqstManager.maxLevel, ∃ req ∈ m.slabRqstManager.requestLists level,
    req.id ∈ m.clients ∧ (m.proxy req.id).addr = req.arg

/-- No slab is free while a live client waits for one. -/
def NoneIdle (m : Manager) : Prop := m.Waiting → m.numFreeSlabs = 0

theorem Settled.noneIdle {m : Manager} (h : m.Settled) (counted : m.slabRqstManager.Counted) :
    m.NoneIdle := by
  rintro ⟨level, le, req, mem, -⟩
  apply h.resolve_left
  intro none
  have one := Accounts.le_sum (List.mem_range.mpr (Nat.lt_succ_of_le le)) fun level =>
    (m.slabRqstManager.requestLists level).length
  rw [← SlabRequestManager.numWaiting, ← counted.eq, none] at one
  exact absurd (List.length_pos_of_mem mem) (Nat.not_lt.mpr one)

/-- As long as no buffer is added while a request waits, no slab is free beside
a waiting client. -/
theorem noneIdle_of_run {params : Params} {hist : History} {m : Manager}
    (fits : params.numBuffers ≤ params.maxNumBuffers)
    (run : Run params (fun _ m e => e.Honest m ∧ e.LeavesNoneWaiting m) hist m)
    (below : ¬ m.AtLimit) : m.NoneIdle := by
  have kept : m.Kept (Manager.resting true) :=
    run.kept fits (fun _ _ _ both => both.1.owning) (fun _ _ _ both => both.1.listsOnce)
      fun _ _ _ _ => And.right
  have books := kept.resolve_left below
  exact (books.settled rfl).noneIdle books.requests

/-- A buffer of three slabs, one of them nonreservable, and memory for a second one. -/
def twoBuffers : Params := { fourSlabs with
  slabsPerBuf := 3
  maxNumBuffers := 2
  pctNonreservable := 20
  maxNumClients := 3
  createBuffer := fun i => if i = 0 ∨ i = 1 then .locked else .fails
  slabs_pos := by decide
  fits := by decide
  memory := by
    intro i success
    have first : i = 0 ∨ i = 1 := by
      by_contra later
      exact success (if_neg later)
    rcases first with rfl | rfl
    · decide
    · decide
  pct_nonneg := by decide
  pct_le := by decide }

/-- Two slabs are wanted by the second client, the first client holds the third,
and the third client, which is nice, waits. -/
def thirdWaits : List Event :=
  [.connect 1 fun _ => true, .connect 2 fun _ => true, .connect 3 fun _ => true,
    .frame 0 (.numSlabs 1 0 true), .frame 1 (.registration .registerList 1 0 [7]),
    .frame 0 (.blocksAndInfo [segmentIn 0]), .frame 0 (.slabIDs [0]),
    .frame 0 (.blocksAndInfo [segmentIn 1]), .frame 0 (.slabIDs [1]), .frame 2 (.prodNiceLevel 1), .frame 2 (.numSlabs 1 0 true)]

/-- A client of the run has a request on the list of level 1. -/
def waitsAtOne (m : Manager) : Bool :=
  m.slabRqstManager.maxLevel = 3 ∧ (m.slabRqstManager.requestLists 1).any fun req =>
    req.id ∈ m.clients ∧ (m.proxy req.id).addr = req.arg

theorem waiting_of_waitsAtOne {m : Manager} (h : m.waitsAtOne = true) : m.Waiting := by
  obtain ⟨max, some⟩ := of_decide_eq_true h
  obtain ⟨req, mem, live⟩ := List.any_eq_true.mp some
  refine ⟨1, ?_, req, mem, of_decide_eq_true live⟩
  rw [max]
  decide

theorem noneIdle_of_run_thirdWaits : ∃ hist m,
    trace twoBuffers (fun _ m e => e.Honest m ∧ e.LeavesNoneWaiting m) thirdWaits =
      some (hist, m) ∧ m.Waiting ∧ m.NoneIdle := by
  have ran : (trace twoBuffers (fun _ m e => e.Honest m ∧ e.LeavesNoneWaiting m) thirdWaits).any
      (fun run => run.2.waitsAtOne ∧ ¬ run.2.AtLimit) = true := by
    decide +kernel
  obtain ⟨⟨hist, m⟩, eq, waits⟩ := (Option.any_eq_true _ _).mp ran
  obtain ⟨waits, below⟩ := of_decide_eq_true waits
  exact ⟨hist, m, eq, waiting_of_waitsAtOne waits,
    noneIdle_of_run (by decide) (run_of_trace eq) below⟩

/-- The second client's request for a consumer slab adds a buffer, and the third
client waits on. -/
theorem not_noneIdle_of_run : ¬ ∀ params hist m, params.numBuffers ≤ params.maxNumBuffers →
    Run params (fun _ m e => e.Honest m) hist m → ¬ m.AtLimit → m.NoneIdle := by
  intro all
  have ran : (trace twoBuffers (fun _ m e => e.Honest m)
      (thirdWaits ++ [.frame 1 (.numSlabs 0 1 true)])).any (fun run =>
        run.2.waitsAtOne ∧ ¬ run.2.AtLimit ∧ run.2.numFreeSlabs = 3) = true := by
    decide +kernel
  obtain ⟨⟨hist, m⟩, eq, wrong⟩ := (Option.any_eq_true _ _).mp ran
  obtain ⟨waits, below, free⟩ := of_decide_eq_true wrong
  have none := all _ _ _ (by decide) (run_of_trace eq) below (waiting_of_waitsAtOne waits)
  rw [free] at none
  cases none

end Manager
end Mcsb
