import Mcsb.Manager.Audit
import Mathlib.Algebra.Order.BigOperators.Group.List

/-!
# Wanted queues are bounded

`PopWantedQueue` leaves at most `maxWantedQueueSize` segments in a queue, and every
call that queues segments ends in it. So do not only the queues stay bounded, but
also the records that the segments live in.
-/

namespace Mcsb
open Effect

set_option maxRecDepth 2000
set_option synthInstance.maxSize 10000

namespace Manager

/-! ## What is popped -/

/-- The client is registered for the message of a queued segment. -/
def isRegistered (m : Manager) (c : Nat) (seg : WantedSegment) : Bool :=
  (m.blockInfo seg.blockID).messageID ∈ (m.proxy c).registeredMsgIDs

/-- What a drop of a queued segment is reported as. -/
def dropOf (m : Manager) (seg : WantedSegment) : Nat × Nat :=
  (1, (m.blockInfo seg.blockID).size.toNat)

/-- The segments `gone` have left the front of a client's queue, and of these
`dropped` were dropped: registered ones, from as far to the front as the queue
was too long. -/
structure PopsTo (c : Nat) (gone dropped : List WantedSegment) (m m' : Manager) : Prop where
  front : (m.proxy c).wantedQueue = gone ++ (m'.proxy c).wantedQueue
  overage : dropped.Sublist
    ((gone.take ((m.proxy c).wantedQueue.length - maxWantedQueueSize)).filter (m.isRegistered c))
  log : (m'.proxy c).dropLog = (m.proxy c).dropLog ++ dropped.map m.dropOf

/-- What the loop of `PopWantedQueue` looks at. -/
abbrev popView (c : Nat) (m : Manager) :
    Params × (Nat → BlockInfo) × List UInt32 × List WantedSegment :=
  (m.params, m.blockInfo, (m.proxy c).registeredMsgIDs, (m.proxy c).wantedQueue)

abbrev dropLogOf (c : Nat) (m : Manager) : List (Nat × Nat) := (m.proxy c).dropLog

section
variable {m m' m'' : Manager} {c x : Nat} {p : ClientProxy}

theorem popView_setProxy (registered : p.registeredMsgIDs = (m.proxy x).registeredMsgIDs)
    (queue : p.wantedQueue = (m.proxy x).wantedQueue) :
    Keeps (popView c) m (m.setProxy x p) := by
  have same := congrFun (inner_setProxy (fun p => (p.registeredMsgIDs, p.wantedQueue))
    (Prod.ext registered queue)) c
  exact Prod.ext rfl (Prod.ext rfl same)

theorem dropLogOf_setProxy (same : p.dropLog = (m.proxy x).dropLog) :
    Keeps (dropLogOf c) m (m.setProxy x p) :=
  congrFun (inner_setProxy (·.dropLog) same) c

end

instance (c : Nat) : Moving (Keeps (popView c)) where
  inside same _ _ _ := by
    simp only [Manager.settings, Prod.mk.injEq] at same
    obtain ⟨params, -, -, -, -, info, proxy⟩ := same
    unfold Keeps popView
    rw [params, info, proxy]
  proxy same queue := by
    simp only [ClientProxy.settings, Prod.mk.injEq] at same
    exact popView_setProxy same.2.2.2.2.2.2.1 queue

instance (c : Nat) : Sending (Keeps (popView c)) where
  sending _ _ := popView_setProxy rfl rfl

instance (c : Nat) : Reporting (Keeps (popView c)) where
  reporting _ _ := popView_setProxy rfl rfl
  dropped _ _ := rfl

instance (c : Nat) : Steady (Keeps (dropLogOf c)) where
  inside same _ _ := by
    simp only [Manager.settings, Prod.mk.injEq] at same
    exact congrArg (fun proxy => (proxy c).dropLog) same.2.2.2.2.2.2
  proxy same := by
    simp only [ClientProxy.settings, Prod.mk.injEq] at same
    exact dropLogOf_setProxy same.2.2.2.2.2.2.2.2.2.2.1

instance (c : Nat) : Sending (Keeps (dropLogOf c)) where
  sending _ _ := dropLogOf_setProxy rfl

instance (c d : Nat) (slabIDs : List Nat) : Moves (Keeps (popView c)) (indexing d slabIDs) :=
  .modify fun _ => rfl

section
variable {m m₁ m' : Manager} {c : Nat} {seg : WantedSegment} {queue : List WantedSegment}

/-- Nothing has been popped from a client's queue. -/
structure Unpopped (c : Nat) (m m' : Manager) : Prop where
  view : popView c m' = popView c m
  log : dropLogOf c m' = dropLogOf c m

theorem wp_unpopped {α : Type} (c : Nat) (x : Act α) [Moves (Keeps (popView c)) x]
    [Moves (Keeps (dropLogOf c)) x] (m : Manager) :
    wp x m (fun _ m' => Unpopped c m m') (fun _ m' => Unpopped c m m') :=
  wp_mono (wp_and (Moves.moves (R := Keeps (popView c)) m) (Moves.moves (R := Keeps (dropLogOf c)) m))
    (fun _ _ both => ⟨both.1, both.2⟩) (fun _ _ both => ⟨both.1, both.2⟩)

theorem Unpopped.trans (h : Unpopped c m m₁) (h' : Unpopped c m₁ m') : Unpopped c m m' :=
  ⟨h'.view.trans h.view, h'.log.trans h.log⟩

theorem sendDropReport_logs (m : Manager) (c segs bytes : Nat) :
    wp (sendDropReport c segs bytes) m
      (fun _ m' => dropLogOf c m' = dropLogOf c m ++ [(segs, bytes)]) (fun _ _ => False) := by
  simp only [sendDropReport, wp_bind, wp_modifyProxy, wp_getProxy, proxy_setProxy,
    setProxy_setProxy]
  split
  · rw [wp_bind]
    apply wp_swallow_sendOn
    rw [wp_modify, proxy_setProxy, setProxy_setProxy]
    show (Manager.proxy (m.setProxy c _) c).dropLog = _
    rw [proxy_setProxy]
    obtain ⟨sock, sendFailed, sent⟩ := ClientProxy.send_eq _ _
    rw [sent]
  · rw [wp_modify]
    show (Manager.proxy (m.setProxy c _) c).dropLog = _
    rw [proxy_setProxy]

/-- The front of a client's queue has been popped, and perhaps dropped. -/
structure PopsFront (c : Nat) (seg : WantedSegment) (m m' : Manager) : Prop where
  params : m'.params = m.params
  info : m'.blockInfo = m.blockInfo
  registered : (m'.proxy c).registeredMsgIDs = (m.proxy c).registeredMsgIDs
  front : (m.proxy c).wantedQueue = seg :: (m'.proxy c).wantedQueue
  log : dropLogOf c m' = dropLogOf c m ∨ m.isRegistered c seg = true ∧
    maxWantedQueueSize < (m.proxy c).wantedQueue.length ∧
    dropLogOf c m' = dropLogOf c m ++ [m.dropOf seg]

theorem popFrontWanted_pops (front : (m.proxy c).wantedQueue = seg :: queue)
    (view : popView c m₁ = popView c m)
    (log : dropLogOf c m₁ = dropLogOf c m ∨ m.isRegistered c seg = true ∧
      maxWantedQueueSize < (m.proxy c).wantedQueue.length ∧
      dropLogOf c m₁ = dropLogOf c m ++ [m.dropOf seg]) :
    wp (popFrontWanted c seg) m₁ (fun _ m' => PopsFront c seg m m')
      (fun _ m' => PopsFront c seg m m') := by
  simp only [popView, Prod.mk.injEq] at view
  obtain ⟨params, info, registered, queued⟩ := view
  have pops (m' : Manager) (popped : Unpopped c (m₁.setProxy c
      { m₁.proxy c with wantedQueue := (m₁.proxy c).wantedQueue.tail }) m') :
      PopsFront c seg m m' := by
    obtain ⟨view', log'⟩ := popped
    simp only [popView, dropLogOf, proxy_setProxy, Prod.mk.injEq] at view' log'
    obtain ⟨params', info', registered', queue'⟩ := view'
    constructor
    · exact params'.trans params
    · exact info'.trans info
    · exact registered'.trans registered
    · rw [queue', queued, front, List.tail_cons]
    · rw [dropLogOf, log']
      exact log
  rw [popFrontWanted, wp_bind, wp_modifyProxy]
  apply wp_mono (wp_unpopped c _ _)
  · intro _ m' popped
    exact pops m' popped
  · intro _ m' popped
    exact pops m' popped

/-- A turn pops the front of the queue, or stops within the bound. -/
theorem popWanted_turns (mode : m.params.playbackMode = false)
    (front : (m.proxy c).wantedQueue = seg :: queue) :
    wp (popWanted c seg) m
      (fun again m' => again = true ∧ PopsFront c seg m m' ∨
        again = false ∧ Unpopped c m m' ∧ (m.proxy c).wantedQueue.length ≤ maxWantedQueueSize)
      (fun _ m' => PopsFront c seg m m' ∨ Unpopped c m m') := by
  have pop (m₁ : Manager) (view : popView c m₁ = popView c m)
      (log : dropLogOf c m₁ = dropLogOf c m ∨ m.isRegistered c seg = true ∧
        maxWantedQueueSize < (m.proxy c).wantedQueue.length ∧
        dropLogOf c m₁ = dropLogOf c m ++ [m.dropOf seg]) :
      wp (popFrontWanted c seg >>= fun _ => pure true) m₁
        (fun again m' => again = true ∧ PopsFront c seg m m' ∨
          again = false ∧ Unpopped c m m' ∧ (m.proxy c).wantedQueue.length ≤ maxWantedQueueSize)
        (fun _ m' => PopsFront c seg m m' ∨ Unpopped c m m') := by
    apply wp_bind.mpr
    apply wp_mono (popFrontWanted_pops front view log)
    · intro _ m' popped
      exact .inl ⟨rfl, popped⟩
    · intro _ m' popped
      exact .inl popped
  rw [popWanted]
  apply wp_bind.mpr
  apply wp_get.mpr
  dsimp only
  split
  · rename_i registered
    apply wp_bind.mpr
    apply wp_mono (wp_unpopped c _ _)
    · intro took m₁ same
      cases took with
      | true =>
        rw [if_pos rfl]
        apply wp_bind.mpr
        apply wp_mono (wp_unpopped c _ _)
        · intro _ m₂ same'
          have still := same.trans same'
          exact pop m₂ still.view (.inl still.log)
        · intro _ m₂ same'
          exact .inr (same.trans same')
      | false =>
        rw [if_neg Bool.false_ne_true]
        split
        · rename_i within
          apply Or.inr
          exact ⟨rfl, same, within.resolve_right (by rw [mode]; exact Bool.false_ne_true)⟩
        · rename_i exceeds
          rw [not_or, Nat.not_le] at exceeds
          apply wp_bind.mpr
          apply wp_mono (wp_and (sendDropReport_logs m₁ c 1 (m.blockInfo seg.blockID).size.toNat)
            (Moves.moves (R := Keeps (popView c)) m₁))
          · rintro _ m₂ ⟨log, view⟩
            apply pop m₂ (view.trans same.view)
            right
            refine ⟨decide_eq_true registered, exceeds.1, ?_⟩
            rw [log, same.log]
            rfl
          · rintro _ _ ⟨no, -⟩
            exact no.elim
    · intro _ m₁ same
      exact .inr same
  · exact pop m rfl (.inl rfl)

theorem PopsTo.refl (m : Manager) (c : Nat) : PopsTo c [] [] m m where
  front := rfl
  overage := List.nil_sublist _
  log := (List.append_nil _).symm

theorem Unpopped.popsTo (h : Unpopped c m m') : PopsTo c [] [] m m' where
  front := (congrArg (·.2.2.2) h.view).symm
  overage := List.nil_sublist _
  log := h.log.trans (List.append_nil _).symm

/-- What a turn pops comes before what the rest of the loop pops. -/
theorem PopsFront.andThen {gone dropped : List WantedSegment} (h : PopsFront c seg m m₁)
    (rest : PopsTo c gone dropped m₁ m') :
    ∃ dropped, PopsTo c (seg :: gone) dropped m m' := by
  have same : m₁.isRegistered c = m.isRegistered c := by
    funext seg
    rw [isRegistered, isRegistered, h.info, h.registered]
  have drops : m₁.dropOf = m.dropOf := by
    funext seg
    rw [dropOf, dropOf, h.info]
  have front : (m.proxy c).wantedQueue = (seg :: gone) ++ (m'.proxy c).wantedQueue := by
    rw [h.front, rest.front]
    rfl
  have length : (m.proxy c).wantedQueue.length = (m₁.proxy c).wantedQueue.length + 1 := by
    rw [h.front, List.length_cons]
  have overage := rest.overage
  have log := rest.log
  rw [same] at overage
  rw [drops] at log
  have later (long : maxWantedQueueSize < (m.proxy c).wantedQueue.length) :
      (m.proxy c).wantedQueue.length - maxWantedQueueSize =
        (m₁.proxy c).wantedQueue.length - maxWantedQueueSize + 1 := by omega
  rcases h.log with kept | ⟨registered, long, dropHere⟩
  · refine ⟨dropped, front, ?_, ?_⟩
    · by_cases long : maxWantedQueueSize < (m.proxy c).wantedQueue.length
      · rw [later long, List.take_succ_cons, List.filter_cons]
        split
        · exact overage.cons _
        · exact overage
      · have none : (m₁.proxy c).wantedQueue.length - maxWantedQueueSize = 0 := by omega
        rw [none, List.take_zero, List.filter_nil] at overage
        rw [List.sublist_nil.mp overage]
        exact List.nil_sublist _
    · exact log.trans (congrArg (· ++ _) kept)
  · refine ⟨seg :: dropped, front, ?_, ?_⟩
    · rw [later long, List.take_succ_cons, List.filter_cons_of_pos registered]
      exact overage.cons_cons seg
    · rw [log, show (m₁.proxy c).dropLog = _ from dropHere, List.append_assoc]
      rfl

/-- A queue is popped from the front, and is within the bound at the end. -/
theorem popLoop_pops (fuel : Nat) (mode : m.params.playbackMode = false)
    (enough : (m.proxy c).wantedQueue.length < fuel) :
    wp (popLoop c fuel) m
      (fun _ m' => (∃ gone dropped, PopsTo c gone dropped m m') ∧
        (m'.proxy c).wantedQueue.length ≤ maxWantedQueueSize)
      (fun _ m' => ∃ gone dropped, PopsTo c gone dropped m m') := by
  induction fuel generalizing m with
  | zero => cases enough
  | succ fuel ih =>
    rw [popLoop]
    apply wp_bind.mpr
    apply wp_getProxy.mpr
    cases front : (m.proxy c).wantedQueue with
    | nil =>
      refine ⟨⟨[], [], .refl m c⟩, ?_⟩
      rw [front]
      exact Nat.zero_le _
    | cons seg queue =>
      apply wp_bind.mpr
      apply wp_mono (popWanted_turns mode front)
      · rintro again m₁ (⟨rfl, popped⟩ | ⟨rfl, same, within⟩)
        · rw [if_pos rfl]
          have shorter : (m₁.proxy c).wantedQueue.length < fuel := by
            rw [popped.front, List.length_cons] at enough
            omega
          have mode₁ : m₁.params.playbackMode = false := by
            rw [popped.params]
            exact mode
          apply wp_mono (ih mode₁ shorter)
          · rintro _ m' ⟨⟨gone, dropped, rest⟩, within⟩
            obtain ⟨dropped, all⟩ := popped.andThen rest
            exact ⟨⟨_, dropped, all⟩, within⟩
          · rintro _ m' ⟨gone, dropped, rest⟩
            obtain ⟨dropped, all⟩ := popped.andThen rest
            exact ⟨_, dropped, all⟩
        · rw [if_neg Bool.false_ne_true]
          refine ⟨⟨[], [], same.popsTo⟩, ?_⟩
          rw [show (m₁.proxy c).wantedQueue = _ from congrArg (·.2.2.2) same.view]
          exact within
      · rintro _ m₁ (popped | same)
        · obtain ⟨dropped, all⟩ := popped.andThen (PopsTo.refl m₁ c)
          exact ⟨_, dropped, all⟩
        · exact ⟨[], [], same.popsTo⟩

theorem popWantedQueue_pops (c : Nat) (mode : m.params.playbackMode = false) :
    wp (popWantedQueue c) m
      (fun _ m' => (∃ gone dropped, PopsTo c gone dropped m m') ∧
        (m'.proxy c).wantedQueue.length ≤ maxWantedQueueSize)
      (fun _ m' => ∃ gone dropped, PopsTo c gone dropped m m') :=
  popLoop_pops _ mode (Nat.lt_succ_self _)

/-- `PopWantedQueue` drops only from the front, and only what is too much. -/
def DropsInFront (c : Nat) (m : Manager) : Prop :=
  wp (popWantedQueue c) m (fun _ m' => ∃ gone dropped, PopsTo c gone dropped m m')
    (fun _ m' => ∃ gone dropped, PopsTo c gone dropped m m')

theorem dropsInFront (c : Nat) (mode : m.params.playbackMode = false) : m.DropsInFront c :=
  wp_mono (popWantedQueue_pops c mode) (fun _ _ => And.left) (fun _ _ => id)

end

/-! ## What does not queue anything -/

/-- No wanted queue got longer, and no record for a segment was taken. -/
structure Shrinks (m m' : Manager) : Prop where
  params : m'.params = m.params
  clients : m'.clients = m.clients
  queues : ∀ c, (queueOf c m').length ≤ (queueOf c m).length
  peak : m'.slabManager.freeWantedSegs.peak = m.slabManager.freeWantedSegs.peak
  metered : m.slabManager.freeWantedSegs.Metered → m'.slabManager.freeWantedSegs.Metered

theorem Shrinks.of_same {m m' : Manager} (params : m'.params = m.params)
    (clients : m'.clients = m.clients) (proxy : m'.proxy = m.proxy)
    (pool : m'.slabManager.freeWantedSegs = m.slabManager.freeWantedSegs) : m.Shrinks m' where
  params := params
  clients := clients
  queues c := by rw [queueOf, queueOf, proxy]
  peak := congrArg Pool.peak pool
  metered := by
    rw [pool]
    exact id

theorem Shrinks.setProxy {m : Manager} {c : Nat} {p : ClientProxy}
    (shorter : p.wantedQueue.length ≤ (m.proxy c).wantedQueue.length) :
    m.Shrinks (m.setProxy c p) where
  params := rfl
  clients := rfl
  queues x := by
    by_cases here : x = c
    · rw [here, queueOf, queueOf, proxy_setProxy]
      exact shorter
    · rw [queueOf, queueOf, proxy_setProxy_of_ne _ here]
  peak := rfl
  metered := id

instance : IsPreorder Manager Shrinks where
  refl _ := .of_same rfl rfl rfl rfl
  trans _ _ _ h h' := ⟨h'.params.trans h.params, h'.clients.trans h.clients,
    fun c => (h'.queues c).trans (h.queues c), h'.peak.trans h.peak, h'.metered ∘ h.metered⟩

instance : Draining Shrinks where
  inside same drains _ _ := by
    simp only [Manager.settings, Prod.mk.injEq] at same
    constructor
    · exact same.1
    · exact same.2.1
    · intro c
      rw [queueOf, queueOf, same.2.2.2.2.2.2]
    · exact drains.peak
    · exact drains.metered
  proxy _ queue := .setProxy queue.length_le

instance : Sending Shrinks := ⟨fun _ _ => .setProxy le_rfl⟩
instance : Reporting Shrinks :=
  ⟨fun _ _ => .setProxy le_rfl, fun _ _ => .of_same rfl rfl rfl rfl⟩
instance : Registering Shrinks := ⟨fun _ => .setProxy le_rfl⟩
instance : Wanting Shrinks := ⟨fun _ => .setProxy le_rfl⟩
instance : Ranking Shrinks := ⟨fun _ => .setProxy le_rfl⟩
instance : Grouping Shrinks := ⟨fun _ => .of_same rfl rfl rfl rfl, fun _ => .setProxy le_rfl⟩
instance : Copying Shrinks := ⟨fun _ _ => .of_same rfl rfl rfl rfl⟩
instance : Resizing Shrinks := ⟨fun _ _ => .setProxy le_rfl⟩
instance : Reserving Shrinks :=
  ⟨fun _ => .of_same rfl rfl rfl rfl, fun _ _ => .setProxy le_rfl⟩

theorem pool_setNumBuffers (sm : SlabManager) (n : Nat) :
    (sm.setNumBuffers n).freeWantedSegs = sm.freeWantedSegs :=
  SlabManager.setNumBuffers_keeps (P := fun sm' => sm'.freeWantedSegs = sm.freeWantedSegs)
    (fun _ => id) (fun _ _ => id) rfl n

instance : Extending Shrinks :=
  ⟨fun _ => .of_same rfl rfl rfl rfl, fun n => .of_same rfl rfl rfl (pool_setNumBuffers _ n)⟩

instance (c : Nat) (slabIDs : List Nat) : Moves Shrinks (indexing c slabIDs) :=
  .modify fun _ => .of_same rfl rfl rfl rfl

instance (c d : Nat) (slabIDs : List Nat) : Moves (Keeps (queueOf c)) (indexing d slabIDs) :=
  .modify fun _ => rfl

/-- The queue given up is the client's own. -/
instance (c : Nat) : Moves Shrinks (getProxy c >>= fun p => releaseQueue c p.wantedQueue) := ⟨fun m => by
  have loop (queue : List WantedSegment) (m : Manager)
      (all : queue.length ≤ (queueOf c m).length) :
      wp (releaseQueue c queue) m (fun _ m' => m.Shrinks m') (fun _ m' => m.Shrinks m') := by
    induction queue generalizing m with
    | nil => exact refl_of Shrinks m
    | cons seg rest ih =>
      rw [releaseQueue, wp_bind, wp_modifyProxy, wp_bind]
      have left : m.Shrinks (m.setProxy c { m.proxy c with wantedQueue := rest }) :=
        .setProxy ((Nat.le_succ _).trans all)
      apply wp_mono (wp_and (Moves.moves (R := Shrinks) _) (Moves.moves (R := Keeps (queueOf c)) _))
      · rintro _ m₁ ⟨moved, kept⟩
        have before := trans_of Shrinks left moved
        have rest_le : rest.length ≤ (queueOf c m₁).length := by
          rw [show queueOf c m₁ = _ from kept, queueOf, proxy_setProxy]
        apply wp_mono (ih m₁ rest_le)
        · intro _ m' after
          exact trans_of Shrinks before after
        · intro _ m' after
          exact trans_of Shrinks before after
      · rintro _ m₁ ⟨moved, -⟩
        exact trans_of Shrinks left moved
  rw [wp_bind, wp_getProxy]
  exact loop _ m le_rfl⟩

/-! ## What a frame of segments queues -/

/-- The queues of the clients are within the bound, and so are the records. -/
structure Bounded (most : Nat) (m : Manager) : Prop where
  queues : ∀ c ∈ m.clients, (queueOf c m).length ≤ maxWantedQueueSize
  metered : m.slabManager.freeWantedSegs.Metered
  peak : m.slabManager.freeWantedSegs.peak ≤ most

section
variable {m m' m'' : Manager} {t : Transit} {c n n' most : Nat}

theorem Bounded.shrinks (h : m.Bounded most) (shrinks : m.Shrinks m') : m'.Bounded most where
  queues c live := (shrinks.queues c).trans (h.queues c (shrinks.clients ▸ live))
  metered := shrinks.metered h.metered
  peak := shrinks.peak.trans_le h.peak

/-- The records in use are those of the segments queued. -/
theorem Books.inUse_le (h : m.Books t) (rest : t.rest = []) :
    m.slabManager.freeWantedSegs.inUse ≤ m.queued.length := by
  have each (s : Nat) : (m.slabManager.info s).wantedSegs.length =
      (m.queued.filter (·.blockID / m.blocksPerSlab = s)).length := by
    have wanted := (h.wanted s).length_eq
    rw [rest, List.append_nil] at wanted
    exact wanted
  rw [h.sound.segments.inUse, SlabManager.wantedRefs, List.length_flatMap]
  simp only [List.length_map, each]
  exact Accounts.sum_filter_le (fun seg => seg.blockID / m.blocksPerSlab) m.queued _

theorem queued_length_le (bounded : ∀ c ∈ m.clients, (queueOf c m).length ≤ maxWantedQueueSize) :
    m.queued.length ≤ maxWantedQueueSize * m.clients.length := by
  have each : ∀ n ∈ m.clients.map fun c => (queueOf c m).length, n ≤ maxWantedQueueSize := by
    intro n mem
    obtain ⟨c, live, rfl⟩ := List.mem_map.mp mem
    exact bounded c live
  have sum : _ ≤ _ * maxWantedQueueSize := List.sum_le_card_nsmul _ _ each
  rw [List.length_map, Nat.mul_comm] at sum
  rw [queued, List.length_flatMap]
  exact sum

/-- One client has been queued `n` segments more, the records for which were
taken from the pool. -/
structure Enqueues (c n : Nat) (m m' : Manager) : Prop where
  clients : m'.clients = m.clients
  others : ∀ x, x ≠ c → queueOf x m' = queueOf x m
  here : (queueOf c m').length = (queueOf c m).length + n
  metered : m.slabManager.freeWantedSegs.Metered → m'.slabManager.freeWantedSegs.Metered
  peak : m'.slabManager.freeWantedSegs.peak ≤
    max m.slabManager.freeWantedSegs.peak (m.queued.length + n)

theorem Enqueues.queued_length (h : Enqueues c n m m') (nodup : m.clients.Nodup)
    (live : c ∈ m.clients) : m'.queued.length = m.queued.length + n := by
  have change := Accounts.sum_change nodup live (f := fun c => (queueOf c m).length)
    (g := fun c => (queueOf c m').length) fun x ne => congrArg List.length (h.others x ne)
  have here := h.here
  rw [queued, queued, h.clients, List.length_flatMap, List.length_flatMap]
  show (m.clients.map fun c => (queueOf c m').length).sum =
    (m.clients.map fun c => (queueOf c m).length).sum + n
  omega

theorem Enqueues.trans (first : Enqueues c n m m') (rest : Enqueues c n' m' m'')
    (nodup : m.clients.Nodup) (live : c ∈ m.clients) : Enqueues c (n + n') m m'' where
  clients := rest.clients.trans first.clients
  others x ne := (rest.others x ne).trans (first.others x ne)
  here := by
    have := first.here
    have := rest.here
    omega
  metered := rest.metered ∘ first.metered
  peak := by
    have queued := first.queued_length nodup live
    have peak := first.peak
    have peak' := rest.peak
    omega

theorem Books.queueSegments_enqueues (h : m.Books t) (rest : t.rest = []) (live : c ∈ t.live)
    (segs : List Segment) (firm : m.slabsOf segs ⊆ t.firm) :
    wp (Mcsb.queueSegments c segs) m (fun _ m' => m'.Books t ∧ Enqueues c segs.length m m')
      (fun _ _ => False) := by
  induction segs generalizing m with
  | nil => exact ⟨h, rfl, fun _ _ => rfl, rfl, id, Nat.le_max_left _ _⟩
  | cons seg segs ih =>
    have here := h.live c live
    have held := h.firm _ (firm List.mem_cons_self)
    rw [Mcsb.queueSegments, wp_bind, wp_get, wp_bind, wp_onSlabs,
      SlabManager.getWantedSegment_ok h.sound.partition (.inl held), wp_bind, wp_modifyProxy]
    have books := (h.want held).enqueue here (c := c) rfl
    generalize wanted : m.slabManager.want c seg.blockID (seg.blockID / m.blocksPerSlab) = want
      at books
    have first : Enqueues c 1 m ((m.setSlabs want.2).setProxy c { m.proxy c with
        wantedQueue := (m.proxy c).wantedQueue ++ [want.1] }) := by
      constructor
      case clients => rfl
      case others =>
        intro x ne
        rw [queueOf, proxy_setProxy_of_ne _ ne]
        rfl
      case here =>
        rw [queueOf, proxy_setProxy, List.length_append]
        rfl
      case metered =>
        intro metered
        rw [← wanted]
        exact metered.take
      case peak =>
        have inUse := h.inUse_le rest
        rw [← wanted]
        show m.slabManager.freeWantedSegs.take.2.peak ≤ _
        rw [Pool.peak_take]
        omega
    apply wp_mono (ih books fun s mem => firm (List.mem_cons_of_mem _ mem))
    · rintro _ m' ⟨books', others⟩
      refine ⟨books', ?_⟩
      rw [List.length_cons, Nat.add_comm]
      exact first.trans others h.nodup here
    · intro _ _
      exact id

theorem sortSegments_wants (queueing : Bool) (segs : List Segment) (m : Manager) :
    wp (sortSegments c queueing segs) m (fun sorted _ => sorted.2.length ≤ segs.length)
      (fun _ _ => True) := by
  induction segs generalizing m queueing with
  | nil =>
    cases queueing with
    | true => exact le_rfl
    | false => exact le_rfl
  | cons seg segs ih =>
    have later (queueing : Bool) (m : Manager) :
        wp (sortSegments c queueing segs >>= fun sorted => pure (sorted.1, seg :: sorted.2)) m
          (fun sorted _ => sorted.2.length ≤ (seg :: segs).length) (fun _ _ => True) := by
      apply wp_bind.mpr
      apply wp_mono (ih queueing m)
      · intro sorted m' le
        exact Nat.succ_le_succ le
      · intro _ _
        exact id
    cases queueing with
    | true => exact later true m
    | false =>
      rw [sortSegments]
      apply wp_bind.mpr
      apply wp_get.mpr
      apply wp_bind.mpr
      apply wp_mono (Moves.moves (R := Shrinks) m)
      · intro took m₁ _
        cases took with
        | true =>
          apply wp_bind.mpr
          apply wp_mono (ih false m₁)
          · intro sorted m' le
            exact le.trans (Nat.le_succ _)
          · intro _ _
            exact id
        | false => exact later true m₁
      · intro _ _ _
        trivial

/-! ## A frame is offered -/

/-- A queue in good order is popped without an exception. -/
theorem Books.popLoop_returns (h : m.Books t) (owed : ∀ s, t.owed s = 0) (live : c ∈ t.live)
    (mode : m.params.playbackMode = false) (fuel : Nat) (enough : (queueOf c m).length < fuel) :
    Within (Mcsb.popLoop c fuel) m (fun _ m' => m'.Books t) (fun _ => False) := by
  induction fuel generalizing m with
  | zero => cases enough
  | succ fuel ih =>
    rw [Mcsb.popLoop]
    apply wp_bind.mpr
    apply wp_getProxy.mpr
    cases front : (m.proxy c).wantedQueue with
    | nil => exact .inr h
    | cons seg queue =>
      apply ((h.popWanted owed live front).and (popWanted_turns mode front)).bind
      rintro again m₁ ⟨books, ⟨rfl, popped⟩ | ⟨rfl, -⟩⟩
      · rw [if_pos rfl]
        apply ih books
        · rw [popped.params]
          exact mode
        · rw [queueOf, popped.front, List.length_cons] at enough
          exact Nat.succ_lt_succ_iff.mp enough
      · exact .inr books

/-- A client that was queued more than the bound is within it again once its queue is popped. -/
theorem Enqueues.bounded (queued : Enqueues c n m m') (shrinks : m'.Shrinks m'')
    (popped : (queueOf c m'').length ≤ maxWantedQueueSize) (bounded : m.Bounded most)
    (enough : maxWantedQueueSize * m.clients.length + n ≤ most) : m''.Bounded most where
  queues x live := by
    rw [shrinks.clients, queued.clients] at live
    by_cases here : x = c
    · rw [here]
      exact popped
    · have shorter := shrinks.queues x
      rw [queued.others x here] at shorter
      exact shorter.trans (bounded.queues x live)
  metered := shrinks.metered (queued.metered bounded.metered)
  peak := by
    have before := queued_length_le bounded.queues
    have peak := queued.peak
    have := bounded.peak
    rw [shrinks.peak]
    omega

/-- The manager offers a frame of so many segments, not in playback mode. -/
structure Offering (most n : Nat) (m : Manager) : Prop where
  mode : m.params.playbackMode = false
  bounded : m.Bounded most
  enough : maxWantedQueueSize * m.clients.length + n ≤ most

theorem Offering.shrinks (h : m.Offering most n) (shrinks : m.Shrinks m') : m'.Offering most n where
  mode := shrinks.params ▸ h.mode
  bounded := h.bounded.shrinks shrinks
  enough := by
    rw [shrinks.clients]
    exact h.enough

theorem Books.sendSegments_bounded (h : m.Books t) (owed : ∀ s, t.owed s = 0) (rest : t.rest = [])
    (live : c ∈ t.live) {segs : List Segment} (firm : m.slabsOf segs ⊆ t.firm)
    (offering : m.Offering most segs.length) :
    Within (Mcsb.sendSegments c segs) m (fun _ m' => m'.Books t ∧ m'.Offering most segs.length ∧
      m'.params = m.params) (fun _ => False) := by
  have wanted : m.slabsOf (segs.filter (m.proxy c).wants) ⊆ t.firm :=
    List.Subset.trans (List.map_subset _ List.filter_sublist.subset) firm
  rw [Mcsb.sendSegments]
  apply wp_bind.mpr
  apply wp_getProxy.mpr
  generalize decide ((m.proxy c).wantedQueue ≠ []) = pending
  generalize sorting : segs.filter (m.proxy c).wants = wants at wanted
  apply ((h.sortSegments live pending wants wanted).and
    (wp_and (sortSegments_wants (c := c) pending wants m) (Moves.moves (R := Shrinks) m))).bind
  rintro ⟨send, want⟩ m₁ ⟨⟨taken, sent, queued⟩, fewer, shrinks⟩
  rw [← slabsOf_of_params shrinks.params] at taken sent queued
  apply ((taken.sendTaken sent).and (Moves.moves (R := Shrinks) (x := Mcsb.sendTaken c send) m₁)).bind
  rintro _ m₂ ⟨books, shrinks'⟩
  rw [← slabsOf_of_params shrinks'.params] at queued
  have shrunk := trans_of Shrinks shrinks shrinks'
  have offering₂ := offering.shrinks shrunk
  have queues := Within.of_wp (E := fun _ => False) (wp_mono
    (books.queueSegments_enqueues rest live want queued) (fun _ _ => id) (fun _ _ => id))
  apply (queues.keeping (v := params)).bind
  rintro _ m₃ ⟨⟨books₃, enqueued⟩, params₃⟩
  have mode₃ : m₃.params.playbackMode = false := by
    rw [show m₃.params = m₂.params from params₃]
    exact offering₂.mode
  apply ((books₃.popLoop_returns owed live mode₃ _ (Nat.lt_succ_self _)).and
    (wp_and (popWantedQueue_pops c mode₃)
      (Moves.moves (R := Shrinks) (x := Mcsb.popWantedQueue c) m₃))).mono
  · rintro _ m' ⟨books', ⟨-, within⟩, shrinks₃⟩
    have few : want.length ≤ segs.length := by
      rw [← sorting] at fewer
      exact fewer.trans (List.length_filter_le _ _)
    have enough := offering₂.enough
    refine ⟨books', ⟨?_, ?_, ?_⟩, ?_⟩
    · rw [shrinks₃.params]
      exact mode₃
    · exact enqueued.bounded shrinks₃ within offering₂.bounded (by omega)
    · rw [shrinks₃.clients, enqueued.clients]
      exact enough
    · exact (shrinks₃.params.trans params₃).trans shrunk.params
  · intro _
    exact id

theorem Books.offerSegments_bounded (h : m.Books t) (owed : ∀ s, t.owed s = 0) (rest : t.rest = [])
    {segs : List Segment} (firm : m.slabsOf segs ⊆ t.firm) (group : Int16) (cs : List Nat)
    (live : cs ⊆ t.live) (offering : m.Offering most segs.length) :
    Within (Mcsb.offerSegments segs group cs) m (fun _ m' => m'.Books t ∧ m'.Bounded most)
      (fun _ => False) := by
  induction cs generalizing m with
  | nil => exact .inr ⟨h, offering.bounded⟩
  | cons c cs ih =>
    rw [List.cons_subset] at live
    rw [Mcsb.offerSegments]
    apply wp_bind.mpr
    apply wp_getProxy.mpr
    split
    · apply (h.sendSegments_bounded owed rest live.1 firm offering).bind
      rintro _ m' ⟨books, offering', params⟩
      apply ih books _ live.2 offering'
      rw [slabsOf_of_params params]
      exact firm
    · exact ih h firm live.2 offering

theorem Books.handleBlocksAndInfo_bounded {settled : Bool}
    (h : m.Books (Manager.resting settled)) (live : c ∈ m.clients) {segs : List Segment}
    (held : ∀ s ∈ m.slabsOf segs, (m.proxy c).slabs.prodSlabRefcnt s = true)
    (offering : m.Offering most segs.length) :
    Within (Mcsb.handleBlocksAndInfo c segs) m (fun _ m' => m'.Bounded most)
      (fun m' => m'.Bounded most) := by
  have firm := h.producing live held
  have checked := wp_and (Moves.wp_stays (x := checkCCI c segs) firm)
    (Moves.moves (R := Shrinks) (x := checkCCI c segs) m)
  rw [Mcsb.handleBlocksAndInfo]
  apply wp_bind.mpr
  apply wp_mono checked
  · rintro _ m₁ ⟨books, shrinks⟩
    have copied := wp_and (Moves.wp_stays (x := copyInfos segs) books)
      (Moves.moves (R := Shrinks) (x := copyInfos segs) m₁)
    apply wp_bind.mpr
    apply wp_getProxy.mpr
    rw [Mcsb.takeBlocksAndInfo]
    apply wp_bind.mpr
    apply wp_mono copied
    · rintro _ m₂ ⟨books, shrinks'⟩
      have shrunk := trans_of Shrinks shrinks shrinks'
      apply wp_bind.mpr
      apply wp_modify.mpr
      apply wp_bind.mpr
      apply wp_get.mpr
      have counted (stats : ManagerStats) : m₂.Shrinks { m₂ with stats } := .of_same rfl rfl rfl rfl
      apply Within.mono
      · apply Books.offerSegments_bounded (t := { firm := m.slabsOf segs, live := m.clients, settled })
        · exact books.of_holdings rfl rfl rfl rfl rfl rfl
        · exact fun _ => rfl
        · rfl
        · rw [slabsOf_of_params (m := m)]
          · exact List.Subset.refl _
          · exact shrunk.params
        · rw [show m.clients = m₂.clients from shrunk.clients.symm]
          exact List.Subset.refl _
        · exact (offering.shrinks shrunk).shrinks (counted _)
      · rintro _ m' ⟨-, bounded⟩
        exact bounded
      · intro _
        exact False.elim
    · rintro _ m₂ ⟨-, shrinks'⟩
      exact .inr (offering.bounded.shrinks (trans_of Shrinks shrinks shrinks'))
  · rintro _ m₁ ⟨-, shrinks⟩
    exact .inr (offering.bounded.shrinks shrinks)

end

end Manager

/-! ## Runs -/

/-- How many segments the frame of an event has. -/
def Event.numSegs : Event → Nat
  | .frame _ (.blocksAndInfo segs) => segs.length
  | _ => 0

namespace Manager

/-- The most clients there were when an event of a run came. -/
def mostClients : History → Nat
  | [] => 0
  | (m, _) :: hist => max m.clients.length (mostClients hist)

/-- The segments of the largest frame of a run. -/
def largestFrame : History → Nat
  | [] => 0
  | (_, e) :: hist => max e.numSegs (largestFrame hist)

section
variable {m m' : Manager} {c most : Nat}

theorem Bounded.mono {most' : Nat} (h : m.Bounded most) (le : most ≤ most') : m.Bounded most' :=
  ⟨h.queues, h.metered, h.peak.trans le⟩

theorem Books.handle_bounded (h : m.Books (Manager.resting false)) {f : Frame}
    (live : c ∈ m.clients) (owning : (Event.frame c f).Owning m)
    (offering : m.Offering most (Event.frame c f).numSegs) :
    Within (f.handle c) m (fun _ m' => m'.Bounded most) (fun m' => m'.Bounded most) := by
  have bounded := offering.bounded
  have still (x : Act Unit) [Moves Shrinks x] :
      Within x m (fun _ m' => m'.Bounded most) (fun m' => m'.Bounded most) :=
    .of_wp (wp_mono (Moves.moves (R := Shrinks) m) (fun _ _ => bounded.shrinks)
      (fun _ _ => bounded.shrinks))
  cases f with
  | blockIDs ids => exact still (Mcsb.handleBlockIDs c ids)
  | slabIDs ids => exact still (Mcsb.handleSlabIDs c ids)
  | blocksAndInfo segs => exact h.handleBlocksAndInfo_bounded live owning offering
  | numSlabs prod cons ok => exact still (Mcsb.handleNumSlabs c prod cons ok)
  | registration type cid gid msgIDs => exact still (Mcsb.handleRegistration c type cid gid msgIDs)
  | registrationsWanted new current => exact still (Mcsb.handleRegistrationsWanted c new current)
  | dropReportAck => exact still (Mcsb.handleDropReportAck c)
  | prodNiceLevel n =>
    exact still (modifyProxy c fun p => { p with prodNiceLevel := n.toInt.bmod (2 ^ 8) })
  | managerEcho bytes => exact still (sendCtrl c (.managerEcho bytes))
  | sequenceToken token => exact still (sendCtrl c (.sequenceToken token))
  | groupID id => exact still (modifyProxy c fun p => { p with groupID := id })
  | groupIDStr str => exact still (Mcsb.handleGroupIDStr c str)
  | invalid => exact still (fail "peer protocol error")
  | ignored => exact .inr bounded

theorem Bounded.deleteClient (h : m.Bounded most) (c : Nat) :
    wp (deleteClient c) m (fun _ m' => m'.Bounded most) (fun _ _ => True) := by
  have left : Bounded most { m with clients := m.clients.erase c } :=
    ⟨fun x live => h.queues x (List.mem_of_mem_erase live), h.metered, h.peak⟩
  apply wp_deleteClient.mpr
  apply wp_mono (Moves.moves (R := Shrinks) _)
  · intro _ _
    exact left.shrinks
  · intro _ _ _
    trivial

theorem Bounded.addConnectedClient (h : m.Bounded most) (addr : Nat) (accepts : Nat → Bool) :
    wp (addConnectedClient addr accepts) m (fun _ m' => m'.Bounded most) (fun _ _ => True) := by
  apply Gentle.wp_addConnectedClient (R := Shrinks) h
  intro c next m' _ shrinks
  have fresh : m.Shrinks (Manager.setProxy { m with nextNewClientID := next } c
      { clientID := c, addr, sock := { accepts } }) := by
    have numbered : m.Shrinks { m with nextNewClientID := next } := .of_same rfl rfl rfl rfl
    exact trans_of Shrinks numbered (.setProxy (Nat.zero_le _))
  have bounded := h.shrinks (trans_of Shrinks fresh shrinks)
  refine ⟨⟨?_, bounded.metered, bounded.peak⟩, bounded⟩
  intro x live
  rcases List.mem_cons.mp ((List.perm_orderedInsert _ _ _).mem_iff.mp live) with rfl | before
  · have none := shrinks.queues x
    rw [queueOf, queueOf, proxy_setProxy] at none
    exact none.trans (Nat.zero_le _)
  · exact bounded.queues x before

theorem Books.run_bounded (h : m.Books (Manager.resting false)) {e : Event} (enabled : e.Enabled m)
    (owning : e.Owning m) (offering : m.Offering most e.numSegs) :
    wp e.run m (fun _ m' => m'.AtLimit ∨ m'.Bounded most) (fun _ _ => True) := by
  cases e with
  | connect addr accepts =>
    apply wp_mono (offering.bounded.addConnectedClient addr accepts)
    · intro _ _
      exact .inr
    · intro _ _
      exact id
  | hangup c =>
    apply wp_mono (offering.bounded.deleteClient c)
    · intro _ _
      exact .inr
    · intro _ _
      exact id
  | frame c f =>
    apply wp_run_frame.mpr
    apply wp_mono (h.handle_bounded enabled owning offering)
    · intro _ _
      exact id
    · intro e m' ends
      cases e with
      | stuck => trivial
      | runtimeError what =>
        rcases ends with limited | bounded
        · apply wp_mono (limited.run (.hangup c))
          · intro _ _
            exact .inl
          · intro _ _
            exact id
        · apply wp_mono (bounded.deleteClient c)
          · intro _ _
            exact .inr
          · intro _ _
            exact id

end

/-- The queues of the clients are within the bound. The records allocated are no
more than the most in use at once, in whole blocks, which is bounded. -/
structure WantedBounded (hist : History) (m : Manager) : Prop where
  queues : ∀ c ∈ m.clients, (m.proxy c).wantedQueue.length ≤ maxWantedQueueSize
  allocated : m.slabManager.freeWantedSegs.size ≤
    Pool.wholeBlocks m.slabManager.freeWantedSegs.peak
  inUse : m.slabManager.freeWantedSegs.peak ≤
    maxWantedQueueSize * mostClients hist + largestFrame hist

section
variable {params : Params} {hist : History} {m : Manager}

theorem start_bounded (first : start params = some m) : m.Bounded 0 := by
  apply start_eq_some (E := fun _ _ => True) _ first
  intro slabManager made
  have pool : slabManager.freeWantedSegs = {} := by
    rw [made]
    exact pool_setNumBuffers _ _
  have bounded : Bounded 0 { params, slabManager } := by
    constructor
    · intro _ none
      cases none
    · show slabManager.freeWantedSegs.Metered
      rw [pool]
      exact Pool.metered_empty
    · show slabManager.freeWantedSegs.peak ≤ 0
      rw [pool]
  apply wp_mono (Moves.moves (R := Shrinks) _)
  · intro _ _
    exact bounded.shrinks
  · intro _ _ _
    trivial

theorem Run.bounded (fits : params.numBuffers ≤ params.maxNumBuffers)
    (mode : params.playbackMode = false)
    (run : Run params (fun _ m e => e.Owning m ∧ e.ListsOnce m) hist m) :
    m.AtLimit ∨ m.Bounded (maxWantedQueueSize * mostClients hist + largestFrame hist) := by
  induction run with
  | start first => exact .inr (start_bounded first)
  | @step hist m e m' before enabled fine stepped ih =>
    have kept : m.Kept (Manager.resting false) :=
      before.kept fits (fun _ _ _ => And.left) (fun _ _ _ => And.right)
        fun no => absurd no Bool.false_ne_true
    rcases ih with limited | bounded
    · exact .inl (step_eq_some (limited.run e) stepped)
    · rcases kept with limited | books
      · exact .inl (step_eq_some (limited.run e) stepped)
      · apply step_eq_some (books.run_bounded enabled fine.1 _) stepped
        have clients : m.clients.length ≤ mostClients ((m, e) :: hist) := Nat.le_max_left _ _
        have more : mostClients hist ≤ mostClients ((m, e) :: hist) := Nat.le_max_right _ _
        have frame : e.numSegs ≤ largestFrame ((m, e) :: hist) := Nat.le_max_left _ _
        have larger : largestFrame hist ≤ largestFrame ((m, e) :: hist) := Nat.le_max_right _ _
        constructor
        · rw [before.params_eq]
          exact mode
        · apply bounded.mono
          exact Nat.add_le_add (Nat.mul_le_mul_left _ more) larger
        · exact Nat.add_le_add (Nat.mul_le_mul_left _ clients) frame

/-- Unless a batch of slabs is accepted that names one twice, the wanted queues
and their records are bounded. In any state queues are popped from the front. -/
theorem wanted_bounded (fits : params.numBuffers ≤ params.maxNumBuffers)
    (mode : params.playbackMode = false)
    (run : Run params (fun _ m e => e.Owning m ∧ e.ListsOnce m) hist m) (below : ¬ m.AtLimit) :
    m.WantedBounded hist ∧
      ∀ (m : Manager) c, m.params.playbackMode = false → m.DropsInFront c := by
  have bounded := (run.bounded fits mode).resolve_left below
  constructor
  · exact ⟨bounded.queues, bounded.metered.size_le, bounded.peak⟩
  · intro m c mode
    exact dropsInFront c mode

end

/-! ## A batch that names a slab twice -/

/-- Three of four slabs can be reserved. -/
def threeReservable : Params := { fourSlabs with
  pctNonreservable := 25
  pct_nonneg := by decide
  pct_le := by decide }

/-- The second client, which can take one slab at a time, wants what the first one
sends. -/
def oneConsumer : List Event :=
  [.connect 1 fun _ => true, .connect 2 fun _ => true, .frame 0 (.numSlabs 2 0 true),
    .frame 1 (.numSlabs 0 1 true), .frame 1 (.registration .registerList 1 0 [7]),
    .frame 0 (.blocksAndInfo [segmentIn 0])]

/-- The second client holds slab 0 when the first one gives it back twice over. The
slab is granted again, and freed while the first client holds it. Segments of slab 3
then fill the second client's queue, and the frame that brings it over the bound ends
with one of slab 0, which is neither held nor wanted. -/
def givenBackTwice : List Event :=
  oneConsumer ++ [.frame 0 (.slabIDs [0, 0]), .frame 0 (.slabIDs [1, 2]), .frame 1 (.blockIDs [0]),
    .frame 0 (.blocksAndInfo [segmentIn 1])] ++
  List.replicate 28 (.frame 0 (.blocksAndInfo (List.replicate 36 (segmentIn 3)))) ++
  [.frame 0 (.blocksAndInfo (List.replicate 35 (segmentIn 3) ++ [segmentIn 0]))]

set_option maxRecDepth 2000 in
set_option synthInstance.maxSize 10000 in
theorem wanted_bounded_queueing : ∃ hist m,
    trace threeReservable (fun _ m e => e.Owning m ∧ e.ListsOnce m)
      (oneConsumer ++ [.frame 0 (.blocksAndInfo [segmentIn 1, segmentIn 1])]) = some (hist, m) ∧
    (m.proxy 1).wantedQueue.length = 2 ∧ m.WantedBounded hist := by
  have ran : (trace threeReservable (fun _ m e => e.Owning m ∧ e.ListsOnce m)
      (oneConsumer ++ [.frame 0 (.blocksAndInfo [segmentIn 1, segmentIn 1])])).any
      (fun run => ¬ run.2.AtLimit ∧ (run.2.proxy 1).wantedQueue.length = 2) = true := by
    decide +kernel
  obtain ⟨⟨hist, m⟩, eq, fine⟩ := (Option.any_eq_true _ _).mp ran
  obtain ⟨below, two⟩ := of_decide_eq_true fine
  exact ⟨hist, m, eq, two, (wanted_bounded (by decide) rfl (run_of_trace eq) below).1⟩

set_option maxRecDepth 2000 in
set_option synthInstance.maxSize 10000 in
theorem not_wanted_bounded : ¬ ∀ (params : Params) (hist : History) (m : Manager),
    params.numBuffers ≤ params.maxNumBuffers → params.playbackMode = false →
    Run params (fun _ m e => e.Owning m) hist m → m.WantedBounded hist := by
  intro always
  have ran : (trace threeReservable (fun _ m e => e.Owning m) givenBackTwice).any
      (fun run => 1 ∈ run.2.clients ∧ maxWantedQueueSize < (run.2.proxy 1).wantedQueue.length) =
      true := by
    decide +kernel
  obtain ⟨⟨hist, m⟩, eq, exceeded⟩ := (Option.any_eq_true _ _).mp ran
  obtain ⟨live, long⟩ := of_decide_eq_true exceeded
  have bounded := always threeReservable hist m (by decide) rfl (run_of_trace eq)
  exact absurd (bounded.queues 1 live) (Nat.not_le.mpr long)

end Manager
end Mcsb
