import Mcsb.Manager.Events

/-!
# What the calls are made of

Moving slabs and segments leaves the settings of the manager and of its clients
alone. A relation that goes on through such moves goes on through every call if
it does through the few calls that the others are made of: writes, drop reports,
growth, registrations and groups.
-/

namespace Mcsb
open Effect

set_option maxRecDepth 2000
set_option synthInstance.maxSize 10000

namespace SlabManager

/-- What reservations are made of. -/
abbrev reserves (sm : SlabManager) : Nat × Nat × Nat × Nat × ℚ :=
  (sm.numSlabsReserved, sm.numSlabsNonreservable, sm.numBuffers, sm.slabsPerBuf,
    sm.pctNonreservable)

/-- The ID is one that `GetSlabInfo` takes. -/
def Valid (sm : SlabManager) (s : Nat) : Prop := s / sm.slabsPerBuf < sm.numBuffers

/-- Reservations are left alone, a count that was at its limit stays so, and a
slab that becomes free is a valid one. -/
structure Calm (sm sm' : SlabManager) : Prop where
  reserves : sm'.reserves = sm.reserves
  limit : sm.limitReached = true → sm'.limitReached = true
  free : ∀ s ∈ sm'.freeSlabs, s ∈ sm.freeSlabs ∨ sm.Valid s

theorem valid_of_reserves {sm sm' : SlabManager} (same : sm'.reserves = sm.reserves) (s : Nat) :
    sm'.Valid s ↔ sm.Valid s := by
  simp only [reserves, Prod.mk.injEq] at same
  rw [Valid, Valid, same.2.2.1, same.2.2.2.1]

instance : IsPreorder SlabManager Calm where
  refl _ := ⟨rfl, id, fun _ => .inl⟩
  trans _ _ _ h h' := ⟨h'.reserves.trans h.reserves, fun at_ => h'.limit (h.limit at_),
    fun s mem => (h'.free s mem).elim (h.free s)
      fun valid => .inr ((valid_of_reserves h.reserves s).mp valid)⟩

/-- Moreover no record is taken from the pool of wanted segments. -/
structure Drains (sm sm' : SlabManager) : Prop extends Calm sm sm' where
  peak : sm'.freeWantedSegs.peak = sm.freeWantedSegs.peak
  metered : sm.freeWantedSegs.Metered → sm'.freeWantedSegs.Metered

instance : IsPreorder SlabManager Drains where
  refl _ := ⟨refl_of Calm _, rfl, id⟩
  trans _ _ _ h h' := ⟨trans_of Calm h.toCalm h'.toCalm, h'.peak.trans h.peak, h'.metered ∘ h.metered⟩

theorem Calm.drains {sm sm' : SlabManager} (h : sm.Calm sm')
    (pool : sm'.freeWantedSegs = sm.freeWantedSegs) : sm.Drains sm' :=
  ⟨h, by rw [pool], by rw [pool]; exact id⟩

instance {α : Type} (x : EStateM Exc SlabManager α) [h : Moves Drains x] : Moves Calm x :=
  h.mono fun _ _ => Drains.toCalm

instance (f : SlabManager → SlabManager) [h : ∀ sm, Same (f sm).reserves sm.reserves]
    [h' : ∀ sm, Same (f sm).limitReached sm.limitReached]
    [free : ∀ sm, Same (f sm).freeSlabs sm.freeSlabs] :
    Moves Calm (modify f : EStateM Exc SlabManager PUnit) :=
  .modify fun sm => ⟨(h sm).eq, (h' sm).eq ▸ id, fun _ mem => .inl ((free sm).eq ▸ mem)⟩

instance (f : SlabManager → SlabManager) [h : ∀ sm, Same (f sm).reserves sm.reserves]
    [h' : ∀ sm, Same (f sm).limitReached sm.limitReached]
    [free : ∀ sm, Same (f sm).freeSlabs sm.freeSlabs]
    [pool : ∀ sm, Same (f sm).freeWantedSegs sm.freeWantedSegs] :
    Moves Drains (modify f : EStateM Exc SlabManager PUnit) :=
  .modify fun sm => Calm.drains
    ⟨(h sm).eq, (h' sm).eq ▸ id, fun _ mem => .inl ((free sm).eq ▸ mem)⟩ (pool sm).eq

instance (sm : SlabManager) (s : Nat) (f : SlabInfo → SlabInfo) :
    Same (sm.updateInfo s f).reserves sm.reserves := ⟨rfl⟩

instance (sm : SlabManager) (s : Nat) (f : SlabInfo → SlabInfo) :
    Same (sm.updateInfo s f).limitReached sm.limitReached := ⟨rfl⟩

instance (sm : SlabManager) (s : Nat) (f : SlabInfo → SlabInfo) :
    Same (sm.updateInfo s f).freeSlabs sm.freeSlabs := ⟨rfl⟩

instance (sm : SlabManager) (s : Nat) (f : SlabInfo → SlabInfo) :
    Same (sm.updateInfo s f).freeWantedSegs sm.freeWantedSegs := ⟨rfl⟩

instance (s : Nat) : Moves Drains (modify (incrementHeld s) : EStateM Exc SlabManager PUnit) :=
  .modify fun _ => Calm.drains ⟨rfl, fun at_ => by simp [incrementHeld, at_], fun _ => .inl⟩ rfl

/-- The ID is valid, or the call throws and does nothing. -/
theorem wp_getSlabInfo {sm : SlabManager} {s : Nat} {Q : SlabInfo → SlabManager → Prop}
    {E : Exc → SlabManager → Prop} (ok : sm.Valid s → Q (sm.info s) sm)
    (err : ∀ what, E (.runtimeError what) sm) : wp (getSlabInfo s) sm Q E := by
  simp only [getSlabInfo, wp_bind, wp_get, wp_ite, wp_throw, wp_pure]
  split
  · exact err _
  · exact ok (Nat.not_le.mp ‹_›)

instance (s : Nat) : Moves Drains (getSlabInfo s) := by
  unfold getSlabInfo
  infer_instance

instance (s : Nat) : Moves Drains (getFreeSlab s) := by
  unfold getFreeSlab
  infer_instance

instance (n : Nat) : Moves Drains (getFreeSlabs n) := by
  induction n with
  | zero => exact Moves.pure
  | succ n ih =>
    refine Moves.get_bind fun sm => ?_
    split
    · exact refl_of Drains sm
    · rename_i slabID rest front
      rw [wp_bind, wp_modify]
      exact Moves.wp_trans (Calm.drains
        ⟨rfl, id, fun s mem => .inl (front ▸ List.mem_cons_of_mem slabID mem)⟩ rfl)

instance (slabIDs : List Nat) : Moves Drains (incrementHeldRefcnt slabIDs) := by
  induction slabIDs with
  | nil => exact Moves.pure
  | cons s slabIDs ih =>
    unfold incrementHeldRefcnt
    infer_instance

theorem mem_push_free {sm : SlabManager} {s t : Nat} (valid : sm.Valid s)
    (mem : t ∈ sm.freeSlabs ++ [s]) : t ∈ sm.freeSlabs ∨ sm.Valid t := by
  rcases List.mem_append.mp mem with before | here
  · exact .inl before
  · rw [List.mem_singleton.mp here]
    exact .inr valid

instance (s amount : Nat) : Moves Drains (decrementHeldRefcnt s amount) := ⟨fun sm => by
  rw [decrementHeldRefcnt, wp_bind]
  refine wp_getSlabInfo (fun valid => ?_) fun _ => refl_of Drains sm
  simp only [wp_bind, wp_ite, wp_modify, wp_throw, wp_pure]
  split
  · exact Calm.drains ⟨rfl, id, fun _ => .inl⟩ rfl
  · split
    · exact Calm.drains ⟨rfl, id, fun _ => .inl⟩ rfl
    · split
      · exact Calm.drains ⟨rfl, id, fun _ => .inl⟩ rfl
      · exact Calm.drains ⟨rfl, id, fun _ => mem_push_free valid⟩ rfl⟩

instance (c b s : Nat) : Moves Calm (getWantedSegment c b s) := by
  unfold getWantedSegment
  infer_instance

theorem wp_getWantedSegment_valid (sm : SlabManager) (c b s : Nat) :
    wp (getWantedSegment c b s) sm (fun seg _ => seg.blockID = b ∧ sm.Valid s)
      (fun _ _ => True) := by
  rw [getWantedSegment, wp_bind]
  refine wp_getSlabInfo (fun valid => ?_) fun _ => trivial
  simp only [wp_bind, wp_ite, wp_throw, wp_get, wp_modify, wp_pure, valid, and_self, ite_self]

instance (seg : WantedSegment) (s : Nat) : Moves Drains (releaseWantedSegment seg s) := ⟨fun sm => by
  rw [releaseWantedSegment, wp_bind]
  refine wp_getSlabInfo (fun valid => ?_) fun _ => refl_of Drains sm
  simp only [wp_bind, wp_ite, wp_modify, wp_throw, wp_pure]
  split
  · exact refl_of Drains sm
  · split
    · exact ⟨⟨rfl, id, fun _ => mem_push_free valid⟩, rfl, fun h => h.put seg.ref⟩
    · exact ⟨⟨rfl, id, fun _ => .inl⟩, rfl, fun h => h.put seg.ref⟩⟩

instance : Moves Drains frontWantedSegment := by
  refine Moves.bind_of inferInstance fun sm => ?_
  split
  · infer_instance
  · split
    · infer_instance
    · infer_instance

/-- What each new buffer keeps, all do. -/
theorem setNumBuffers_keeps {P : SlabManager → Prop}
    (add : ∀ sm : SlabManager, P sm → P sm.addBuffer)
    (count : ∀ sm numSlabsNonreservable, P sm → P { sm with numSlabsNonreservable })
    {sm : SlabManager} (h : P sm) (n : Nat) : P (sm.setNumBuffers n) := by
  have grown (k : Nat) (sm : SlabManager) (h : P sm) : P (addBuffer^[k] sm) := by
    induction k generalizing sm with
    | zero => exact h
    | succ k ih => exact ih sm.addBuffer (add sm h)
  unfold setNumBuffers
  split
  · exact h
  · exact count _ _ (grown _ sm h)

theorem limitReached_setNumBuffers (sm : SlabManager) (n : Nat) :
    (sm.setNumBuffers n).limitReached = sm.limitReached :=
  setNumBuffers_keeps (P := fun sm' => sm'.limitReached = sm.limitReached) (fun _ => id)
    (fun _ _ => id) rfl n

theorem slabsPerBuf_setNumBuffers (sm : SlabManager) (n : Nat) :
    (sm.setNumBuffers n).slabsPerBuf = sm.slabsPerBuf :=
  setNumBuffers_keeps (P := fun sm' => sm'.slabsPerBuf = sm.slabsPerBuf) (fun _ => id)
    (fun _ _ => id) rfl n

theorem release_eq (sm : SlabManager) (n : Nat) : ∃ numSlabsReserved,
    sm.releaseSlabReservation n = { sm with numSlabsReserved } := by
  unfold releaseSlabReservation
  split
  · exact ⟨_, rfl⟩
  · exact ⟨_, rfl⟩

theorem getSlabReservation_eq {sm sm' : SlabManager} {n : Nat}
    (h : sm.getSlabReservation n = some sm') : ∃ numSlabsReserved,
    sm' = { sm with numSlabsReserved } := by
  unfold getSlabReservation at h
  split at h
  · cases h
    exact ⟨_, rfl⟩
  · split at h
    · cases h
    · cases h
      exact ⟨_, rfl⟩

end SlabManager

namespace SlabTracker

/-- What a client was granted, and of how many slabs. -/
abbrev sizes (t : SlabTracker) : Nat × Nat × Nat :=
  (t.numProdSlabs, t.numConsSlabs, t.totalNumSlabs)

instance (slabIDs : List Nat) : Moves (Keeps sizes) (insertProdSlabs slabIDs) := by
  refine Moves.get_bind fun t => ?_
  have same : (slabIDs.foldl insertProdSlab t).sizes = t.sizes := by
    induction slabIDs generalizing t with
    | nil => rfl
    | cons s slabIDs ih => exact ih (t.insertProdSlab s)
  simp only [wp_bind, wp_set, wp_ite, wp_throw, wp_pure]
  split <;> exact same

instance (slabIDs : List Nat) : Moves (Keeps sizes) (eraseProdSlabs slabIDs) := by
  refine Moves.get_bind fun t => ?_
  have same : (slabIDs.foldl eraseProdSlab t).sizes = t.sizes := by
    induction slabIDs generalizing t with
    | nil => rfl
    | cons s slabIDs ih => exact ih (t.eraseProdSlab s)
  simp only [wp_bind, wp_set, wp_ite, wp_throw]
  split
  · rfl
  · split
    · rfl
    · exact same

instance (n : Nat) : Moves (Keeps sizes) (getAndEraseProdSlabs n) :=
  Moves.get_bind fun _ => rfl

instance (n : Nat) : Moves (Keeps sizes) (getAndEraseConsSlabs n) :=
  Moves.get_bind fun _ => rfl

instance (s : Nat) : Moves (Keeps sizes) (takeConsSlab s) := by
  refine Moves.get_bind fun t => ?_
  simp only [wp_bind, wp_set, wp_ite, wp_pure]
  split <;> rfl

theorem sizes_foldl_incrementCons (slabIDs : List Nat) (t : SlabTracker) :
    (slabIDs.foldl incrementCons t).sizes = t.sizes := by
  induction slabIDs generalizing t with
  | nil => rfl
  | cons s slabIDs ih => exact ih (t.incrementCons s)

theorem sizes_setCons (t : SlabTracker) (consSlabRefcnt : Nat → Nat) (consSlabsHeld : Nat) :
    ({ t with consSlabRefcnt, consSlabsHeld } : SlabTracker).sizes = t.sizes := rfl

theorem sizes_decrementCons (st : Nat × SlabTracker) (s : Nat) :
    (decrementCons st s).2.sizes = st.2.sizes := by
  obtain ⟨errs, t⟩ := st
  simp only [decrementCons]
  split <;> exact sizes_setCons ..

theorem sizes_foldl_decrementCons (slabIDs : List Nat) (st : Nat × SlabTracker) :
    (slabIDs.foldl decrementCons st).2.sizes = st.2.sizes := by
  induction slabIDs generalizing st with
  | nil => rfl
  | cons s slabIDs ih =>
    rw [List.foldl_cons, ih]
    exact sizes_decrementCons st s

instance (slabIDs : List Nat) : Moves (Keeps sizes) (decrementConsSlabs slabIDs) := by
  refine Moves.get_bind fun t => ?_
  have done := sizes_foldl_decrementCons slabIDs (0, t)
  have undone := (sizes_foldl_incrementCons slabIDs _).trans done
  revert done undone
  cases slabIDs.foldl decrementCons (0, t) with
  | mk errs t' =>
    intro done undone
    dsimp only
    split
    · exact done
    · exact undone

end SlabTracker

/-- What only the handlers made for it change in a proxy. -/
abbrev ClientProxy.settings (p : ClientProxy) : Nat × Nat × Sock × Bool × Int16 ×
    (Nat × Nat × Nat) × List UInt32 × Bool × Int × DropReporter × List (Nat × Nat) ×
    List (Nat × Nat) :=
  (p.clientID, p.addr, p.sock, p.sendFailed, p.groupID, p.slabs.sizes, p.registeredMsgIDs,
    p.wantRegistrations, p.prodNiceLevel, p.dropReporter, p.dropLog, p.announced)

abbrev Manager.settings (m : Manager) : Params × List Nat × ShmMapper × GroupManager ×
    (Nat × Nat × Nat) × (Nat → BlockInfo) × (Nat → ClientProxy) :=
  (m.params, m.clients, m.shmMapper, m.groupManager,
    (m.nextNewClientID, m.stats.droppedSegs, m.stats.droppedBytes), m.blockInfo, m.proxy)

theorem Manager.inner_setProxy {τ : Type} (inner : ClientProxy → τ) {m : Manager} {c : Nat}
    {p : ClientProxy} (same : inner p = inner (m.proxy c)) :
    (fun x => inner ((m.setProxy c p).proxy x)) = fun x => inner (m.proxy x) := by
  funext x
  by_cases here : x = c
  · rw [here, proxy_setProxy, same]
  · rw [proxy_setProxy_of_ne _ here]

/-- `~ClientProxy` up to the groups. -/
def giveUpSlabs (c : Nat) : Act Unit := do
  releaseQueue c (← getProxy c).wantedQueue
  let t := (← getProxy c).slabs
  modify fun m => { m with slabManager :=
    m.slabManager.releaseSlabReservation ((t.numProdSlabs + t.numConsSlabs) % 2 ^ 32) }
  if t.prodSlabsHeld ≠ 0 then
    let prodSlabIDs ← onTracker c (SlabTracker.getAndEraseProdSlabs t.prodSlabsHeld)
    swallow (decrementHeldRefcnt (prodSlabIDs.map (·, 1)))
  if t.consSlabsHeld ≠ 0 then
    let consSlabIDs ← onTracker c (SlabTracker.getAndEraseConsSlabs t.consSlabsHeld)
    swallow (decrementHeldRefcnt consSlabIDs)

/-- The rest of `~ClientProxy`. -/
def giveUpGroup (c : Nat) : Act Unit := do
  let p ← getProxy c
  if p.groupID ≠ 0 then
    onGroups (GroupManager.decGroupID p.groupID)
  swallow (deregisterAllMsgIDs c p.groupID (regMessages p.registeredMsgIDs))

theorem destroyProxy_eq (c : Nat) :
    destroyProxy c = (giveUpSlabs c >>= fun _ => giveUpGroup c) := by
  simp only [destroyProxy, giveUpSlabs, giveUpGroup, bind_assoc]
  refine bind_congr fun _ => bind_congr fun _ => bind_congr fun p => bind_congr fun _ => ?_
  by_cases prod : p.slabs.prodSlabsHeld = 0 <;> by_cases cons : p.slabs.consSlabsHeld = 0 <;>
    simp [prod, cons]

/-- A relation that goes on when nothing about the slabs changes. -/
class Gentle (R : Manager → Manager → Prop) : Prop extends IsPreorder Manager R where
  beside : ∀ {m m'}, m'.settings = m.settings → m'.slabManager = m.slabManager →
    m'.slabRqstManager = m.slabRqstManager → m'.limitReached = m.limitReached →
    m'.outOfRange = m.outOfRange → R m m'
  pending : ∀ {m c p}, p.settings = (m.proxy c).settings → p.slabs = (m.proxy c).slabs →
    p.wantedQueue = (m.proxy c).wantedQueue → R m (m.setProxy c p)

/-- A relation that goes on when slabs are moved, within range. -/
class Moving (R : Manager → Manager → Prop) : Prop extends IsPreorder Manager R where
  inside : ∀ {m m'}, m'.settings = m.settings → m.slabManager.Drains m'.slabManager →
    (m.limitReached = true → m'.limitReached = true) → m'.outOfRange = m.outOfRange → R m m'
  proxy : ∀ {m c p}, p.settings = (m.proxy c).settings →
    p.wantedQueue = (m.proxy c).wantedQueue → R m (m.setProxy c p)

/-- A relation that goes on when slabs are moved, within range, and when wanted
segments leave. -/
class Draining (R : Manager → Manager → Prop) : Prop extends IsPreorder Manager R where
  inside : ∀ {m m'}, m'.settings = m.settings → m.slabManager.Drains m'.slabManager →
    (m.limitReached = true → m'.limitReached = true) → m'.outOfRange = m.outOfRange → R m m'
  proxy : ∀ {m c p}, p.settings = (m.proxy c).settings →
    p.wantedQueue.Sublist (m.proxy c).wantedQueue → R m (m.setProxy c p)

/-- A relation that goes on when slabs are moved, within range, and when wanted
segments leave or segments of valid slabs are queued. -/
class Orderly (R : Manager → Manager → Prop) : Prop extends IsPreorder Manager R where
  inside : ∀ {m m'}, m'.settings = m.settings → m.slabManager.Calm m'.slabManager →
    (m.limitReached = true → m'.limitReached = true) → m'.outOfRange = m.outOfRange → R m m'
  proxy : ∀ {m c p}, p.settings = (m.proxy c).settings →
    p.wantedQueue ⊆ (m.proxy c).wantedQueue → R m (m.setProxy c p)
  queued : ∀ {m c seg}, m.slabManager.Valid (seg.blockID / m.blocksPerSlab) →
    R m (m.setProxy c { m.proxy c with wantedQueue := (m.proxy c).wantedQueue ++ [seg] })

/-- A relation that goes on when slabs and segments are moved. -/
class Steady (R : Manager → Manager → Prop) : Prop extends IsPreorder Manager R where
  inside : ∀ {m m'}, m'.settings = m.settings → m.slabManager.Calm m'.slabManager →
    (m.limitReached = true → m'.limitReached = true) → R m m'
  proxy : ∀ {m c p}, p.settings = (m.proxy c).settings → R m (m.setProxy c p)

instance {R : Manager → Manager → Prop} [Steady R] : Orderly R where
  inside same calm limit _ := Steady.inside same calm limit
  proxy same _ := Steady.proxy same
  queued _ := Steady.proxy rfl

instance {R : Manager → Manager → Prop} [Orderly R] : Draining R where
  inside same drains := Orderly.inside same drains.toCalm
  proxy same queue := Orderly.proxy same queue.subset

instance {R : Manager → Manager → Prop} [Draining R] : Moving R where
  inside := Draining.inside
  proxy same queue := Draining.proxy same (queue ▸ List.Sublist.refl _)

instance {R : Manager → Manager → Prop} [Moving R] : Gentle R where
  beside same slabs _ limit range := Moving.inside same (slabs ▸ refl_of _ _) (limit ▸ id) range
  pending same _ queue := Moving.proxy same queue

/-- Requests for slabs may come and go. -/
class Requesting (R : Manager → Manager → Prop) : Prop where
  requesting : ∀ {m} slabRqstManager, R m (m.setRequests slabRqstManager)

instance {R : Manager → Manager → Prop} [Moving R] : Requesting R where
  requesting _ := Moving.inside rfl (refl_of _ _) id rfl

/-- The sockets may take and refuse whatever is written. -/
class Sending (R : Manager → Manager → Prop) : Prop where
  sending : ∀ {m c} sock sendFailed, R m (m.setProxy c { m.proxy c with sock, sendFailed })

/-- Drops may be recorded and reported. -/
class Reporting (R : Manager → Manager → Prop) : Prop where
  reporting : ∀ {m c} dropReporter dropLog,
    R m (m.setProxy c { m.proxy c with dropReporter, dropLog })
  dropped : ∀ {m} droppedSegs droppedBytes,
    R m { m with stats := { m.stats with droppedSegs, droppedBytes } }

/-- Registrations may change. -/
class Registering (R : Manager → Manager → Prop) : Prop where
  registering : ∀ {m c} registeredMsgIDs,
    R m (m.setProxy c { m.proxy c with registeredMsgIDs })

/-- Clients may ask for registrations. -/
class Wanting (R : Manager → Manager → Prop) : Prop where
  wanting : ∀ {m c} wantRegistrations,
    R m (m.setProxy c { m.proxy c with wantRegistrations })

/-- Producers may change their levels. -/
class Ranking (R : Manager → Manager → Prop) : Prop where
  ranking : ∀ {m c} prodNiceLevel, R m (m.setProxy c { m.proxy c with prodNiceLevel })

/-- Groups may change. -/
class Grouping (R : Manager → Manager → Prop) : Prop where
  groups : ∀ {m} groupManager, R m { m with groupManager }
  member : ∀ {m c} groupID, R m (m.setProxy c { m.proxy c with groupID })

/-- Block infos may be overwritten. -/
class Copying (R : Manager → Manager → Prop) : Prop where
  blockInfo : ∀ {m} blockInfo rcvdBytes,
    R m { m with blockInfo, stats := { m.stats with rcvdBytes } }

/-- Trackers may be resized, and the buffers announced. -/
class Resizing (R : Manager → Manager → Prop) : Prop where
  resized : ∀ {m c} n announced, R m (m.setProxy c { m.proxy c with
    slabs := (m.proxy c).slabs.setTotalNumSlabs n, announced })

/-- Reservations may change. -/
class Reserving (R : Manager → Manager → Prop) : Prop where
  reserved : ∀ {m} numSlabsReserved,
    R m { m with slabManager := { m.slabManager with numSlabsReserved } }
  granted : ∀ {m c} numProdSlabs numConsSlabs, R m (m.setProxy c { m.proxy c with
    slabs := { (m.proxy c).slabs with numProdSlabs, numConsSlabs } })

/-- Buffers may be mapped and added. -/
class Extending (R : Manager → Manager → Prop) : Prop where
  mapped : ∀ {m} shmMapper, R m { m with shmMapper }
  extended : ∀ {m} n, R m { m with slabManager := m.slabManager.setNumBuffers n }

/-- Buffers and reservations may change. -/
class Growing (R : Manager → Manager → Prop) : Prop where
  buffers : ∀ {m} shmMapper slabManager,
    (m.slabManager.limitReached = true → slabManager.limitReached = true) →
    R m { m with shmMapper, slabManager }
  granted : ∀ {m c} numProdSlabs numConsSlabs, R m (m.setProxy c { m.proxy c with
    slabs := { (m.proxy c).slabs with numProdSlabs, numConsSlabs } })

namespace Steady
variable {R : Manager → Manager → Prop} [Steady R]

instance (c : Nat) (slabIDs : List Nat) : Moves R (indexing c slabIDs) :=
  .modify fun _ => inside rfl (refl_of _ _) id

instance (c : Nat) (wantedQueue : List WantedSegment) :
    Moves R (modifyProxy c fun p => { p with wantedQueue }) := .modify fun _ => proxy rfl

end Steady

namespace Gentle
variable {R : Manager → Manager → Prop} [Gentle R] {α : Type}

instance (f : Manager → Manager) [h : ∀ m, Same (f m).settings m.settings]
    [slabs : ∀ m, Same (f m).slabManager m.slabManager]
    [limit : ∀ m, Same (f m).limitReached m.limitReached]
    [range : ∀ m, Same (f m).outOfRange m.outOfRange]
    [requests : ∀ m, Same (f m).slabRqstManager m.slabRqstManager] :
    Moves R (modify f : Act PUnit) :=
  .modify fun m => beside (h m).eq (slabs m).eq (requests m).eq (limit m).eq (range m).eq

instance (level : Int) (numSlabs c : Nat) (arg : Manager → Nat) [Requesting R] :
    Moves R (modify fun m => { m with
      slabRqstManager := m.slabRqstManager.addRequest level numSlabs c (arg m) } : Act PUnit) :=
  .modify fun _ => Requesting.requesting _

instance (c : Nat) (f : ClientProxy → ClientProxy) [h : ∀ p, Same (f p).settings p.settings]
    [slabs : ∀ p, Same (f p).slabs p.slabs] [queue : ∀ p, Same (f p).wantedQueue p.wantedQueue] :
    Moves R (modifyProxy c f) :=
  .modify fun _ => pending (h _).eq (slabs _).eq (queue _).eq

instance (what : String) : Moves R (fail what) := inferInstanceAs (Moves R (throw _))

instance (c : Nat) : Moves R (getProxy c) := inferInstanceAs (Moves R (_ <$> get))

instance (x : Act Unit) [hx : Moves R x] : Moves R (swallow x) := ⟨fun m => by
  have moved := hx.moves m
  unfold wp swallow at *
  cases eq : x m with
  | ok a m' => simpa only [eq] using moved
  | error e m' => cases e <;> simpa only [eq] using moved⟩

instance (c : Nat) (call : HandlerCall) [h : Moves R (sendOn c c (.ctrl call))] :
    Moves R (sendCtrl c call) := h

instance (c : Nat) (kind : List Nat → Sent) (ids : List Nat) [Moves R (sendOn c c (kind ids))] :
    Moves R (sendIDs c kind ids) := by
  unfold sendIDs
  infer_instance

/-! ## Slabs -/

instance (fuel : Nat) [Requesting R] [∀ level req, Moves R (serveRequest level req)] :
    Moves R (serviceLoop fuel) := by
  induction fuel with
  | zero => exact inferInstanceAs (Moves R (throw _))
  | succ fuel ih =>
    refine Moves.get_bind fun m => ?_
    rw [wp_ite]
    split
    · exact refl_of R m
    · split
      · exact refl_of R m
      · rename_i level _
        split
        · exact refl_of R m
        · rename_i req slabRqstManager popped
          rw [wp_bind, wp_set]
          exact Moves.wp_trans (Requesting.requesting slabRqstManager)

instance [∀ fuel, Moves R (serviceLoop fuel)] : Moves R serviceSlabRequests := by
  unfold serviceSlabRequests
  infer_instance

instance (change : Option StateChange) [Moves R serviceSlabRequests] :
    Moves R (handleSlabStateChange change) := by
  unfold handleSlabStateChange
  split <;> infer_instance

instance (count : Nat) [∀ orig count fuel, Moves R (harvestLoop orig count fuel)] :
    Moves R (harvestWantedSlabs count) := by
  unfold harvestWantedSlabs
  infer_instance

instance (c : Nat) [∀ n niceLevel, Moves R (requestFreeSlabs n c niceLevel)] :
    Moves R (fillProducerSlabs c) := by
  unfold fillProducerSlabs
  infer_instance

/-! ## Segments -/

instance (c : Nat) (blocks : List (Nat × Nat)) [∀ ids, Moves R (sendOn c c (.blockIDs ids))] :
    Moves R (proxySendBlockIDs c blocks) := by
  unfold proxySendBlockIDs
  infer_instance

instance (c : Nat) (seg : WantedSegment) [∀ s, Moves R (takeConsSlab c s)]
    [∀ s size, Moves R (sendWanted c s seg size)] [Moves R (popFrontWanted c seg)]
    [∀ segs bytes, Moves R (sendDropReport c segs bytes)] : Moves R (popWanted c seg) := by
  unfold popWanted
  infer_instance

instance (c fuel : Nat) [∀ seg, Moves R (popWanted c seg)] : Moves R (popLoop c fuel) := by
  induction fuel with
  | zero => exact inferInstanceAs (Moves R (throw _))
  | succ fuel ih =>
    refine Moves.bind_of inferInstance fun p => ?_
    split <;> infer_instance

instance (c : Nat) [∀ fuel, Moves R (popLoop c fuel)] : Moves R (popWantedQueue c) := by
  unfold popWantedQueue
  infer_instance

instance (c : Nat) (queueing : Bool) (segs : List Segment) [∀ s, Moves R (takeConsSlab c s)] :
    Moves R (sortSegments c queueing segs) := by
  induction segs generalizing queueing with
  | nil => cases queueing <;> exact inferInstanceAs (Moves R (pure _))
  | cons seg segs ih => cases queueing <;> (unfold sortSegments; infer_instance)

instance (c : Nat) (segs : List Segment) [∀ queueing segs, Moves R (sortSegments c queueing segs)]
    [∀ send, Moves R (sendTaken c send)] [∀ want, Moves R (queueSegments c want)]
    [Moves R (popWantedQueue c)] : Moves R (sendSegments c segs) := by
  unfold sendSegments
  infer_instance

instance (segs : List Segment) (gid : Int16) (cs : List Nat) [∀ c, Moves R (sendSegments c segs)] :
    Moves R (offerSegments segs gid cs) := by
  induction cs with
  | nil => exact inferInstanceAs (Moves R (pure _))
  | cons c cs ih =>
    unfold offerSegments
    infer_instance

instance (segs : List Segment) (gid : Int16) [Moves R (copyInfos segs)]
    [∀ cs, Moves R (offerSegments segs gid cs)] : Moves R (takeBlocksAndInfo segs gid) := by
  unfold takeBlocksAndInfo
  infer_instance

instance (c : Nat) (segs : List Segment) : Moves R (checkCCI c segs) := by
  induction segs with
  | nil => exact inferInstanceAs (Moves R (pure _))
  | cons seg segs ih =>
    unfold checkCCI
    infer_instance

instance (c : Nat) (segs : List Segment) [∀ gid, Moves R (takeBlocksAndInfo segs gid)] :
    Moves R (handleBlocksAndInfo c segs) := by
  unfold handleBlocksAndInfo
  infer_instance

instance (c : Nat) (slabIDs : List Nat) [Moves R (releaseProdSlabs c slabIDs)]
    [Moves R (fillProducerSlabs c)] : Moves R (handleSlabIDs c slabIDs) := by
  unfold handleSlabIDs
  infer_instance

instance (c : Nat) (queue : List WantedSegment)
    [∀ wantedQueue, Moves R (modifyProxy c fun p => { p with wantedQueue })]
    [∀ seg, Moves R (releaseWantedSegment seg)] : Moves R (releaseQueue c queue) := by
  induction queue with
  | nil => exact inferInstanceAs (Moves R (pure _))
  | cons seg rest ih =>
    unfold releaseQueue
    infer_instance

/-! ## Buffers and registrations -/

instance (cs : List Nat) [∀ c, Moves R (checkBufferParams c)] :
    Moves R (checkAllBufferParams cs) := by
  induction cs with
  | nil => exact inferInstanceAs (Moves R (pure _))
  | cons c cs ih =>
    unfold checkAllBufferParams
    infer_instance

instance (c : Nat) (prodSlbs consSlbs : UInt32) (ok : Bool)
    [Moves R (grantNumSlabs c prodSlbs consSlbs ok)] [Moves R (fillProducerSlabs c)] :
    Moves R (handleNumSlabs c prodSlbs consSlbs ok) := by
  unfold handleNumSlabs
  infer_instance

instance (c : Nat) (type : RegType) (cid gid : Int16) (messages : List (List UInt32))
    [∀ msgIDs, Moves R (sendOn c c (.ctrl (.registration type cid gid msgIDs)))] :
    Moves R (sendRegistrationOn c c type cid gid messages) := by
  induction messages with
  | nil => exact inferInstanceAs (Moves R (pure _))
  | cons msgIDs rest ih =>
    unfold sendRegistrationOn
    infer_instance

instance (type : RegType) (cid gid : Int16) (msgIDs : List UInt32) (cs : List Nat)
    [∀ c messages, Moves R (sendRegistrationOn c c type cid gid messages)] :
    Moves R (sendRegistration type cid gid msgIDs cs) := by
  induction cs with
  | nil => exact inferInstanceAs (Moves R (pure _))
  | cons c cs ih =>
    unfold sendRegistration
    infer_instance

instance (c : Nat) (type : RegType) (cid gid : Int16) (msgIDs : List UInt32)
    [∀ msgIDs, Moves R (registerMsgIDs c msgIDs)] [∀ msgIDs, Moves R (deregisterMsgIDs c msgIDs)]
    [∀ type msgIDs cs, Moves R (sendRegistration type cid gid msgIDs cs)] :
    Moves R (handleRegistration c type cid gid msgIDs) := by
  unfold handleRegistration
  cases type <;> infer_instance

/-! ## What else a relation may go on through -/

instance (c fd : Nat) (sent : Sent) [Sending R] : Moves R (sendOn c fd sent) := ⟨fun m => by
  have wrote (m : Manager) (x : Nat) (p : ClientProxy) (eq : p = m.proxy x) (sock : Sock)
      (sendFailed : Bool) : R m (m.setProxy x { p with sock, sendFailed }) :=
    eq ▸ Sending.sending sock sendFailed
  simp only [sendOn, wp_bind, wp_getProxy, wp_ite, wp_fail, wp_modifyProxy]
  split
  · exact refl_of R m
  · split
    · exact wrote m fd _ rfl _ (m.proxy fd).sendFailed
    · exact trans_of R (wrote m fd _ rfl _ (m.proxy fd).sendFailed)
        (wrote _ c _ rfl (Manager.proxy _ c).sock true)⟩

section reporting
variable [Reporting R]

instance (c segs bytes : Nat) [∀ segs bytes, Moves R (sendCtrl c (.dropReport segs bytes))] :
    Moves R (sendDropReport c segs bytes) := by
  have log : Moves R (modifyProxy c fun p => { p with
      dropReporter := p.dropReporter.dropped segs bytes
      dropLog := p.dropLog ++ [(segs, bytes)] }) :=
    .modify fun _ => Reporting.reporting _ _
  have reporter (dropReporter : DropReporter) :
      Moves R (modifyProxy c fun p => { p with dropReporter }) :=
    .modify fun m => Reporting.reporting dropReporter (m.proxy c).dropLog
  have stats : Moves R (modify fun m => { m with stats := { m.stats with
      droppedSegs := m.stats.droppedSegs + segs
      droppedBytes := m.stats.droppedBytes + bytes } } : Act PUnit) :=
    .modify fun _ => Reporting.dropped _ _
  unfold sendDropReport
  refine Moves.bind_of inferInstance fun _ => Moves.bind_of inferInstance fun p =>
    Moves.bind_of inferInstance fun _ => ?_
  split <;> infer_instance

instance (c : Nat) [Moves R (sendDropReport c 0 0)] : Moves R (handleDropReportAck c) := by
  have ack : Moves R (modifyProxy c fun p => { p with dropReporter := p.dropReporter.ack }) :=
    .modify fun m => Reporting.reporting _ (m.proxy c).dropLog
  unfold handleDropReportAck
  infer_instance

end reporting

section registering
variable [Registering R]

instance (c : Nat) (f : ClientProxy → List UInt32) :
    Moves R (modifyProxy c fun p => { p with registeredMsgIDs := f p }) :=
  .modify fun _ => Registering.registering _

instance (c : Nat) (msgIDs : List UInt32) : Moves R (registerMsgIDs c msgIDs) := by
  induction msgIDs with
  | nil => exact inferInstanceAs (Moves R (pure _))
  | cons msgID msgIDs ih =>
    unfold registerMsgIDs
    infer_instance

instance (c : Nat) (msgIDs : List UInt32) : Moves R (deregisterMsgIDs c msgIDs) := by
  induction msgIDs with
  | nil => exact inferInstanceAs (Moves R (pure _))
  | cons msgID msgIDs ih =>
    unfold deregisterMsgIDs
    infer_instance

instance (c : Nat) (gid : Int16) (messages : List (List UInt32))
    [∀ type cid msgIDs cs, Moves R (sendRegistration type cid gid msgIDs cs)] :
    Moves R (deregisterAllMsgIDs c gid messages) := by
  induction messages with
  | nil => exact inferInstanceAs (Moves R (pure _))
  | cons msgIDs rest ih =>
    unfold deregisterAllMsgIDs
    infer_instance

end registering

instance (c fd : Nat) (cid gid : Int16) (messages : List (List UInt32))
    [∀ msgIDs, Moves R (sendOn c fd (.ctrl (.registration .registerList cid gid msgIDs)))] :
    Moves R (sendRegistrationsLoop c fd cid gid messages) := by
  induction messages with
  | nil => exact inferInstanceAs (Moves R (pure _))
  | cons msgIDs rest ih =>
    unfold sendRegistrationsLoop
    infer_instance

instance (fd : Nat) (cs : List Nat)
    [∀ c cid gid messages, Moves R (sendRegistrationsLoop c fd cid gid messages)] :
    Moves R (sendRegistrationsToFD fd cs) := by
  induction cs with
  | nil => exact inferInstanceAs (Moves R (pure _))
  | cons c cs ih =>
    unfold sendRegistrationsToFD
    infer_instance

instance (c : Nat) (wantNew wantCurrent : Bool) [Wanting R]
    [∀ cs, Moves R (sendRegistrationsToFD c cs)] :
    Moves R (handleRegistrationsWanted c wantNew wantCurrent) := by
  have want : Moves R (modifyProxy c fun p => { p with wantRegistrations := wantNew }) :=
    .modify fun _ => Wanting.wanting wantNew
  unfold handleRegistrationsWanted
  infer_instance

instance (c : Nat) (prodNiceLevel : Int) [Ranking R] :
    Moves R (modifyProxy c fun p => { p with prodNiceLevel }) :=
  .modify fun _ => Ranking.ranking prodNiceLevel

section grouping
variable [Grouping R]

instance (x : EStateM Exc GroupManager α) : Moves R (onGroups x) := ⟨fun m => by
  rw [onGroups, wp_zoom]
  unfold wp
  split <;> exact Grouping.groups _⟩

instance (c : Nat) (groupID : Int16) : Moves R (modifyProxy c fun p => { p with groupID }) :=
  .modify fun _ => Grouping.member groupID

instance (c : Nat) (str : String) [∀ id, Moves R (sendCtrl c (.groupID id))] :
    Moves R (handleGroupIDStr c str) := by
  unfold handleGroupIDStr
  infer_instance

end grouping

instance (segs : List Segment) [Copying R] : Moves R (copyInfos segs) := by
  have copy (infos : Manager → Nat → BlockInfo) (rcvdBytes : Manager → Nat) :
      Moves R (modify fun m => { m with
        blockInfo := infos m, stats := { m.stats with rcvdBytes := rcvdBytes m } } : Act PUnit) :=
    .modify fun _ => Copying.blockInfo _ _
  induction segs with
  | nil => exact inferInstanceAs (Moves R (pure _))
  | cons seg segs ih =>
    unfold copyInfos
    infer_instance

instance (c : Nat) [Resizing R] [∀ which str, Moves R (sendCtrl c (.ctrlString which str))] :
    Moves R (checkBufferParams c) := by
  have resize (n : Nat) (announced : ClientProxy → List (Nat × Nat)) :
      Moves R (modifyProxy c fun p =>
        { p with slabs := p.slabs.setTotalNumSlabs n, announced := announced p }) :=
    .modify fun _ => Resizing.resized n _
  unfold checkBufferParams
  infer_instance

instance [Growing R] : Reserving R where
  reserved _ := Growing.buffers _ _ id
  granted := Growing.granted

instance [Growing R] : Extending R where
  mapped {m} shmMapper := Growing.buffers shmMapper m.slabManager id
  extended _ := Growing.buffers _ _ fun at_ => by rwa [SlabManager.limitReached_setNumBuffers]

section growing
variable [Extending R]

instance (n : Nat) : Moves R (createAndMap n) := by
  induction n with
  | zero => exact inferInstanceAs (Moves R (pure _))
  | succ n ih =>
    refine Moves.get_bind fun m => ?_
    dsimp only
    split
    · exact Extending.mapped _
    · exact wp_bind.mpr (wp_set.mpr (Moves.wp_trans (Extending.mapped _)))
    · exact wp_bind.mpr (wp_set.mpr (Moves.wp_trans (Extending.mapped _)))

instance (n : Nat) [∀ cs, Moves R (checkAllBufferParams cs)] :
    Moves R (increaseNumBuffers n) := by
  refine Moves.get_bind fun m => ?_
  simp only [wp_ite, wp_pure]
  split
  · exact refl_of R m
  · generalize (if n = 0 then m.shmMapper.numBuffers + 1 else n) = b
    split
    · exact refl_of R m
    · refine wp_bind.mpr (wp_mono (Moves.moves (R := R) m) (fun _ m' first => ?_) (fun _ _ => id))
      simp only [wp_bind, wp_get, wp_ite, wp_fail, wp_set, wp_pure]
      split
      · exact first
      · exact Moves.wp_trans (trans_of R first (Extending.extended _))

end growing

section reserving
variable [Reserving R]

instance (n fuel : Nat) [Moves R (increaseNumBuffers 0)] : Moves R (reserveLoop n fuel) := by
  induction fuel with
  | zero => exact inferInstanceAs (Moves R (throw _))
  | succ fuel ih =>
    apply Moves.get_bind
    intro m
    split
    · rename_i reserved
      obtain ⟨n, rfl⟩ := SlabManager.getSlabReservation_eq reserved
      exact Reserving.reserved n
    · exact Moves.moves (R := R) m

instance (n : Nat) [∀ fuel, Moves R (reserveLoop n fuel)] : Moves R (getSlabReservation n) := by
  unfold getSlabReservation
  infer_instance

instance (c n n' : Nat) : Moves R (modifyProxy c fun p => { p with
    slabs := { p.slabs with numProdSlabs := n, numConsSlabs := n' } }) :=
  .modify fun _ => Reserving.granted n n'

instance (c : Nat) (prodSlbs consSlbs : UInt32) (ok : Bool) [∀ n, Moves R (getSlabReservation n)]
    [∀ n n', Moves R (sendCtrl c (.numSlabs n n'))] :
    Moves R (grantNumSlabs c prodSlbs consSlbs ok) := by
  unfold grantNumSlabs
  infer_instance

instance (n : Nat) : Moves R (modify fun m => { m with
    slabManager := m.slabManager.releaseSlabReservation n } : Act PUnit) :=
  .modify fun m => by
    obtain ⟨numSlabsReserved, eq⟩ := m.slabManager.release_eq n
    rw [eq]
    exact Reserving.reserved numSlabsReserved

end reserving

instance (c : Nat) [Grouping R] [∀ gid messages, Moves R (deregisterAllMsgIDs c gid messages)] :
    Moves R (giveUpGroup c) := by
  unfold giveUpGroup
  infer_instance

instance (c : Nat) [Moves R (giveUpSlabs c)] [Moves R (giveUpGroup c)] :
    Moves R (destroyProxy c) := by
  rw [destroyProxy_eq]
  infer_instance

/-- A handler goes on through `R` if each does. -/
theorem moves_handle {c : Nat} {f : Frame} [∀ ids, Moves R (handleBlockIDs c ids)]
    [∀ ids, Moves R (handleSlabIDs c ids)] [∀ segs, Moves R (handleBlocksAndInfo c segs)]
    [∀ prod cons ok, Moves R (handleNumSlabs c prod cons ok)] [Moves R (handleDropReportAck c)]
    [∀ bytes, Moves R (sendCtrl c (.managerEcho bytes))]
    [∀ token, Moves R (sendCtrl c (.sequenceToken token))] [∀ str, Moves R (handleGroupIDStr c str)]
    [∀ id, Moves R (modifyProxy c fun p => { p with groupID := id })]
    (registration : ∀ type cid gid msgIDs, f = .registration type cid gid msgIDs →
      Moves R (handleRegistration c type cid gid msgIDs))
    (wanted : ∀ new current, f = .registrationsWanted new current →
      Moves R (handleRegistrationsWanted c new current))
    (level : ∀ level, f = .prodNiceLevel level → Moves R (modifyProxy c fun p =>
      { p with prodNiceLevel := level.toInt.bmod (2 ^ 8) })) : Moves R (f.handle c) := by
  cases f with
  | blockIDs ids => exact inferInstanceAs (Moves R (handleBlockIDs c ids))
  | slabIDs ids => exact inferInstanceAs (Moves R (handleSlabIDs c ids))
  | blocksAndInfo segs => exact inferInstanceAs (Moves R (handleBlocksAndInfo c segs))
  | numSlabs prod cons ok => exact inferInstanceAs (Moves R (handleNumSlabs c prod cons ok))
  | registration type cid gid msgIDs => exact registration type cid gid msgIDs rfl
  | registrationsWanted new current => exact wanted new current rfl
  | dropReportAck => exact inferInstanceAs (Moves R (handleDropReportAck c))
  | prodNiceLevel n => exact level n rfl
  | managerEcho bytes => exact inferInstanceAs (Moves R (sendCtrl c (.managerEcho bytes)))
  | sequenceToken token => exact inferInstanceAs (Moves R (sendCtrl c (.sequenceToken token)))
  | groupID id => exact inferInstanceAs (Moves R (modifyProxy c fun p => { p with groupID := id }))
  | groupIDStr str => exact inferInstanceAs (Moves R (handleGroupIDStr c str))
  | invalid => exact inferInstanceAs (Moves R (fail _))
  | ignored => exact inferInstanceAs (Moves R (pure ()))

/-! ## New clients -/

theorem wp_getNewClientID (fuel : Nat) (m : Manager) : wp (getNewClientID fuel) m
    (fun c m' => c ∉ m.clients ∧ ∃ nextNewClientID, m' = { m with nextNewClientID } ∧
      (m.nextNewClientID ≤ kMaxClientID → c ≤ kMaxClientID ∧ nextNewClientID ≤ kMaxClientID))
    (fun _ _ => True) := by
  induction fuel generalizing m with
  | zero => trivial
  | succ fuel ih =>
    have next_le : (if kMaxClientID ≤ m.nextNewClientID then 0 else m.nextNewClientID + 1) ≤
        kMaxClientID := by
      split <;> omega
    simp only [getNewClientID, wp_bind, wp_get, wp_set, wp_ite, wp_pure]
    split
    · refine wp_mono (ih _) ?_ (fun _ _ => id)
      rintro c m' ⟨new, next, rfl, le⟩
      exact ⟨new, next, rfl, fun _ => le next_le⟩
    · exact ⟨‹_›, _, rfl, fun le => ⟨le, next_le⟩⟩

/-- A connection refused changes nothing. Otherwise a proxy is made for a new
client, its calls are made, and the client joins or the proxy is dropped. -/
theorem wp_addConnectedClient_numbered [∀ c, Moves R (checkBufferParams c)]
    [∀ c, Moves R (fillProducerSlabs c)]
    [∀ c magic version, Moves R (sendCtrl c (.validatePeer magic version))]
    [∀ c id, Moves R (sendCtrl c (.clientID id))] {m : Manager} {addr : Nat} {accepts : Nat → Bool}
    {Q : Manager → Prop} (refused : Q m)
    (made : ∀ c nextNewClientID m', c ∉ m.clients →
      (m.nextNewClientID ≤ kMaxClientID → c ≤ kMaxClientID ∧ nextNewClientID ≤ kMaxClientID) →
      R (Manager.setProxy { m with nextNewClientID } c
        { clientID := c, addr, sock := { accepts } }) m' →
      Q { m' with clients := m'.clients.orderedInsert (· ≤ ·) c } ∧ Q m') :
    wp (addConnectedClient addr accepts) m (fun _ m' => Q m') (fun _ _ => True) := by
  simp only [addConnectedClient, wp_bind, wp_get, wp_ite, wp_pure]
  split
  · exact refused
  · refine wp_mono (wp_getNewClientID _ m) ?_ (fun _ _ => id)
    rintro c _ ⟨new, next, rfl, small⟩
    have made := fun m' => made c next m' new small
    generalize fresh : Manager.setProxy { m with nextNewClientID := next } c
      { clientID := c, addr, sock := { accepts } } = m₁ at made
    have on (x k : Act Unit) [Moves R x]
        (rest : ∀ m', R m₁ m' → wp k m' (fun _ => Q) (fun _ => Q)) (m' : Manager)
        (before : R m₁ m') : wp (x >>= fun _ => k) m' (fun _ => Q) (fun _ => Q) :=
      wp_bind.mpr (wp_mono (Moves.moves (R := R) m')
        (fun _ _ step => rest _ (trans_of R before step))
        (fun _ _ step => (made _ (trans_of R before step)).2))
    have built : ∀ m', R m₁ m' → wp (do
        sendCtrl c (.validatePeer kProtocolMagic kProtocolVersion)
        sendCtrl c (.clientID (Int16.ofNat c))
        checkBufferParams c
        fillProducerSlabs c
        modify fun m => { m with clients := m.clients.orderedInsert (· ≤ ·) c }) m'
          (fun _ => Q) (fun _ => Q) :=
      on _ _ (on _ _ (on _ _ (on _ _ fun m' before => wp_modify.mpr (made m' before).1)))
    subst fresh
    refine wp_swallow.mpr (wp_mono (built _ (refl_of R _)) (fun _ _ => id) (fun e m' kept => ?_))
    cases e with
    | runtimeError what => exact kept
    | stuck => trivial

theorem wp_addConnectedClient [∀ c, Moves R (checkBufferParams c)]
    [∀ c, Moves R (fillProducerSlabs c)]
    [∀ c magic version, Moves R (sendCtrl c (.validatePeer magic version))]
    [∀ c id, Moves R (sendCtrl c (.clientID id))] {m : Manager} {addr : Nat} {accepts : Nat → Bool}
    {Q : Manager → Prop} (refused : Q m)
    (made : ∀ c nextNewClientID m', c ∉ m.clients →
      R (Manager.setProxy { m with nextNewClientID } c
        { clientID := c, addr, sock := { accepts } }) m' →
      Q { m' with clients := m'.clients.orderedInsert (· ≤ ·) c } ∧ Q m') :
    wp (addConnectedClient addr accepts) m (fun _ m' => Q m') (fun _ _ => True) :=
  wp_addConnectedClient_numbered refused fun c next m' new _ => made c next m' new

end Gentle

namespace Moving
variable {R : Manager → Manager → Prop} [Moving R] {α : Type}

instance (near : Manager → Bool) :
    Moves R (modify fun m => { m with limitReached := m.limitReached || near m } : Act PUnit) :=
  .modify fun _ => inside rfl (refl_of _ _) (fun h => Bool.or_eq_true_iff.mpr (.inl h)) rfl

instance (x : EStateM Exc SlabManager α) [hx : Moves SlabManager.Drains x] :
    Moves R (onSlabs x) := ⟨fun m => by
  have keep (sm) (drains : m.slabManager.Drains sm) : R m { m with slabManager := sm } :=
    inside rfl drains id rfl
  rw [onSlabs, wp_zoom]
  exact wp_mono (hx.moves _) (fun _ => keep) (fun _ => keep)⟩

theorem setTracker {m : Manager} {c : Nat} {t : SlabTracker}
    (same : t.sizes = (m.proxy c).slabs.sizes) : R m (m.setProxy c { m.proxy c with slabs := t }) :=
  proxy (by
    simp only [SlabTracker.sizes, Prod.mk.injEq] at same
    simp only [ClientProxy.settings, SlabTracker.sizes, same]) rfl

instance (c : Nat) (x : EStateM Exc SlabTracker α) [hx : Moves (Keeps SlabTracker.sizes) x] :
    Moves R (onTracker c x) := ⟨fun m => by
  rw [onTracker, wp_zoom]
  exact wp_mono (hx.moves _) (fun _ _ => setTracker) (fun _ _ => setTracker)⟩

instance (c : Nat) (slabIDs : List Nat) [Moves R (indexing c slabIDs)]
    [Moves R (sendOn c c (.slabIDs slabIDs))] : Moves R (takeFreeSlabs c slabIDs) := by
  unfold takeFreeSlabs
  infer_instance

instance (level : Nat) (req : SlabRequest) [∀ c slabIDs, Moves R (takeFreeSlabs c slabIDs)] :
    Moves R (serveRequest level req) := by
  unfold serveRequest
  infer_instance

instance (slabs : List (Nat × Nat)) [∀ change, Moves R (handleSlabStateChange change)] :
    Moves R (decrementHeldRefcnt slabs) := by
  induction slabs with
  | nil => exact inferInstanceAs (Moves R (pure _))
  | cons slab slabs ih =>
    unfold decrementHeldRefcnt
    infer_instance

instance (seg : WantedSegment) [∀ change, Moves R (handleSlabStateChange change)] :
    Moves R (releaseWantedSegment seg) := by
  unfold releaseWantedSegment
  infer_instance

instance (orig count fuel : Nat) [∀ seg, Moves R (releaseWantedSegment seg)]
    [∀ c seg, Moves R (eraseWantedSegment c seg)] : Moves R (harvestLoop orig count fuel) := by
  induction fuel with
  | zero => exact inferInstanceAs (Moves R (throw _))
  | succ fuel ih =>
    unfold harvestLoop
    infer_instance

instance (n c : Nat) (niceLevel : Int) [Moves R serviceSlabRequests]
    [∀ count, Moves R (harvestWantedSlabs count)] [∀ slabIDs, Moves R (takeFreeSlabs c slabIDs)] :
    Moves R (requestFreeSlabs n c niceLevel) := by
  unfold requestFreeSlabs
  infer_instance

instance (c s : Nat) [Moves R (indexing c [s])] : Moves R (takeConsSlab c s) := by
  unfold takeConsSlab
  infer_instance

instance (c s : Nat) (seg : WantedSegment) (size : Nat)
    [∀ blocks, Moves R (proxySendBlockIDs c blocks)] : Moves R (sendWanted c s seg size) := by
  unfold sendWanted
  infer_instance

instance (c : Nat) (send : List Segment) [∀ blocks, Moves R (proxySendBlockIDs c blocks)] :
    Moves R (sendTaken c send) := by
  unfold sendTaken
  infer_instance

instance (c : Nat) (blockIDs : List Nat) [∀ slabIDs, Moves R (indexing c slabIDs)]
    [∀ slabs, Moves R (decrementHeldRefcnt slabs)] [Moves R (popWantedQueue c)] :
    Moves R (handleBlockIDs c blockIDs) := by
  unfold handleBlockIDs
  infer_instance

instance (c : Nat) (slabIDs : List Nat) [∀ slabIDs, Moves R (indexing c slabIDs)]
    [∀ slabs, Moves R (decrementHeldRefcnt slabs)] : Moves R (releaseProdSlabs c slabIDs) := by
  unfold releaseProdSlabs
  infer_instance

instance (c : Nat) [Reserving R] [Moves R (getProxy c >>= fun p => releaseQueue c p.wantedQueue)]
    [∀ slabs, Moves R (decrementHeldRefcnt slabs)] : Moves R (giveUpSlabs c) := by
  unfold giveUpSlabs
  rw [← bind_assoc]
  infer_instance

end Moving

namespace Draining
variable {R : Manager → Manager → Prop} [Draining R]

instance (c : Nat) :
    Moves R (modifyProxy c fun p => { p with wantedQueue := p.wantedQueue.tail }) :=
  .modify fun _ => proxy rfl (List.tail_sublist _)

instance (c : Nat) (seg : WantedSegment) :
    Moves R (modifyProxy c fun p => { p with wantedQueue := p.wantedQueue.erase seg }) :=
  .modify fun _ => proxy rfl List.erase_sublist

instance (c : Nat) (seg : WantedSegment) [Moves R (releaseWantedSegment seg)]
    [∀ segs bytes, Moves R (sendDropReport c segs bytes)] : Moves R (eraseWantedSegment c seg) := by
  unfold eraseWantedSegment
  infer_instance

instance (c : Nat) (seg : WantedSegment) [Moves R (releaseWantedSegment seg)] :
    Moves R (popFrontWanted c seg) := by
  unfold popFrontWanted
  infer_instance

end Draining

namespace Orderly
variable {R : Manager → Manager → Prop} [Orderly R]

instance (c : Nat) (segs : List Segment) : Moves R (queueSegments c segs) := by
  induction segs with
  | nil => exact inferInstanceAs (Moves R (pure _))
  | cons seg segs ih =>
    refine Moves.get_bind fun m => ?_
    rw [wp_bind, wp_onSlabs]
    refine wp_mono (wp_and (m.slabManager.wp_getWantedSegment_valid c seg.blockID _)
      (Moves.moves (R := SlabManager.Calm) m.slabManager)) ?_
      fun _ _ calm => inside rfl calm.2 id rfl
    rintro seg' sm ⟨⟨block, valid⟩, calm⟩
    rw [wp_bind, wp_modifyProxy]
    have there : R m (m.setSlabs sm) := inside rfl calm id rfl
    refine Moves.wp_trans (trans_of R there (queued ?_))
    rw [block]
    exact (SlabManager.valid_of_reserves calm.reserves _).mpr valid

end Orderly

namespace Manager

/-! ## Runs -/

/-- What holds at the start and goes on through every connection, deletion and
handler holds in every run. -/
theorem Run.invariant {params : Params} {ok : History → Manager → Event → Prop}
    {P : Manager → Prop} (first : ∀ m, Manager.start params = some m → P m)
    (connect : ∀ m addr accepts, P m →
      wp (addConnectedClient addr accepts) m (fun _ => P) (fun _ _ => True))
    (delete : ∀ m c, P m → wp (deleteClient c) m (fun _ => P) (fun _ _ => True))
    (handle : ∀ m c f, c ∈ m.clients → P m → wp (Frame.handle c f) m (fun _ => P) (fun _ => P))
    {hist : History} {m : Manager} (run : Run params ok hist m) : P m := by
  induction run with
  | start started => exact first _ started
  | @step hist m e m' _ enabled _ stepped ih =>
    refine step_eq_some (E := fun _ _ => True) ?_ stepped
    cases e with
    | connect addr accepts => exact connect m addr accepts ih
    | hangup c => exact delete m c ih
    | frame c f =>
      apply wp_run_frame.mpr
      apply wp_mono (handle m c f enabled ih)
      · intro _ _
        exact id
      · intro e m' left
        cases e with
        | runtimeError what => exact delete m' c left
        | stuck => trivial

instance : Steady (Keeps params) where
  inside {m m'} same _ _ := (congrArg Prod.fst same : m'.params = m.params)
  proxy _ := rfl

instance : Sending (Keeps params) := ⟨fun _ _ => rfl⟩
instance : Reporting (Keeps params) := ⟨fun _ _ => rfl, fun _ _ => rfl⟩
instance : Registering (Keeps params) := ⟨fun _ => rfl⟩
instance : Wanting (Keeps params) := ⟨fun _ => rfl⟩
instance : Ranking (Keeps params) := ⟨fun _ => rfl⟩
instance : Grouping (Keeps params) := ⟨fun _ => rfl, fun _ => rfl⟩
instance : Copying (Keeps params) := ⟨fun _ _ => rfl⟩
instance : Resizing (Keeps params) := ⟨fun _ _ => rfl⟩
instance : Growing (Keeps params) := ⟨fun _ _ _ => rfl, fun _ _ => rfl⟩

/-- The parameters are those of the run. -/
theorem Run.params_eq {params : Params} {ok : History → Manager → Event → Prop} {hist : History}
    {m : Manager} (run : Run params ok hist m) : m.params = params := by
  have keep (x : Act Unit) [Moves (Keeps Manager.params) x] (m : Manager)
      (same : m.params = params) : wp x m (fun _ m' => m'.params = params)
        (fun _ m' => m'.params = params) := by
    apply wp_mono (Moves.moves (R := Keeps Manager.params) m)
    · intro _ _ kept
      exact kept.trans same
    · intro _ _ kept
      exact kept.trans same
  apply run.invariant (P := fun m => m.params = params)
  case first =>
    intro m started
    refine start_eq_some (Q := fun m => m.params = params) (E := fun _ _ => True) ?_ started
    intro slabManager _
    apply wp_mono (Moves.moves (R := Keeps Manager.params) _)
    · intro _ _ kept
      exact kept
    · intro _ _ _
      trivial
  case connect =>
    intro m addr accepts same
    apply Gentle.wp_addConnectedClient (R := Keeps Manager.params) same
    intro c next m' _ kept
    exact ⟨kept.trans same, kept.trans same⟩
  case delete =>
    intro m c same
    apply wp_deleteClient.mpr
    apply wp_mono (keep (destroyProxy c) { m with clients := m.clients.erase c } same)
    · intro _ _
      exact id
    · intro _ _ _
      trivial
  case handle =>
    intro m c f _ same
    have moves : Moves (Keeps Manager.params) (f.handle c) := by
      apply Gentle.moves_handle
      · intro type cid gid msgIDs _
        infer_instance
      · intro new current _
        infer_instance
      · intro level _
        infer_instance
    exact keep (f.handle c) m same

end Manager

end Mcsb
