import Mcsb.Manager.SlabRequests
import Mcsb.Manager.Audit

/-!
# Free slabs by request

The loop of `ServiceSlabRequests` deals the free slabs, one at a time, to the
requests of the clients that are still there.
-/

namespace Mcsb
open Effect

set_option maxRecDepth 2000

/-- What a request lacks when it has one slab more, in 32 bits. -/
def Asked.slabsPending (a : Asked) : Nat := (a.numSlabs + (2 ^ 32 - 1)) % 2 ^ 32

def Asked.remaining (a : Asked) : Option Asked :=
  if a.slabsPending = 0 then none else some { a with numSlabs := a.slabsPending }

theorem ClientProxy.told_send {p : ClientProxy} {sent : Sent}
    (sound : (p.send sent).sendFailed = false) :
    p.sendFailed = false ∧ (p.send sent).sock.out = p.sock.out ++ [sent] := by
  unfold ClientProxy.send at *
  by_cases failed : p.sendFailed = true
  · rw [if_pos failed, failed] at sound
    cases sound
  · rw [if_neg failed] at sound ⊢
    refine ⟨by simpa using failed, ?_⟩
    by_cases accepts : p.sock.accepts p.sock.attempts = true
    · rw [if_pos accepts]
      rfl
    · rw [if_neg accepts] at sound
      cases sound

theorem SlabTracker.wp_insertProdSlabs {t : SlabTracker} {slabIDs : List Nat} {Q : Unit → SlabTracker → Prop}
    (ok : Q ⟨⟩ (slabIDs.foldl insertProdSlab t)) :
    wp (insertProdSlabs slabIDs) t Q fun _ _ => True := by
  unfold insertProdSlabs
  rw [wp_bind, wp_get, wp_bind, wp_set, wp_ite]
  split
  · trivial
  · exact ok

/-- The first free slab. -/
theorem SlabManager.wp_getFreeSlabs_one {s : Nat} {sm : SlabManager} {rest : List Nat} (free : sm.freeSlabs = s :: rest) :
    wp (getFreeSlabs 1) sm
      (fun slabIDs sm' => slabIDs = [s] ∧ sm'.freeSlabs = rest) (fun _ _ => True) := by
  simp only [getFreeSlabs, getFreeSlab, wp_bind, wp_get, free, wp_modify,
    wp_pure, wp_ite, wp_throw]
  split
  · trivial
  · split
    · trivial
    · exact ⟨trivial, rfl⟩

namespace Manager

/-- The client that asked is there, with the proxy that asked. -/
def Awaits (m : Manager) (req : SlabRequest) : Prop :=
  req.id ∈ m.clients ∧ (m.proxy req.id).addr = req.arg

instance (m : Manager) : DecidablePred m.Awaits := fun req =>
  inferInstanceAs (Decidable (req.id ∈ m.clients ∧ (m.proxy req.id).addr = req.arg))

/-- The requests of a level without those that will be dropped. -/
def waiting (m : Manager) (level : Nat) : List Asked :=
  ((m.slabRqstManager.requestLists level).filter m.Awaits).map SlabRequest.asked

/-- The free slabs dealt to them, and what they wait for then. -/
def dealing (m : Manager) : List (Nat × Asked) × (Nat → List Asked) :=
  QueueFamily.deal m.slabRqstManager.maxLevel Asked.remaining m.slabManager.freeSlabs m.waiting

/-- The proxies take the slabs dealt to their clients, and pass them on in order. -/
structure Takes (dealt : List (Nat × Asked)) (m m' : Manager) : Prop where
  clients : m'.clients = m.clients
  addr : ∀ c, (m'.proxy c).addr = (m.proxy c).addr
  held : ∀ c s, (m'.proxy c).slabs.prodSlabRefcnt s =
    ((m.proxy c).slabs.prodSlabRefcnt s || dealt.any fun d => d.2.id = c ∧ d.1 = s)
  pending : ∀ c, (m'.proxy c).pendingFreeSlabRqsts =
    (m.proxy c).pendingFreeSlabRqsts - dealt.countP (·.2.id = c)
  told : ∀ c, (m'.proxy c).sendFailed = false → (m.proxy c).sendFailed = false ∧
    (m'.proxy c).sock.out =
      (m.proxy c).sock.out ++ (dealt.filter (·.2.id = c)).map fun d => .slabIDs [d.1]

/-- The free slabs have gone where they were dealt, as far as there are requests. -/
structure Served (m m' : Manager) : Prop where
  free : m.slabManager.freeSlabs = m.dealing.1.map Prod.fst ++ m'.slabManager.freeSlabs
  waiting : m'.waiting = m.dealing.2
  takes : Takes m.dealing.1 m m'
  settled : m'.Settled

section
variable {m m' m'' : Manager} {dealt dealt' : List (Nat × Asked)} {c s level : Nat} {req : SlabRequest}

theorem Takes.nil (clients : m'.clients = m.clients) (proxy : m'.proxy = m.proxy) :
    Takes [] m m' := by
  constructor
  case clients => exact clients
  all_goals simp [proxy]

theorem Takes.congr {n n' : Manager} (h : Takes dealt m m') (clients : n.clients = m.clients)
    (proxy : n.proxy = m.proxy) (clients' : n'.clients = m'.clients)
    (proxy' : n'.proxy = m'.proxy) : Takes dealt n n' := by
  constructor
  case clients => rw [clients, clients', h.clients]
  all_goals rw [proxy, proxy']
  · exact h.addr
  · exact h.held
  · exact h.pending
  · exact h.told

theorem Takes.trans (first : Takes dealt m m') (rest : Takes dealt' m' m'') :
    Takes (dealt ++ dealt') m m'' := by
  constructor
  case clients => exact rest.clients.trans first.clients
  case addr => exact fun c => (rest.addr c).trans (first.addr c)
  case held =>
    intro c s
    rw [rest.held, first.held, List.any_append, Bool.or_assoc]
  case pending =>
    intro c
    rw [rest.pending, first.pending, List.countP_append]
    omega
  case told =>
    intro c sound
    obtain ⟨before, later⟩ := rest.told c sound
    obtain ⟨start, earlier⟩ := first.told c before
    refine ⟨start, ?_⟩
    rw [later, earlier, List.filter_append, List.map_append, List.append_assoc]

/-- Only the proxy of the client that asked changes. -/
theorem Takes.one {a : Asked} {p : ClientProxy} (clients : m'.clients = m.clients)
    (proxy : m'.proxy = Function.update m.proxy a.id p) (addr : p.addr = (m.proxy a.id).addr)
    (slabs : p.slabs = (m.proxy a.id).slabs.insertProdSlab s)
    (pending : p.pendingFreeSlabRqsts = (m.proxy a.id).pendingFreeSlabRqsts - 1)
    (told : p.sendFailed = false → (m.proxy a.id).sendFailed = false ∧
      p.sock.out = (m.proxy a.id).sock.out ++ [.slabIDs [s]]) : Takes [(s, a)] m m' := by
  have here : m'.proxy a.id = p := by rw [proxy, Function.update_self]
  have elsewhere (c : Nat) (ne : c ≠ a.id) : m'.proxy c = m.proxy c := by
    rw [proxy, Function.update_of_ne ne]
  constructor
  case clients => exact clients
  case addr =>
    intro c
    by_cases same : c = a.id
    · rw [same, here, addr]
    · rw [elsewhere c same]
  case held =>
    intro c x
    by_cases same : c = a.id
    · subst same
      rw [here, slabs, SlabTracker.insertProdSlab]
      by_cases this : x = s
      · simp [this]
      · simp [Function.update_of_ne this, Ne.symm this]
    · simp [elsewhere c same, Ne.symm same]
  case pending =>
    intro c
    by_cases same : c = a.id
    · subst same
      simp [here, pending]
    · simp [elsewhere c same, Ne.symm same]
  case told =>
    intro c sound
    by_cases same : c = a.id
    · subst same
      rw [here] at sound ⊢
      simpa using told sound
    · rw [elsewhere c same] at sound ⊢
      simpa [Ne.symm same] using sound

theorem wp_swallow_sendIDs_send {kind : List Nat → Sent} {ids : List Nat} (some : ids ≠ [])
    {Q : Unit → Manager → Prop} {E : Exc → Manager → Prop}
    (ok : Q ⟨⟩ (m.setProxy c ((m.proxy c).send (kind ids)))) :
    wp (swallow (sendIDs c kind ids)) m Q E := by
  rw [wp_swallow]
  simp only [sendIDs, wp_bind, wp_getProxy, wp_ite, wp_fail]
  split
  · rename_i failed
    rw [ClientProxy.send, if_pos failed, setProxy_self] at ok
    exact ok
  · exact wp_sendOn ok fun _ => ok

/-- One free slab goes to a proxy. -/
theorem takes_takeFreeSlabs (a : Asked) (s : Nat) : wp (takeFreeSlabs a.id [s]) m
    (fun _ m' => Takes [(s, a)] m m' ∧ m'.slabManager = m.slabManager ∧
      m'.slabRqstManager = m.slabRqstManager) (fun _ _ => True) := by
  rw [takeFreeSlabs, wp_bind, indexing, wp_modify, wp_bind, wp_onTracker]
  apply SlabTracker.wp_insertProdSlabs
  generalize inserted : Manager.setProxy _ _ _ = m₁
  have proxy : m₁.proxy = Function.update m.proxy a.id
      { m.proxy a.id with slabs := (m.proxy a.id).slabs.insertProdSlab s } := by
    rw [← inserted]
    rfl
  have here : m₁.proxy a.id =
      { m.proxy a.id with slabs := (m.proxy a.id).slabs.insertProdSlab s } := by
    rw [proxy, Function.update_self]
  have again (q : ClientProxy) :
      (m₁.setProxy a.id q).proxy = Function.update m.proxy a.id q := by
    show Function.update m₁.proxy a.id q = _
    rw [proxy, Function.update_idem]
  have clients : m₁.clients = m.clients := by
    rw [← inserted]
    rfl
  rw [wp_bind]
  apply wp_swallow_sendIDs_send (List.cons_ne_nil s [])
  rw [wp_modifyProxy, setProxy_setProxy, proxy_setProxy, here]
  refine ⟨Takes.one clients (again _) ?_ ?_ ?_ ClientProxy.told_send, ?_⟩
  · exact ClientProxy.addr_send ..
  · exact ClientProxy.slabs_send ..
  · dsimp only
    rw [ClientProxy.pendingFreeSlabRqsts_send]
    rfl
  · rw [slabManager_setProxy, slabRqstManager_setProxy, ← inserted]
    exact ⟨rfl, rfl⟩

/-- The requests when what is left of one is queued again. -/
def again (rm : SlabRequestManager) (level : Nat) (req : SlabRequest) : SlabRequestManager :=
  if req.asked.slabsPending = 0 then rm
  else rm.addRequest level req.asked.slabsPending req.id req.arg

theorem serveRequest_eq (level : Nat) (req : SlabRequest) : serveRequest level req = (do
    let m ← get
    if req.id ∈ m.clients ∧ (m.proxy req.id).addr = req.arg then
      let slabIDs ← onSlabs (SlabManager.getFreeSlabs 1)
      takeFreeSlabs req.id slabIDs
      if req.asked.slabsPending ≠ 0 then
        modify fun m => { m with slabRqstManager :=
          m.slabRqstManager.addRequest level req.asked.slabsPending req.id req.arg }) := rfl

theorem serves_serveRequest {rest : List Nat} (awaits : m.Awaits req)
    (free : m.slabManager.freeSlabs = s :: rest) : wp (serveRequest level req) m (fun _ m' =>
      Takes [(s, req.asked)] m m' ∧ m'.slabManager.freeSlabs = rest ∧
        m'.slabRqstManager = again m.slabRqstManager level req) (fun _ _ => True) := by
  rw [serveRequest_eq, again]
  generalize req.asked.slabsPending = slabsPending
  rw [wp_bind, wp_get, wp_ite, if_pos (show _ ∧ _ from awaits), wp_bind, wp_onSlabs]
  apply wp_mono (SlabManager.wp_getFreeSlabs_one free)
  · rintro _ sm ⟨rfl, left⟩
    have given := takes_takeFreeSlabs (m := m.setSlabs sm) req.asked s
    rw [show req.asked.id = req.id from rfl] at given
    rw [wp_bind]
    apply wp_mono given
    · rintro _ m₁ ⟨takes, slabs, requests⟩
      have left : m₁.slabManager.freeSlabs = rest := (congrArg _ slabs).trans left
      have requests : m₁.slabRqstManager = m.slabRqstManager := requests
      rw [wp_ite]
      by_cases none : slabsPending = 0
      · rw [if_neg (not_not_intro none), wp_pure, if_pos none]
        exact ⟨takes.congr rfl rfl rfl rfl, left, requests⟩
      · rw [if_pos none, wp_modify, if_neg none, ← requests]
        exact ⟨takes.congr rfl rfl rfl rfl, left, rfl⟩
    · exact fun _ _ => id
  · exact fun _ _ => id

theorem Takes.awaits (takes : Takes dealt m m') : m'.Awaits = m.Awaits := by
  funext req
  rw [Awaits, Awaits, takes.clients, takes.addr]

/-- Only what is on the lists and who is there decides who waits. -/
theorem waiting_eq (awaits : m'.Awaits = m.Awaits) : m'.waiting =
    fun level => ((m'.slabRqstManager.requestLists level).filter m.Awaits).map SlabRequest.asked := by
  funext level
  rw [Manager.waiting]
  congr 2
  funext req
  rw [decide_eq_decide, awaits]

theorem waiting_again (takes : Takes dealt m m') (le : level ≤ m.slabRqstManager.maxLevel)
    (awaits : m.Awaits req) (requests : m'.slabRqstManager = again m.slabRqstManager level req) :
    m'.waiting = QueueFamily.requeue m.waiting level req.asked.remaining := by
  have safe := SlabRequestManager.safeLevel_of_le le
  rw [waiting_eq takes.awaits, requests, again, Asked.remaining]
  generalize req.asked.slabsPending = slabsPending
  by_cases none : slabsPending = 0
  · rw [if_pos none, if_pos none]
    rfl
  · rw [if_neg none, if_neg none]
    dsimp only [QueueFamily.requeue, QueueFamily.push]
    funext l
    by_cases here : l = level
    · subst here
      have kept (ref : Nat) : m.Awaits { ref, id := req.id, numSlabs := slabsPending, arg := req.arg } := awaits
      simp only [SlabRequestManager.addRequest, safe, Function.update_self, List.filter_append,
        List.map_append, Manager.waiting]
      rw [List.filter_singleton, decide_eq_true (kept _)]
      rfl
    · simp only [SlabRequestManager.addRequest, safe, Function.update_of_ne here, Manager.waiting]

/-- A request leaves its list. -/
theorem waiting_popped {rm : SlabRequestManager}
    (popped : m.slabRqstManager.popFrontRequest level = some (req, rm)) :
    (m.setRequests rm).waiting =
      if m.Awaits req then QueueFamily.pop m.waiting level else m.waiting := by
  obtain ⟨rest, list, -, lists⟩ := SlabRequestManager.popFrontRequest_eq_some popped
  have awaits : (m.setRequests rm).Awaits = m.Awaits := rfl
  rw [waiting_eq awaits, slabRqstManager_setRequests, lists]
  funext l
  by_cases here : l = level
  · subst here
    rw [Function.update_self]
    by_cases awaits : m.Awaits req
    · rw [if_pos awaits, QueueFamily.pop, Function.update_self, Manager.waiting, list,
        List.filter_cons_of_pos (by simpa using awaits)]
      rfl
    · rw [if_neg awaits, Manager.waiting, list, List.filter_cons_of_neg (by simpa using awaits)]
  · rw [Function.update_of_ne here]
    split
    · rw [QueueFamily.pop, Function.update_of_ne here]
      rfl
    · rfl

/-- The front request of the lowest level is the first that waits, unless it is dropped. -/
theorem least_waiting (counted : m.slabRqstManager.Counted) {rest : List SlabRequest}
    (lowest : m.slabRqstManager.lowestLevelPending = some level)
    (list : m.slabRqstManager.requestLists level = req :: rest) (awaits : m.Awaits req) :
    QueueFamily.least m.slabRqstManager.maxLevel m.waiting = some level ∧
      ∃ others, m.waiting level = req.asked :: others := by
  rw [counted.lowestLevelPending_eq, QueueFamily.least_eq_some_iff] at lowest
  have front : m.waiting level = req.asked :: (rest.filter m.Awaits).map SlabRequest.asked := by
    rw [Manager.waiting, list, List.filter_cons_of_pos (by simpa using awaits), List.map_cons]
  refine ⟨?_, _, front⟩
  rw [QueueFamily.least_eq_some_iff]
  refine ⟨lowest.1, by rw [front]; exact List.cons_ne_nil _ _, fun l lt => ?_⟩
  have empty : m.slabRqstManager.requestLists l = [] := List.map_eq_nil_iff.mp (lowest.2.2 l lt)
  rw [Manager.waiting, empty]
  rfl

theorem Served.of_settled (counted : m.slabRqstManager.Counted) (settled : m.Settled) :
    Served m m := by
  have nothing : m.dealing = ([], m.waiting) := by
    rcases settled with none | none
    · apply QueueFamily.deal_none
      rw [counted.eq, SlabRequestManager.numWaiting_eq, QueueFamily.total_eq_zero_iff] at none
      rw [QueueFamily.least_eq_none_iff]
      intro level le
      rw [Manager.waiting, List.map_eq_nil_iff.mp (none level le)]
      rfl
    · rw [dealing, List.length_eq_zero_iff.mp none]
      rfl
  constructor
  case settled => exact settled
  all_goals rw [nothing]
  · rfl
  · exact Takes.nil rfl rfl

/-- A request that nobody waits for is dropped first. -/
theorem Served.dropped {rm : SlabRequestManager} (served : Served (m.setRequests rm) m')
    (level : rm.maxLevel = m.slabRqstManager.maxLevel)
    (same : (m.setRequests rm).waiting = m.waiting) : Served m m' := by
  have dealing : (m.setRequests rm).dealing = m.dealing := by
    rw [Manager.dealing, Manager.dealing, same, slabRqstManager_setRequests, level]
    rfl
  constructor
  · rw [← dealing]
    exact served.free
  · rw [← dealing]
    exact served.waiting
  · rw [← dealing]
    exact served.takes.congr rfl rfl rfl rfl
  · exact served.settled

/-- One slab is dealt first. -/
theorem Served.cons {m₁ : Manager} {a : Asked} {rest : List Nat} (served : Served m₁ m')
    (takes : Takes [(s, a)] m m₁) (free : m.slabManager.freeSlabs = s :: rest)
    (left : m₁.slabManager.freeSlabs = rest)
    (maxLevel : m₁.slabRqstManager.maxLevel = m.slabRqstManager.maxLevel)
    (least : QueueFamily.least m.slabRqstManager.maxLevel m.waiting = some level)
    {others : List Asked} (front : m.waiting level = a :: others)
    (waiting : m₁.waiting =
      QueueFamily.requeue (QueueFamily.pop m.waiting level) level a.remaining) : Served m m' := by
  have dealing : m.dealing = ((s, a) :: m₁.dealing.1, m₁.dealing.2) := by
    rw [Manager.dealing, free, QueueFamily.deal_some least front, Manager.dealing, left, maxLevel,
      waiting]
  constructor
  · rw [dealing, free, List.map_cons, List.cons_append, ← served.free, left]
  · rw [dealing]
    exact served.waiting
  · rw [dealing]
    exact takes.trans served.takes
  · exact served.settled

theorem counted_again {rm : SlabRequestManager} (counted : rm.Counted)
    (room : rm.numRequests + 1 < 2 ^ 32) (level : Nat) (req : SlabRequest) :
    (again rm level req).Counted ∧
      (again rm level req).maxLevel = rm.maxLevel := by
  unfold again
  split
  · exact ⟨counted, rfl⟩
  · exact ⟨counted.addRequest room.ne .., rfl⟩

theorem serves_serviceLoop (counted : m.slabRqstManager.Counted) (fuel : Nat) :
    wp (serviceLoop fuel) m (fun _ m' => Served m m') (fun _ _ => True) := by
  induction fuel generalizing m with
  | zero => trivial
  | succ fuel ih =>
    rw [serviceLoop, wp_bind, wp_get, wp_ite]
    split
    · exact Served.of_settled counted ‹_›
    · rename_i both
      rw [not_or] at both
      obtain ⟨level, req, rm, lowest, popped⟩ := counted.lowest both.1
      have le := (SlabRequestManager.le_of_lowestLevelPending lowest).1
      obtain ⟨counted', fewer⟩ := counted.popFrontRequest le popped
      have lt := counted.lt
      obtain ⟨others, list, maxLevel, -⟩ := SlabRequestManager.popFrontRequest_eq_some popped
      have waiting := waiting_popped popped
      simp only [lowest, popped]
      rw [wp_bind, wp_set, wp_bind]
      by_cases awaits : m.Awaits req
      · obtain ⟨s, rest, free⟩ := List.exists_cons_of_ne_nil (List.length_pos_iff.mp
          (Nat.pos_of_ne_zero both.2))
        obtain ⟨least, _, front⟩ := least_waiting counted lowest list awaits
        rw [if_pos awaits] at waiting
        apply wp_mono (serves_serveRequest (m := m.setRequests rm) awaits free)
        · rintro _ m₁ ⟨takes, left, requests⟩
          obtain ⟨counted₁, maxLevel₁⟩ := counted_again counted' (fewer ▸ lt) level req
          apply wp_mono (ih (requests ▸ counted₁))
          · intro _ m' served
            apply Served.cons (m := m) served (takes.congr rfl rfl rfl rfl) free left _ least front
            · rw [← waiting]
              exact waiting_again takes (maxLevel ▸ le) awaits requests
            · rw [requests]
              exact maxLevel₁.trans maxLevel
          · exact fun _ _ => id
        · exact fun _ _ => id
      · rw [if_neg awaits] at waiting
        rw [serveRequest_eq, wp_bind, wp_get, wp_ite, if_neg (show ¬ (_ ∧ _) from awaits), wp_pure]
        apply wp_mono (ih counted')
        · intro _ m' served
          exact served.dropped maxLevel waiting
        · exact fun _ _ => id

/-- Whatever a handler has under way, servicing the requests ends, and has dealt the
free slabs to the clients that still wait: to the first request of the lowest level
each time, which queues again for the rest. -/
theorem served_in_order {t : Transit} (h : m.Books t) (owed : ∀ s, t.owed s = 0) :
    ∃ m', serviceSlabRequests m = .ok ⟨⟩ m' ∧ Served m m' := by
  have unsettled : m.Books { t with settled := false } := by
    apply h.forget
    case settled =>
      intro no
      cases no
    case firm => exact List.Subset.refl _
    case live => exact List.Subset.refl _
    case absent => exact List.Subset.refl _
    all_goals rfl
  have order : wp serviceSlabRequests m (fun _ m' => Served m m') (fun _ _ => True) := by
    rw [serviceSlabRequests, wp_bind, wp_get]
    exact serves_serviceLoop h.requests _
  have both := wp_and (unsettled.serviceSlabRequests owed) order
  obtain ⟨_, m', ended, -, served⟩ := ok_of_wp (wp_mono both (fun _ _ => id) fun _ _ no => no.1)
  exact ⟨m', ended, served⟩

end

/-- The only client asks nicely for two slabs. -/
def twoAsked (m : Manager) : Manager :=
  m.setRequests (m.slabRqstManager.addRequest 1 2 0 0)

theorem served_in_order_twoAsked : ∃ hist m m',
    trace fourSlabs (fun _ m e => e.Honest m) [.connect 0 fun _ => true] = some (hist, m) ∧
      (twoAsked m).dealing.1 = [(0, { numSlabs := 2, id := 0, arg := 0 }),
        (1, { numSlabs := 1, id := 0, arg := 0 })] ∧
      serviceSlabRequests (twoAsked m) = .ok ⟨⟩ m' ∧ Served (twoAsked m) m' := by
  have ran : (trace fourSlabs (fun _ m e => e.Honest m) [.connect 0 fun _ => true]).any (fun run =>
      (twoAsked run.2).dealing.1 = [(0, { numSlabs := 2, id := 0, arg := 0 }),
        (1, { numSlabs := 1, id := 0, arg := 0 })] ∧ ¬ run.2.AtLimit ∧
      run.2.slabRqstManager.numRequests = 0) = true := by
    decide +kernel
  obtain ⟨⟨hist, m⟩, eq, fine⟩ := (Option.any_eq_true _ _).mp ran
  obtain ⟨dealt, below, none⟩ := of_decide_eq_true fine
  have kept : m.Kept (Manager.resting false) :=
    (run_of_trace eq).kept (by decide) (fun _ _ _ honest => honest.owning)
      (fun _ _ _ honest => honest.listsOnce) fun no => absurd no Bool.false_ne_true
  have books := kept.resolve_left below
  have room : m.slabRqstManager.numRequests + 1 ≠ 2 ^ 32 := by
    dsimp only at none
    omega
  have asked : (twoAsked m).Books (Manager.resting false) :=
    books.setRequests rfl (books.requests.addRequest room ..)
  obtain ⟨m', ended, served⟩ := served_in_order asked fun _ => rfl
  exact ⟨hist, m, m', eq, dealt, ended, served⟩

end Manager
end Mcsb
