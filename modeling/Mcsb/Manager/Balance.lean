import Mcsb.Manager.Books
import Mcsb.Manager.Trackers

/-!
# The books balance

Between events the slab manager counts what the trackers refer to and lists what
the clients have queued, as long as no count was at its machine limit.
-/

namespace Mcsb
open Effect

set_option maxRecDepth 2000
set_option synthInstance.maxSize 10000

namespace SlabManager

variable {sm : SlabManager} {s : Nat}

/-- Slabs that are held or wanted get one more holder each, up to the limit. -/
theorem Partition.incrementHeldRefcnt (h : sm.Partition) (small : sm.Small) (slabIDs : List Nat)
    (known : ∀ s ∈ slabIDs, (sm.info s).heldRefcnt ≠ 0 ∨ (sm.info s).wantedSegs ≠ []) :
    wp (incrementHeldRefcnt slabIDs) sm
      (fun _ sm' => sm'.limitReached = true ∨ sm'.freeSlabs = sm.freeSlabs ∧
        sm.Rebooked sm' (fun t => slabIDs.count t) (fun _ => 0))
      (fun _ sm' => sm'.limitReached = true) := by
  induction slabIDs generalizing sm with
  | nil => exact .inr ⟨rfl, .refl h small⟩
  | cons s slabIDs ih =>
    rw [List.forall_mem_cons] at known
    apply incrementHeldRefcnt_cons h known.1
    by_cases last : (sm.info s).heldRefcnt + 1 = 2 ^ 32
    · have reached : (sm.hold s).limitReached = true := by
        rw [limitReached_hold, beq_iff_eq.mpr last, Bool.or_true]
      apply wp_mono (Moves.moves (R := Calm) (sm.hold s))
      · intro _ sm' calm
        exact .inl (calm.limit reached)
      · intro _ sm' calm
        exact calm.limit reached
    · have held := h.rebooked_hold small known.1 (by have := small s; omega)
      apply wp_mono (ih held.partition held.small _)
      · rintro _ sm' (limited | ⟨free, moved⟩)
        · exact .inl limited
        · have count : (fun t => (s :: slabIDs).count t) =
              fun t => (if t = s then 1 else 0) + slabIDs.count t :=
            funext fun t => Accounts.count_cons s t slabIDs
          rw [count]
          exact .inr ⟨free.trans freeSlabs_hold, held.then moved⟩
      · intro _ _
        exact id
      · intro t mem
        rw [held.shape.wanted]
        apply (known.2 t mem).imp_left
        have := held.count t
        omega

end SlabManager

namespace Manager

/-- Unless a count is at its limit, the call returns with `Q` or throws with `E`. -/
def Within {α : Type} (x : Act α) (m : Manager) (Q : α → Manager → Prop) (E : Manager → Prop) :
    Prop :=
  wp x m (fun a m' => m'.AtLimit ∨ Q a m') (fun _ m' => m'.AtLimit ∨ E m')

section
variable {α β : Type} {x : Act α} {m : Manager} {P Q : α → Manager → Prop} {E E' : Manager → Prop}

theorem Within.of_wp (h : wp x m Q fun _ => E) : Within x m Q E :=
  wp_mono h (fun _ _ => .inr) (fun _ _ => .inr)

theorem Within.of_limit [Moves (Stays AtLimit) x] (limited : m.AtLimit) : Within x m Q E :=
  wp_mono (Moves.wp_stays limited) (fun _ _ => .inl) (fun _ _ => .inl)

theorem Within.mono (h : Within x m P E) (hQ : ∀ a m', P a m' → Q a m')
    (hE : ∀ m', E m' → E' m') : Within x m Q E' :=
  wp_mono h (fun a m' => Or.imp_right (hQ a m')) (fun _ m' => Or.imp_right (hE m'))

/-- Once a count is at its limit, nothing more is asked of the rest. -/
theorem Within.bind {f : α → Act β} {Q : β → Manager → Prop} [∀ a, Moves (Stays AtLimit) (f a)]
    (h : Within x m P E) (next : ∀ a m', P a m' → Within (f a) m' Q E) :
    Within (x >>= f) m Q E := by
  apply wp_bind.mpr
  apply wp_mono h
  · rintro a m' (limited | holds)
    · exact Within.of_limit limited
    · exact next a m' holds
  · intro _ _
    exact id

theorem Within.and {Q' : α → Manager → Prop} {E' : Exc → Manager → Prop} (h : Within x m Q E)
    (h' : wp x m Q' E') : Within x m (fun a m' => Q a m' ∧ Q' a m') E :=
  wp_mono (wp_and h h') (fun _ _ both => both.1.imp_right (⟨·, both.2⟩)) (fun _ _ both => both.1)

theorem Within.keeping {τ : Type} {v : Manager → τ} [hx : Moves (Keeps v) x]
    (h : Within x m Q E) : Within x m (fun a m' => Q a m' ∧ v m' = v m) E :=
  h.and (hx.moves m)

end

/-! ## Segments are sent and queued -/

section
variable {m : Manager} {t : Transit} {c : Nat}

/-- The tracker takes a reference before the slab manager counts it. -/
theorem Books.takeConsSlab (h : m.Books t) (live : c ∈ m.clients) {s : Nat}
    (lt : s < m.slabManager.numSlabs) :
    Within (takeConsSlab c s) m (fun took m' =>
      m'.Books { t with owed := fun x => t.owed x + (if took then [s] else []).count x } ∧
        m'.slabManager = m.slabManager ∧ m'.clients = m.clients ∧
        (m'.proxy c).wantedQueue = (m.proxy c).wantedQueue) (fun _ => False) := by
  rw [Mcsb.takeConsSlab]
  by_cases near : (m.proxy c).slabs.consSlabRefcnt s + 1 = 2 ^ 16
  · apply wp_bind.mpr
    apply wp_modify.mpr
    apply Within.of_limit
    left
    show (m.limitReached || _ == _) = true
    rw [beq_iff_eq.mpr near, Bool.or_true]
  · have room : (m.proxy c).slabs.consSlabRefcnt s + 1 < 2 ^ 16 := by
      have := (h.trackers c live).consSmall s
      omega
    have inside := lt.trans_le (h.fitted.trackers c live).1
    have ok := (h.trackers c live).incrementCons inside room
    have counts := SlabTracker.refs_incrementCons room
    apply wp_bind.mpr
    apply wp_modify.mpr
    apply wp_bind.mpr
    have marked (limitReached : Bool) : Books t { m with limitReached } :=
      h.of_holdings rfl rfl rfl rfl rfl rfl
    apply wp_mono ((marked _).indexing [s])
    · rintro _ m₁ ⟨books, slabs, -, clients, proxy⟩
      have same : m₁.proxy c = m.proxy c := congrFun proxy c
      rw [wp_onTracker, SlabTracker.wp_takeConsSlab, same]
      split
      · right
        refine ⟨?_, slabs, clients, ?_⟩
        · apply books.setProxy (clients ▸ live)
          case ok =>
            rw [tracked, same]
            exact ok
          case owner => exact h.owners c live
          case same => exact ⟨rfl, rfl, rfl, rfl⟩
          case queue => rw [same]
          case balance =>
            intro x
            have := counts x
            have one : [s].count x = if x = s then 1 else 0 := Accounts.count_cons s x []
            rw [same]
            dsimp only
            rw [if_pos rfl, one]
            omega
        · rw [proxy_setProxy]
      · right
        refine ⟨?_, slabs, clients, ?_⟩
        · apply Books.of_proxy books
          all_goals rw [same]
        · rw [proxy_setProxy]
    · intro _ _
      exact False.elim

/-- The slabs of segments. -/
def slabsOf (m : Manager) (segs : List Segment) : List Nat := segs.map (·.blockID / m.blocksPerSlab)

theorem slabsOf_of_params {m' : Manager} (params : m'.params = m.params) (segs : List Segment) :
    m'.slabsOf segs = m.slabsOf segs := by
  rw [slabsOf, slabsOf, blocksPerSlab, blocksPerSlab, params]

theorem Books.firm_lt (h : m.Books t) {s : Nat} (firm : s ∈ t.firm) :
    s < m.slabManager.numSlabs :=
  h.sound.partition.lt_of_held (h.firm s firm)

/-- The slabs of the segments to send have been taken, the others wait. -/
theorem Books.sortSegments (h : m.Books t) (live : c ∈ t.live) (queueing : Bool)
    (segs : List Segment) (firm : m.slabsOf segs ⊆ t.firm) :
    Within (sortSegments c queueing segs) m (fun sorted m' =>
      m'.Books { t with owed := fun s => t.owed s + (m.slabsOf sorted.1).count s } ∧
        m.slabsOf sorted.1 ⊆ t.firm ∧ m.slabsOf sorted.2 ⊆ t.firm) (fun _ => False) := by
  induction segs generalizing m t queueing with
  | nil =>
    cases queueing with
    | true => exact .inr ⟨h, firm, firm⟩
    | false => exact .inr ⟨h, firm, firm⟩
  | cons seg segs ih =>
    have first : seg.blockID / m.blocksPerSlab ∈ t.firm := firm List.mem_cons_self
    have rest : m.slabsOf segs ⊆ t.firm := fun s mem => firm (List.mem_cons_of_mem _ mem)
    cases queueing with
    | true =>
      rw [Mcsb.sortSegments]
      apply (ih h live true rest).bind
      rintro ⟨send, want⟩ m' ⟨books, sent, wanted⟩
      refine .inr ⟨books, sent, ?_⟩
      exact List.cons_subset.mpr ⟨first, wanted⟩
    | false =>
      rw [Mcsb.sortSegments]
      apply wp_bind.mpr
      apply wp_get.mpr
      apply ((h.takeConsSlab (h.live c live) (h.firm_lt first)).keeping (v := params)).bind
      rintro took m₁ ⟨⟨taken, -⟩, params⟩
      have slabsOf := slabsOf_of_params params
      have rest₁ : m₁.slabsOf segs ⊆ t.firm := slabsOf segs ▸ rest
      cases took with
      | true =>
        rw [if_pos rfl]
        apply (ih taken live false rest₁).bind
        rintro ⟨send, want⟩ m' ⟨books, sent, wanted⟩
        rw [slabsOf] at sent wanted books
        refine .inr ⟨?_, List.cons_subset.mpr ⟨first, sent⟩, wanted⟩
        have owed : (fun s => t.owed s + (m.slabsOf (seg :: send)).count s) = fun s =>
            t.owed s + [seg.blockID / m.blocksPerSlab].count s + (m.slabsOf send).count s := by
          funext s
          rw [Nat.add_assoc, ← List.count_append]
          rfl
        rw [owed]
        exact books
      | false =>
        rw [if_neg Bool.false_ne_true]
        apply (ih taken live true rest₁).bind
        rintro ⟨send, want⟩ m' ⟨books, sent, wanted⟩
        rw [slabsOf] at sent wanted books
        exact .inr ⟨books, sent, List.cons_subset.mpr ⟨first, wanted⟩⟩

/-- The slab manager counts what the tracker took. -/
theorem Books.incrementHeldRefcnt {slabIDs : List Nat}
    (h : m.Books { t with owed := fun s => t.owed s + slabIDs.count s })
    (known : ∀ s ∈ slabIDs,
      (m.slabManager.info s).heldRefcnt ≠ 0 ∨ (m.slabManager.info s).wantedSegs ≠ []) :
    Within (onSlabs (SlabManager.incrementHeldRefcnt slabIDs)) m
      (fun _ m' => m'.Books t ∧ m'.proxy = m.proxy) (fun _ => False) := by
  apply wp_onSlabs.mpr
  apply wp_mono (h.sound.partition.incrementHeldRefcnt h.sound.small slabIDs known)
  · rintro _ sm (limited | ⟨free, moved⟩)
    · exact .inl (.inr limited)
    · refine .inr ⟨?_, rfl⟩
      apply h.setSlabs moved
      case balance =>
        intro s
        dsimp only
        omega
      case firm =>
        intro s mem
        have := h.firm s mem
        have := moved.count s
        omega
      case settled =>
        intro settled
        show m.slabRqstManager.numRequests = 0 ∨ sm.freeSlabs.length = 0
        rw [free]
        exact h.settled settled
      all_goals rfl
  · intro _ sm limited
    exact .inl (.inr limited)

theorem proxySendBlockIDs_returns (m : Manager) (c : Nat) (blocks : List (Nat × Nat)) :
    wp (proxySendBlockIDs c blocks) m (fun _ _ => True) (fun _ _ => False) := by
  rw [proxySendBlockIDs, wp_swallow]
  simp only [sendIDs, wp_bind, wp_getProxy, wp_ite, wp_fail, wp_pure, wp_modify]
  split
  · trivial
  · split
    · apply wp_sendOn
      · trivial
      · intro _
        trivial
    · trivial

theorem Books.sendTaken {send : List Segment}
    (h : m.Books { t with owed := fun s => t.owed s + (m.slabsOf send).count s })
    (firm : m.slabsOf send ⊆ t.firm) :
    Within (sendTaken c send) m (fun _ m' => m'.Books t) (fun _ => False) := by
  rw [Mcsb.sendTaken]
  split
  · rename_i none
    rw [none] at h
    exact .inr h
  · apply wp_bind.mpr
    apply wp_get.mpr
    apply Within.bind
    · apply h.incrementHeldRefcnt
      intro s mem
      exact .inl (h.firm s (firm mem))
    · rintro _ m₁ ⟨books, -⟩
      exact .of_wp (books.returns (proxySendBlockIDs_returns ..))

theorem heldRefcnt_want (sm : SlabManager) (c b s x : Nat) :
    ((sm.want c b s).2.info x).heldRefcnt = (sm.info x).heldRefcnt := by
  rw [SlabManager.info_want]
  split
  · rename_i here
    rw [here]
  · rfl

/-- One more segment is listed, for nobody's queue yet. -/
theorem Books.want (h : m.Books t) {b : Nat}
    (held : (m.slabManager.info (b / m.blocksPerSlab)).heldRefcnt ≠ 0) :
    (m.setSlabs (m.slabManager.want c b (b / m.blocksPerSlab)).2).Books
      { t with rest := (m.slabManager.want c b (b / m.blocksPerSlab)).1 :: t.rest } := by
  constructor
  case nodup => exact h.nodup
  case fitted => exact h.fitted.of_sizes rfl rfl rfl rfl rfl
  case sound => exact h.sound.want (.inl held)
  case requests => exact h.requests
  case trackers => exact h.trackers
  case held =>
    intro s
    rw [slabManager_setSlabs, heldRefcnt_want]
    exact h.held s
  case wanted =>
    intro s
    apply List.Perm.trans _ (List.perm_middle.symm.filter _)
    have block : (m.slabManager.want c b (b / m.blocksPerSlab)).1.blockID /
        (m.setSlabs (m.slabManager.want c b (b / m.blocksPerSlab)).2).blocksPerSlab =
          b / m.blocksPerSlab := rfl
    rw [slabManager_setSlabs, SlabManager.info_want, List.filter_cons, block]
    by_cases here : s = b / m.blocksPerSlab
    · rw [if_pos here, if_pos (decide_eq_true here.symm), here]
      exact (List.perm_append_singleton _ _).trans ((h.wanted _).cons _)
    · rw [if_neg here, if_neg (by simpa using Ne.symm here)]
      exact h.wanted s
  case owners => exact h.owners
  case firm =>
    intro s mem
    rw [slabManager_setSlabs, heldRefcnt_want]
    exact h.firm s mem
  case live => exact h.live
  case absent => exact h.absent
  case settled => exact h.settled

/-- A listed segment joins its client's queue. -/
theorem Books.enqueue {seg : WantedSegment} (h : m.Books { t with rest := seg :: t.rest })
    (live : c ∈ m.clients) (owner : seg.clientID = c) : (m.setProxy c { m.proxy c with
      wantedQueue := (m.proxy c).wantedQueue ++ [seg] }).Books t := by
  apply h.setProxy live
  case ok => exact h.trackers c live
  case owner =>
    intro other mem
    rcases List.mem_append.mp mem with before | new
    · exact h.owners c live other before
    · rw [List.mem_singleton.mp new]
      exact owner
  case same => exact ⟨rfl, rfl, rfl, rfl⟩
  case balance => exact fun _ => rfl
  case queue =>
    dsimp only
    rw [List.append_assoc]
    exact List.Perm.refl _

theorem Books.queueSegments (h : m.Books t) (live : c ∈ t.live) (segs : List Segment)
    (firm : m.slabsOf segs ⊆ t.firm) :
    wp (queueSegments c segs) m (fun _ m' => m'.Books t) (fun _ _ => False) := by
  induction segs generalizing m with
  | nil => exact h
  | cons seg segs ih =>
    have held := h.firm _ (firm List.mem_cons_self)
    rw [Mcsb.queueSegments, wp_bind, wp_get, wp_bind, wp_onSlabs,
      SlabManager.getWantedSegment_ok h.sound.partition (.inl held), wp_bind, wp_modifyProxy]
    apply ih
    · exact (h.want held).enqueue (h.live c live) rfl
    · exact fun s mem => firm (List.mem_cons_of_mem _ mem)

/-! ## A wanted queue is popped -/

/-- The wanted queue of a client. -/
abbrev queueOf (c : Nat) (m : Manager) : List WantedSegment := (m.proxy c).wantedQueue

theorem queueOf_setProxy {x : Nat} {p : ClientProxy}
    (queue : p.wantedQueue = (m.proxy x).wantedQueue) :
    Keeps (queueOf c) m (m.setProxy x p) :=
  congrFun (inner_setProxy (·.wantedQueue) queue) c

instance (c : Nat) : Moving (Keeps (queueOf c)) where
  inside same _ _ _ := by
    simp only [Manager.settings, Prod.mk.injEq] at same
    exact congrArg (fun proxy => (proxy c).wantedQueue) same.2.2.2.2.2.2
  proxy _ queue := queueOf_setProxy queue

instance (c : Nat) : Sending (Keeps (queueOf c)) where
  sending _ _ := queueOf_setProxy rfl

instance (c : Nat) : Reporting (Keeps (queueOf c)) where
  reporting _ _ := queueOf_setProxy rfl
  dropped _ _ := rfl

theorem Books.sendWanted {s : Nat} (h : m.Books { t with owed := fun x => t.owed x + [s].count x })
    (wanted : (m.slabManager.info s).wantedSegs ≠ []) (seg : WantedSegment) (size : Nat) :
    Within (sendWanted c s seg size) m (fun _ m' => m'.Books t ∧
      (m'.proxy c).wantedQueue = (m.proxy c).wantedQueue) (fun _ => False) := by
  rw [Mcsb.sendWanted]
  apply Within.bind
  · apply h.incrementHeldRefcnt
    intro x mem
    rw [List.mem_singleton.mp mem]
    exact .inr wanted
  · rintro _ m₁ ⟨books, proxy⟩
    have sent := books.returns (proxySendBlockIDs_returns m₁ c [(seg.blockID, size)])
    apply ((Within.of_wp sent).keeping (v := queueOf c)).mono
    · rintro _ m' ⟨books', queue⟩
      refine ⟨books', queue.trans ?_⟩
      rw [queueOf, proxy]
    · intro _
      exact id

theorem Books.popWanted (h : m.Books t) (owed : ∀ s, t.owed s = 0) (live : c ∈ t.live)
    {seg : WantedSegment} {queue : List WantedSegment}
    (front : (m.proxy c).wantedQueue = seg :: queue) :
    Within (popWanted c seg) m (fun _ m' => m'.Books t) (fun _ => False) := by
  have here := h.live c live
  have listed : seg ∈ m.queued ++ t.rest := by
    apply List.mem_append_left
    exact List.mem_flatMap.mpr ⟨c, here, front ▸ List.mem_cons_self⟩
  have wanted := List.ne_nil_of_mem (h.listed listed)
  have pop (m : Manager) (books : m.Books t) (front : (m.proxy c).wantedQueue = seg :: queue) :
      Within (Mcsb.popFrontWanted c seg >>= fun _ => pure true) m (fun _ m' => m'.Books t)
        (fun _ => False) := by
    apply Within.of_wp
    apply wp_bind.mpr
    exact books.popFrontWanted owed (books.live c live) front
  rw [Mcsb.popWanted]
  apply wp_bind.mpr
  apply wp_get.mpr
  dsimp only
  split
  · apply (h.takeConsSlab here (h.sound.partition.lt_of_wanted wanted)).bind
    rintro took m₁ ⟨books, slabs, clients, same⟩
    cases took with
    | true =>
      rw [if_pos rfl]
      have wanted₁ : (m₁.slabManager.info (seg.blockID / m.blocksPerSlab)).wantedSegs ≠ [] := by
        rw [slabs]
        exact wanted
      apply (Books.sendWanted books wanted₁ seg _).bind
      rintro _ m₂ ⟨books', same'⟩
      exact pop m₂ books' (same'.trans (same.trans front))
    | false =>
      rw [if_neg Bool.false_ne_true]
      split
      · exact .inr books
      · have dropped := Books.returns (t := t) books (sendDropReport_returns m₁ c 1
          (m.blockInfo seg.blockID).size.toNat)
        apply ((Within.of_wp dropped).keeping (v := queueOf c)).bind
        rintro _ m₂ ⟨books', same'⟩
        exact pop m₂ books' (same'.trans (same.trans front))
  · exact pop m h front

/-- Both ways out the books are in order, unless a count is at its limit. -/
def Balanced (t : Transit) {α : Type} (x : Act α) (m : Manager) : Prop :=
  Within x m (fun _ m' => m'.Books t) (fun m' => m'.Books t)

theorem Books.popLoop (h : m.Books t) (owed : ∀ s, t.owed s = 0) (live : c ∈ t.live)
    (fuel : Nat) : Balanced t (popLoop c fuel) m := by
  induction fuel generalizing m with
  | zero => exact .inr h
  | succ fuel ih =>
    rw [Mcsb.popLoop]
    apply wp_bind.mpr
    apply wp_getProxy.mpr
    split
    · exact .inr h
    · rename_i seg queue front
      apply Within.bind (P := fun _ m' => m'.Books t)
      · apply (h.popWanted owed live front).mono
        · intro _ _
          exact id
        · intro _
          exact False.elim
      · intro more m' books
        cases more with
        | true => exact ih books
        | false => exact .inr books

theorem Books.popWantedQueue (h : m.Books t) (owed : ∀ s, t.owed s = 0) (live : c ∈ t.live) :
    Balanced t (popWantedQueue c) m :=
  h.popLoop owed live _

/-! ## A frame of segments is offered -/

instance : Steady (Keeps clients) where
  inside same _ _ := by
    simp only [Manager.settings, Prod.mk.injEq] at same
    exact same.2.1
  proxy _ := rfl

instance : Sending (Keeps clients) := ⟨fun _ _ => rfl⟩
instance : Reporting (Keeps clients) := ⟨fun _ _ => rfl, fun _ _ => rfl⟩
instance : Registering (Keeps clients) := ⟨fun _ => rfl⟩
instance : Wanting (Keeps clients) := ⟨fun _ => rfl⟩
instance : Ranking (Keeps clients) := ⟨fun _ => rfl⟩
instance : Grouping (Keeps clients) := ⟨fun _ => rfl, fun _ => rfl⟩
instance : Copying (Keeps clients) := ⟨fun _ _ => rfl⟩
instance : Resizing (Keeps clients) := ⟨fun _ _ => rfl⟩
instance : Growing (Keeps clients) := ⟨fun _ _ _ => rfl, fun _ _ => rfl⟩

theorem Books.sendSegments (h : m.Books t) (owed : ∀ s, t.owed s = 0) (live : c ∈ t.live)
    {segs : List Segment} (firm : m.slabsOf segs ⊆ t.firm) :
    Balanced t (sendSegments c segs) m := by
  have wanted : m.slabsOf (segs.filter (m.proxy c).wants) ⊆ t.firm :=
    List.Subset.trans (List.map_subset _ List.filter_sublist.subset) firm
  rw [Mcsb.sendSegments]
  apply wp_bind.mpr
  apply wp_getProxy.mpr
  apply Within.bind
  · apply ((h.sortSegments live _ _ wanted).keeping (v := params)).mono
    · intro _ _
      exact id
    · intro _
      exact False.elim
  · rintro ⟨send, want⟩ m₁ ⟨⟨taken, sent, queued⟩, params₁⟩
    rw [← slabsOf_of_params params₁] at taken sent queued
    apply Within.bind
    · apply ((taken.sendTaken sent).keeping (v := params)).mono
      · intro _ _
        exact id
      · intro _
        exact False.elim
    · rintro _ m₂ ⟨books, params₂⟩
      rw [← slabsOf_of_params params₂] at queued
      apply Within.bind (P := fun _ m' => m'.Books t)
      · apply Within.of_wp
        apply wp_mono (books.queueSegments live want queued)
        · intro _ _
          exact id
        · intro _ _
          exact False.elim
      · intro _ m₃ books
        exact books.popWantedQueue owed live

theorem Books.offerSegments (h : m.Books t) (owed : ∀ s, t.owed s = 0) {segs : List Segment}
    (firm : m.slabsOf segs ⊆ t.firm) (group : Int16) (cs : List Nat) (live : cs ⊆ t.live) :
    Balanced t (offerSegments segs group cs) m := by
  induction cs generalizing m with
  | nil => exact .inr h
  | cons c cs ih =>
    rw [List.cons_subset] at live
    rw [Mcsb.offerSegments]
    apply wp_bind.mpr
    apply wp_getProxy.mpr
    split
    · apply ((h.sendSegments owed live.1 firm).keeping (v := params)).bind
      rintro _ m' ⟨books, params⟩
      apply ih books _ live.2
      rw [slabsOf_of_params params]
      exact firm
    · exact ih h firm live.2

theorem Books.takeBlocksAndInfo (h : m.Books t) (owed : ∀ s, t.owed s = 0)
    (live : m.clients = t.live) {segs : List Segment} (firm : m.slabsOf segs ⊆ t.firm)
    (group : Int16) : Balanced t (takeBlocksAndInfo segs group) m := by
  rw [Mcsb.takeBlocksAndInfo]
  have copied := wp_and (Moves.wp_stays h) (wp_and (Moves.moves (x := copyInfos segs) (R := Keeps params) m)
    (Moves.moves (x := copyInfos segs) (R := Keeps clients) m))
  apply wp_bind.mpr
  apply wp_mono copied
  · rintro _ m₁ ⟨books, params, clients⟩
    apply wp_bind.mpr
    apply wp_modify.mpr
    apply wp_bind.mpr
    apply wp_get.mpr
    apply Books.offerSegments
    · exact books.of_holdings rfl rfl rfl rfl rfl rfl
    · exact owed
    · rw [slabsOf_of_params (m := m)]
      · exact firm
      · exact params
    · show m₁.clients ⊆ t.live
      rw [show m₁.clients = m.clients from clients, live]
      exact List.Subset.refl _
  · rintro _ m₁ ⟨books, -⟩
    exact .inr books

/-- Nothing is under way. -/
abbrev resting (settled : Bool) : Transit := { settled }

theorem Books.resting (h : m.Books t) (even : ∀ s, t.owed s = t.surplus s) (rest : t.rest = []) :
    m.Books (resting t.settled) := by
  constructor
  case held =>
    intro s
    have := h.held s
    have := even s
    dsimp only
    omega
  case wanted =>
    have wanted := h.wanted
    rw [rest] at wanted
    exact wanted
  case firm =>
    intro _ mem
    cases mem
  case live =>
    intro _ mem
    cases mem
  case absent =>
    intro _ mem
    cases mem
  case nodup => exact h.nodup
  case fitted => exact h.fitted
  case sound => exact h.sound
  case requests => exact h.requests
  case trackers => exact h.trackers
  case owners => exact h.owners
  case settled => exact h.settled

variable {settled : Bool}

/-- The slabs that a client holds as producer stay held while it is served. -/
theorem Books.producing (h : m.Books (Manager.resting settled)) (live : c ∈ m.clients)
    {slabIDs : List Nat} (held : ∀ s ∈ slabIDs, (m.proxy c).slabs.prodSlabRefcnt s = true) :
    m.Books { firm := slabIDs, live := m.clients, settled } where
  nodup := h.nodup
  fitted := h.fitted
  sound := h.sound
  requests := h.requests
  trackers := h.trackers
  held := h.held
  wanted := h.wanted
  owners := h.owners
  firm s mem := by
    have one := Accounts.le_sum live fun c => (m.proxy c).slabs.refs s
    have mine : 1 ≤ (m.proxy c).slabs.refs s := by
      rw [SlabTracker.refs, if_pos (held s mem)]
      exact Nat.le_add_right 1 _
    have counted := h.held s
    rw [refs] at counted
    dsimp only at counted
    omega
  live _ := id
  absent := h.absent
  settled := h.settled

theorem Balanced.resting {x : Act Unit} (h : Balanced t x m) (even : ∀ s, t.owed s = t.surplus s)
    (rest : t.rest = []) : Balanced (Manager.resting t.settled) x m :=
  h.mono (fun _ _ books => books.resting even rest) (fun _ books => books.resting even rest)

theorem Books.handleBlocksAndInfo (h : m.Books (Manager.resting settled)) (live : c ∈ m.clients)
    {segs : List Segment}
    (held : ∀ s ∈ m.slabsOf segs, (m.proxy c).slabs.prodSlabRefcnt s = true) :
    Balanced (Manager.resting settled) (handleBlocksAndInfo c segs) m := by
  have firm := h.producing live held
  have checked := wp_and (Moves.wp_stays firm) (wp_and
    (Moves.moves (x := checkCCI c segs) (R := Keeps params) m)
    (Moves.moves (x := checkCCI c segs) (R := Keeps clients) m))
  apply Balanced.resting (t := { firm := m.slabsOf segs, live := m.clients, settled })
  · rw [Mcsb.handleBlocksAndInfo]
    apply wp_bind.mpr
    apply wp_mono checked
    · rintro _ m₁ ⟨books, params, clients⟩
      apply wp_bind.mpr
      apply wp_getProxy.mpr
      apply books.takeBlocksAndInfo
      case owed => exact fun _ => rfl
      case live => exact clients
      case firm =>
        rw [slabsOf_of_params params]
        exact List.Subset.refl _
    · rintro _ m₁ ⟨books, -⟩
      exact .inr books
  · exact fun _ => rfl
  · rfl

/-! ## A client gives slabs back -/

theorem due_ones (slabIDs : List Nat) (s : Nat) :
    due (slabIDs.map (·, 1)) s = slabIDs.count s := by
  induction slabIDs with
  | nil => rfl
  | cons x slabIDs ih =>
    rw [Accounts.count_cons, ← ih]
    rfl

/-- The client of a frame stays connected. -/
theorem Books.serving (h : m.Books t) (live : c ∈ m.clients) :
    m.Books { t with live := [c] } where
  nodup := h.nodup
  fitted := h.fitted
  sound := h.sound
  requests := h.requests
  trackers := h.trackers
  held := h.held
  wanted := h.wanted
  owners := h.owners
  firm := h.firm
  live _ mem := List.mem_singleton.mp mem ▸ live
  absent := h.absent
  settled := h.settled

/-- What a tracker has given up is still to be released. -/
theorem Books.giveUp (h : m.Books t) (live : c ∈ m.clients) {tracker : SlabTracker}
    {slabIDs : List Nat} (ok : tracker.OK (m.tracked c))
    (less : ∀ s, tracker.refs s + slabIDs.count s = (m.proxy c).slabs.refs s) :
    (m.setProxy c { m.proxy c with slabs := tracker }).Books
      { t with surplus := fun s => t.surplus s + due (slabIDs.map (·, 1)) s } := by
  apply h.setProxy live
  case ok => exact ok
  case owner => exact h.owners c live
  case same => exact ⟨rfl, rfl, rfl, rfl⟩
  case queue => exact List.Perm.refl _
  case balance =>
    intro s
    have := less s
    dsimp only
    rw [due_ones]
    omega

theorem ones_pos {slabIDs : List Nat} : ∀ slab ∈ slabIDs.map (·, 1), 0 < slab.2 := by
  intro slab mem
  obtain ⟨s, -, rfl⟩ := List.mem_map.mp mem
  exact Nat.one_pos

theorem Books.handleBlockIDs (h : m.Books (Manager.resting settled)) (live : c ∈ m.clients)
    (blockIDs : List Nat) :
    Balanced (Manager.resting settled) (handleBlockIDs c blockIDs) m := by
  apply Balanced.resting (t := { live := [c], settled })
  · rw [Mcsb.handleBlockIDs]
    apply wp_bind.mpr
    apply wp_get.mpr
    dsimp only
    generalize blockIDs.map (· / m.blocksPerSlab) = slabIDs
    apply wp_bind.mpr
    apply wp_mono ((h.serving live).indexing slabIDs)
    · rintro _ m₁ ⟨books, slabs, requests, clients, proxy⟩
      have here : c ∈ m₁.clients := clients ▸ live
      have tracker := books.trackers c here
      apply wp_bind.mpr
      apply wp_onTracker.mpr
      apply SlabTracker.decrementConsSlabs_cases tracker.consOK
      case inside =>
        intro s _ held
        apply tracker.lt_of_refs
        unfold SlabTracker.refs
        omega
      case err =>
        intro _ _
        right
        apply Books.of_proxy books
        all_goals rfl
      case ok =>
        intro _ t' less
        have given := books.giveUp here (less.keeps tracker) less.refs
        apply wp_bind.mpr
        apply wp_mono (given.decrementHeldRefcnt _ (fun _ => rfl) rfl ones_pos)
        · intro _ m₂ books
          apply books.popWantedQueue
          · exact fun _ => rfl
          · exact List.mem_singleton_self c
        · intro _ _
          exact False.elim
    · intro _ _
      exact False.elim
  · exact fun _ => rfl
  · rfl

/-- A batch of slabs is given back, each listed once, or refused. -/
theorem Books.handleSlabIDs (h : m.Books (Manager.resting settled)) (live : c ∈ m.clients)
    {slabIDs : List Nat} (once : slabIDs.Nodup ∨ (m.proxy c).slabs.Refused slabIDs) :
    Balanced (Manager.resting settled) (handleSlabIDs c slabIDs) m := by
  apply Balanced.resting (t := { live := [c], settled })
  · rw [Mcsb.handleSlabIDs, releaseProdSlabs]
    apply wp_bind.mpr
    apply wp_bind.mpr
    apply wp_getProxy.mpr
    apply wp_bind.mpr
    apply wp_mono ((h.serving live).indexing _)
    · rintro _ m₁ ⟨books, slabs, requests, clients, proxy⟩
      have here : c ∈ m₁.clients := clients ▸ live
      have tracker := books.trackers c here
      apply wp_bind.mpr
      apply wp_onTracker.mpr
      apply SlabTracker.wp_eraseProdSlabs
      case refused =>
        intro _ _
        right
        apply Books.of_proxy books
        all_goals rfl
      case erased =>
        intro taken
        rw [← proxy] at once
        have nodup := once.resolve_right taken
        rw [SlabTracker.Refused, not_or] at taken
        have erased := tracker.eraseProdSlabs nodup fun s mem => by
          by_contra free
          exact taken.2 ⟨s, mem, Bool.eq_false_of_not_eq_true free⟩
        have given := books.giveUp here erased.ok erased.refs
        apply wp_mono (given.decrementHeldRefcnt _ (fun _ => rfl) rfl ones_pos)
        · intro _ m₂ books
          apply books.fillProducerSlabs
          · exact fun _ => rfl
          · rfl
          · exact List.mem_singleton_self c
        · intro _ _
          exact False.elim
    · intro _ _
      exact False.elim
  · exact fun _ => rfl
  · rfl

end

end Manager
end Mcsb
