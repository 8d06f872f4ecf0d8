import Mcsb.Manager.Delivery
import Mcsb.Manager.WantedQueues

/-!
# No segment is lost in silence

Each segment that the manager took for a client was sent to it, is queued for it
or was dropped and logged, as long as the client's socket works and the client
stays registered for what it waits for.
-/

namespace Mcsb
open Effect

set_option maxRecDepth 2000
set_option synthInstance.maxSize 10000

/-- The segments of a client that were sent, are queued, or were dropped. -/
def ClientProxy.accounted (p : ClientProxy) : Nat :=
  p.stream.length + (p.dropLog.map Prod.fst).sum

namespace Manager

/-- The client is registered for what is in a block. -/
def Expects (m : Manager) (c b : Nat) : Prop :=
  (m.blockInfo b).messageID ∈ (m.proxy c).registeredMsgIDs

/-- A client is registered for all that is queued for it. -/
def Waits (m : Manager) (c : Nat) : Prop :=
  ∀ seg ∈ (m.proxy c).wantedQueue, m.Expects c seg.blockID

/-- While its socket works, `n` more segments of a client are accounted for, and
it stays registered for what is queued. -/
structure Tallies (c : Nat) (n : Int) (m m' : Manager) : Prop where
  count : (m'.proxy c).sendFailed = false → (m.proxy c).sendFailed = false ∧
    ((m'.proxy c).accounted : Int) = (m.proxy c).accounted + n
  waits : m.Waits c → m'.Waits c

section
variable {m m' m'' : Manager} {c x : Nat} {n n' : Int} {p : ClientProxy}

theorem Tallies.trans (h : Tallies c n m m') (h' : Tallies c n' m' m'') :
    Tallies c (n + n') m m'' where
  count works := by
    obtain ⟨works, after⟩ := h'.count works
    obtain ⟨works, before⟩ := h.count works
    exact ⟨works, by omega⟩
  waits := h'.waits ∘ h.waits

instance : IsPreorder Manager (Tallies c 0) where
  refl _ := ⟨fun works => ⟨works, (Int.add_zero _).symm⟩, id⟩
  trans _ _ _ h h' := h.trans h'

theorem Tallies.of_same (info : m'.blockInfo = m.blockInfo) (proxy : m'.proxy = m.proxy) :
    Tallies c 0 m m' where
  count works := by
    rw [proxy] at works ⊢
    exact ⟨works, (Int.add_zero _).symm⟩
  waits waits := by
    unfold Waits Expects
    rw [info, proxy]
    exact waits

/-- The proxy of a client changes, which concerns that client only. -/
theorem Tallies.of_update (info : m'.blockInfo = m.blockInfo)
    (proxy : m'.proxy = Function.update m.proxy x p)
    (count : p.sendFailed = false → (m.proxy x).sendFailed = false ∧
      (p.accounted : Int) = (m.proxy x).accounted + n)
    (registered : (m.proxy x).registeredMsgIDs ⊆ p.registeredMsgIDs)
    (queue : p.wantedQueue ⊆ (m.proxy x).wantedQueue) :
    Tallies c (if c = x then n else 0) m m' := by
  by_cases here : c = x
  · subst here
    have same : m'.proxy c = p := by rw [proxy, Function.update_self]
    rw [if_pos rfl]
    constructor
    · rw [same]
      exact count
    · intro waits seg mem
      rw [same] at mem
      rw [Expects, same, info]
      exact registered (waits seg (queue mem))
  · have same : m'.proxy c = m.proxy c := by rw [proxy, Function.update_of_ne here]
    rw [if_neg here]
    constructor
    · rw [same]
      exact fun works => ⟨works, (Int.add_zero _).symm⟩
    · intro waits seg mem
      rw [Expects, same, info]
      rw [same] at mem
      exact waits seg mem

theorem Tallies.setProxy (count : p.sendFailed = false → (m.proxy x).sendFailed = false ∧
      (p.accounted : Int) = (m.proxy x).accounted + n)
    (registered : (m.proxy x).registeredMsgIDs ⊆ p.registeredMsgIDs)
    (queue : p.wantedQueue ⊆ (m.proxy x).wantedQueue) :
    Tallies c (if c = x then n else 0) m (m.setProxy x p) :=
  .of_update rfl rfl count registered queue

/-- No segment is added or lost. -/
theorem Tallies.level (count : p.sendFailed = false → (m.proxy x).sendFailed = false ∧
      p.accounted = (m.proxy x).accounted)
    (registered : (m.proxy x).registeredMsgIDs ⊆ p.registeredMsgIDs)
    (queue : p.wantedQueue ⊆ (m.proxy x).wantedQueue) : Tallies c 0 m (m.setProxy x p) := by
  have tallies : Tallies c (if c = x then 0 else 0) m (m.setProxy x p) := by
    apply Tallies.setProxy
    case count =>
      intro works
      obtain ⟨works, same⟩ := count works
      exact ⟨works, by rw [same, Int.add_zero]⟩
    case registered => exact registered
    case queue => exact queue
  rwa [ite_self] at tallies

/-- Nothing that is counted changes. -/
theorem Tallies.quiet (sock : p.sock.out = (m.proxy x).sock.out)
    (failed : p.sendFailed = (m.proxy x).sendFailed)
    (queue : p.wantedQueue = (m.proxy x).wantedQueue) (log : p.dropLog = (m.proxy x).dropLog)
    (registered : (m.proxy x).registeredMsgIDs ⊆ p.registeredMsgIDs) :
    Tallies c 0 m (m.setProxy x p) := by
  apply Tallies.level
  case count =>
    rw [ClientProxy.accounted, ClientProxy.accounted, ClientProxy.stream, ClientProxy.stream, sock,
      failed, queue, log]
    exact fun works => ⟨works, rfl⟩
  case registered => exact registered
  case queue =>
    rw [queue]
    exact List.Subset.refl _

/-- The proxy of another client changes. -/
theorem Tallies.other (other : c ≠ x) : Tallies c 0 m (m.setProxy x p) := by
  have same : (m.setProxy x p).proxy c = m.proxy c := proxy_setProxy_of_ne m other p
  constructor
  · rw [same]
    exact fun works => ⟨works, (Int.add_zero _).symm⟩
  · intro waits seg mem
    rw [Expects, same]
    rw [same] at mem
    exact waits seg mem

end

instance (c : Nat) : Moving (Tallies c 0) where
  inside same _ _ _ := by
    simp only [Manager.settings, Prod.mk.injEq] at same
    exact .of_same same.2.2.2.2.2.1 same.2.2.2.2.2.2
  proxy same queue := by
    simp only [ClientProxy.settings, Prod.mk.injEq] at same
    obtain ⟨-, -, sock, failed, -, -, registered, -, -, -, log, -⟩ := same
    exact .quiet (congrArg Sock.out sock) failed queue log (registered ▸ List.Subset.refl _)

section
variable (c : Nat)

instance : Wanting (Tallies c 0) := ⟨fun _ => .quiet rfl rfl rfl rfl (List.Subset.refl _)⟩
instance : Ranking (Tallies c 0) := ⟨fun _ => .quiet rfl rfl rfl rfl (List.Subset.refl _)⟩
instance : Grouping (Tallies c 0) :=
  ⟨fun _ => .of_same rfl rfl, fun _ => .quiet rfl rfl rfl rfl (List.Subset.refl _)⟩
instance : Resizing (Tallies c 0) := ⟨fun _ _ => .quiet rfl rfl rfl rfl (List.Subset.refl _)⟩
instance : Growing (Tallies c 0) :=
  ⟨fun _ _ _ => .of_same rfl rfl, fun _ _ => .quiet rfl rfl rfl rfl (List.Subset.refl _)⟩

instance (x : Nat) (slabIDs : List Nat) : Moves (Tallies c 0) (indexing x slabIDs) :=
  .modify fun _ => .of_same rfl rfl

instance (x fd : Nat) (sent : Sent) [none : Blockless sent] :
    Moves (Tallies c 0) (sendOn x fd sent) := by
  refine ⟨fun m => ?_⟩
  have wrote : Tallies c 0 m (m.setProxy fd { m.proxy fd with
      sock := { (m.proxy fd).sock with
        attempts := (m.proxy fd).sock.attempts + 1
        out := (m.proxy fd).sock.out ++ [sent] } }) := by
    apply Tallies.level
    case count =>
      intro works
      simp only [ClientProxy.accounted, ClientProxy.stream, List.flatMap_append,
        List.flatMap_singleton, none.blocks, List.append_nil]
      exact ⟨works, trivial⟩
    case registered => exact List.Subset.refl _
    case queue => exact List.Subset.refl _
  have tried : Tallies c 0 m (m.setProxy fd { m.proxy fd with
      sock := { (m.proxy fd).sock with attempts := (m.proxy fd).sock.attempts + 1 } }) :=
    .quiet rfl rfl rfl rfl (List.Subset.refl _)
  have broke (m : Manager) :
      Tallies c 0 m (m.setProxy x { m.proxy x with sendFailed := true }) := by
    apply Tallies.level
    case count => exact fun no => absurd no.symm Bool.false_ne_true
    case registered => exact List.Subset.refl _
    case queue => exact List.Subset.refl _
  simp only [sendOn, wp_bind, wp_getProxy, wp_ite, wp_fail, wp_modifyProxy]
  split
  · exact refl_of (Tallies c 0) m
  · split
    · exact wrote
    · exact tried.trans (broke _)

instance (stats : Manager → ManagerStats) :
    Moves (Tallies c 0) (modify fun m => { m with stats := stats m } : Act PUnit) :=
  .modify fun _ => .of_same rfl rfl

end

instance (stats : Manager → ManagerStats) :
    Moves (Keeps queues) (modify fun m => { m with stats := stats m } : Act PUnit) :=
  .modify fun _ => rfl

/-! ## Segments are sent, dropped and popped -/

section
variable {m : Manager} {c x : Nat} {seg : WantedSegment} {rest : List WantedSegment}

/-- The blocks that a proxy sends are accounted for, or its socket has failed. -/
theorem accounted_send (p : ClientProxy) (ids : List Nat)
    (works : (p.send (.blockIDs ids)).sendFailed = false) : p.sendFailed = false ∧
      ((p.send (.blockIDs ids)).accounted : Int) = p.accounted + ids.length := by
  unfold ClientProxy.send at works ⊢
  split
  · rename_i failed
    rw [if_pos failed, failed] at works
    cases works
  · rename_i before
    rw [if_neg before] at works
    split
    · refine ⟨Bool.eq_false_of_not_eq_true before, ?_⟩
      simp only [ClientProxy.accounted, ClientProxy.stream, ClientProxy.wrote, List.flatMap_append,
        List.flatMap_singleton, List.length_append, Sent.blocks]
      omega
    · rename_i accepts
      rw [if_neg accepts] at works
      cases works

theorem tallies_proxySendBlockIDs {blocks : List (Nat × Nat)} (some : blocks ≠ []) :
    wp (proxySendBlockIDs x blocks) m (fun _ m' =>
      Tallies c (if c = x then blocks.length else 0) m m' ∧
        (m'.proxy x).wantedQueue = (m.proxy x).wantedQueue) (fun _ _ => False) := by
  apply wp_mono (wp_and (wp_and (proxySendBlockIDs_returns m x blocks)
    (Moves.moves (R := Keeps (popView x)) m)) (wp_proxySendBlockIDs some (x := x)
      (Q := fun _ m' => m'.proxy = Function.update m.proxy x
        ((m.proxy x).send (.blockIDs (blocks.map Prod.fst)))) (E := fun _ _ => True)
          fun _ _ => id))
  · rintro _ m' ⟨⟨-, view⟩, sent⟩
    have view : popView x m' = popView x m := view
    simp only [popView, Prod.mk.injEq] at view
    refine ⟨?_, view.2.2.2⟩
    have count := accounted_send (m.proxy x) (blocks.map Prod.fst)
    rw [List.length_map] at count
    apply Tallies.of_update view.2.1 sent count
    · rw [ClientProxy.registeredMsgIDs_send]
      exact List.Subset.refl _
    · rw [ClientProxy.wantedQueue_send]
      exact List.Subset.refl _
  · rintro _ _ ⟨⟨no, -⟩, -⟩
    exact no

theorem tallies_sendWanted (slabID size : Nat) : wp (sendWanted x slabID seg size) m (fun _ m' =>
    Tallies c (if c = x then 1 else 0) m m' ∧
      (m'.proxy x).wantedQueue = (m.proxy x).wantedQueue) (fun _ _ => True) := by
  rw [sendWanted, wp_bind, wp_onSlabs]
  apply wp_mono wp_trivial
  · intro _ sm _
    have same : Tallies c 0 m (m.setSlabs sm) := .of_same rfl rfl
    apply wp_mono (tallies_proxySendBlockIDs (List.cons_ne_nil _ _))
    · rintro _ m' ⟨sent, queue⟩
      refine ⟨?_, queue⟩
      have both := same.trans sent
      rwa [Int.zero_add] at both
    · exact fun _ _ => False.elim
  · exact fun _ _ => id

/-- A drop of so many segments is logged, and perhaps reported. -/
theorem tallies_sendDropReport (m : Manager) (c x segs bytes : Nat) :
    wp (sendDropReport x segs bytes) m (fun _ m' =>
      Tallies c (if c = x then segs else 0) m m' ∧
        (m'.proxy x).wantedQueue = (m.proxy x).wantedQueue) (fun _ _ => False) := by
  have logged (dropReporter : DropReporter) : Tallies c (if c = x then segs else 0) m
      (m.setProxy x { m.proxy x with
        dropReporter, dropLog := (m.proxy x).dropLog ++ [(segs, bytes)] }) := by
    apply Tallies.setProxy
    case count =>
      intro works
      refine ⟨works, ?_⟩
      simp only [ClientProxy.accounted, ClientProxy.stream, List.map_append, List.sum_append,
        List.map_cons, List.map_nil, List.sum_singleton]
      omega
    case registered => exact List.Subset.refl _
    case queue => exact List.Subset.refl _
  have goOn {m₁ : Manager} (before : Tallies c (if c = x then segs else 0) m m₁)
      (queue : (m₁.proxy x).wantedQueue = (m.proxy x).wantedQueue) (k : Act Unit)
      [Moves (Tallies c 0) k] [Moves (Keeps queues) k] : wp k m₁ (fun _ m' =>
        Tallies c (if c = x then segs else 0) m m' ∧
          (m'.proxy x).wantedQueue = (m.proxy x).wantedQueue) (fun _ _ => True) := by
    apply wp_mono (wp_and (Moves.moves (R := Tallies c 0) m₁) (Moves.moves (R := Keeps queues) m₁))
    · rintro _ m' ⟨same, kept⟩
      have both := before.trans same
      rw [Int.add_zero] at both
      exact ⟨both, (congrFun kept x).trans queue⟩
    · exact fun _ _ _ => trivial
  have logs : wp (sendDropReport x segs bytes) m (fun _ m' =>
      Tallies c (if c = x then segs else 0) m m' ∧
        (m'.proxy x).wantedQueue = (m.proxy x).wantedQueue) (fun _ _ => True) := by
    simp only [sendDropReport, wp_bind, wp_modifyProxy, wp_getProxy, proxy_setProxy,
      setProxy_setProxy]
    split
    · apply goOn (logged _)
      rw [proxy_setProxy]
    · apply goOn (logged _)
      rw [proxy_setProxy]
  apply wp_mono (wp_and (sendDropReport_returns m x segs bytes) logs)
  · exact fun _ _ => And.right
  · exact fun _ _ => And.left

/-- The front of the queue leaves it. -/
theorem tallies_popFrontWanted (front : (m.proxy x).wantedQueue = seg :: rest) :
    wp (popFrontWanted x seg) m (fun _ m' =>
      Tallies c (if c = x then -1 else 0) m m' ∧ (m'.proxy x).wantedQueue = rest)
      (fun _ _ => True) := by
  have popped : Tallies c (if c = x then -1 else 0) m (m.setProxy x
      { m.proxy x with wantedQueue := (m.proxy x).wantedQueue.tail }) := by
    apply Tallies.setProxy
    case count =>
      intro works
      refine ⟨works, ?_⟩
      simp only [ClientProxy.accounted, ClientProxy.stream, front, List.tail_cons, List.map_cons,
        List.length_append, List.length_cons]
      omega
    case registered => exact List.Subset.refl _
    case queue => exact (List.tail_sublist _).subset
  rw [popFrontWanted, wp_bind, wp_modifyProxy]
  apply wp_mono (wp_and (Moves.moves (R := Tallies c 0) _) (Moves.moves (R := Keeps queues) _))
  · rintro _ m' ⟨same, queue⟩
    constructor
    · have both := popped.trans same
      rwa [Int.add_zero] at both
    · have queue := congrFun queue x
      rw [queues, queues, proxy_setProxy, front] at queue
      exact queue
  · exact fun _ _ _ => trivial

/-- What is popped was sent or is logged as dropped. -/
theorem tallies_popWanted (waits : m.Waits c) (front : (m.proxy x).wantedQueue = seg :: rest) :
    wp (popWanted x seg) m (fun again m' => Tallies c 0 m m' ∧
      (again = true → (m'.proxy x).wantedQueue = rest)) (fun _ _ => True) := by
  have pop {m₁ : Manager} (before : Tallies c (if c = x then 1 else 0) m m₁)
      (queue : (m₁.proxy x).wantedQueue = (m.proxy x).wantedQueue) :
      wp (popFrontWanted x seg >>= fun _ => pure true) m₁ (fun again m' => Tallies c 0 m m' ∧
        (again = true → (m'.proxy x).wantedQueue = rest)) (fun _ _ => True) := by
    rw [wp_bind]
    apply wp_mono (tallies_popFrontWanted (c := c) (queue.trans front))
    · rintro _ m' ⟨popped, rest⟩
      have both := before.trans popped
      have none : (if c = x then (1 : Int) else 0) + (if c = x then -1 else 0) = 0 := by
        split <;> rfl
      rw [none] at both
      exact ⟨both, fun _ => rest⟩
    · exact fun _ _ => id
  rw [popWanted, wp_bind, wp_get]
  dsimp only
  rw [wp_ite]
  split
  · rw [wp_bind]
    apply wp_mono (wp_and (Moves.moves (R := Tallies c 0) m) (Moves.moves (R := Keeps queues) m))
    · rintro took m₁ ⟨same, kept⟩
      have queue : (m₁.proxy x).wantedQueue = (m.proxy x).wantedQueue := congrFun kept x
      rw [wp_ite]
      split
      · rw [wp_bind]
        apply wp_mono (tallies_sendWanted (c := c) _ _)
        · rintro _ m₂ ⟨sent, kept⟩
          have before := same.trans sent
          rw [Int.zero_add] at before
          exact pop before (kept.trans queue)
        · exact fun _ _ => id
      · rw [wp_ite]
        split
        · exact ⟨same, fun no => absurd no Bool.false_ne_true⟩
        · rw [wp_bind]
          apply wp_mono (tallies_sendDropReport m₁ c x 1 _)
          · rintro _ m₂ ⟨dropped, kept⟩
            have before := same.trans dropped
            rw [Int.zero_add] at before
            exact pop before (kept.trans queue)
          · exact fun _ _ => False.elim
    · exact fun _ _ _ => trivial
  · rename_i unregistered
    have other : c ≠ x := by
      rintro rfl
      exact unregistered (waits seg (front ▸ List.mem_cons_self))
    apply pop
    · rw [if_neg other]
      exact refl_of (Tallies c 0) m
    · rfl

variable {t : Transit}

/-- A queue is popped without an exception. -/
theorem Books.popLoop_tallies (h : m.Books t) (owed : ∀ s, t.owed s = 0) (live : x ∈ t.live)
    (waits : m.Waits c) (fuel : Nat) (enough : (m.proxy x).wantedQueue.length < fuel) :
    Within (Mcsb.popLoop x fuel) m (fun _ m' => Tallies c 0 m m') (fun _ => False) := by
  induction fuel generalizing m with
  | zero => cases enough
  | succ fuel ih =>
    rw [Mcsb.popLoop]
    apply wp_bind.mpr
    apply wp_getProxy.mpr
    cases front : (m.proxy x).wantedQueue with
    | nil => exact .inr (refl_of (Tallies c 0) m)
    | cons seg rest =>
      apply ((h.popWanted owed live front).and (tallies_popWanted waits front)).bind
      rintro again m₁ ⟨books, first, rest⟩
      cases again with
      | false => exact .inr first
      | true =>
        rw [if_pos rfl]
        have shorter : (m₁.proxy x).wantedQueue.length < fuel := by
          rw [front, List.length_cons] at enough
          rw [rest rfl]
          omega
        apply (ih books (first.waits waits) shorter).mono
        · intro _ m' later
          have both := first.trans later
          rwa [Int.zero_add] at both
        · exact fun _ => id

theorem Books.popWantedQueue_tallies (h : m.Books t) (owed : ∀ s, t.owed s = 0)
    (live : x ∈ t.live) (waits : m.Waits c) :
    Within (Mcsb.popWantedQueue x) m (fun _ m' => Tallies c 0 m m') (fun _ => False) :=
  h.popLoop_tallies owed live waits _ (Nat.lt_succ_self _)

/-! ## A frame is offered -/

theorem tallies_sendTaken (send : List Segment) : wp (sendTaken x send) m
    (fun _ => Tallies c (if c = x then send.length else 0) m) (fun _ _ => True) := by
  rw [sendTaken, wp_ite]
  split
  · rename_i none
    rw [none, List.length_nil, Nat.cast_zero, ite_self]
    exact refl_of (Tallies c 0) m
  · rename_i some
    rw [wp_bind, wp_get, wp_bind, wp_onSlabs]
    apply wp_mono wp_trivial
    · intro _ sm _
      have same : Tallies c 0 m (m.setSlabs sm) := .of_same rfl rfl
      apply wp_mono (tallies_proxySendBlockIDs (c := c) fun none => some (List.map_eq_nil_iff.mp none))
      · rintro _ m' ⟨sent, -⟩
        have both := same.trans sent
        rwa [Int.zero_add, List.length_map] at both
      · exact fun _ _ => False.elim
    · exact fun _ _ => id

theorem expects_of_view {m' : Manager} (view : popView c m' = popView c m) (b : Nat) :
    m'.Expects c b ↔ m.Expects c b := by
  simp only [popView, Prod.mk.injEq] at view
  rw [Expects, Expects, view.2.1, view.2.2.1]

/-- A segment joins the queue of a client that is registered for it. -/
theorem Tallies.queued {sm : SlabManager} {wanted : WantedSegment}
    (expects : c = x → m.Expects c wanted.blockID) : Tallies c (if c = x then 1 else 0) m
      ((m.setSlabs sm).setProxy x { m.proxy x with
        wantedQueue := (m.proxy x).wantedQueue ++ [wanted] }) := by
  by_cases here : c = x
  · subst here
    rw [if_pos rfl]
    constructor
    · intro works
      rw [proxy_setProxy] at works ⊢
      refine ⟨works, ?_⟩
      simp only [ClientProxy.accounted, ClientProxy.stream, List.map_append, List.length_append,
        List.map_cons, List.map_nil, List.length_singleton]
      omega
    · intro waits seg mem
      rw [proxy_setProxy] at mem
      rw [Expects, proxy_setProxy]
      rcases List.mem_append.mp mem with before | new
      · exact waits seg before
      · rw [List.mem_singleton.mp new]
        exact expects rfl
  · rw [if_neg here]
    have same : Tallies c 0 m (m.setSlabs sm) := .of_same rfl rfl
    exact trans_of (Tallies c 0) same (.other here)

theorem tallies_queueSegments (want : List Segment)
    (expects : c = x → ∀ seg ∈ want, m.Expects c seg.blockID) : wp (queueSegments x want) m
      (fun _ => Tallies c (if c = x then want.length else 0) m) (fun _ _ => True) := by
  induction want generalizing m with
  | nil =>
    rw [List.length_nil, Nat.cast_zero, ite_self]
    exact refl_of (Tallies c 0) m
  | cons seg want ih =>
    rw [queueSegments, wp_bind, wp_get, wp_bind, wp_onSlabs]
    apply wp_mono (SlabManager.wp_getWantedSegment_valid _ x seg.blockID _)
    · rintro wanted sm ⟨block, -⟩
      rw [wp_bind, wp_modifyProxy]
      have queued : Tallies c (if c = x then 1 else 0) m ((m.setSlabs sm).setProxy x
          { m.proxy x with wantedQueue := (m.proxy x).wantedQueue ++ [wanted] }) := by
        apply Tallies.queued
        rw [block]
        exact fun here => expects here seg List.mem_cons_self
      apply wp_mono (ih _)
      · intro _ m' later
        have both := queued.trans later
        have sum : (if c = x then (1 : Int) else 0) + (if c = x then (want.length : Int) else 0) =
            if c = x then ((seg :: want).length : Int) else 0 := by
          split
          · rw [List.length_cons]
            omega
          · rfl
        rwa [sum] at both
      · exact fun _ _ => id
      · rintro rfl seg' mem
        rw [Expects, proxy_setProxy]
        exact expects rfl seg' (List.mem_cons_of_mem _ mem)
    · exact fun _ _ _ => trivial

theorem Within.both {α : Type} {y : Act α} {P Q : α → Manager → Prop} {E F : Manager → Prop}
    (h : Within y m P E) (h' : Within y m Q F) :
    Within y m (fun a m' => P a m' ∧ Q a m') (fun m' => E m' ∧ F m') :=
  wp_mono (wp_and h h') (fun _ _ => or_and_left.mpr) (fun _ _ => or_and_left.mpr)

variable {t : Transit}

theorem Books.sendSegments_tallies (h : m.Books t) (owed : ∀ s, t.owed s = 0) (live : x ∈ t.live)
    {segs : List Segment} (firm : m.slabsOf segs ⊆ t.firm) (waits : m.Waits c)
    (expects : c = x → ∀ seg ∈ segs.filter (m.proxy x).wants, m.Expects c seg.blockID) :
    Within (Mcsb.sendSegments x segs) m (fun _ m' => m'.Books t ∧
      Tallies c (if c = x then (segs.filter (m.proxy x).wants).length else 0) m m')
      (fun _ => False) := by
  have wanted : m.slabsOf (segs.filter (m.proxy x).wants) ⊆ t.firm :=
    List.Subset.trans (List.map_subset _ List.filter_sublist.subset) firm
  rw [Mcsb.sendSegments]
  apply wp_bind.mpr
  apply wp_getProxy.mpr
  generalize segs.filter (m.proxy x).wants = segs at wanted expects ⊢
  have sorts := wp_and (wp_sortSegments m x ((m.proxy x).wantedQueue ≠ []) segs)
    (wp_and (Moves.moves (R := Tallies c 0) m) (Moves.moves (R := Keeps (popView c)) m))
  apply Within.bind
  · exact ((h.sortSegments live _ _ wanted).keeping (v := params)).and sorts
  · rintro ⟨send, want⟩ m₁ ⟨⟨⟨taken, sent, queued⟩, params₁⟩, ⟨all, -⟩, sorted, view₁⟩
    have all : send ++ want = segs := all
    rw [← slabsOf_of_params params₁] at taken sent queued
    have sends := wp_and (tallies_sendTaken (m := m₁) (c := c) (x := x) send)
      (Moves.moves (R := Keeps (popView c)) m₁)
    apply Within.bind
    · exact ((taken.sendTaken (c := x) sent).keeping (v := params)).and sends
    · rintro _ m₂ ⟨⟨books, params₂⟩, sent, view₂⟩
      rw [← slabsOf_of_params params₂] at queued
      have view : popView c m₂ = popView c m := Eq.trans view₂ view₁
      have expects : c = x → ∀ seg ∈ want, m₂.Expects c seg.blockID := by
        intro here seg mem
        apply (expects_of_view view _).mpr
        exact expects here seg (all ▸ List.mem_append_right _ mem)
      apply Within.bind
      · exact (Within.of_wp (books.queueSegments live want queued)).and
          (tallies_queueSegments want expects)
      · rintro _ m₃ ⟨books, queued⟩
        have before := (sorted.trans sent).trans queued
        have sum : 0 + (if c = x then (send.length : Int) else 0) +
            (if c = x then (want.length : Int) else 0) =
            if c = x then (segs.length : Int) else 0 := by
          rw [← all, List.length_append]
          split
          · omega
          · rfl
        rw [sum] at before
        apply ((books.popWantedQueue owed live).both
          (books.popWantedQueue_tallies owed live (before.waits waits))).mono
        · rintro _ m' ⟨books, popped⟩
          have both := before.trans popped
          rw [Int.add_zero] at both
          exact ⟨books, both⟩
        · exact fun _ => And.right

end

/-- What decides what a client is offered, and whether it is registered for it. -/
abbrev expected (m : Manager) : (Nat → BlockInfo) × (Nat → Nat × List UInt32 × Int16) :=
  (m.blockInfo, m.tastes)

instance : Steady (Keeps expected) where
  inside same calm limit := by
    have tasted := Steady.inside (R := Keeps tastes) same calm limit
    simp only [Manager.settings, Prod.mk.injEq] at same
    exact Prod.ext same.2.2.2.2.2.1 tasted
  proxy same := Prod.ext rfl (Steady.proxy (R := Keeps tastes) same)

instance : Sending (Keeps expected) :=
  ⟨fun sock failed => Prod.ext rfl (Sending.sending (R := Keeps tastes) sock failed)⟩
instance : Reporting (Keeps expected) :=
  ⟨fun reporter log => Prod.ext rfl (Reporting.reporting (R := Keeps tastes) reporter log),
    fun _ _ => rfl⟩

instance (x : Nat) (slabIDs : List Nat) : Moves (Keeps expected) (indexing x slabIDs) :=
  .modify fun _ => rfl

section
variable {m m' : Manager} {c : Nat} {t : Transit}

theorem expects_of_expected (same : m'.expected = m.expected) (c b : Nat) :
    m'.Expects c b ↔ m.Expects c b := by
  obtain ⟨info, tastes⟩ := Prod.mk.inj same
  have registered := (Prod.mk.inj (Prod.mk.inj (congrFun tastes c)).2).1
  rw [Expects, Expects, info, registered]

/-- Each client is offered the frame once. -/
theorem Books.offerSegments_tallies (h : m.Books t) (owed : ∀ s, t.owed s = 0)
    {segs : List Segment} (firm : m.slabsOf segs ⊆ t.firm) (gid : Int16) {cs : List Nat}
    (nodup : cs.Nodup) (live : cs ⊆ t.live) (waits : m.Waits c)
    (expects : c ∈ cs → ∀ b ∈ m.offers gid segs c, m.Expects c b) :
    Within (Mcsb.offerSegments segs gid cs) m
      (fun _ m' => Tallies c (if c ∈ cs then (m.offers gid segs c).length else 0) m m')
      (fun _ => False) := by
  induction cs generalizing m with
  | nil => exact .inr (refl_of (Tallies c 0) m)
  | cons x cs ih =>
    obtain ⟨once, nodup⟩ := List.nodup_cons.mp nodup
    rw [List.cons_subset] at live
    rw [Mcsb.offerSegments]
    apply wp_bind.mpr
    apply wp_getProxy.mpr
    split
    · rename_i offered
      have new : (segs.filter (m.proxy x).wants).map (·.blockID) = m.offers gid segs x := by
        rw [offers, if_neg offered.2]
      have expectsHere : c = x → ∀ seg ∈ segs.filter (m.proxy x).wants, m.Expects c seg.blockID := by
        rintro rfl seg mem
        exact expects List.mem_cons_self _ (new ▸ List.mem_map_of_mem mem)
      apply (((h.sendSegments_tallies owed live.1 firm waits expectsHere).keeping
        (v := params)).keeping (v := expected)).bind
      rintro _ m₁ ⟨⟨⟨books, first⟩, params⟩, same⟩
      have offers₁ : m₁.offers = m.offers := offers_of_tastes (Prod.mk.inj same).2
      have firm₁ : m₁.slabsOf segs ⊆ t.firm := slabsOf_of_params params segs ▸ firm
      have expects₁ : c ∈ cs → ∀ b ∈ m₁.offers gid segs c, m₁.Expects c b := by
        intro mem b offered
        rw [offers₁] at offered
        exact (expects_of_expected same c b).mpr (expects (List.mem_cons_of_mem x mem) b offered)
      apply (ih books firm₁ nodup live.2 (first.waits waits) expects₁).mono
      · intro _ m' later
        have both := first.trans later
        have sum : (if c = x then ((segs.filter (m.proxy x).wants).length : Int) else 0) +
            (if c ∈ cs then ((m₁.offers gid segs c).length : Int) else 0) =
            if c ∈ x :: cs then ((m.offers gid segs c).length : Int) else 0 := by
          by_cases here : c = x
          · subst here
            rw [if_pos rfl, if_neg once, if_pos List.mem_cons_self, ← new, List.length_map,
              Int.add_zero]
          · rw [if_neg here, Int.zero_add, offers₁]
            simp only [List.mem_cons, here, false_or]
        rwa [sum] at both
      · exact fun _ => id
    · rename_i skipped
      apply (ih h firm nodup live.2 waits fun mem => expects (List.mem_cons_of_mem x mem)).mono
      · intro _ m' later
        by_cases here : c = x
        · subst here
          rw [if_neg once] at later
          rw [if_pos List.mem_cons_self]
          refine ⟨fun works => ?_, later.waits⟩
          obtain ⟨before, same⟩ := later.count works
          have connected : (m.proxy c).connected = true := by
            rw [ClientProxy.connected, before]
            rfl
          have own : gid ≠ 0 ∧ gid = (m.proxy c).groupID := by
            by_contra other
            exact skipped ⟨connected, other⟩
          rw [offers, if_pos own, List.length_nil]
          exact ⟨before, same⟩
        · simp only [List.mem_cons, here, false_or]
          exact later
      · exact fun _ => id

end

/-! ## What the manager takes -/

/-- A segment passes the checks on CCI messages. -/
def passes (m : Manager) (src : Nat) (seg : Segment) : Bool :=
  seg.info.messageID ≠ kCCIMessageID ∨ seg.blockID < m.totalNumBlocks ∧
    seg.cci.srcClientID.toNat = src ∧ (src = 0 ∨ seg.cci.dstClientID ≠ 0)

/-- The manager takes a frame all of whose segments pass. -/
def accepts (m : Manager) (src : Nat) (segs : List Segment) : Bool := segs.all (m.passes src)

/-- What the manager takes for a client of an event. -/
def accepted (m : Manager) (c : Nat) : Event → List Nat
  | .frame src (.blocksAndInfo segs) =>
    if m.accepts src segs then m.offers (m.proxy src).groupID segs c else []
  | _ => []

/-- All that the manager took for a client since it came. -/
def intake (c : Nat) : History → List Nat
  | [] => []
  | (m, e) :: hist => if c ∈ m.clients then intake c hist ++ m.accepted c e else []

theorem wp_checkCCI (m : Manager) (src : Nat) (segs : List Segment) : wp (checkCCI src segs) m
    (fun _ m' => m' = m ∧ m.accepts src segs = true)
    (fun _ m' => m' = m ∧ m.accepts src segs = false) := by
  induction segs with
  | nil => exact ⟨rfl, rfl⟩
  | cons seg segs ih =>
    have goOn (fine : m.passes src seg = true) : wp (checkCCI src segs) m
        (fun _ m' => m' = m ∧ m.accepts src (seg :: segs) = true)
        (fun _ m' => m' = m ∧ m.accepts src (seg :: segs) = false) := by
      have same : m.accepts src (seg :: segs) = m.accepts src segs := by
        rw [accepts, List.all_cons, fine, Bool.true_and]
        rfl
      rw [same]
      exact ih
    have refused (bad : m.passes src seg = false) : m.accepts src (seg :: segs) = false := by
      rw [accepts, List.all_cons, bad, Bool.false_and]
    rw [checkCCI, wp_ite]
    split
    · rename_i cci
      simp only [wp_bind, wp_get, wp_ite, wp_fail, true_and]
      split
      · exact refused (by simp [passes, cci]; omega)
      · split
        · exact refused (by simp [passes, cci]; tauto)
        · split
          · exact refused (by simp [passes, cci]; tauto)
          · rename_i known same allowed
            refine goOn (decide_eq_true (.inr ⟨Nat.not_le.mp known, not_not.mp same, ?_⟩))
            exact or_iff_not_imp_left.mpr fun some none => allowed ⟨some, none⟩
    · exact goOn (decide_eq_true (.inl ‹_›))

/-- The infos of a frame are copied, if all of its blocks are known. -/
theorem wp_copyInfos (segs : List Segment) (m : Manager) : wp (copyInfos segs) m
    (fun _ m' => m'.proxy = m.proxy ∧ ∀ b,
      m'.blockInfo b = m.blockInfo b ∧ b ∉ segs.map (·.blockID) ∨
        ∃ seg ∈ segs, seg.blockID = b ∧ m'.blockInfo b = seg.info)
    (fun _ _ => ∃ seg ∈ segs, m.totalNumBlocks ≤ seg.blockID) := by
  induction segs generalizing m with
  | nil => exact ⟨rfl, fun b => .inl ⟨rfl, List.not_mem_nil⟩⟩
  | cons seg segs ih =>
    simp only [copyInfos, wp_bind, wp_get, wp_ite, wp_fail, wp_modify]
    split
    · exact ⟨seg, List.mem_cons_self, ‹_›⟩
    · apply wp_mono (ih _)
      · rintro _ m' ⟨proxy, infos⟩
        refine ⟨proxy, fun b => ?_⟩
        rcases infos b with ⟨same, later⟩ | ⟨seg', mem, block, info⟩
        · by_cases here : b = seg.blockID
          · refine .inr ⟨seg, List.mem_cons_self, here.symm, ?_⟩
            rw [same, here]
            exact Function.update_self ..
          · rw [same]
            refine .inl ⟨Function.update_of_ne here .., ?_⟩
            rw [List.map_cons, List.mem_cons, not_or]
            exact ⟨here, later⟩
        · exact .inr ⟨seg', List.mem_cons_of_mem seg mem, block, info⟩
      · rintro _ m' ⟨seg', mem, beyond⟩
        exact ⟨seg', List.mem_cons_of_mem seg mem, beyond⟩

end Manager

/-- The client does not deregister, and what a frame puts into a block that waits
for the client is of a message that it is registered for. -/
def Event.staysWanted (c : Nat) (m : Manager) : Event → Bool
  | .frame src (.blocksAndInfo segs) => segs.all fun seg =>
    seg.blockID ∉ (m.proxy c).wantedQueue.map (·.blockID) ++
        m.offers (m.proxy src).groupID segs c ∨
      seg.info.messageID ∈ (m.proxy c).registeredMsgIDs
  | .frame x (.registration type _ _ _) => x ≠ c ∨ type ≠ .deregisterList
  | _ => true

namespace Manager

section
variable {m : Manager} {c x : Nat} {settled : Bool} {segs : List Segment}

/-- The blocks of slabs that are held are known. -/
theorem Books.known {t : Transit} (h : m.Books t) (firm : m.slabsOf segs ⊆ t.firm) :
    ∀ seg ∈ segs, seg.blockID < m.totalNumBlocks := by
  intro seg mem
  have held := h.firm_lt (firm (List.mem_map_of_mem mem))
  exact (Nat.div_lt_iff_lt_mul m.params.blocks_pos).mp (held.trans_le h.fitted.total)

theorem Books.handleBlocksAndInfo_tallies (h : m.Books (Manager.resting settled))
    (here : x ∈ m.clients) (live : c ∈ m.clients)
    (held : ∀ s ∈ m.slabsOf segs, (m.proxy x).slabs.prodSlabRefcnt s = true) (waits : m.Waits c)
    (wanted : (Event.frame x (.blocksAndInfo segs)).staysWanted c m = true) :
    Within (Mcsb.handleBlocksAndInfo x segs) m
      (fun _ m' => Tallies c (m.accepted c (.frame x (.blocksAndInfo segs))).length m m')
      (fun m' => Tallies c (m.accepted c (.frame x (.blocksAndInfo segs))).length m m') := by
  have firm := h.producing here held
  rw [Mcsb.handleBlocksAndInfo]
  apply wp_bind.mpr
  apply wp_mono (wp_checkCCI m x segs)
  · rintro _ m₁ ⟨same, accepts⟩
    subst same
    rw [accepted, if_pos accepts]
    apply wp_bind.mpr
    apply wp_getProxy.mpr
    rw [Mcsb.takeBlocksAndInfo]
    apply wp_bind.mpr
    apply wp_mono (wp_and (wp_copyInfos segs m₁) (wp_and (Moves.wp_stays firm)
      (wp_and (Moves.moves (R := Keeps params) m₁) (Moves.moves (R := Keeps clients) m₁))))
    · rintro _ m₂ ⟨⟨proxy, infos⟩, books, params₂, clients₂⟩
      have params₂ : m₂.params = m₁.params := params₂
      have clients₂ : m₂.clients = m₁.clients := clients₂
      -- what the frame has put into the blocks that wait, and into those it offers
      have copied {b : Nat} (mem : b ∈ (m₁.proxy c).wantedQueue.map (·.blockID) ++
          m₁.offers (m₁.proxy x).groupID segs c) (or : b ∈ segs.map (·.blockID) ∨ m₁.Expects c b) :
          m₂.Expects c b := by
        rw [Expects, proxy]
        rcases infos b with ⟨same, absent⟩ | ⟨seg, named, rfl, info⟩
        · rw [same]
          exact or.resolve_left absent
        · rw [info]
          exact (of_decide_eq_true (List.all_eq_true.mp wanted seg named)).resolve_left (not_not.mpr mem)
      have queued : Tallies c 0 m₁ m₂ := by
        constructor
        · rw [proxy]
          exact fun works => ⟨works, (Int.add_zero _).symm⟩
        · intro waits seg mem
          rw [proxy] at mem
          have queued := List.mem_map_of_mem (f := (·.blockID)) mem
          exact copied (List.mem_append_left _ queued) (.inr (waits seg mem))
      have offered : m₂.offers = m₁.offers := by
        apply offers_of_tastes
        funext c
        rw [tastes, tastes, proxy]
      apply wp_bind.mpr
      apply wp_modify.mpr
      apply wp_bind.mpr
      apply wp_get.mpr
      generalize counted : ({ m₂ with stats := _ } : Manager) = m₃
      have tallies : Tallies c 0 m₁ m₃ := by
        rw [← counted]
        apply trans_of (Tallies c 0) queued
        exact .of_same rfl rfl
      have books₃ : m₃.Books { firm := m₁.slabsOf segs, live := m₁.clients, settled } := by
        rw [← counted]
        exact books.of_holdings rfl rfl rfl rfl rfl rfl
      have offers₃ : m₃.offers = m₁.offers := by
        rw [← counted]
        exact offered
      have clients₃ : m₃.clients = m₁.clients := by
        rw [← counted]
        exact clients₂
      have params₃ : m₃.params = m₁.params := by
        rw [← counted]
        exact params₂
      have firm₃ : m₃.slabsOf segs ⊆ m₁.slabsOf segs := by
        rw [slabsOf_of_params params₃]
        exact List.Subset.refl _
      have expects : c ∈ m₃.clients → ∀ b ∈ m₃.offers (m₁.proxy x).groupID segs c,
          m₃.Expects c b := by
        intro _ b mem
        rw [offers₃] at mem
        rw [← counted]
        apply copied (List.mem_append_right _ mem)
        left
        unfold offers at mem
        split at mem
        · cases mem
        · exact List.map_subset _ List.filter_sublist.subset mem
      rw [clients₃] at expects ⊢
      apply (books₃.offerSegments_tallies (fun _ => rfl) firm₃ _ h.nodup (List.Subset.refl _)
        (tallies.waits waits) expects).mono
      · intro _ m' offered
        have both := tallies.trans offered
        rwa [if_pos live, offers₃, Int.zero_add] at both
      · exact fun _ => False.elim
    · rintro _ m₂ ⟨⟨seg, mem, beyond⟩, -⟩
      exact absurd beyond (Nat.not_le.mpr (firm.known (List.Subset.refl _) seg mem))
  · rintro _ _ ⟨rfl, refused⟩
    rw [accepted, refused, if_neg Bool.false_ne_true, List.length_nil]
    exact .inr (refl_of (Tallies c 0) _)

end

/-! ## Wanted slabs are harvested -/

section
variable {m : Manager} {c x : Nat} {t : Transit}

/-- What is seized is logged as dropped. -/
theorem tallies_eraseWantedSegment {seg : WantedSegment} (mem : seg ∈ (m.proxy x).wantedQueue) :
    wp (eraseWantedSegment x seg) m (fun _ m' => Tallies c 0 m m') (fun _ _ => True) := by
  have erased : Tallies c (if c = x then -1 else 0) m (m.setProxy x
      { m.proxy x with wantedQueue := (m.proxy x).wantedQueue.erase seg }) := by
    apply Tallies.setProxy
    case count =>
      intro works
      refine ⟨works, ?_⟩
      have fewer := List.length_erase_add_one mem
      simp only [ClientProxy.accounted, ClientProxy.stream, List.length_append, List.length_map]
      omega
    case registered => exact List.Subset.refl _
    case queue => exact List.erase_sublist.subset
  rw [eraseWantedSegment, wp_bind, wp_get, if_neg (List.ne_nil_of_mem mem), wp_bind,
    wp_modifyProxy, wp_bind]
  apply wp_mono (Moves.moves (R := Tallies c 0) _)
  · intro _ m₁ released
    apply wp_mono (tallies_sendDropReport m₁ c x 1 _)
    · rintro _ m' ⟨dropped, -⟩
      have all := (erased.trans released).trans dropped
      have none : (if c = x then (-1 : Int) else 0) + 0 +
          (if c = x then ((1 : Nat) : Int) else 0) = 0 := by
        split <;> rfl
      rwa [none] at all
    · exact fun _ _ => False.elim
  · exact fun _ _ _ => trivial

theorem Books.harvestLoop_tallies (h : m.Books t) (owed : ∀ s, t.owed s = 0) (rest : t.rest = [])
    (orig count fuel : Nat) : wp (Mcsb.harvestLoop orig count fuel) m
      (fun _ m' => Tallies c 0 m m') (fun _ m' => Tallies c 0 m m') := by
  induction fuel generalizing m with
  | zero => exact refl_of (Tallies c 0) m
  | succ fuel ih =>
    rw [Mcsb.harvestLoop, wp_bind, wp_get, wp_ite]
    split
    · rw [wp_bind, wp_onSlabs]
      apply wp_frontWantedSegment
      · intro s seg mem
        obtain ⟨live, queued⟩ := h.owner rest mem
        rw [show m.setSlabs m.slabManager = m from rfl, if_pos live, wp_bind]
        apply wp_mono (wp_and (h.eraseWantedSegment owed live queued)
          (tallies_eraseWantedSegment (c := c) queued))
        · rintro _ m₁ ⟨books, first⟩
          apply wp_mono (ih books)
          · exact fun _ _ => trans_of (Tallies c 0) first
          · exact fun _ _ => trans_of (Tallies c 0) first
        · exact fun _ _ both => both.1.elim
      · exact fun _ => refl_of (Tallies c 0) m
    · exact refl_of (Tallies c 0) m

theorem Books.requestFreeSlabs_tallies (h : m.Books t) (owed : ∀ s, t.owed s = 0)
    (rest : t.rest = []) (n : Nat) (niceLevel : Int) :
    wp (Mcsb.requestFreeSlabs n x niceLevel) m (fun _ m' => Tallies c 0 m m')
      (fun _ m' => Tallies c 0 m m') := by
  rw [Mcsb.requestFreeSlabs, wp_bind, wp_get]
  generalize niceLevel + (if m.params.playbackMode = true then 1 else 0) = level
  dsimp only
  rw [wp_ite]
  split
  · exact Moves.moves (R := Tallies c 0) m
  · rw [wp_ite]
    split
    · exact refl_of (Tallies c 0) m
    · rw [wp_bind, harvestWantedSlabs, wp_bind, wp_get]
      apply wp_mono (h.harvestLoop_tallies (c := c) owed rest _ _ _)
      · intro _ m₁ harvested
        exact Moves.wp_trans harvested
      · exact fun _ _ => id

theorem Books.fillProducerSlabs_tallies (h : m.Books t) (owed : ∀ s, t.owed s = 0)
    (rest : t.rest = []) : wp (Mcsb.fillProducerSlabs x) m (fun _ m' => Tallies c 0 m m')
      (fun _ m' => Tallies c 0 m m') := by
  rw [Mcsb.fillProducerSlabs, wp_bind, wp_getProxy, wp_ite]
  split
  · exact refl_of (Tallies c 0) m
  · rw [wp_bind, wp_modifyProxy]
    have asked (pendingFreeSlabRqsts : Nat) :
        Tallies c 0 m (m.setProxy x { m.proxy x with pendingFreeSlabRqsts }) :=
      .quiet rfl rfl rfl rfl (List.Subset.refl _)
    have books (pendingFreeSlabRqsts : Nat) :
        (m.setProxy x { m.proxy x with pendingFreeSlabRqsts }).Books t := h.of_proxy rfl rfl
    apply wp_mono ((books _).requestFreeSlabs_tallies owed rest _ _)
    · exact fun _ _ => trans_of (Tallies c 0) (asked _)
    · exact fun _ _ => trans_of (Tallies c 0) (asked _)

end

/-! ## Frames are handled -/

section
variable {m : Manager} {c x : Nat} {settled : Bool}

theorem tallies_setTracker (slabs : SlabTracker) :
    Tallies c 0 m (m.setProxy x { m.proxy x with slabs }) :=
  .quiet rfl rfl rfl rfl (List.Subset.refl _)

theorem Books.handleBlockIDs_tallies (h : m.Books (Manager.resting settled))
    (here : x ∈ m.clients) (waits : m.Waits c) (blockIDs : List Nat) :
    Within (Mcsb.handleBlockIDs x blockIDs) m (fun _ m' => Tallies c 0 m m')
      (fun m' => Tallies c 0 m m') := by
  rw [Mcsb.handleBlockIDs]
  apply wp_bind.mpr
  apply wp_get.mpr
  dsimp only
  generalize blockIDs.map (· / m.blocksPerSlab) = slabIDs
  apply wp_bind.mpr
  apply wp_mono (wp_and ((h.serving here).indexing slabIDs) (Moves.moves (R := Tallies c 0) m))
  · rintro _ m₁ ⟨⟨books, -, -, clients, -⟩, first⟩
    have here : x ∈ m₁.clients := clients ▸ here
    have tracker := books.trackers x here
    apply wp_bind.mpr
    apply wp_onTracker.mpr
    apply SlabTracker.decrementConsSlabs_cases tracker.consOK
    case inside =>
      intro s _ held
      apply tracker.lt_of_refs
      unfold SlabTracker.refs
      omega
    case err =>
      intro _ _
      exact .inr (trans_of (Tallies c 0) first (tallies_setTracker _))
    case ok =>
      intro _ t' less
      have given := books.giveUp here (less.keeps tracker) less.refs
      apply wp_bind.mpr
      apply wp_mono (wp_and (given.decrementHeldRefcnt _ (fun _ => rfl) rfl ones_pos)
        (Moves.moves (R := Tallies c 0) _))
      · rintro _ m₂ ⟨books, released⟩
        have before := trans_of (Tallies c 0) first
          (trans_of (Tallies c 0) (tallies_setTracker t') released)
        apply (books.popWantedQueue_tallies (fun _ => rfl) (List.mem_singleton_self x)
          (before.waits waits)).mono
        · exact fun _ _ => trans_of (Tallies c 0) before
        · exact fun _ => False.elim
      · exact fun _ _ both => both.1.elim
  · exact fun _ _ both => both.1.elim

theorem Books.handleSlabIDs_tallies (h : m.Books (Manager.resting settled))
    (here : x ∈ m.clients) {slabIDs : List Nat}
    (once : slabIDs.Nodup ∨ (m.proxy x).slabs.Refused slabIDs) :
    wp (Mcsb.handleSlabIDs x slabIDs) m (fun _ m' => Tallies c 0 m m')
      (fun _ m' => Tallies c 0 m m') := by
  rw [Mcsb.handleSlabIDs, releaseProdSlabs, wp_bind, wp_bind, wp_getProxy, wp_bind]
  apply wp_mono (wp_and ((h.serving here).indexing _) (Moves.moves (R := Tallies c 0) m))
  · rintro _ m₁ ⟨⟨books, -, -, clients, proxy⟩, first⟩
    have here : x ∈ m₁.clients := clients ▸ here
    have tracker := books.trackers x here
    rw [wp_bind, wp_onTracker]
    apply SlabTracker.wp_eraseProdSlabs
    case refused =>
      intro _ _
      exact trans_of (Tallies c 0) first (tallies_setTracker _)
    case erased =>
      intro taken
      rw [← proxy] at once
      have nodup := once.resolve_right taken
      rw [SlabTracker.Refused, not_or] at taken
      have erased := tracker.eraseProdSlabs nodup fun s mem => by
        by_contra free
        exact taken.2 ⟨s, mem, Bool.eq_false_of_not_eq_true free⟩
      have given := books.giveUp here erased.ok erased.refs
      apply wp_mono (wp_and (given.decrementHeldRefcnt _ (fun _ => rfl) rfl ones_pos)
        (Moves.moves (R := Tallies c 0) _))
      · rintro _ m₂ ⟨books, released⟩
        have before := trans_of (Tallies c 0) first
          (trans_of (Tallies c 0) (tallies_setTracker _) released)
        apply wp_mono (books.fillProducerSlabs_tallies (fun _ => rfl) rfl)
        · exact fun _ _ => trans_of (Tallies c 0) before
        · exact fun _ _ => trans_of (Tallies c 0) before
      · exact fun _ _ both => both.1.elim
  · exact fun _ _ both => both.1.elim

theorem Books.handleNumSlabs_tallies (h : m.Books (Manager.resting false))
    (here : x ∈ m.clients) (prodSlbs consSlbs : UInt32) (sockoptOK : Bool) :
    wp (Mcsb.handleNumSlabs x prodSlbs consSlbs sockoptOK) m (fun _ m' => Tallies c 0 m m')
      (fun _ m' => Tallies c 0 m m') := by
  rw [Mcsb.handleNumSlabs, wp_bind]
  apply wp_mono (wp_and ((h.serving here).grantNumSlabs rfl (List.mem_singleton_self x) prodSlbs
    consSlbs sockoptOK fun no => absurd no Bool.false_ne_true) (Moves.moves (R := Tallies c 0) m))
  · rintro _ m₁ ⟨books, first⟩
    apply wp_mono (books.fillProducerSlabs_tallies (fun _ => rfl) rfl)
    · exact fun _ _ => trans_of (Tallies c 0) first
    · exact fun _ _ => trans_of (Tallies c 0) first
  · exact fun _ _ => And.right

instance (x : Nat) (msgIDs : List UInt32) : Moves (Tallies c 0) (registerMsgIDs x msgIDs) := by
  have inserts (msgID : UInt32) : Moves (Tallies c 0) (modifyProxy x fun p =>
      { p with registeredMsgIDs := p.registeredMsgIDs.orderedInsert (· ≤ ·) msgID }) := by
    refine .modify fun m => .quiet rfl rfl rfl rfl fun id mem => ?_
    exact (List.mem_orderedInsert ..).mpr (.inr mem)
  induction msgIDs with
  | nil => exact inferInstanceAs (Moves _ (pure _))
  | cons msgID msgIDs ih =>
    unfold registerMsgIDs
    infer_instance

/-- The proxy of another client is free to change. -/
theorem moves_other (other : c ≠ x) (f : ClientProxy → ClientProxy) :
    Moves (Tallies c 0) (modifyProxy x f) :=
  .modify fun _ => .other other

theorem moves_deregisterMsgIDs (other : c ≠ x) (msgIDs : List UInt32) :
    Moves (Tallies c 0) (deregisterMsgIDs x msgIDs) := by
  have changes := moves_other other
  induction msgIDs with
  | nil => exact inferInstanceAs (Moves _ (pure _))
  | cons msgID msgIDs ih =>
    unfold deregisterMsgIDs
    infer_instance

theorem moves_handleRegistration {type : RegType} (wanted : x = c → type ≠ .deregisterList)
    (cid gid : Int16) (msgIDs : List UInt32) :
    Moves (Tallies c 0) (handleRegistration x type cid gid msgIDs) := by
  by_cases here : x = c
  · unfold handleRegistration
    cases type with
    | registerList => infer_instance
    | deregisterList => exact absurd rfl (wanted here)
    | registerAllMsgs => infer_instance
  · have := moves_deregisterMsgIDs (Ne.symm here)
    infer_instance

/-- Another client leaves. -/
theorem moves_destroyProxy (other : c ≠ x) : Moves (Tallies c 0) (destroyProxy x) := by
  have changes := moves_other other
  have empties (queue : List WantedSegment) : Moves (Tallies c 0) (releaseQueue x queue) := by
    induction queue with
    | nil => exact inferInstanceAs (Moves _ (pure _))
    | cons seg rest ih =>
      unfold releaseQueue
      infer_instance
  have deregisters (gid : Int16) (messages : List (List UInt32)) :
      Moves (Tallies c 0) (deregisterAllMsgIDs x gid messages) := by
    induction messages with
    | nil => exact inferInstanceAs (Moves _ (pure _))
    | cons msgIDs rest ih =>
      unfold deregisterAllMsgIDs
      infer_instance
  infer_instance

theorem wp_deleteClient_tallies (other : c ≠ x) (m : Manager) : wp (deleteClient x) m
    (fun _ m' => Tallies c 0 m m') (fun _ _ => True) := by
  have moves := moves_destroyProxy other
  apply wp_deleteClient.mpr
  have erased : Tallies c 0 m { m with clients := m.clients.erase x } := .of_same rfl rfl
  apply wp_mono (Moves.moves (R := Tallies c 0) _)
  · exact fun _ _ => trans_of (Tallies c 0) erased
  · exact fun _ _ _ => trivial

instance (x : Nat) : Moves (Tallies c 0) (handleDropReportAck x) := by
  refine ⟨fun m => ?_⟩
  rw [handleDropReportAck, wp_bind, wp_modifyProxy]
  have acked : Tallies c 0 m (m.setProxy x
      { m.proxy x with dropReporter := (m.proxy x).dropReporter.ack }) :=
    .quiet rfl rfl rfl rfl (List.Subset.refl _)
  apply wp_mono (tallies_sendDropReport _ c x 0 0)
  · rintro _ m' ⟨none, -⟩
    rw [Nat.cast_zero, ite_self] at none
    exact trans_of (Tallies c 0) acked none
  · exact fun _ _ => False.elim

theorem Books.handle_tallies (h : m.Books (Manager.resting false)) {f : Frame}
    (here : x ∈ m.clients) (live : c ∈ m.clients) (waits : m.Waits c)
    (owning : (Event.frame x f).Owning m) (once : (Event.frame x f).ListsOnce m)
    (wanted : (Event.frame x f).staysWanted c m = true) :
    Within (f.handle x) m
      (fun _ m' => Tallies c (m.accepted c (.frame x f)).length m m')
      (fun m' => Tallies c (m.accepted c (.frame x f)).length m m') := by
  cases f with
  | blockIDs ids => exact h.handleBlockIDs_tallies here waits ids
  | slabIDs ids => exact .of_wp (h.handleSlabIDs_tallies here once)
  | blocksAndInfo segs => exact h.handleBlocksAndInfo_tallies here live owning waits wanted
  | numSlabs prod cons ok => exact .of_wp (h.handleNumSlabs_tallies here prod cons ok)
  | registration type cid gid msgIDs =>
    have wanted : x = c → type ≠ .deregisterList := fun here =>
      (of_decide_eq_true wanted).resolve_left (not_not.mpr here)
    exact .of_wp ((moves_handleRegistration wanted cid gid msgIDs).moves m)
  | registrationsWanted new current =>
    exact .of_wp (Moves.moves (x := handleRegistrationsWanted x new current) (R := Tallies c 0) m)
  | dropReportAck => exact .of_wp (Moves.moves (x := handleDropReportAck x) (R := Tallies c 0) m)
  | prodNiceLevel n =>
    exact .of_wp (Moves.moves (x := modifyProxy x fun p =>
      { p with prodNiceLevel := n.toInt.bmod (2 ^ 8) }) (R := Tallies c 0) m)
  | managerEcho bytes =>
    exact .of_wp (Moves.moves (x := sendCtrl x (.managerEcho bytes)) (R := Tallies c 0) m)
  | sequenceToken token =>
    exact .of_wp (Moves.moves (x := sendCtrl x (.sequenceToken token)) (R := Tallies c 0) m)
  | groupID id =>
    exact .of_wp (Moves.moves (x := modifyProxy x fun p => { p with groupID := id })
      (R := Tallies c 0) m)
  | groupIDStr str =>
    exact .of_wp (Moves.moves (x := handleGroupIDStr x str) (R := Tallies c 0) m)
  | invalid => exact .of_wp (Moves.moves (x := fail "peer protocol error") (R := Tallies c 0) m)
  | ignored => exact .inr (refl_of (Tallies c 0) m)

end

/-! ## Clients come and go -/

/-- The producer slabs that a client was granted. -/
abbrev prodSlabsOf (c : Nat) (m : Manager) : Nat := (m.proxy c).slabs.numProdSlabs

theorem prodSlabsOf_setProxy {m : Manager} {c x : Nat} {p : ClientProxy}
    (same : p.slabs.numProdSlabs = (m.proxy x).slabs.numProdSlabs) :
    Keeps (prodSlabsOf c) m (m.setProxy x p) :=
  congrFun (inner_setProxy (fun p => p.slabs.numProdSlabs) same) c

instance (c : Nat) : Steady (Keeps (prodSlabsOf c)) where
  inside same _ _ := by
    simp only [Manager.settings, Prod.mk.injEq] at same
    exact congrArg (fun proxy => (proxy c).slabs.numProdSlabs) same.2.2.2.2.2.2
  proxy same := by
    simp only [ClientProxy.settings, SlabTracker.sizes, Prod.mk.injEq] at same
    exact prodSlabsOf_setProxy same.2.2.2.2.2.1.1

instance (c : Nat) : Sending (Keeps (prodSlabsOf c)) := ⟨fun _ _ => prodSlabsOf_setProxy rfl⟩
instance (c : Nat) : Resizing (Keeps (prodSlabsOf c)) := ⟨fun _ _ => prodSlabsOf_setProxy rfl⟩

/-- While a client `d` is made, nobody comes, and it is granted no slabs. -/
structure Making (c d : Nat) (m m' : Manager) : Prop where
  tallies : Tallies c 0 m m'
  clients : m'.clients = m.clients
  granted : prodSlabsOf d m' = prodSlabsOf d m

instance (c d : Nat) : IsPreorder Manager (Making c d) where
  refl m := ⟨refl_of (Tallies c 0) m, rfl, rfl⟩
  trans _ _ _ h h' := ⟨trans_of (Tallies c 0) h.tallies h'.tallies, h'.clients.trans h.clients,
    h'.granted.trans h.granted⟩

theorem moves_making {c d : Nat} {x : Act Unit} [tallies : Moves (Tallies c 0) x]
    [clients : Moves (Keeps Manager.clients) x] [granted : Moves (Keeps (prodSlabsOf d)) x] :
    Moves (Making c d) x := by
  refine ⟨fun m => ?_⟩
  apply wp_mono (wp_and (tallies.moves m) (wp_and (clients.moves m) (granted.moves m)))
  · exact fun _ _ all => ⟨all.1, all.2.1, all.2.2⟩
  · exact fun _ _ all => ⟨all.1, all.2.1, all.2.2⟩

/-- Nobody came, or a client did for whom a proxy was made. -/
def Welcomed (c addr : Nat) (accepts : Nat → Bool) (m m' : Manager) : Prop :=
  m' = m ∨ ∃ d nextNewClientID, d ∉ m.clients ∧ (∀ x ∈ m'.clients, x = d ∨ x ∈ m.clients) ∧
    Tallies c 0 (Manager.setProxy { m with nextNewClientID } d
      { clientID := d, addr, sock := { accepts } }) m'

section
variable {m : Manager} {c : Nat}

/-- A new client is granted no slabs yet, so nothing is harvested for it. -/
theorem wp_addConnectedClient_welcomed (m : Manager) (addr : Nat) (accepts : Nat → Bool)
    (c : Nat) : wp (addConnectedClient addr accepts) m
      (fun _ m' => Welcomed c addr accepts m m') (fun _ _ => True) := by
  rw [addConnectedClient, wp_bind, wp_get, wp_ite]
  split
  · exact .inl rfl
  · rw [wp_bind]
    apply wp_mono (Gentle.wp_getNewClientID _ m)
    · rintro d _ ⟨new, next, rfl, -⟩
      rw [wp_bind, wp_modify]
      apply wp_swallow.mpr
      generalize fresh : Manager.setProxy { m with nextNewClientID := next } d
        { clientID := d, addr, sock := { accepts } } = m₁
      have clients : m₁.clients = m.clients := fresh ▸ rfl
      have none : prodSlabsOf d m₁ = 0 := by
        rw [← fresh, prodSlabsOf, proxy_setProxy]
      have kept {m' : Manager} (making : Making c d m₁ m') : Welcomed c addr accepts m m' := by
        refine .inr ⟨d, next, new, ?_, fresh ▸ making.tallies⟩
        rw [making.clients, clients]
        exact fun _ => .inr
      have introduced := moves_making (c := c) (d := d)
        (x := sendCtrl d (.validatePeer kProtocolMagic kProtocolVersion))
      have named := moves_making (c := c) (d := d) (x := sendCtrl d (.clientID (Int16.ofNat d)))
      have sized := moves_making (c := c) (d := d) (x := checkBufferParams d)
      rw [← bind_assoc, ← bind_assoc, wp_bind]
      apply wp_mono (Moves.moves (R := Making c d) m₁)
      · intro _ m₂ making
        have enough : (m₂.proxy d).slabs.prodSlabsNeeded ≤ (m₂.proxy d).pendingFreeSlabRqsts := by
          have none : (m₂.proxy d).slabs.numProdSlabs = 0 := making.granted.trans none
          rw [SlabTracker.prodSlabsNeeded, none, Nat.zero_sub]
          exact Nat.zero_le _
        rw [wp_bind, Mcsb.fillProducerSlabs, wp_bind, wp_getProxy, if_pos enough, wp_pure, wp_modify]
        refine .inr ⟨d, next, new, ?_, ?_⟩
        · intro x mem
          rcases (List.mem_orderedInsert ..).mp mem with here | before
          · exact .inl here
          · exact .inr (clients ▸ making.clients ▸ before)
        · rw [fresh]
          apply trans_of (Tallies c 0) making.tallies
          exact .of_same rfl rfl
      · intro e m' making
        cases e with
        | runtimeError what => exact kept making
        | stuck => trivial
    · exact fun _ _ _ => trivial

/-- A client that is there gets on its account what the manager takes for it. -/
theorem Books.run_tallies (h : m.Books (Manager.resting false)) {e : Event}
    (enabled : e.Enabled m) (live : c ∈ m.clients) (waits : m.Waits c) (owning : e.Owning m)
    (once : e.ListsOnce m) (wanted : e.staysWanted c m = true) : wp e.run m
      (fun _ m' => m'.AtLimit ∨ (c ∈ m'.clients → Tallies c (m.accepted c e).length m m'))
      (fun _ _ => True) := by
  have leaves (x : Nat) {n : Int} {m₁ : Manager} (clients : m₁.clients = m.clients)
      (before : m₁.AtLimit ∨ Tallies c n m m₁) : wp (Mcsb.deleteClient x) m₁
        (fun _ m' => m'.AtLimit ∨ (c ∈ m'.clients → Tallies c n m m')) (fun _ _ => True) := by
    rcases before with limited | before
    · apply wp_mono (limited.run (.hangup x))
      · exact fun _ _ => .inl
      · exact fun _ _ => id
    · by_cases here : c = x
      · apply wp_mono (wp_deleteClient_isolates x m₁)
        · rintro _ m' ⟨clients', -⟩
          right
          intro live
          rw [clients', clients, here] at live
          exact absurd live h.nodup.not_mem_erase
        · exact fun _ _ => id
      · apply wp_mono (wp_deleteClient_tallies here m₁)
        · intro _ m' left
          have both := before.trans left
          rw [Int.add_zero] at both
          exact .inr fun _ => both
        · exact fun _ _ => id
  cases e with
  | connect addr accepts =>
    apply wp_mono (wp_addConnectedClient_welcomed m addr accepts c)
    · rintro _ m' (rfl | ⟨d, next, new, -, made⟩)
      · exact .inr fun _ => refl_of (Tallies c 0) m'
      · have other : c ≠ d := fun here => new (here ▸ live)
        have counter : Tallies c 0 m { m with nextNewClientID := next } := .of_same rfl rfl
        exact .inr fun _ => trans_of (Tallies c 0) counter
          (trans_of (Tallies c 0) (.other other) made)
    · exact fun _ _ => id
  | hangup x => exact leaves x rfl (.inr (refl_of (Tallies c 0) m))
  | frame x f =>
    have moves := clients_handle x f
    apply wp_run_frame.mpr
    apply wp_mono (wp_and (h.handle_tallies enabled live waits owning once wanted) (moves.moves m))
    · rintro _ m' ⟨limited | tallies, -⟩
      · exact .inl limited
      · exact .inr fun _ => tallies
    · rintro e m' ⟨before, clients⟩
      cases e with
      | runtimeError what => exact leaves x clients before
      | stuck => trivial

/-- A client that comes has nothing on its account. -/
theorem wp_run_fresh (e : Event) (new : c ∉ m.clients) : wp e.run m
    (fun _ m' => c ∈ m'.clients → m'.Waits c ∧
      ((m'.proxy c).sendFailed = false → (m'.proxy c).accounted = 0)) (fun _ _ => True) := by
  have leaves (x : Nat) {m₁ : Manager} (clients : m₁.clients = m.clients) :
      wp (deleteClient x) m₁ (fun _ m' => c ∈ m'.clients → m'.Waits c ∧
        ((m'.proxy c).sendFailed = false → (m'.proxy c).accounted = 0)) (fun _ _ => True) := by
    apply wp_mono (wp_deleteClient_isolates x m₁)
    · rintro _ m' ⟨clients', -⟩ live
      rw [clients', clients] at live
      exact absurd (List.mem_of_mem_erase live) new
    · exact fun _ _ => id
  cases e with
  | connect addr accepts =>
    apply wp_mono (wp_addConnectedClient_welcomed m addr accepts c)
    · rintro _ m' (rfl | ⟨d, next, -, joined, made⟩) live
      · exact absurd live new
      · obtain rfl := (joined c live).resolve_right new
        have waits := made.waits
        have count := made.count
        rw [Waits, proxy_setProxy] at waits
        rw [proxy_setProxy] at count
        refine ⟨waits fun _ mem => absurd mem List.not_mem_nil, fun works => ?_⟩
        have none := (count works).2
        exact Int.ofNat_eq_zero.mp none
    · exact fun _ _ => id
  | hangup x => exact leaves x rfl
  | frame x f =>
    have moves := clients_handle x f
    apply wp_run_frame.mpr
    apply wp_mono (moves.moves m)
    · intro _ m' clients live
      exact absurd ((show m'.clients = m.clients from clients) ▸ live) new
    · intro e m' clients
      cases e with
      | runtimeError what => exact leaves x clients
      | stuck => trivial

end

/-- In any run whose frames of segments name slabs their senders hold, and whose
batches of slabs name none twice, each segment that the manager took for a client was
sent to it, is queued for it, or is logged as dropped. -/
theorem all_accounted {params : Params} {hist : History} {m : Manager} {c : Nat}
    (fits : params.numBuffers ≤ params.maxNumBuffers)
    (run : Run params (fun _ m e => e.Owning m ∧ e.ListsOnce m ∧ e.staysWanted c m) hist m)
    (below : ¬ m.AtLimit) (live : c ∈ m.clients) (works : (m.proxy c).sendFailed = false) :
    (m.proxy c).accounted = (intake c hist).length := by
  suffices all : m.Waits c ∧
      ((m.proxy c).sendFailed = false → (m.proxy c).accounted = (intake c hist).length) from
    all.2 works
  clear works
  induction run with
  | start first =>
    rw [clients_of_start first] at live
    cases live
  | @step hist m e m' before enabled fine stepped ih =>
    have notYet : ¬ m.AtLimit := fun limited => below (step_eq_some (limited.run e) stepped)
    rw [intake]
    by_cases was : c ∈ m.clients
    · rw [if_pos was]
      have kept : m.Kept (Manager.resting false) :=
        before.kept fits (fun _ _ _ all => all.1) (fun _ _ _ all => all.2.1)
          fun no => absurd no Bool.false_ne_true
      have books := kept.resolve_left notYet
      obtain ⟨waits, count⟩ := ih notYet was
      have tallies := (step_eq_some (books.run_tallies enabled was waits fine.1 fine.2.1 fine.2.2)
        stepped).resolve_left below live
      refine ⟨tallies.waits waits, fun works => ?_⟩
      obtain ⟨works, more⟩ := tallies.count works
      have before := count works
      rw [List.length_append]
      omega
    · rw [if_neg was]
      exact step_eq_some (wp_run_fresh e was) stepped live

/-- The client takes the first segment, and waits for the next. When the producer
has used up the free slabs, the slab that waits longest is harvested. -/
def onePerSlab : List Event :=
  [.connect 1 fun _ => true, .connect 2 fun _ => true, .frame 0 (.numSlabs 1 0 true),
    .frame 1 (.numSlabs 0 1 true), .frame 1 (.registration .registerList 1 0 [7]),
    .frame 0 (.blocksAndInfo [segmentIn 0]), .frame 0 (.slabIDs [0]),
    .frame 0 (.blocksAndInfo [segmentIn 1]), .frame 0 (.slabIDs [1]),
    .frame 0 (.blocksAndInfo [segmentIn 2]), .frame 0 (.slabIDs [2]),
    .frame 0 (.blocksAndInfo [segmentIn 3]), .frame 0 (.slabIDs [3])]

theorem all_accounted_onePerSlab : ∃ hist m,
    trace fourSlabs (fun _ m e => e.Owning m ∧ e.ListsOnce m ∧ e.staysWanted 1 m) onePerSlab =
      some (hist, m) ∧
      (m.proxy 1).stream = [0, 2, 3] ∧ (m.proxy 1).dropLog = [(1, 0)] ∧
      (m.proxy 1).accounted = (intake 1 hist).length := by
  have ran : (trace fourSlabs (fun _ m e => e.Owning m ∧ e.ListsOnce m ∧ e.staysWanted 1 m)
      onePerSlab).any
      (fun run => ¬ run.2.AtLimit ∧ 1 ∈ run.2.clients ∧ (run.2.proxy 1).sendFailed = false ∧
        (run.2.proxy 1).stream = [0, 2, 3] ∧ (run.2.proxy 1).dropLog = [(1, 0)]) = true := by
    decide +kernel
  obtain ⟨⟨hist, m⟩, eq, facts⟩ := (Option.any_eq_true _ _).mp ran
  obtain ⟨below, live, works, stream, log⟩ := of_decide_eq_true facts
  exact ⟨hist, m, eq, stream, log,
    all_accounted (by decide) (run_of_trace eq) below live works⟩

end Manager
end Mcsb
