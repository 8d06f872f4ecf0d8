import Mcsb.Manager.Failures
import Mcsb.Manager.Audit

/-!
# Delivery in order

What a client was sent and what is queued for it, against what it was offered
since it came. Segments may be dropped on the way. None is sent twice, made up
or overtaken.
-/

namespace Mcsb
open Effect

set_option maxRecDepth 2000
set_option synthInstance.maxSize 10000

/-- The blocks that a message hands to the client. -/
def Sent.blocks : Sent → List Nat
  | .blockIDs ids => ids
  | .slabIDs _ => []
  | .ctrl _ => []

/-- The blocks that a client was sent, and those that are queued for it. -/
def ClientProxy.stream (p : ClientProxy) : List Nat :=
  p.sock.out.flatMap Sent.blocks ++ p.wantedQueue.map (·.blockID)

namespace Manager

/-- The blocks of the segments that a client wants of a frame from a group. -/
def offers (m : Manager) (gid : Int16) (segs : List Segment) (c : Nat) : List Nat :=
  if gid ≠ 0 ∧ gid = (m.proxy c).groupID then []
  else (segs.filter (m.proxy c).wants).map (·.blockID)

/-- What an event offers a client. -/
def offered (m : Manager) (c : Nat) : Event → List Nat
  | .frame src (.blocksAndInfo segs) => m.offers (m.proxy src).groupID segs c
  | _ => []

/-- All that was offered to a client since it came. -/
def arrivals (c : Nat) : History → List Nat
  | [] => []
  | (m, e) :: hist => if c ∈ m.clients then arrivals c hist ++ m.offered c e else []

/-- The streams may lose blocks, and nobody comes or goes. -/
structure Fades (m m' : Manager) : Prop where
  streams : ∀ c, (m'.proxy c).stream.Sublist (m.proxy c).stream
  clients : m'.clients = m.clients

/-- The stream of client `x` goes on with some of these blocks, and the streams may
lose blocks. -/
def StreamsTo (x : Nat) (new : List Nat) (m m' : Manager) : Prop :=
  ∀ c, (m'.proxy c).stream.Sublist ((m.proxy c).stream ++ if c = x then new else [])

instance : IsPreorder Manager Fades where
  refl _ := ⟨fun _ => List.Sublist.refl _, rfl⟩
  trans _ _ _ h h' := ⟨fun c => (h'.streams c).trans (h.streams c), h'.clients.trans h.clients⟩

section
variable {m m' m'' : Manager} {x : Nat} {new new' : List Nat}

theorem Fades.streamsTo (h : Fades m m') : StreamsTo x new m m' :=
  fun c => (h.streams c).trans (List.sublist_append_left ..)

theorem StreamsTo.trans (h : StreamsTo x new m m') (h' : StreamsTo x new' m' m'') :
    StreamsTo x (new ++ new') m m'' := by
  intro c
  apply (h' c).trans
  have both := (h c).append_right (if c = x then new' else [])
  by_cases here : c = x
  · simpa only [if_pos here, List.append_assoc] using both
  · simpa only [if_neg here, List.append_nil] using both

theorem StreamsTo.mono (h : StreamsTo x new m m') (sub : new.Sublist new') :
    StreamsTo x new' m m' := by
  intro c
  apply (h c).trans
  apply (List.Sublist.refl _).append
  split
  · exact sub
  · exact List.Sublist.refl _

theorem StreamsTo.of_update {p : ClientProxy} (proxy : m'.proxy = Function.update m.proxy x p)
    (sub : p.stream.Sublist ((m.proxy x).stream ++ new)) : StreamsTo x new m m' := by
  intro c
  rw [proxy]
  by_cases here : c = x
  · rw [here, Function.update_self, if_pos rfl]
    exact sub
  · rw [Function.update_of_ne here]
    exact List.sublist_append_left ..

theorem Fades.of_update {p : ClientProxy} (proxy : m'.proxy = Function.update m.proxy x p)
    (clients : m'.clients = m.clients) (sub : p.stream.Sublist (m.proxy x).stream) :
    Fades m m' := by
  refine ⟨fun c => ?_, clients⟩
  rw [proxy]
  by_cases here : c = x
  · rw [here, Function.update_self]
    exact sub
  · rw [Function.update_of_ne here]

theorem Fades.of_same (proxy : m'.proxy = m.proxy) (clients : m'.clients = m.clients) :
    Fades m m' :=
  ⟨fun c => by rw [proxy], clients⟩

theorem Fades.setProxy {p : ClientProxy} (sub : p.stream.Sublist (m.proxy x).stream) :
    Fades m (m.setProxy x p) :=
  .of_update (x := x) (p := p) rfl rfl sub

/-- Nothing is sent. -/
theorem Fades.quiet {p : ClientProxy} (out : p.sock.out = (m.proxy x).sock.out)
    (queue : p.wantedQueue.Sublist (m.proxy x).wantedQueue) : Fades m (m.setProxy x p) := by
  apply Fades.setProxy
  rw [ClientProxy.stream, ClientProxy.stream, out]
  exact (List.Sublist.refl _).append (queue.map _)

end

instance : Draining Fades where
  inside same _ _ _ := by
    simp only [Manager.settings, Prod.mk.injEq] at same
    exact .of_same same.2.2.2.2.2.2 same.2.1
  proxy same queue := by
    simp only [ClientProxy.settings, Prod.mk.injEq] at same
    exact .quiet (congrArg Sock.out same.2.2.1) queue

instance : Reporting Fades :=
  ⟨fun _ _ => .quiet rfl (List.Sublist.refl _), fun _ _ => .of_same rfl rfl⟩
instance : Registering Fades := ⟨fun _ => .quiet rfl (List.Sublist.refl _)⟩
instance : Wanting Fades := ⟨fun _ => .quiet rfl (List.Sublist.refl _)⟩
instance : Ranking Fades := ⟨fun _ => .quiet rfl (List.Sublist.refl _)⟩
instance : Grouping Fades :=
  ⟨fun _ => .of_same rfl rfl, fun _ => .quiet rfl (List.Sublist.refl _)⟩
instance : Copying Fades := ⟨fun _ _ => .of_same rfl rfl⟩
instance : Resizing Fades := ⟨fun _ _ => .quiet rfl (List.Sublist.refl _)⟩
instance : Growing Fades :=
  ⟨fun _ _ _ => .of_same rfl rfl, fun _ _ => .quiet rfl (List.Sublist.refl _)⟩

instance (x : Nat) (slabIDs : List Nat) : Moves Fades (indexing x slabIDs) :=
  .modify fun _ => .of_same rfl rfl

/-- A message that hands over no block. -/
class Blockless (sent : Sent) : Prop where
  blocks : sent.blocks = []

instance (call : HandlerCall) : Blockless (.ctrl call) := ⟨rfl⟩
instance (ids : List Nat) : Blockless (.slabIDs ids) := ⟨rfl⟩

instance (x fd : Nat) (sent : Sent) [none : Blockless sent] : Moves Fades (sendOn x fd sent) := by
  refine ⟨fun m => ?_⟩
  have wrote : Fades m (m.setProxy fd { m.proxy fd with
      sock := { (m.proxy fd).sock with
        attempts := (m.proxy fd).sock.attempts + 1
        out := (m.proxy fd).sock.out ++ [sent] } }) := by
    apply Fades.setProxy
    simp only [ClientProxy.stream, List.flatMap_append, List.flatMap_singleton, none.blocks,
      List.append_nil]
    exact List.Sublist.refl _
  have same (m : Manager) (x : Nat) (p : ClientProxy) (out : p.sock.out = (m.proxy x).sock.out)
      (queue : p.wantedQueue = (m.proxy x).wantedQueue) : Fades m (m.setProxy x p) :=
    .quiet out (queue ▸ List.Sublist.refl _)
  simp only [sendOn, wp_bind, wp_getProxy, wp_ite, wp_fail, wp_modifyProxy]
  split
  · exact refl_of Fades m
  · split
    · exact wrote
    · refine trans_of Fades (same m fd _ ?_ ?_) (same _ x _ ?_ ?_)
      all_goals rfl

/-! ## Blocks are sent -/

/-- What is written to the clients, and what is queued for them. -/
abbrev wires (m : Manager) : List Nat × (Nat → Sock × List WantedSegment) :=
  (m.clients, fun c => ((m.proxy c).sock, (m.proxy c).wantedQueue))

instance : Moving (Keeps wires) where
  inside {m m'} same _ _ _ := by
    simp only [Manager.settings, Prod.mk.injEq] at same
    show m'.wires = m.wires
    rw [wires, wires, same.2.1, same.2.2.2.2.2.2]
  proxy same queue := by
    simp only [ClientProxy.settings, Prod.mk.injEq] at same
    exact Prod.ext rfl (inner_setProxy (fun p => (p.sock, p.wantedQueue))
      (Prod.ext same.2.2.1 queue))

instance (x : Nat) (slabIDs : List Nat) : Moves (Keeps wires) (indexing x slabIDs) :=
  .modify fun _ => rfl

theorem Fades.of_wires {m m' : Manager} (same : m'.wires = m.wires) : Fades m m' := by
  obtain ⟨clients, same⟩ := Prod.mk.inj same
  refine ⟨fun c => ?_, clients⟩
  obtain ⟨sock, queue⟩ := Prod.mk.inj (congrFun same c)
  rw [ClientProxy.stream, ClientProxy.stream, sock, queue]

theorem queue_of_wires {m m' : Manager} (same : m'.wires = m.wires) (c : Nat) :
    (m'.proxy c).wantedQueue = (m.proxy c).wantedQueue :=
  (Prod.mk.inj (congrFun (Prod.mk.inj same).2 c)).2

section
variable {m : Manager} {x : Nat}

/-- The blocks that a proxy sends join its stream, or it has failed. -/
theorem stream_send (p : ClientProxy) (ids : List Nat) :
    ((p.send (.blockIDs ids)).sock.out.flatMap Sent.blocks).Sublist
      (p.sock.out.flatMap Sent.blocks ++ ids) := by
  unfold ClientProxy.send
  split
  · exact List.sublist_append_left ..
  · split
    · rw [ClientProxy.wrote, List.flatMap_append, List.flatMap_singleton]
      exact List.Sublist.refl _
    · exact List.sublist_append_left ..

theorem wp_proxySendBlockIDs {blocks : List (Nat × Nat)} (some : blocks ≠ [])
    {Q : Unit → Manager → Prop} {E : Exc → Manager → Prop}
    (sent : ∀ m', m'.clients = m.clients → m'.proxy = Function.update m.proxy x
      ((m.proxy x).send (.blockIDs (blocks.map Prod.fst))) → Q ⟨⟩ m') :
    wp (proxySendBlockIDs x blocks) m Q E := by
  have failed := sent (m.setProxy x ((m.proxy x).send (.blockIDs (blocks.map Prod.fst)))) rfl rfl
  have some : blocks.map Prod.fst ≠ [] := fun none => some (List.map_eq_nil_iff.mp none)
  rw [proxySendBlockIDs, wp_swallow, wp_bind]
  simp only [sendIDs, wp_bind, wp_getProxy, wp_ite, wp_fail]
  split
  · rename_i already
    rw [ClientProxy.send, if_pos already, setProxy_self] at failed
    exact failed
  · exact wp_sendOn (sent _ rfl rfl) fun _ => failed

/-- The front of the queue is sent, and leaves it. -/
theorem stream_popped {p : ClientProxy} {seg : WantedSegment} {rest : List WantedSegment}
    (front : p.wantedQueue = seg :: rest) : (ClientProxy.stream
      { p.send (.blockIDs [seg.blockID]) with wantedQueue := rest }).Sublist p.stream := by
  rw [ClientProxy.stream, ClientProxy.stream, front, List.map_cons, List.append_cons]
  exact (stream_send p [seg.blockID]).append (List.Sublist.refl _)

theorem streams_sendWanted {seg : WantedSegment} {rest : List WantedSegment} (slabID size : Nat)
    (front : (m.proxy x).wantedQueue = seg :: rest) :
    wp (sendWanted x slabID seg size >>= fun _ => popFrontWanted x seg) m
      (fun _ => Fades m) (fun _ => Fades m) := by
  rw [wp_bind, sendWanted, wp_bind, wp_onSlabs]
  apply wp_mono wp_trivial
  · intro _ sm _
    apply wp_proxySendBlockIDs (List.cons_ne_nil _ _)
    intro m₁ clients sent
    have here : m₁.proxy x = (m.proxy x).send (.blockIDs [seg.blockID]) := by
      rw [sent, Function.update_self]
      rfl
    have tail : (m₁.proxy x).wantedQueue.tail = rest := by
      rw [here, ClientProxy.wantedQueue_send, front, List.tail_cons]
    rw [popFrontWanted, wp_bind, wp_modifyProxy, tail, here]
    apply Moves.wp_trans
    apply Fades.of_update (x := x)
    · show Function.update m₁.proxy x _ = _
      rw [sent]
      exact Function.update_idem ..
    · exact clients
    · exact stream_popped front
  · intro _ sm _
    exact Fades.of_same rfl rfl

theorem streams_popWanted {seg : WantedSegment} {rest : List WantedSegment}
    (front : (m.proxy x).wantedQueue = seg :: rest) :
    wp (popWanted x seg) m (fun _ => Fades m) (fun _ => Fades m) := by
  rw [popWanted, wp_bind, wp_get, wp_ite]
  split
  · rw [wp_bind]
    apply wp_mono (wp_and (Moves.moves (R := Fades) m) (Moves.moves (R := Keeps wires) m))
    · rintro taken m₁ ⟨streams, same⟩
      have front : (m₁.proxy x).wantedQueue = seg :: rest := (queue_of_wires same x).trans front
      cases taken with
      | false =>
        rw [wp_ite, if_neg Bool.false_ne_true]
        exact Moves.wp_trans streams
      | true =>
        rw [wp_ite, if_pos rfl, ← bind_assoc, wp_bind]
        apply wp_mono (streams_sendWanted _ _ front)
        · intro _ m' popped
          exact trans_of Fades streams popped
        · intro _ m' popped
          exact trans_of Fades streams popped
    · rintro _ m₁ ⟨streams, -⟩
      exact streams
  · exact Moves.wp_trans (refl_of Fades m)

end

instance (x fuel : Nat) : Moves Fades (popLoop x fuel) := by
  induction fuel with
  | zero => exact inferInstanceAs (Moves _ (throw _))
  | succ fuel ih =>
    refine ⟨fun m => ?_⟩
    rw [popLoop, wp_bind, wp_getProxy]
    cases queue : (m.proxy x).wantedQueue with
    | nil => exact refl_of Fades m
    | cons seg rest =>
      dsimp only
      rw [wp_bind]
      apply wp_mono (streams_popWanted queue)
      · intro goOn m' popped
        rw [wp_ite]
        split
        · exact Moves.wp_trans popped
        · exact popped
      · intro _ _
        exact id

section
variable {m : Manager} {x : Nat}

/-- What is to be sent comes first, and nothing is while the queue is not empty. -/
theorem wp_sortSegments (m : Manager) (x : Nat) (queueing : Bool) (segs : List Segment) :
    wp (sortSegments x queueing segs) m (fun sorted _ => sorted.1 ++ sorted.2 = segs ∧
      (queueing = true → sorted.1 = [])) (fun _ _ => True) := by
  induction segs generalizing queueing m with
  | nil => cases queueing <;> exact ⟨rfl, fun _ => rfl⟩
  | cons seg segs ih =>
    have queued (m : Manager) : wp (do
        let sorted ← sortSegments x true segs
        return (sorted.1, seg :: sorted.2)) m (fun sorted _ => sorted.1 ++ sorted.2 = seg :: segs ∧
          sorted.1 = []) (fun _ _ => True) := by
      rw [wp_bind]
      apply wp_mono (ih _ true)
      · rintro ⟨send, want⟩ _ ⟨all, none⟩
        have none : send = [] := none rfl
        subst none
        exact ⟨congrArg (seg :: ·) all, rfl⟩
      · exact fun _ _ => id
    cases queueing with
    | true =>
      rw [sortSegments]
      apply wp_mono (queued m)
      · rintro sorted _ ⟨all, none⟩
        exact ⟨all, fun _ => none⟩
      · exact fun _ _ => id
    | false =>
      rw [sortSegments, wp_bind, wp_get, wp_bind]
      apply wp_mono wp_trivial
      · intro taken m' _
        rw [wp_ite]
        split
        · rw [wp_bind]
          apply wp_mono (ih _ false)
          · rintro ⟨send, want⟩ _ ⟨all, -⟩
            exact ⟨congrArg (seg :: ·) all, fun no => absurd no Bool.false_ne_true⟩
          · exact fun _ _ => id
        · apply wp_mono (queued m')
          · rintro sorted _ ⟨all, none⟩
            exact ⟨all, fun _ => none⟩
          · exact fun _ _ => id
      · exact fun _ _ => id

theorem streams_sendTaken {send : List Segment}
    (first : (m.proxy x).wantedQueue ≠ [] → send = []) :
    wp (sendTaken x send) m (fun _ => StreamsTo x (send.map (·.blockID)) m)
      (fun _ => Fades m) := by
  rw [sendTaken, wp_ite]
  split
  · exact Fades.streamsTo (.of_same rfl rfl)
  · rename_i some
    rw [wp_bind, wp_get, wp_bind, wp_onSlabs]
    apply wp_mono wp_trivial
    · intro _ sm _
      apply wp_proxySendBlockIDs (fun none => some (List.map_eq_nil_iff.mp none))
      intro m' _ sent
      rw [List.map_map] at sent
      have empty : (m.proxy x).wantedQueue = [] := by
        by_contra queue
        exact some (first queue)
      apply StreamsTo.of_update sent
      rw [ClientProxy.stream, ClientProxy.stream, ClientProxy.wantedQueue_send]
      show List.Sublist (_ ++ List.map _ (m.proxy x).wantedQueue)
        (_ ++ List.map _ (m.proxy x).wantedQueue ++ _)
      rw [empty, List.map_nil, List.append_nil, List.append_nil]
      exact stream_send _ _
    · exact fun _ _ _ => Fades.of_same rfl rfl

/-- Each segment that is queued is the last of the stream. -/
theorem streams_queueSegments (want : List Segment) :
    wp (queueSegments x want) m (fun _ => StreamsTo x (want.map (·.blockID)) m)
      (fun _ => StreamsTo x (want.map (·.blockID)) m) := by
  induction want generalizing m with
  | nil => exact Fades.streamsTo (.of_same rfl rfl)
  | cons seg want ih =>
    rw [queueSegments, wp_bind, wp_get, wp_bind, wp_onSlabs]
    apply wp_mono (SlabManager.wp_getWantedSegment_valid _ x seg.blockID _)
    · rintro wanted sm ⟨block, -⟩
      rw [wp_bind, wp_modifyProxy]
      have queued : StreamsTo x [seg.blockID] m ((m.setSlabs sm).setProxy x
          { m.proxy x with wantedQueue := (m.proxy x).wantedQueue ++ [wanted] }) := by
        apply StreamsTo.of_update rfl
        rw [ClientProxy.stream, ClientProxy.stream, List.map_append, ← List.append_assoc,
          List.map_singleton, block]
      apply wp_mono ih
      · exact fun _ _ later => queued.trans later
      · exact fun _ _ later => queued.trans later
    · exact fun _ _ _ => Fades.streamsTo (.of_same rfl rfl)

theorem streams_sendSegments (segs : List Segment) : wp (sendSegments x segs) m
    (fun _ => StreamsTo x ((segs.filter (m.proxy x).wants).map (·.blockID)) m)
    (fun _ => StreamsTo x ((segs.filter (m.proxy x).wants).map (·.blockID)) m) := by
  rw [sendSegments, wp_bind, wp_getProxy, wp_bind]
  generalize segs.filter (m.proxy x).wants = wanted
  apply wp_mono (wp_and (wp_sortSegments m x _ wanted) (Moves.moves (R := Keeps wires) m))
  · rintro ⟨send, want⟩ m₁ ⟨⟨all, first⟩, same⟩
    have queue := queue_of_wires same x
    have sorted : StreamsTo x [] m m₁ := (Fades.of_wires same).streamsTo
    rw [← all, List.map_append]
    dsimp only
    rw [wp_bind]
    apply wp_mono (streams_sendTaken fun some => first (decide_eq_true (queue ▸ some)))
    · intro _ m₂ sent
      have sent := sorted.trans sent
      rw [wp_bind]
      apply wp_mono (streams_queueSegments want)
      · intro _ m₃ queued
        have queued := sent.trans queued
        apply wp_mono (Moves.moves (R := Fades) m₃)
        · intro _ m₄ popped
          have popped : StreamsTo x [] m₃ m₄ := Fades.streamsTo popped
          simpa only [List.append_nil, List.nil_append] using queued.trans popped
        · intro _ m₄ popped
          have popped : StreamsTo x [] m₃ m₄ := Fades.streamsTo popped
          simpa only [List.append_nil, List.nil_append] using queued.trans popped
      · intro _ m₃ queued
        exact sent.trans queued
    · intro _ m₂ fades
      exact (sorted.trans fades.streamsTo).mono (List.nil_sublist _)
  · rintro _ m₁ ⟨-, same⟩
    exact (Fades.of_wires same).streamsTo

end

/-! ## Frames are offered -/

/-- What decides which segments a client is offered. -/
abbrev tastes (m : Manager) (c : Nat) : Nat × List UInt32 × Int16 :=
  ((m.proxy c).clientID, (m.proxy c).registeredMsgIDs, (m.proxy c).groupID)

instance : Steady (Keeps tastes) where
  inside {m m'} same _ _ := by
    simp only [Manager.settings, Prod.mk.injEq] at same
    show m'.tastes = m.tastes
    funext c
    rw [tastes, tastes, same.2.2.2.2.2.2]
  proxy {m c p} same := by
    simp only [ClientProxy.settings, Prod.mk.injEq] at same
    exact inner_setProxy (fun p => (p.clientID, p.registeredMsgIDs, p.groupID))
      (Prod.ext same.1 (Prod.ext same.2.2.2.2.2.2.1 same.2.2.2.2.1))

instance : Sending (Keeps tastes) :=
  ⟨fun _ _ => inner_setProxy (fun p => (p.clientID, p.registeredMsgIDs, p.groupID)) rfl⟩
instance : Reporting (Keeps tastes) :=
  ⟨fun _ _ => inner_setProxy (fun p => (p.clientID, p.registeredMsgIDs, p.groupID)) rfl,
    fun _ _ => rfl⟩
instance : Copying (Keeps tastes) := ⟨fun _ _ => rfl⟩

theorem offers_of_tastes {m m' : Manager} (same : m'.tastes = m.tastes) : m'.offers = m.offers := by
  funext gid segs c
  simp only [tastes, Prod.mk.injEq, funext_iff] at same
  have wants : (m'.proxy c).wants = (m.proxy c).wants := by
    funext seg
    rw [ClientProxy.wants, ClientProxy.wants, (same c).1, (same c).2.1]
  rw [offers, offers, wants, (same c).2.2]

/-- Each client is offered the frame once. -/
theorem offers_offerSegments (segs : List Segment) (gid : Int16) {cs : List Nat}
    (nodup : cs.Nodup) (m : Manager) (c : Nat) :
    wp (offerSegments segs gid cs) m
      (fun _ m' => (m'.proxy c).stream.Sublist
        ((m.proxy c).stream ++ if c ∈ cs then m.offers gid segs c else []))
      (fun _ m' => (m'.proxy c).stream.Sublist
        ((m.proxy c).stream ++ if c ∈ cs then m.offers gid segs c else [])) := by
  induction cs generalizing m with
  | nil => exact List.sublist_append_left ..
  | cons x cs ih =>
    obtain ⟨once, nodup⟩ := List.nodup_cons.mp nodup
    have enough {m₁ m' : Manager} (same : m₁.tastes = m.tastes)
        (first : StreamsTo x (m.offers gid segs x) m m₁) (rest : (m'.proxy c).stream.Sublist
          ((m₁.proxy c).stream ++ if c ∈ cs then m₁.offers gid segs c else [])) :
        (m'.proxy c).stream.Sublist
          ((m.proxy c).stream ++ if c ∈ x :: cs then m.offers gid segs c else []) := by
      apply rest.trans
      have first := first c
      by_cases here : c = x
      · rw [if_pos here] at first
        rw [here] at first ⊢
        rw [if_neg once, List.append_nil, if_pos List.mem_cons_self]
        exact first
      · rw [if_neg here, List.append_nil] at first
        simp only [List.mem_cons, here, false_or, offers_of_tastes same]
        exact first.append (List.Sublist.refl _)
    have goOn {m₁ : Manager} (same : m₁.tastes = m.tastes)
        (first : StreamsTo x (m.offers gid segs x) m m₁) := wp_mono (ih nodup m₁)
      (fun _ _ => enough same first) (fun _ _ => enough same first)
    simp only [offerSegments, wp_bind, wp_getProxy, wp_ite]
    split
    · rename_i offered
      have new : (segs.filter (m.proxy x).wants).map (·.blockID) = m.offers gid segs x := by
        rw [offers, if_neg offered.2]
      apply wp_mono (wp_and (streams_sendSegments segs) (Moves.moves (R := Keeps tastes) m))
      · rintro _ m₁ ⟨streams, same⟩
        exact goOn same (new ▸ streams)
      · rintro _ m₁ ⟨streams, same⟩
        exact enough same (new ▸ streams) (List.sublist_append_left ..)
    · exact goOn rfl (Fades.streamsTo (.of_same rfl rfl))

/-- A frame of segments is offered once to every client there is. -/
theorem offers_handleBlocksAndInfo {m : Manager} (nodup : m.clients.Nodup) (src : Nat)
    (segs : List Segment) (c : Nat) : wp (handleBlocksAndInfo src segs) m
      (fun _ m' => (m'.proxy c).stream.Sublist
        ((m.proxy c).stream ++ m.offers (m.proxy src).groupID segs c))
      (fun _ m' => (m'.proxy c).stream.Sublist
        ((m.proxy c).stream ++ m.offers (m.proxy src).groupID segs c)) := by
  have still (x : Act Unit) [Moves Fades x] [Moves (Keeps tastes) x] [Moves (Keeps clients) x]
      (m : Manager) := wp_and (Moves.moves (R := Fades) (x := x) m)
    (wp_and (Moves.moves (R := Keeps tastes) (x := x) m) (Moves.moves (R := Keeps clients) m))
  have lost {m' : Manager} (fades : Fades m m') : (m'.proxy c).stream.Sublist
      ((m.proxy c).stream ++ m.offers (m.proxy src).groupID segs c) :=
    (fades.streams c).trans (List.sublist_append_left ..)
  rw [handleBlocksAndInfo, wp_bind]
  apply wp_mono (still (checkCCI src segs) m)
  · rintro _ m₁ ⟨fades₁, tastes₁, clients₁⟩
    have group : (m₁.proxy src).groupID = (m.proxy src).groupID :=
      (Prod.mk.inj (Prod.mk.inj (congrFun tastes₁ src)).2).2
    rw [wp_bind, wp_getProxy, takeBlocksAndInfo, wp_bind, group]
    apply wp_mono (still (copyInfos segs) m₁)
    · rintro _ m₂ ⟨fades₂, tastes₂, clients₂⟩
      rw [wp_bind, wp_modify, wp_bind, wp_get]
      generalize counted : ({ m₂ with stats := _ } : Manager) = m₃
      have fades : Fades m m₃ := by
        rw [← counted]
        apply trans_of Fades (trans_of Fades fades₁ fades₂)
        exact Fades.of_same rfl rfl
      have tastes : m₃.tastes = m.tastes := by
        rw [← counted]
        exact tastes₂.trans tastes₁
      have clients : m₃.clients = m.clients := by
        rw [← counted]
        exact clients₂.trans clients₁
      have enough {m' : Manager} (rest : (m'.proxy c).stream.Sublist ((m₃.proxy c).stream ++
          if c ∈ m₃.clients then m₃.offers (m.proxy src).groupID segs c else [])) :
          (m'.proxy c).stream.Sublist
            ((m.proxy c).stream ++ m.offers (m.proxy src).groupID segs c) := by
        apply rest.trans
        apply (fades.streams c).append
        rw [offers_of_tastes tastes]
        split
        · exact List.Sublist.refl _
        · exact List.nil_sublist _
      apply wp_mono (offers_offerSegments segs _ (clients ▸ nodup) m₃ c)
      · exact fun _ _ => enough
      · exact fun _ _ => enough
    · rintro _ m₂ ⟨fades₂, -⟩
      exact lost (trans_of Fades fades₁ fades₂)
  · rintro _ m₁ ⟨fades₁, -⟩
    exact lost fades₁

/-! ## Clients come and go -/

/-- What is queued for the clients. -/
abbrev queues (m : Manager) (c : Nat) : List WantedSegment := (m.proxy c).wantedQueue

instance : Moving (Keeps queues) where
  inside {m m'} same _ _ _ := by
    simp only [Manager.settings, Prod.mk.injEq] at same
    show m'.queues = m.queues
    funext c
    rw [queues, queues, same.2.2.2.2.2.2]
  proxy _ queue := inner_setProxy (fun p => p.wantedQueue) queue

instance : Sending (Keeps queues) := ⟨fun _ _ => inner_setProxy (fun p => p.wantedQueue) rfl⟩

instance (x : Nat) (slabIDs : List Nat) : Moves (Keeps queues) (indexing x slabIDs) :=
  .modify fun _ => rfl

/-- The queue of a client is emptied from the front. -/
instance (x : Nat) : Moves Fades (getProxy x >>= fun p => releaseQueue x p.wantedQueue) := by
  have empties (queue : List WantedSegment) (m : Manager) (all : (m.proxy x).wantedQueue = queue) :
      wp (releaseQueue x queue) m (fun _ => Fades m) (fun _ => Fades m) := by
    induction queue generalizing m with
    | nil => exact refl_of Fades m
    | cons seg rest ih =>
      rw [releaseQueue, wp_bind, wp_modifyProxy, wp_bind]
      have popped : Fades m (m.setProxy x { m.proxy x with wantedQueue := rest }) := by
        refine Fades.quiet (x := x) ?_ ?_
        · rfl
        rw [all]
        exact List.sublist_cons_self seg rest
      apply wp_mono (wp_and (Moves.wp_trans popped) (Moves.moves (R := Keeps queues) _))
      · rintro _ m₁ ⟨fades, same⟩
        have rest : (m₁.proxy x).wantedQueue = rest := by
          have same := congrFun same x
          rw [queues, queues, proxy_setProxy] at same
          exact same
        apply wp_mono (ih m₁ rest)
        · exact fun _ _ => trans_of Fades fades
        · exact fun _ _ => trans_of Fades fades
      · rintro _ m₁ ⟨fades, -⟩
        exact fades
  exact ⟨fun m => empties _ m rfl⟩

theorem wp_deleteClient_streams (m : Manager) (x c : Nat) : wp (deleteClient x) m
    (fun _ m' => (m'.proxy c).stream.Sublist (m.proxy c).stream) (fun _ _ => True) := by
  apply wp_deleteClient.mpr
  apply wp_mono (Moves.moves (R := Fades) _)
  · exact fun _ _ fades => fades.streams c
  · exact fun _ _ _ => trivial

theorem fades_handle (x : Nat) {f : Frame} (other : ∀ segs, f ≠ .blocksAndInfo segs) :
    Moves Fades (f.handle x) := by
  cases f with
  | blockIDs ids => exact inferInstanceAs (Moves Fades (handleBlockIDs x ids))
  | slabIDs ids => exact inferInstanceAs (Moves Fades (handleSlabIDs x ids))
  | blocksAndInfo segs => exact absurd rfl (other segs)
  | numSlabs prod cons ok => exact inferInstanceAs (Moves Fades (handleNumSlabs x prod cons ok))
  | registration type cid gid msgIDs =>
    exact inferInstanceAs (Moves Fades (handleRegistration x type cid gid msgIDs))
  | registrationsWanted new current =>
    exact inferInstanceAs (Moves Fades (handleRegistrationsWanted x new current))
  | dropReportAck => exact inferInstanceAs (Moves Fades (handleDropReportAck x))
  | prodNiceLevel n => exact inferInstanceAs (Moves Fades (modifyProxy x fun p =>
      { p with prodNiceLevel := n.toInt.bmod (2 ^ 8) }))
  | managerEcho bytes => exact inferInstanceAs (Moves Fades (sendCtrl x (.managerEcho bytes)))
  | sequenceToken token => exact inferInstanceAs (Moves Fades (sendCtrl x (.sequenceToken token)))
  | groupID id => exact inferInstanceAs (Moves Fades (modifyProxy x fun p =>
      { p with groupID := id }))
  | groupIDStr str => exact inferInstanceAs (Moves Fades (handleGroupIDStr x str))
  | invalid => exact inferInstanceAs (Moves Fades (fail _))
  | ignored => exact inferInstanceAs (Moves Fades (pure ()))

section
variable {m : Manager} {c : Nat}

theorem wp_handle_streams (nodup : m.clients.Nodup) (x : Nat) (f : Frame) :
    wp (f.handle x) m
      (fun _ m' => (m'.proxy c).stream.Sublist ((m.proxy c).stream ++ m.offered c (.frame x f)))
      (fun _ m' => (m'.proxy c).stream.Sublist
        ((m.proxy c).stream ++ m.offered c (.frame x f))) := by
  by_cases segments : ∃ segs, f = .blocksAndInfo segs
  · obtain ⟨segs, rfl⟩ := segments
    exact offers_handleBlocksAndInfo nodup x segs c
  · have := fades_handle x fun segs same => segments ⟨segs, same⟩
    apply wp_mono (Moves.moves (R := Fades) m)
    · exact fun _ _ fades => (fades.streams c).trans (List.sublist_append_left ..)
    · exact fun _ _ fades => (fades.streams c).trans (List.sublist_append_left ..)

/-- The stream of a client that is there goes on with what an event offers it. -/
theorem wp_run_streams (nodup : m.clients.Nodup) (e : Event) (live : c ∈ m.clients) : wp e.run m
    (fun _ m' => (m'.proxy c).stream.Sublist ((m.proxy c).stream ++ m.offered c e))
    (fun _ _ => True) := by
  cases e with
  | connect addr accepts =>
    apply Gentle.wp_addConnectedClient (R := Fades)
    case refused => exact List.sublist_append_left ..
    case made =>
      intro d next m' new fades
      have ne : c ≠ d := fun here => new (here ▸ live)
      have streams := fades.streams c
      rw [proxy_setProxy_of_ne _ ne] at streams
      have kept := streams.trans (List.sublist_append_left _ (m.offered c (.connect addr accepts)))
      exact ⟨kept, kept⟩
  | hangup x =>
    apply wp_mono (wp_deleteClient_streams m x c)
    · exact fun _ _ streams => streams.trans (List.sublist_append_left ..)
    · exact fun _ _ => id
  | frame x f =>
    apply wp_run_frame.mpr
    apply wp_mono (wp_handle_streams nodup x f)
    · exact fun _ _ => id
    · intro e m' streams
      cases e with
      | runtimeError what =>
        apply wp_mono (wp_deleteClient_streams m' x c)
        · exact fun _ _ fewer => fewer.trans streams
        · exact fun _ _ => id
      | stuck => trivial

theorem clients_handle (x : Nat) (f : Frame) : Moves (Keeps clients) (f.handle x) := by
  apply Gentle.moves_handle
  · intro type cid gid msgIDs _
    infer_instance
  · intro new current _
    infer_instance
  · intro level _
    infer_instance

/-- A client that comes was sent no block and has none queued. -/
theorem wp_run_joined (e : Event) (new : c ∉ m.clients) :
    wp e.run m (fun _ m' => c ∈ m'.clients → (m'.proxy c).stream = []) (fun _ _ => True) := by
  have leaves (m : Manager) (x : Nat) (new : c ∉ m.clients) : wp (deleteClient x) m
      (fun _ m' => c ∈ m'.clients → (m'.proxy c).stream = []) (fun _ _ => True) := by
    apply wp_mono (wp_deleteClient_isolates x m)
    · rintro _ m' ⟨clients, -⟩ live
      rw [clients] at live
      exact absurd (List.mem_of_mem_erase live) new
    · exact fun _ _ => id
  cases e with
  | connect addr accepts =>
    apply Gentle.wp_addConnectedClient (R := Fades)
    case refused => exact fun live => absurd live new
    case made =>
      intro d next m' _ fades
      have same : m'.clients = m.clients := fades.clients
      constructor
      · intro live
        rcases (List.mem_orderedInsert ..).mp live with rfl | before
        · have streams := fades.streams c
          rw [proxy_setProxy] at streams
          exact List.eq_nil_of_sublist_nil streams
        · exact absurd (same ▸ before) new
      · exact fun live => absurd (same ▸ live) new
  | hangup x => exact leaves m x new
  | frame x f =>
    apply wp_run_frame.mpr
    have := clients_handle x f
    apply wp_mono (Moves.moves (R := Keeps clients) m)
    · intro _ m' same live
      exact absurd ((show m'.clients = m.clients from same) ▸ live) new
    · intro e m' same
      cases e with
      | runtimeError what => exact leaves m' x ((show m'.clients = m.clients from same) ▸ new)
      | stuck => trivial

end

/-- There are no clients at first. -/
theorem clients_of_start {params : Params} {m : Manager} (first : start params = some m) :
    m.clients = [] := by
  refine start_eq_some (Q := (·.clients = [])) (E := fun _ _ => True) (fun sm _ => ?_) first
  apply wp_mono (Moves.moves (R := Keeps clients) _)
  · exact fun _ _ same => same
  · exact fun _ _ _ => trivial

/-- What a client was sent and what is queued for it is in order part of what it
was offered since it came, in any run. -/
theorem delivered_in_order {params : Params} {ok : History → Manager → Event → Prop}
    {hist : History} {m : Manager} (run : Run params ok hist m) {c : Nat} (live : c ∈ m.clients) :
    (m.proxy c).stream.Sublist (arrivals c hist) := by
  induction run with
  | @start m first =>
    rw [clients_of_start first] at live
    cases live
  | @step hist m e m' before _ _ stepped ih =>
    rw [arrivals]
    by_cases was : c ∈ m.clients
    · rw [if_pos was]
      have streams := step_eq_some (wp_run_streams (clients_nodup before) e was) stepped
      exact streams.trans ((ih was).append (List.Sublist.refl _))
    · rw [if_neg was, List.sublist_nil]
      exact step_eq_some (wp_run_joined e was) stepped live

/-- The second client may have a slab at a time. It takes one segment, and the
next waits. -/
def secondWaits : List Event :=
  [.connect 1 fun _ => true, .connect 2 fun _ => true, .frame 0 (.numSlabs 1 0 true),
    .frame 1 (.numSlabs 0 1 true), .frame 1 (.registration .registerList 1 0 [7]),
    .frame 0 (.blocksAndInfo [segmentIn 0]), .frame 0 (.slabIDs [0]),
    .frame 0 (.blocksAndInfo [segmentIn 1])]

theorem delivered_in_order_secondWaits : ∃ hist m,
    trace fourSlabs (fun _ _ _ => True) secondWaits = some (hist, m) ∧
      (m.proxy 1).stream = [0, 1] ∧ (m.proxy 1).wantedQueue.length = 1 ∧
      (m.proxy 1).stream.Sublist (arrivals 1 hist) := by
  have ran : (trace fourSlabs (fun _ _ _ => True) secondWaits).any (fun run =>
      1 ∈ run.2.clients ∧ (run.2.proxy 1).stream = [0, 1] ∧
        (run.2.proxy 1).wantedQueue.length = 1) = true := by
    decide +kernel
  obtain ⟨⟨hist, m⟩, eq, facts⟩ := (Option.any_eq_true _ _).mp ran
  obtain ⟨live, stream, waits⟩ := of_decide_eq_true facts
  exact ⟨hist, m, eq, stream, waits, delivered_in_order (run_of_trace eq) live⟩

end Manager
end Mcsb
