import Mcsb.Client.BaseClient
import Mcsb.Manager.Enrolment

/-!
# Client and manager agree on registrations

A client, its connection to the manager and the manager. What is in flight on
the connection, once handled, leaves the client registered for the message IDs
of its own map.
-/

namespace Mcsb

/-! ## The two together -/

/-- What `SendRegistration` puts on the wire for the calls. -/
def frames (cid gid : Int16) (sends : Sends) : List Frame :=
  sends.flatMap fun (type, msgIDs) => (regMessages msgIDs).map (.registration type cid gid)

/-- The connection of a client. The manager knows it as `c`, and `live` is
whether the manager still does. -/
structure Link where
  c : Nat
  inFlight : List Frame := []
  connected : Bool := true
  connecting : Bool := true
  live : Bool := true

/-- The socket takes the first `sent` of the frames. If that is not all then
the send has failed, and no more is sent. -/
def Link.send (l : Link) (frames : List Frame) (sent : Nat) : Link :=
  if l.connected then
    { l with inFlight := l.inFlight ++ frames.take sent, connected := frames.length ≤ sent }
  else l

/-- The connection is made, it has not failed, and all is handled. -/
structure Link.Settled (l : Link) : Prop where
  live : l.live = true
  connected : l.connected = true
  connecting : l.connecting = false
  inFlight : l.inFlight = []

structure System where
  m : Manager
  client : Client := {}
  link : Option Link := none

/-- The event is no frame from client `c`. -/
def Event.NotFrom (c : Nat) : Event → Prop
  | .connect _ _ => True
  | .hangup _ => True
  | .frame d _ => d ≠ c

instance (c : Nat) : DecidablePred (Event.NotFrom c)
  | .connect _ _ => inferInstanceAs (Decidable True)
  | .hangup _ => inferInstanceAs (Decidable True)
  | .frame d _ => inferInstanceAs (Decidable (d ≠ c))

/-- A call on the client, where `cid` and `gid` are what the `ClientImpl` was
told of itself; any other frame of the client; `Connect` up to where the
connection is accepted, and its end; `Close`; the first frame in flight is
handled; the manager does something else. -/
inductive Op where
  | call (call : Client.Call) (cid gid : Int16) (sent : Nat)
  | send (f : Frame)
  | connect (addr : Nat) (accepts : Nat → Bool)
  | replay (cid gid : Int16) (sent : Nat)
  | close
  | deliver
  | manager (e : Event)

/-- A call brings no count past its 32 bits. -/
def Op.Fits (s : System) : Op → Prop
  | .call made _ _ _ => s.client.Fits made
  | _ => True

/-- Message IDs are registered through the callback API only. -/
def Op.IsCallback : Op → Prop
  | .call made _ _ _ => made.IsCallback
  | _ => True

instance (s : System) : DecidablePred (Op.Fits s)
  | .call call _ _ _ => inferInstanceAs (Decidable (s.client.Fits call))
  | .send _ | .connect _ _ | .replay _ _ _ | .close | .deliver | .manager _ =>
    inferInstanceAs (Decidable True)

instance : DecidablePred Op.IsCallback
  | .call call _ _ _ => inferInstanceAs (Decidable call.IsCallback)
  | .send _ | .connect _ _ | .replay _ _ _ | .close | .deliver | .manager _ =>
    inferInstanceAs (Decidable True)

namespace System

def step (s : System) : Op → Option System
  | .call call cid gid sent => (s.client.call call).map fun (sends, client) =>
      { s with client, link := s.link.map (·.send (frames cid gid sends) sent) }
  | .send f =>
    match f with
    | .registration .. => none
    | f => some { s with link := s.link.map (·.send [f] 1) }
  | .connect addr accepts =>
    if s.link.isSome ∨ ¬ (Event.connect addr accepts).Enabled s.m then none
    else (s.m.step (.connect addr accepts)).map fun m =>
      { s with m, link := (m.clients.find? (· ∉ s.m.clients)).map fun c => { c } }
  | .replay cid gid sent =>
    match s.link with
    | some l =>
      if l.connecting then
        let all := frames cid gid [(.registerList, s.client.registeredMsgIDs.keys)]
        some { s with link := some { l.send all sent with connecting := false } }
      else none
    | none => none
  | .close => some { s with link := none }
  | .deliver =>
    match s.link with
    | some l =>
      match l.inFlight with
      | f :: inFlight =>
        if l.live then
          (s.m.step (.frame l.c f)).map fun m =>
            { s with m, link := some { l with inFlight, live := l.c ∈ m.clients } }
        else none
      | [] => none
    | none => none
  | .manager e =>
    if e.Enabled s.m ∧ ∀ l ∈ s.link, l.live → e.NotFrom l.c then
      (s.m.step e).map fun m =>
        { s with m, link := s.link.map fun l => { l with live := l.live && l.c ∈ m.clients } }
    else none

/-- The runs, with each state and what happened in it, the latest first. -/
inductive Run (params : Params) : List (System × Op) → System → Prop where
  | start {m} : Manager.start params = some m → Run params [] { m }
  | step {hist s op s'} : Run params hist s → s.step op = some s' → Run params ((s, op) :: hist) s'

end System

/-- The run along given operations, the first of them first. -/
def System.trace (params : Params) (ops : List Op) : Option (List (System × Op) × System) :=
  ops.foldl (fun run op => run.bind fun (hist, s) => (s.step op).map ((s, op) :: hist, ·))
    ((Manager.start params).map fun m => ([], { m }))

theorem System.run_of_trace {params : Params} {ops : List Op} {hist : List (System × Op)}
    {s : System} (h : trace params ops = some (hist, s)) : Run params hist s := by
  induction ops using List.reverseRecOn generalizing hist s with
  | nil =>
    obtain ⟨m, first, eq⟩ := Option.map_eq_some_iff.mp h
    cases eq
    exact .start first
  | append_singleton ops op ih =>
    rw [trace, List.foldl_append, List.foldl_cons, List.foldl_nil] at h
    obtain ⟨⟨hist₀, s₀⟩, before, last⟩ := Option.bind_eq_some_iff.mp h
    obtain ⟨s, stepped, eq⟩ := Option.map_eq_some_iff.mp last
    cases eq
    exact .step (ih before) stepped

/-! ## What is told -/

/-- The message IDs of the map. -/
def keySet (t : MsgIdMap) : Set UInt32 := {msgID | msgID ∈ t.keys}

/-- What a client is registered for once the calls are handled. -/
def enrolled (sends : Sends) (registered : Set UInt32) : Set UInt32 :=
  sends.foldl (fun registered (type, msgIDs) => type.enrol msgIDs registered) registered

/-- What a client is registered for once the frames are handled. -/
def handled (frames : List Frame) (registered : Set UInt32) : Set UInt32 :=
  frames.foldl (fun registered f => f.enrol registered) registered

section
variable {S S' : Set UInt32} {t : MsgIdMap} {type : RegType} {msgIDs : List UInt32} {sends : Sends}

theorem enrol_mono (le : S ⊆ S') : type.enrol msgIDs S ⊆ type.enrol msgIDs S' := by
  cases type with
  | registerList => exact Set.union_subset_union_left _ le
  | deregisterList => exact Set.sdiff_subset_sdiff_left le
  | registerAllMsgs => exact le

theorem enrol_nil : type.enrol [] S = S := by
  cases type <;> simp [RegType.enrol]

theorem enrol_append (more : List UInt32) :
    type.enrol (msgIDs ++ more) S = type.enrol more (type.enrol msgIDs S) := by
  cases type with
  | registerList =>
    ext x
    simp [RegType.enrol, or_assoc]
  | deregisterList =>
    ext x
    simp [RegType.enrol, and_assoc]
  | registerAllMsgs => rfl

theorem enrolled_mono (le : S ⊆ S') : enrolled sends S ⊆ enrolled sends S' := by
  induction sends generalizing S S' with
  | nil => exact le
  | cons send sends ih => exact ih (enrol_mono le)

theorem enrolled_append (later : Sends) :
    enrolled (sends ++ later) S = enrolled later (enrolled sends S) := List.foldl_append

theorem handled_append (fs later : List Frame) :
    handled (fs ++ later) S = handled later (handled fs S) := List.foldl_append

theorem enrolled_tell : enrolled (tell type msgIDs) S = type.enrol msgIDs S := by
  unfold tell
  split
  · rename_i nil
    rw [nil, enrol_nil]
    rfl
  · rfl

/-- Splitting a call into frames makes no difference. -/
theorem handled_frames (cid gid : Int16) (sends : Sends) :
    handled (frames cid gid sends) S = enrolled sends S := by
  induction sends generalizing S with
  | nil => rfl
  | cons send sends ih =>
    obtain ⟨type, msgIDs⟩ := send
    have parts (messages : List (List UInt32)) :
        handled (messages.map (.registration type cid gid)) S = type.enrol messages.flatten S := by
      induction messages generalizing S with
      | nil => exact enrol_nil.symm
      | cons msgIDs messages ih =>
        rw [List.flatten_cons, enrol_append]
        exact ih
    rw [frames, List.flatMap_cons, handled_append, parts, flatten_regMessages]
    exact ih

theorem keySet_put (t : MsgIdMap) (msgID cnt : UInt32) :
    keySet (t.put msgID cnt) = keySet t ∪ {msgID} := by
  ext x
  change x ∈ (t.put msgID cnt).keys ↔ x ∈ t.keys ∨ x = msgID
  rw [SortedMap.mem_keys, SortedMap.mem_keys, SortedMap.find_put]
  by_cases here : x = msgID <;> simp [here]

theorem keySet_erase (t : MsgIdMap) (msgID : UInt32) :
    keySet (t.erase msgID) = keySet t \ {msgID} := by
  ext x
  change x ∈ (t.erase msgID).keys ↔ x ∈ t.keys ∧ x ≠ msgID
  rw [SortedMap.mem_keys, SortedMap.mem_keys, SortedMap.find_erase]
  by_cases here : x = msgID <;> simp [here]

theorem mem_keySet {msgID cnt : UInt32} (found : t.find msgID = some cnt) : msgID ∈ keySet t := by
  apply SortedMap.mem_keys.mpr
  rw [found]
  exact Option.some_ne_none cnt

theorem keySet_registerLoop (msgIDs : List UInt32) (t : MsgIdMap) :
    keySet (BaseClient.registerLoop msgIDs t).2 =
      RegType.registerList.enrol (BaseClient.registerLoop msgIDs t).1 (keySet t) := by
  induction msgIDs generalizing t with
  | nil => exact enrol_nil.symm
  | cons msgID msgIDs ih =>
    unfold BaseClient.registerLoop
    cases found : t.find msgID with
    | none =>
      refine (ih _).trans ?_
      rw [keySet_put]
      ext x
      simp only [RegType.enrol, Set.mem_union, Set.mem_singleton_iff, Set.mem_ofPred_eq,
        List.mem_cons, or_assoc]
    | some cnt =>
      refine (ih _).trans ?_
      rw [keySet_put, Set.union_eq_self_of_subset_right]
      exact Set.singleton_subset_iff.mpr (mem_keySet found)

theorem keySet_deregisterLoop (msgIDs : List UInt32) (t : MsgIdMap) :
    keySet (BaseClient.deregisterLoop msgIDs t).2 =
      RegType.deregisterList.enrol (BaseClient.deregisterLoop msgIDs t).1 (keySet t) := by
  induction msgIDs generalizing t with
  | nil => exact enrol_nil.symm
  | cons msgID msgIDs ih =>
    unfold BaseClient.deregisterLoop
    cases found : t.find msgID with
    | none => exact ih t
    | some cnt =>
      dsimp only
      split
      · refine (ih _).trans ?_
        rw [keySet_erase]
        ext x
        simp [RegType.enrol, and_assoc]
      · refine (ih _).trans ?_
        rw [keySet_put, Set.union_eq_self_of_subset_right]
        exact Set.singleton_subset_iff.mpr (mem_keySet found)

theorem keySet_deregisterAllLoop {t' : MsgIdMap} {fuel : Nat}
    (returns : BaseClient.deregisterAllLoop fuel t = some (sends, t')) :
    keySet t' = enrolled sends (keySet t) := by
  induction fuel generalizing t sends t' with
  | zero =>
    unfold BaseClient.deregisterAllLoop at returns
    split at returns
    · cases returns
      rfl
    · cases returns
  | succ fuel ih =>
    unfold BaseClient.deregisterAllLoop at returns
    split at returns
    · cases returns
      rfl
    · obtain ⟨⟨later, last⟩, rest, eq⟩ := Option.map_eq_some_iff.mp returns
      cases eq
      rw [ih rest, enrolled_append]
      congr 1
      exact (keySet_deregisterLoop _ t).trans enrolled_tell.symm

end

section
variable {client client' : Client} {sends : Sends}

theorem keySet_registerForMsgID (msgID : UInt32) (mhf arg : Nat) :
    keySet (client.registerForMsgID msgID mhf arg).2.registeredMsgIDs =
      enrolled (client.registerForMsgID msgID mhf arg).1 (keySet client.registeredMsgIDs) :=
  (keySet_registerLoop [msgID] _).trans enrolled_tell.symm

theorem keySet_deregisterForMsgID (client : Client) (msgID : UInt32) (mhf : Nat)
    (argsEqual : Nat → Bool) :
    keySet (client.deregisterForMsgID msgID mhf argsEqual).2.registeredMsgIDs =
      enrolled (client.deregisterForMsgID msgID mhf argsEqual).1
        (keySet client.registeredMsgIDs) := by
  unfold Client.deregisterForMsgID
  dsimp only
  split
  · exact (keySet_deregisterLoop [msgID] _).trans enrolled_tell.symm
  · rfl

/-- What a call tells is what it does to the map. -/
theorem keySet_call {call : Client.Call} (returns : client.call call = some (sends, client')) :
    keySet client'.registeredMsgIDs = enrolled sends (keySet client.registeredMsgIDs) := by
  cases call with
  | registerMsgIDs msgIDs =>
    cases returns
    exact (keySet_registerLoop msgIDs _).trans enrolled_tell.symm
  | deregisterMsgIDs msgIDs =>
    cases returns
    exact (keySet_deregisterLoop msgIDs _).trans enrolled_tell.symm
  | deregisterAllMsgIDs =>
    obtain ⟨⟨sends, t⟩, loop, eq⟩ := Option.map_eq_some_iff.mp returns
    cases eq
    exact keySet_deregisterAllLoop loop
  | registerForMsgID msgID mhf arg =>
    cases returns
    exact keySet_registerForMsgID msgID mhf arg
  | deregisterForMsgID msgID mhf argsEqual =>
    have same := keySet_deregisterForMsgID client msgID mhf argsEqual
    rwa [Option.some.inj returns] at same
  | deregisterForAllMsgs =>
    refine Client.deregisterForAllLoop_rec (R := fun c sends c' =>
      keySet c'.registeredMsgIDs = enrolled sends (keySet c.registeredMsgIDs)) (fun _ => rfl) ?_
      returns
    intro c msgID mhf argsEqual later c' ih
    rw [ih, enrolled_append, keySet_deregisterForMsgID]

end
namespace System

variable {params : Params} {hist : List (System × Op)} {s s' : System}

/-! ## Agreement -/

/-- What the proxy of the client is registered for once all is handled. -/
def due (s : System) (l : Link) : Set UInt32 := handled l.inFlight (s.m.registeredSet l.c)

/-- The proxy is, or will be, registered for the keys of the client's map. It
need not be for all of them before the replay. -/
structure Tracks (s : System) (l : Link) : Prop where
  known : l.c ∈ s.m.clients
  sound : l.connected = true → s.due l ⊆ keySet s.client.registeredMsgIDs
  complete : l.connected = true → l.connecting = false →
    keySet s.client.registeredMsgIDs ⊆ s.due l

structure Inv (s : System) : Prop where
  managed : ∃ params hist, Manager.Run params (fun _ _ _ => True) hist s.m
  tracks : ∀ l, s.link = some l → l.live = true → s.Tracks l

theorem due_send {l : Link} (connected : l.connected = true) {fs : List Frame} {sent : Nat}
    (all : fs.length ≤ sent) : s.due (l.send fs sent) = handled fs (s.due l) := by
  rw [due, Link.send, if_pos connected, List.take_of_length_le all]
  exact handled_append ..

theorem connected_send {l : Link} {fs : List Frame} {sent : Nat}
    (h : (l.send fs sent).connected = true) : l.connected = true ∧ fs.length ≤ sent := by
  unfold Link.send at h
  split at h
  · rename_i connected
    exact ⟨connected, of_decide_eq_true h⟩
  · rename_i failed
    exact absurd h failed

theorem send_fields (l : Link) (fs : List Frame) (sent : Nat) : (l.send fs sent).c = l.c ∧
    (l.send fs sent).live = l.live ∧ (l.send fs sent).connecting = l.connecting := by
  unfold Link.send
  split <;> exact ⟨rfl, rfl, rfl⟩

/-- What is sent does to the proxy what was done to the map. -/
theorem Tracks.send {l : Link} (h : s.Tracks l) {client : Client} {fs : List Frame} {sent : Nat}
    (same : keySet client.registeredMsgIDs = handled fs (keySet s.client.registeredMsgIDs))
    (mono : ∀ {S S' : Set UInt32}, S ⊆ S' → handled fs S ⊆ handled fs S') (link : Option Link) :
    Tracks { s with client, link } (l.send fs sent) := by
  obtain ⟨c, -, connecting⟩ := send_fields l fs sent
  constructor
  · rw [c]
    exact h.known
  · intro connected
    obtain ⟨before, all⟩ := connected_send connected
    change s.due (l.send fs sent) ⊆ _
    rw [due_send before all, same]
    exact mono (h.sound before)
  · intro connected made
    obtain ⟨before, all⟩ := connected_send connected
    change _ ⊆ s.due (l.send fs sent)
    rw [due_send before all, same]
    exact mono (h.complete before (connecting ▸ made))

theorem Inv.call (h : s.Inv) {call : Client.Call} {cid gid : Int16} {sent : Nat}
    (stepped : s.step (.call call cid gid sent) = some s') : s'.Inv := by
  obtain ⟨⟨sends, client⟩, returns, eq⟩ := Option.map_eq_some_iff.mp stepped
  cases eq
  refine ⟨h.managed, ?_⟩
  intro l' here live
  obtain ⟨l, before, rfl⟩ := Option.map_eq_some_iff.mp here
  rw [(send_fields ..).2.1] at live
  apply (h.tracks l before live).send
  · rw [handled_frames]
    exact keySet_call returns
  · intro S S' le
    rw [handled_frames, handled_frames]
    exact enrolled_mono le

theorem Inv.send (h : s.Inv) {f : Frame} (stepped : s.step (.send f) = some s') : s'.Inv := by
  have other : ∀ S, handled [f] S = S ∧
      s' = { s with link := s.link.map (·.send [f] 1) } := by
    intro S
    cases f with
    | registration type cid gid msgIDs => cases stepped
    | _ =>
      cases stepped
      exact ⟨rfl, rfl⟩
  obtain rfl := (other ∅).2
  refine ⟨h.managed, ?_⟩
  intro l' here live
  obtain ⟨l, before, rfl⟩ := Option.map_eq_some_iff.mp here
  rw [(send_fields ..).2.1] at live
  have mono {S S' : Set UInt32} (le : S ⊆ S') : handled [f] S ⊆ handled [f] S' := by
    rw [(other S).1, (other S').1]
    exact le
  exact (h.tracks l before live).send (other _).1.symm mono _

theorem step_replay {cid gid : Int16} {sent : Nat}
    (stepped : s.step (.replay cid gid sent) = some s') : ∃ l, s.link = some l ∧
      s' = { s with link := some { l.send (frames cid gid
        [(.registerList, s.client.registeredMsgIDs.keys)]) sent with connecting := false } } := by
  rw [System.step] at stepped
  cases link : s.link with
  | none =>
    rw [link] at stepped
    cases stepped
  | some l =>
    rw [link] at stepped
    dsimp only at stepped
    split at stepped
    · cases stepped
      exact ⟨l, rfl, rfl⟩
    · cases stepped

theorem Inv.replay (h : s.Inv) {cid gid : Int16} {sent : Nat}
    (stepped : s.step (.replay cid gid sent) = some s') : s'.Inv := by
  obtain ⟨l, link, rfl⟩ := step_replay stepped
  refine ⟨h.managed, ?_⟩
  intro l' here live
  cases here
  obtain ⟨c, alive, -⟩ := send_fields l (frames cid gid
    [(.registerList, s.client.registeredMsgIDs.keys)]) sent
  have tracks := h.tracks l link (alive ▸ live)
  -- with all the keys added to some of them, the proxy has them all
  have grown (connected : l.connected = true)
      (all : (frames cid gid [(.registerList, s.client.registeredMsgIDs.keys)]).length ≤ sent) :
      s.due (l.send (frames cid gid [(.registerList, s.client.registeredMsgIDs.keys)]) sent) =
        keySet s.client.registeredMsgIDs := by
    rw [due_send connected all, handled_frames]
    exact Set.union_eq_self_of_subset_left (tracks.sound connected)
  constructor
  · exact c ▸ tracks.known
  · intro connected
    obtain ⟨before, all⟩ := connected_send connected
    exact (grown before all).le
  · intro connected _
    obtain ⟨before, all⟩ := connected_send connected
    exact (grown before all).ge

theorem Inv.connect (h : s.Inv) {addr : Nat} {accepts : Nat → Bool}
    (stepped : s.step (.connect addr accepts) = some s') : s'.Inv := by
  rw [System.step] at stepped
  split at stepped
  · cases stepped
  · rename_i free
    obtain ⟨m', accepted, eq⟩ := Option.map_eq_some_iff.mp stepped
    cases eq
    obtain ⟨params, hist, run⟩ := h.managed
    have enabled : (Event.connect addr accepts).Enabled s.m := by
      by_contra used
      exact free (.inr used)
    refine ⟨⟨params, _, run.step enabled trivial accepted⟩, ?_⟩
    intro l here live
    obtain ⟨c, found, rfl⟩ := Option.map_eq_some_iff.mp here
    have known := List.mem_of_find?_eq_some found
    have new : c ∉ s.m.clients := by
      have := List.find?_some found
      exact of_decide_eq_true this
    refine ⟨known, ?_, nofun⟩
    intro _
    exact (Manager.step_new new accepted known).le.trans (Set.empty_subset _)

theorem step_deliver (stepped : s.step .deliver = some s') : ∃ l f inFlight m,
    s.link = some l ∧ l.live = true ∧ l.inFlight = f :: inFlight ∧
      s.m.step (.frame l.c f) = some m ∧
      s' = { s with m, link := some { l with inFlight, live := l.c ∈ m.clients } } := by
  rw [System.step] at stepped
  cases link : s.link with
  | none =>
    rw [link] at stepped
    cases stepped
  | some l =>
    rw [link] at stepped
    dsimp only at stepped
    cases inFlight : l.inFlight with
    | nil =>
      rw [inFlight] at stepped
      cases stepped
    | cons f rest =>
      rw [inFlight] at stepped
      dsimp only at stepped
      split at stepped
      · rename_i live
        obtain ⟨m, handles, eq⟩ := Option.map_eq_some_iff.mp stepped
        exact ⟨l, f, rest, m, rfl, live, inFlight, handles, eq.symm⟩
      · cases stepped

theorem Inv.deliver (h : s.Inv) (stepped : s.step .deliver = some s') : s'.Inv := by
  obtain ⟨l, f, rest, m', link, live, inFlight, handles, rfl⟩ := step_deliver stepped
  obtain ⟨params, hist, run⟩ := h.managed
  have tracks := h.tracks l link live
  have enabled : (Event.frame l.c f).Enabled s.m := tracks.known
  refine ⟨⟨params, _, run.step enabled trivial handles⟩, ?_⟩
  intro l' here live'
  cases here
  have known : l.c ∈ m'.clients := of_decide_eq_true live'
  have set := (Manager.step_own (Manager.clients_nodup run) (Manager.neat_of_run run)
    handles).resolve_left (not_not.mpr known)
  have due : handled rest (m'.registeredSet l.c) = s.due l := by
    rw [set, System.due, inFlight]
    rfl
  constructor
  · exact known
  · intro connected
    exact due.le.trans (tracks.sound connected)
  · intro connected made
    exact (tracks.complete connected made).trans due.ge

theorem Inv.manager (h : s.Inv) {e : Event} (stepped : s.step (.manager e) = some s') :
    s'.Inv := by
  rw [System.step] at stepped
  split at stepped
  · rename_i can
    obtain ⟨enabled, others⟩ := can
    obtain ⟨m', does, eq⟩ := Option.map_eq_some_iff.mp stepped
    cases eq
    obtain ⟨params, hist, run⟩ := h.managed
    refine ⟨⟨params, _, run.step enabled trivial does⟩, ?_⟩
    intro l' here live'
    obtain ⟨l, link, rfl⟩ := Option.map_eq_some_iff.mp here
    obtain ⟨live, known⟩ := Bool.and_eq_true_iff.mp live'
    have known : l.c ∈ m'.clients := of_decide_eq_true known
    have tracks := h.tracks l link live
    have set : m'.registeredSet l.c = s.m.registeredSet l.c := by
      by_cases spares : Manager.Spares l.c e
      · exact (Manager.step_other spares tracks.known does).2
      · have other := others l link live
        have hangup : e = .hangup l.c := by
          cases e with
          | connect addr accepts => exact absurd trivial spares
          | hangup d => rw [not_not.mp spares]
          | frame d f => exact absurd other spares
        subst hangup
        exact absurd known (Manager.step_hangup (Manager.clients_nodup run) does)
    have due : handled l.inFlight (m'.registeredSet l.c) = s.due l := by
      rw [set]
      rfl
    constructor
    · exact known
    · intro connected
      exact due.le.trans (tracks.sound connected)
    · intro connected made
      exact (tracks.complete connected made).trans due.ge
  · cases stepped

theorem inv_of_run (run : Run params hist s) : s.Inv := by
  induction run with
  | start first =>
    refine ⟨⟨params, [], .start first⟩, ?_⟩
    intro l here
    cases here
  | @step hist s op s' _ stepped ih =>
    cases op with
    | call call cid gid sent => exact ih.call stepped
    | send f => exact ih.send stepped
    | connect addr accepts => exact ih.connect stepped
    | replay cid gid sent => exact ih.replay stepped
    | close =>
      cases stepped
      refine ⟨ih.managed, ?_⟩
      intro l here
      cases here
    | deliver => exact ih.deliver stepped
    | manager e => exact ih.manager stepped

/-! ## Counts -/

theorem client_step {op : Op} (stepped : s.step op = some s') : s'.client = s.client ∨
    ∃ call cid gid sent sends, op = .call call cid gid sent ∧
      s.client.call call = some (sends, s'.client) := by
  cases op with
  | call call cid gid sent =>
    obtain ⟨⟨sends, client⟩, returns, eq⟩ := Option.map_eq_some_iff.mp stepped
    cases eq
    exact .inr ⟨call, cid, gid, sent, sends, rfl, returns⟩
  | send f =>
    left
    cases f with
    | registration type cid gid msgIDs => cases stepped
    | _ =>
      cases stepped
      rfl
  | connect addr accepts =>
    left
    rw [System.step] at stepped
    split at stepped
    · cases stepped
    · obtain ⟨m', -, eq⟩ := Option.map_eq_some_iff.mp stepped
      cases eq
      rfl
  | replay cid gid sent =>
    obtain ⟨l, -, rfl⟩ := step_replay stepped
    exact .inl rfl
  | close =>
    cases stepped
    exact .inl rfl
  | deliver =>
    obtain ⟨l, f, rest, m', -, -, -, -, rfl⟩ := step_deliver stepped
    exact .inl rfl
  | manager e =>
    left
    rw [System.step] at stepped
    split at stepped
    · obtain ⟨m', -, eq⟩ := Option.map_eq_some_iff.mp stepped
      cases eq
      rfl
    · cases stepped

theorem positive_of_run (run : Run params hist s) (fits : ∀ e ∈ hist, e.2.Fits e.1) :
    s.client.registeredMsgIDs.Positive := by
  induction run with
  | start _ => exact nofun
  | @step hist s op s' _ stepped ih =>
    have before := ih fun e mem => fits e (List.mem_cons_of_mem _ mem)
    rcases client_step stepped with same | ⟨call, cid, gid, sent, sends, rfl, returns⟩
    · rw [same]
      exact before
    · exact Client.positive_call returns before (fits _ List.mem_cons_self)

theorem matched_of_run (run : Run params hist s) (fits : ∀ e ∈ hist, e.2.Fits e.1)
    (callbacks : ∀ e ∈ hist, e.2.IsCallback) : s.client.Matched := by
  induction run with
  | start _ => exact ⟨nofun, fun _ => rfl⟩
  | @step hist s op s' _ stepped ih =>
    have before := ih (fun e mem => fits e (List.mem_cons_of_mem _ mem))
      (fun e mem => callbacks e (List.mem_cons_of_mem _ mem))
    rcases client_step stepped with same | ⟨call, cid, gid, sent, sends, rfl, returns⟩
    · rw [same]
      exact before
    · exact before.call returns (fits _ List.mem_cons_self) (callbacks _ List.mem_cons_self)

/-- On a connection where all is handled, the proxy is registered for the keys
of the client's map. -/
def Agreed (s : System) : Prop := ∀ l, s.link = some l → l.Settled →
  s.m.registeredSet l.c = keySet s.client.registeredMsgIDs

theorem agreed_of_run (run : Run params hist s) : s.Agreed := by
  intro l link settled
  have tracks := (inv_of_run run).tracks l link settled.live
  have due : s.due l = s.m.registeredSet l.c := by
    rw [System.due, settled.inFlight]
    rfl
  rw [← due]
  exact Set.Subset.antisymm (tracks.sound settled.connected)
    (tracks.complete settled.connected settled.connecting)

/-- Client and manager agree on the registrations. As long as no count wraps,
the IDs in the map are those with a positive count, and through the callback API
that is the number of their handlers. -/
theorem registrations_agree (run : Run params hist s) : s.Agreed ∧
    ((∀ e ∈ hist, e.2.Fits e.1) →
      keySet s.client.registeredMsgIDs = {x | 0 < s.client.registeredMsgIDs.count x} ∧
      ((∀ e ∈ hist, e.2.IsCallback) → ∀ x, (s.client.registeredMsgIDs.count x).toNat =
        s.client.messageHandlers.countP (·.msgID = x))) ∧
    ∀ t : MsgIdMap, ∃ sends, BaseClient.deregisterAllMsgIDs t = some (sends, {}) := by
  refine ⟨agreed_of_run run, ?_, BaseClient.deregisterAllMsgIDs_returns⟩
  intro fits
  constructor
  · ext x
    exact (positive_of_run run fits).mem_keys_iff
  · intro callbacks
    exact (matched_of_run run fits callbacks).counts

/-- The client connects. -/
def connects : List Op := [.connect 1 fun _ => true, .replay 0 0 0]

/-- It adds two handlers for a message and one for another, which is taken away
again, and the frames are handled. -/
def handlersComeAndGo : List Op :=
  connects ++ [.call (.registerForMsgID 7 1 0) 0 0 1, .call (.registerForMsgID 8 1 0) 0 0 1,
    .call (.registerForMsgID 7 2 0) 0 0 1, .deliver, .call (.deregisterForMsgID 8 1 (· = 0)) 0 0 1,
    .deliver, .deliver]

theorem registrations_agree_handlers : ∃ hist s l,
    trace Manager.fourSlabs handlersComeAndGo = some (hist, s) ∧ s.link = some l ∧ l.Settled ∧
      s.m.registeredSet l.c = keySet s.client.registeredMsgIDs ∧
      (s.client.registeredMsgIDs.count 7).toNat = s.client.messageHandlers.countP (·.msgID = 7) := by
  have ran : (trace Manager.fourSlabs handlersComeAndGo).any (fun (hist, s) =>
      (∀ e ∈ hist, e.2.Fits e.1) ∧ (∀ e ∈ hist, e.2.IsCallback) ∧ s.link.any fun l =>
        l.live && l.connected && !l.connecting && l.inFlight.isEmpty) = true := by
    decide +kernel
  obtain ⟨⟨hist, s⟩, eq, facts⟩ := (Option.any_eq_true _ _).mp ran
  obtain ⟨fits, callbacks, linked⟩ := of_decide_eq_true facts
  obtain ⟨l, link, settled⟩ := (Option.any_eq_true _ _).mp linked
  simp only [Bool.and_eq_true, Bool.not_eq_true', List.isEmpty_iff] at settled
  obtain ⟨⟨⟨live, connected⟩, connecting⟩, inFlight⟩ := settled
  have settled : l.Settled := ⟨live, connected, connecting, inFlight⟩
  obtain ⟨agreed, counts, -⟩ := registrations_agree (run_of_trace eq)
  exact ⟨hist, s, l, eq, link, settled, agreed l link settled, (counts fits).2 callbacks 7⟩

/-- After any number of registrations of one message ID, one frame has been sent. -/
theorem run_registers (n : Nat) : ∃ hist s l, Run Manager.fourSlabs hist s ∧ s.link = some l ∧
    l.Settled ∧ (s.m.proxy l.c).registeredMsgIDs = [7] ∧
    s.client.registeredMsgIDs.find 7 = some (UInt32.ofNat (n + 1)) := by
  induction n with
  | zero =>
    have ran : (trace Manager.fourSlabs (connects ++ [.call (.registerMsgIDs [7]) 0 0 1,
        .deliver])).any (fun (_, s) => s.link.any fun l =>
          l.live && l.connected && !l.connecting && l.inFlight.isEmpty &&
            (s.m.proxy l.c).registeredMsgIDs = [7] && s.client.registeredMsgIDs.find 7 = some 1) =
        true := by
      decide +kernel
    obtain ⟨⟨hist, s⟩, eq, linked⟩ := (Option.any_eq_true _ _).mp ran
    obtain ⟨l, link, facts⟩ := (Option.any_eq_true _ _).mp linked
    simp only [Bool.and_eq_true, Bool.not_eq_true', List.isEmpty_iff, decide_eq_true_eq] at facts
    obtain ⟨⟨⟨⟨⟨live, connected⟩, connecting⟩, inFlight⟩, registered⟩, count⟩ := facts
    exact ⟨hist, s, l, run_of_trace eq, link, ⟨live, connected, connecting, inFlight⟩, registered,
      count⟩
  | succ n ih =>
    obtain ⟨hist, s, l, run, link, settled, registered, count⟩ := ih
    have again : s.client.call (.registerMsgIDs [7]) = some ([], { s.client with
        registeredMsgIDs := s.client.registeredMsgIDs.put 7 (UInt32.ofNat (n + 1) + 1) }) := by
      simp only [Client.call, BaseClient.registerMsgIDs, BaseClient.registerLoop, count]
      rfl
    have sent : l.send [] 0 = l := by
      unfold Link.send
      split
      · rename_i connected
        obtain ⟨c, inFlight, connected, connecting, live⟩ := l
        cases connected
        simp
      · rfl
    refine ⟨_, { s with
        client := { s.client with
          registeredMsgIDs := s.client.registeredMsgIDs.put 7 (UInt32.ofNat (n + 1) + 1) }
        link := some l }, l,
      @Run.step _ _ _ (.call (.registerMsgIDs [7]) 0 0 0) _ run ?_, rfl, settled, registered, ?_⟩
    · rw [System.step, again, link]
      simp only [Option.map_some, frames, List.flatMap_nil, sent]
    · rw [SortedMap.find_put, if_pos rfl]
      exact congrArg some (UInt32.ofNat_add (n + 1) 1).symm

/-- After 2^32 registrations the count is 0 again, and the proxy is registered. -/
theorem not_registrations_positive : ¬ ∀ params hist s, Run params hist s →
    ∀ l, s.link = some l → l.Settled →
      s.m.registeredSet l.c = {x | 0 < s.client.registeredMsgIDs.count x} := by
  intro all
  obtain ⟨n, wraps⟩ : ∃ n, UInt32.ofNat (n + 1) = 0 := ⟨2 ^ 32 - 1, by decide⟩
  obtain ⟨hist, s, l, run, link, settled, registered, count⟩ := run_registers n
  have same := all _ _ _ run l link settled
  have mem : (7 : UInt32) ∈ s.m.registeredSet l.c := by
    change 7 ∈ (s.m.proxy l.c).registeredMsgIDs
    rw [registered]
    exact List.mem_cons_self
  rw [same] at mem
  have pos : 0 < s.client.registeredMsgIDs.count 7 := mem
  rw [MsgIdMap.count, count, wraps] at pos
  exact absurd pos (by decide)

end System
end Mcsb
