import Mcsb.Manager.Failures
import Mcsb.Lib.ChangeLog

/-!
# Who hears of registrations

A client that asked for registrations gets a log of them. What the log comes to
is what the clients are registered for.
-/

namespace Mcsb
open Effect ChangeLog

set_option maxRecDepth 2000
set_option synthInstance.maxSize 10000

theorem flatten_toChunks_go {α : Type} (n : Nat) (xs : List α) (acc₁ : Array α)
    (acc₂ : Array (List α)) : (List.toChunks.go n xs acc₁ acc₂).flatten =
      acc₂.toList.flatten ++ (acc₁.toList ++ xs) := by
  induction xs generalizing acc₁ acc₂ with
  | nil => simp [List.toChunks.go]
  | cons x xs ih =>
    unfold List.toChunks.go
    split <;> simp [ih]

@[simp] theorem flatten_regMessages (msgIDs : List UInt32) :
    (regMessages msgIDs).flatten = msgIDs := by
  unfold regMessages List.toChunks
  split
  · rfl
  · simp
  · simp [flatten_toChunks_go]

/-- What the client reads in a registration. -/
def Sent.note? : Sent → Option (Note Int16 UInt32)
  | .ctrl (.registration .registerList clientID _ msgIDs) => some (.add clientID msgIDs)
  | .ctrl (.registration .deregisterList clientID _ msgIDs) => some (.remove clientID msgIDs)
  | _ => none

/-- The write is no registration. -/
class Sent.Plain (sent : Sent) : Prop where
  eq : sent.note? = none

instance (ids : List Nat) : Sent.Plain (.blockIDs ids) := ⟨rfl⟩
instance (ids : List Nat) : Sent.Plain (.slabIDs ids) := ⟨rfl⟩
instance (segs bytes : UInt32) : Sent.Plain (.ctrl (.dropReport segs bytes)) := ⟨rfl⟩
instance (which : UInt32) (str : List UInt8) : Sent.Plain (.ctrl (.ctrlString which str)) := ⟨rfl⟩
instance (prod cons : UInt32) : Sent.Plain (.ctrl (.numSlabs prod cons)) := ⟨rfl⟩
instance (id : Int16) : Sent.Plain (.ctrl (.groupID id)) := ⟨rfl⟩
instance (id : Int16) : Sent.Plain (.ctrl (.clientID id)) := ⟨rfl⟩
instance (bytes : List UInt8) : Sent.Plain (.ctrl (.managerEcho bytes)) := ⟨rfl⟩
instance (token : UInt32) : Sent.Plain (.ctrl (.sequenceToken token)) := ⟨rfl⟩
instance (magic version : UInt32) : Sent.Plain (.ctrl (.validatePeer magic version)) := ⟨rfl⟩

/-- The message IDs a list registers before the reserved one are not new. -/
def Whole (msgIDs registered : List UInt32) : Prop :=
  kCCIMessageID ∈ msgIDs → ∀ msgID ∈ msgIDs.takeWhile (· ≠ kCCIMessageID), msgID ∈ registered

instance (msgIDs registered : List UInt32) : Decidable (Whole msgIDs registered) :=
  inferInstanceAs (Decidable (_ → _))

namespace Manager

/-- The client is live and registered for the message. -/
def Registered (m : Manager) (p : Int16 × UInt32) : Prop :=
  ∃ c ∈ m.clients, p.1 = Int16.ofNat c ∧ p.2 ∈ (m.proxy c).registeredMsgIDs

/-- What client `obs` hears between two states, unless its writes fail. -/
structure Told (obs : Nat) (m m' : Manager) (log : List (Note Int16 UInt32)) : Prop where
  wants : (m'.proxy obs).wantRegistrations = (m.proxy obs).wantRegistrations
  accepts : (m'.proxy obs).sock.accepts = (m.proxy obs).sock.accepts
  attempts : (m.proxy obs).sock.attempts ≤ (m'.proxy obs).sock.attempts
  failed : (m.proxy obs).sendFailed = true → (m'.proxy obs).sendFailed = true
  out : (m'.proxy obs).sendFailed = false → ∃ sents,
    (m'.proxy obs).sock.out = (m.proxy obs).sock.out ++ sents ∧ sents.filterMap Sent.note? = log

/-- It hears this while the registrations stay as they are. -/
structure Announced (obs : Nat) (m m' : Manager) (log : List (Note Int16 UInt32)) : Prop
    extends Told obs m m' log where
  clients : m'.clients = m.clients
  registered : ∀ x, (m'.proxy x).registeredMsgIDs = (m.proxy x).registeredMsgIDs

/-- Nothing happens that `obs` would have to hear of. -/
structure Quiet (obs : Nat) (m m' : Manager) : Prop extends Announced obs m m' []

section
variable {obs c : Nat} {m m' m'' : Manager} {log log' : List (Note Int16 UInt32)}

theorem Told.of_same (same : m'.proxy obs = m.proxy obs) : m.Told obs m' [] := by
  refine ⟨same ▸ rfl, same ▸ rfl, same ▸ le_rfl, same ▸ id, fun _ => ⟨[], ?_, rfl⟩⟩
  rw [same, List.append_nil]

theorem Told.then (h : m.Told obs m' log) (h' : m'.Told obs m'' log') :
    m.Told obs m'' (log ++ log') := by
  refine ⟨h'.wants.trans h.wants, h'.accepts.trans h.accepts, h.attempts.trans h'.attempts,
    h'.failed ∘ h.failed, fun works => ?_⟩
  obtain ⟨later, out', note'⟩ := h'.out works
  obtain ⟨first, out, note⟩ := h.out (Bool.eq_false_iff.mpr fun failed =>
    Bool.eq_false_iff.mp works (h'.failed failed))
  refine ⟨first ++ later, ?_, ?_⟩
  · rw [out', out, List.append_assoc]
  · rw [List.filterMap_append, note, note']

theorem Announced.then (h : m.Announced obs m' log) (h' : m'.Announced obs m'' log') :
    m.Announced obs m'' (log ++ log') :=
  ⟨h.toTold.then h'.toTold, h'.clients.trans h.clients,
    fun x => (h'.registered x).trans (h.registered x)⟩

instance : IsPreorder Manager (Quiet obs) where
  refl _ := ⟨.of_same rfl, rfl, fun _ => rfl⟩
  trans _ _ _ h h' := ⟨h.toAnnounced.then h'.toAnnounced⟩

/-- A change to a proxy that `obs` does not hear of. -/
theorem Quiet.setProxy {p : ClientProxy} (sock : p.sock = (m.proxy c).sock)
    (failed : p.sendFailed = (m.proxy c).sendFailed)
    (wants : p.wantRegistrations = (m.proxy c).wantRegistrations)
    (registered : p.registeredMsgIDs = (m.proxy c).registeredMsgIDs) :
    m.Quiet obs (m.setProxy c p) := by
  refine ⟨?_, rfl, fun x => congrFun (inner_setProxy (·.registeredMsgIDs) registered) x⟩
  by_cases here : obs = c
  · subst here
    refine ⟨by rw [proxy_setProxy, wants], by rw [proxy_setProxy, sock],
      by rw [proxy_setProxy, sock], by rw [proxy_setProxy, failed]; exact id,
      fun _ => ⟨[], ?_, rfl⟩⟩
    rw [proxy_setProxy, sock, List.append_nil]
  · exact .of_same (proxy_setProxy_of_ne _ here p)

instance : Steady (Quiet obs) where
  inside same _ _ := by
    simp only [settings, Prod.mk.injEq] at same
    obtain ⟨-, clients, -, -, -, -, proxy⟩ := same
    exact ⟨.of_same (proxy ▸ rfl), clients, fun x => proxy ▸ rfl⟩
  proxy same := by
    simp only [ClientProxy.settings, Prod.mk.injEq] at same
    exact .setProxy same.2.2.1 same.2.2.2.1 same.2.2.2.2.2.2.2.1 same.2.2.2.2.2.2.1

instance : Reporting (Quiet obs) where
  reporting _ _ := .setProxy rfl rfl rfl rfl
  dropped _ _ := ⟨.of_same rfl, rfl, fun _ => rfl⟩

instance : Ranking (Quiet obs) where
  ranking _ := .setProxy rfl rfl rfl rfl

instance : Grouping (Quiet obs) where
  groups _ := ⟨.of_same rfl, rfl, fun _ => rfl⟩
  member _ := .setProxy rfl rfl rfl rfl

instance : Copying (Quiet obs) where
  blockInfo _ _ := ⟨.of_same rfl, rfl, fun _ => rfl⟩

instance : Resizing (Quiet obs) where
  resized _ _ := .setProxy rfl rfl rfl rfl

instance : Growing (Quiet obs) where
  buffers _ _ _ := ⟨.of_same rfl, rfl, fun _ => rfl⟩
  granted _ _ := .setProxy rfl rfl rfl rfl

/-- What `obs` hears when client `c` is written to. -/
def heard (obs c : Nat) (sents : List Sent) : List (Note Int16 UInt32) :=
  if c = obs then sents.filterMap Sent.note? else []

theorem heard_append (sents sents' : List Sent) :
    heard obs c (sents ++ sents') = heard obs c sents ++ heard obs c sents' := by
  unfold heard
  split
  · exact List.filterMap_append
  · rfl

theorem heard_nil : heard obs c [] = [] := ite_self _

theorem told_setProxy {p : ClientProxy}
    (wants : p.wantRegistrations = (m.proxy obs).wantRegistrations)
    (accepts : p.sock.accepts = (m.proxy obs).sock.accepts)
    (attempts : (m.proxy obs).sock.attempts ≤ p.sock.attempts)
    (failed : (m.proxy obs).sendFailed = true → p.sendFailed = true)
    (out : p.sendFailed = false → ∃ sents, p.sock.out = (m.proxy obs).sock.out ++ sents ∧
      sents.filterMap Sent.note? = log) : m.Told obs (m.setProxy obs p) log := by
  refine ⟨?_, ?_, ?_, ?_, ?_⟩ <;> rw [proxy_setProxy]
  · exact wants
  · exact accepts
  · exact attempts
  · exact failed
  · exact out

/-- A proxy's own write, as `obs` sees it. -/
theorem announced_send (obs c : Nat) (sent : Sent) :
    m.Announced obs (m.setProxy c ((m.proxy c).send sent)) (heard obs c [sent]) := by
  refine ⟨?_, rfl, fun x => congrFun (inner_setProxy (·.registeredMsgIDs)
    (ClientProxy.registeredMsgIDs_send ..)) x⟩
  unfold heard
  by_cases here : c = obs
  · subst here
    rw [if_pos rfl]
    unfold ClientProxy.send
    split
    · rename_i failed
      exact told_setProxy rfl rfl le_rfl id fun works => absurd failed (Bool.eq_false_iff.mp works)
    · split
      · exact told_setProxy rfl rfl (Nat.le_succ _) id fun _ => ⟨[sent], rfl, rfl⟩
      · exact told_setProxy rfl rfl (Nat.le_succ _) (fun _ => rfl) nofun
  · rw [if_neg here]
    exact .of_same (proxy_setProxy_of_ne _ (Ne.symm here) _)

theorem heard_plain (sent : Sent) [plain : sent.Plain] : heard obs c [sent] = [] := by
  unfold heard
  rw [List.filterMap_cons, plain.eq]
  exact ite_self _

theorem quiet_send (sent : Sent) [sent.Plain] :
    m.Quiet obs (m.setProxy c ((m.proxy c).send sent)) := by
  have announced := announced_send (m := m) obs c sent
  rw [heard_plain] at announced
  exact ⟨announced⟩

instance (c : Nat) (sent : Sent) [sent.Plain] : Moves (Quiet obs) (sendOn c c sent) :=
  ⟨fun _ => wp_sendOn (quiet_send sent) fun _ => quiet_send sent⟩

/-! ## Telling everyone -/

/-- How message IDs are announced. -/
def announce (type : RegType) (clientID : Int16) (msgIDs : List UInt32) :
    List (Note Int16 UInt32) :=
  match type with
  | .registerList => (regMessages msgIDs).map (.add clientID)
  | .deregisterList => (regMessages msgIDs).map (.remove clientID)
  | .registerAllMsgs => []

/-- The writes of an announcement. -/
abbrev registrations (type : RegType) (cid gid : Int16) (messages : List (List UInt32)) :
    List Sent := messages.map fun msgIDs => .ctrl (.registration type cid gid msgIDs)

theorem filterMap_registrations (type : RegType) (cid gid : Int16) (msgIDs : List UInt32) :
    (registrations type cid gid (regMessages msgIDs)).filterMap Sent.note? =
      announce type cid msgIDs := by
  rw [List.filterMap_map]
  cases type with
  | registerList => exact congrFun List.filterMap_eq_map _
  | deregisterList => exact congrFun List.filterMap_eq_map _
  | registerAllMsgs => exact List.filterMap_eq_nil_iff.mpr fun _ _ => rfl

theorem wp_sendOn_failed (sent : Sent) : wp (sendOn c c sent) m
    (fun _ m' => m' = m.setProxy c ((m.proxy c).send sent))
    (fun e m' => e ≠ .stuck ∧ m' = m.setProxy c ((m.proxy c).send sent) ∧
      (m'.proxy c).sendFailed = true) := by
  simp only [sendOn, wp_bind, wp_getProxy, wp_ite, wp_fail, wp_modifyProxy, proxy_setProxy,
    setProxy_setProxy]
  unfold ClientProxy.send
  by_cases failed : (m.proxy c).sendFailed = true
  · simp [failed]
  · by_cases accepts : (m.proxy c).sock.accepts (m.proxy c).sock.attempts = true
    · simp [failed, accepts, ClientProxy.wrote]
    · simp [failed, accepts, ClientProxy.failed]

/-- After a failure it does not matter what would have been heard. -/
theorem Announced.of_failed (h : m.Announced obs m' log)
    (failed : (m'.proxy obs).sendFailed = true) : m.Announced obs m' log' :=
  ⟨⟨h.wants, h.accepts, h.attempts, h.failed, fun works => absurd failed (Bool.eq_false_iff.mp works)⟩,
    h.clients, h.registered⟩

theorem wp_sendRegistrationOn (type : RegType) (cid gid : Int16) (messages : List (List UInt32)) :
    wp (sendRegistrationOn c c type cid gid messages) m
      (fun _ m' => m.Announced obs m' (heard obs c (registrations type cid gid messages)))
      (fun e m' => e ≠ .stuck ∧
        m.Announced obs m' (heard obs c (registrations type cid gid messages))) := by
  induction messages generalizing m with
  | nil =>
    rw [registrations, List.map_nil, heard_nil]
    exact (refl_of (Quiet obs) m).toAnnounced
  | cons msgIDs rest ih =>
    have first := announced_send (m := m) obs c
      (.ctrl (.registration type cid gid msgIDs))
    rw [sendRegistrationOn, wp_bind, registrations, List.map_cons, ← List.singleton_append,
      heard_append]
    refine wp_mono (wp_sendOn_failed _) ?_ ?_
    · rintro - _ rfl
      exact wp_mono ih (fun _ _ later => first.then later)
        (fun _ _ later => ⟨later.1, first.then later.2⟩)
    · rintro e _ ⟨error, rfl, failed⟩
      refine ⟨error, ?_⟩
      by_cases here : c = obs
      · exact first.of_failed (here ▸ failed)
      · unfold heard at first ⊢
        rw [if_neg here, if_neg here, List.append_nil]
        rwa [if_neg here] at first

theorem wp_swallow_sendRegistrationOn (obs c : Nat) (type : RegType) (cid gid : Int16)
    (messages : List (List UInt32)) :
    wp (swallow (sendRegistrationOn c c type cid gid messages)) m
      (fun _ m' => m.Announced obs m' (heard obs c (registrations type cid gid messages)))
      (fun e _ => e = .stuck) := by
  refine wp_swallow.mpr (wp_mono (wp_sendRegistrationOn type cid gid messages) (fun _ _ => id) ?_)
  rintro e m' ⟨error, announced⟩
  cases e with
  | runtimeError what => exact announced
  | stuck => exact absurd rfl error

/-- Whoever is not among the clients that are told hears nothing. -/
theorem wp_sendRegistration_other (type : RegType) (cid gid : Int16) (msgIDs : List UInt32)
    {cs : List Nat} (other : obs ∉ cs) :
    wp (sendRegistration type cid gid msgIDs cs) m (fun _ m' => m.Quiet obs m')
      (fun e _ => e = .stuck) := by
  induction cs generalizing m with
  | nil => exact refl_of (Quiet obs) m
  | cons c cs ih =>
    have ih {m : Manager} := ih (m := m) fun mem => other (List.mem_cons_of_mem c mem)
    simp only [sendRegistration, wp_bind, wp_getProxy, wp_ite]
    split
    · refine wp_mono (wp_swallow_sendRegistrationOn obs _ _ _ _ _) (fun _ m₁ first => ?_)
        (fun _ _ => id)
      rw [heard, if_neg fun here : c = obs => other (here ▸ List.mem_cons_self)] at first
      exact wp_mono ih (fun _ _ => trans_of (Quiet obs) ⟨first⟩) (fun _ _ => id)
    · exact ih

/-- A client that wants to know hears it once. -/
theorem wp_sendRegistration (type : RegType) (cid gid : Int16) (msgIDs : List UInt32)
    {cs : List Nat} (nodup : cs.Nodup) (mem : obs ∈ cs)
    (wants : (m.proxy obs).wantRegistrations = true) :
    wp (sendRegistration type cid gid msgIDs cs) m
      (fun _ m' => m.Announced obs m' (announce type cid msgIDs)) (fun e _ => e = .stuck) := by
  induction cs generalizing m with
  | nil => cases mem
  | cons c cs ih =>
    obtain ⟨notin, nodup⟩ := List.nodup_cons.mp nodup
    simp only [sendRegistration, wp_bind, wp_getProxy, wp_ite]
    by_cases here : c = obs
    · subst here
      rw [if_pos wants]
      refine wp_mono (wp_swallow_sendRegistrationOn c _ _ _ _ _) (fun _ m₁ first => ?_)
        (fun _ _ => id)
      rw [heard, if_pos rfl, filterMap_registrations] at first
      refine wp_mono (wp_sendRegistration_other type cid gid msgIDs notin) (fun _ m' rest => ?_)
        (fun _ _ => id)
      simpa only [List.append_nil] using first.then rest.toAnnounced
    · have mem := (List.mem_cons.mp mem).resolve_left (Ne.symm here)
      split
      · refine wp_mono (wp_swallow_sendRegistrationOn obs _ _ _ _ _) (fun _ m₁ first => ?_)
          (fun _ _ => id)
        rw [heard, if_neg here] at first
        exact wp_mono (ih nodup mem (first.wants.trans wants)) (fun _ _ => first.then) (fun _ _ => id)
      · exact ih nodup mem wants

/-! ## Registering -/

/-- The state with other registrations of a client. -/
abbrev setRegistered (m : Manager) (c : Nat) (registeredMsgIDs : List UInt32) : Manager :=
  m.setProxy c { m.proxy c with registeredMsgIDs }

theorem wp_registerMsgIDs (msgIDs : List UInt32) : wp (registerMsgIDs c msgIDs) m
    (fun inserted m' => ∃ registered, m' = m.setRegistered c registered ∧
      registered.Perm (inserted ++ (m.proxy c).registeredMsgIDs) ∧
      ((m.proxy c).registeredMsgIDs.Nodup → registered.Nodup))
    (fun e m' => e ≠ .stuck ∧ kCCIMessageID ∈ msgIDs ∧
      ∃ registered, m' = m.setRegistered c registered ∧
        ((m.proxy c).registeredMsgIDs.Nodup → registered.Nodup) ∧
        (Whole msgIDs (m.proxy c).registeredMsgIDs →
          registered = (m.proxy c).registeredMsgIDs)) := by
  induction msgIDs generalizing m with
  | nil => exact ⟨_, (setProxy_self m c).symm, .refl _, id⟩
  | cons msgID msgIDs ih =>
    simp only [registerMsgIDs, wp_bind, wp_getProxy, wp_ite, wp_fail, wp_modifyProxy, wp_pure]
    split
    · rename_i reserved
      exact ⟨by simp, reserved ▸ List.mem_cons_self, _, (setProxy_self m c).symm, id, fun _ => rfl⟩
    · rename_i unreserved
      have head : (msgID :: msgIDs).takeWhile (· ≠ kCCIMessageID) =
          msgID :: msgIDs.takeWhile (· ≠ kCCIMessageID) := by simp [unreserved]
      split
      · refine wp_mono ih (fun _ _ => id) ?_
        rintro e _ ⟨error, reserved, registered, rfl, nodup, undone⟩
        have reserved := List.mem_cons_of_mem msgID reserved
        refine ⟨error, reserved, registered, rfl, nodup, fun whole => undone fun _ id mem => ?_⟩
        exact whole reserved id (head ▸ List.mem_cons_of_mem _ mem)
      · rename_i new
        have grown := List.perm_orderedInsert (· ≤ ·) msgID (m.proxy c).registeredMsgIDs
        have still (before : (m.proxy c).registeredMsgIDs.Nodup) :=
          grown.nodup_iff.mpr (List.nodup_cons.mpr ⟨new, before⟩)
        refine wp_mono ih ?_ ?_
        · rintro inserted _ ⟨registered, rfl, perm, nodup⟩
          rw [proxy_setProxy] at perm nodup
          refine ⟨registered, by simp [setRegistered], ?_, nodup ∘ still⟩
          exact perm.trans ((List.Perm.append_left _ grown).trans List.perm_middle)
        · rintro e _ ⟨error, reserved, registered, rfl, nodup, -⟩
          rw [proxy_setProxy] at nodup
          have reserved := List.mem_cons_of_mem msgID reserved
          refine ⟨error, reserved, registered, by simp [setRegistered], nodup ∘ still, fun whole => ?_⟩
          exact absurd (whole reserved msgID (head ▸ List.mem_cons_self)) new

theorem wp_deregisterMsgIDs (msgIDs : List UInt32) : wp (deregisterMsgIDs c msgIDs) m
    (fun erased m' => ∃ registered, m' = m.setRegistered c registered ∧
      (m.proxy c).registeredMsgIDs.Perm (erased ++ registered))
    (fun _ _ => False) := by
  induction msgIDs generalizing m with
  | nil => exact ⟨_, (setProxy_self m c).symm, .refl _⟩
  | cons msgID msgIDs ih =>
    simp only [deregisterMsgIDs, wp_bind, wp_getProxy, wp_ite, wp_modifyProxy, wp_pure]
    split
    · rename_i known
      refine wp_mono ih ?_ fun _ _ => id
      rintro erased _ ⟨registered, rfl, perm⟩
      rw [proxy_setProxy] at perm
      refine ⟨registered, by simp [setRegistered], ?_⟩
      exact (List.perm_cons_erase known).trans (perm.cons msgID)
    · exact ih

/-! ## The current registrations -/

/-- Only what matters to `obs` of a changed proxy. -/
theorem announced_setProxy {p : ClientProxy}
    (registered : p.registeredMsgIDs = (m.proxy c).registeredMsgIDs)
    (told : m.Told obs (m.setProxy c p) log) : m.Announced obs (m.setProxy c p) log :=
  ⟨told, rfl, fun x => congrFun (inner_setProxy (·.registeredMsgIDs) registered) x⟩

/-- The socket takes a write for whatever client. -/
theorem announced_write (fd : Nat) (sent : Sent) : m.Announced obs
    (m.setProxy fd ((m.proxy fd).wrote sent)) (heard obs fd [sent]) := by
  refine announced_setProxy rfl ?_
  unfold heard
  by_cases here : fd = obs
  · subst here
    rw [if_pos rfl]
    exact told_setProxy rfl rfl (Nat.le_succ _) id fun _ => ⟨[sent], rfl, rfl⟩
  · rw [if_neg here]
    exact .of_same (proxy_setProxy_of_ne _ (Ne.symm here) _)

/-- The socket refuses the write, and the client that wrote fails. -/
theorem announced_refusal (obs c : Nat) {p : ClientProxy}
    (same : p.registeredMsgIDs = (m.proxy c).registeredMsgIDs)
    (wants : p.wantRegistrations = (m.proxy c).wantRegistrations)
    (sock : p.sock.accepts = (m.proxy c).sock.accepts ∧ p.sock.out = (m.proxy c).sock.out)
    (attempts : (m.proxy c).sock.attempts ≤ p.sock.attempts)
    (failed : (m.proxy c).sendFailed = true → p.sendFailed = true) :
    m.Announced obs (m.setProxy c p) [] := by
  refine announced_setProxy same ?_
  by_cases here : c = obs
  · subst here
    exact told_setProxy wants sock.1 attempts failed fun _ => ⟨[], by rw [sock.2, List.append_nil], rfl⟩
  · exact .of_same (proxy_setProxy_of_ne _ (Ne.symm here) _)

/-- The writes to `obs` between two states were taken. -/
def Took (m : Manager) (obs : Nat) (m' : Manager) : Prop :=
  ∀ i < (m'.proxy obs).sock.attempts, (m.proxy obs).sock.attempts ≤ i →
    (m.proxy obs).sock.accepts i = true

instance (m : Manager) (obs : Nat) (m' : Manager) : Decidable (m.Took obs m') :=
  inferInstanceAs (Decidable (∀ i < _, _))

theorem Took.first (h : m.Took obs m'') (told : m'.Told obs m'' log) : m.Took obs m' :=
  fun i lt => h i (lt.trans_le told.attempts)

theorem Took.then (h : m.Took obs m'') (told : m.Told obs m' log) : m'.Took obs m'' :=
  fun i lt le => told.accepts ▸ h i lt (told.attempts.trans le)

/-- A write for another's socket is heard on that socket. If that takes what is
written, only a client that has failed is refused. -/
theorem wp_sendOn_announced (obs : Nat) {fd : Nat} (sent : Sent) : wp (sendOn c fd sent) m
    (fun _ m' => m.Announced obs m' (heard obs fd [sent]) ∧
      ∀ x, (m'.proxy x).sendFailed = (m.proxy x).sendFailed)
    (fun e m' => e ≠ .stuck ∧ m.Announced obs m' [] ∧
      (fd = obs → m.Took obs m' → m' = m ∧ (m.proxy c).sendFailed = true)) := by
  simp only [sendOn, wp_bind, wp_getProxy, wp_ite, wp_fail, wp_modifyProxy]
  split
  · rename_i failed
    exact ⟨by simp, (refl_of (Quiet obs) m).toAnnounced, fun _ _ => ⟨trivial, failed⟩⟩
  · split
    · exact ⟨announced_write fd sent, fun x => congrFun (inner_setProxy (·.sendFailed)
        (p := (m.proxy fd).wrote sent) rfl) x⟩
    · rename_i refused
      have tried := announced_refusal (m := m) obs fd (p := { m.proxy fd with
        sock := { (m.proxy fd).sock with attempts := (m.proxy fd).sock.attempts + 1 } })
        rfl rfl ⟨rfl, rfl⟩ (Nat.le_succ _) id
      have failed := announced_refusal (m := m.setProxy fd { m.proxy fd with
          sock := { (m.proxy fd).sock with attempts := (m.proxy fd).sock.attempts + 1 } })
        obs c (p := { Manager.proxy (m.setProxy fd { m.proxy fd with
          sock := { (m.proxy fd).sock with attempts := (m.proxy fd).sock.attempts + 1 } }) c with
          sendFailed := true }) rfl rfl ⟨rfl, rfl⟩ le_rfl fun _ => rfl
      refine ⟨by simp, tried.then failed, fun here took => ?_⟩
      subst here
      refine absurd (took _ (Nat.lt_of_lt_of_le ?_ failed.attempts) le_rfl) refused
      rw [proxy_setProxy]
      exact Nat.lt_succ_self _

theorem wp_sendRegistrationsLoop (obs : Nat) {fd : Nat} (cid gid : Int16)
    (messages : List (List UInt32)) :
    wp (sendRegistrationsLoop c fd cid gid messages) m
      (fun _ m' => ∃ sent, sent.Sublist messages ∧
        m.Announced obs m' (heard obs fd (registrations .registerList cid gid sent)) ∧
        (fd = obs → m.Took obs m' →
          (∀ x, (m'.proxy x).sendFailed = (m.proxy x).sendFailed) ∧
          ((m.proxy c).sendFailed = false → sent = messages)))
      (fun e _ => e = .stuck) := by
  induction messages generalizing m with
  | nil =>
    refine ⟨[], .refl _, ?_, fun _ _ => ⟨fun _ => rfl, fun _ => rfl⟩⟩
    rw [registrations, List.map_nil, heard_nil]
    exact (refl_of (Quiet obs) m).toAnnounced
  | cons msgIDs rest ih =>
    rw [sendRegistrationsLoop, wp_bind]
    refine wp_swallow.mpr (wp_mono (wp_sendOn_announced obs _) ?_ ?_)
    · rintro - m₁ ⟨first, flags⟩
      refine wp_mono ih ?_ (fun _ _ => id)
      rintro - m' ⟨sent, sublist, later, all⟩
      refine ⟨msgIDs :: sent, sublist.cons_cons _, ?_, fun here took => ?_⟩
      · rw [registrations, List.map_cons, ← List.singleton_append, heard_append]
        exact first.then later
      · obtain ⟨flags', all⟩ := all here (took.then first.toTold)
        exact ⟨fun x => (flags' x).trans (flags x), fun works => by rw [all ((flags c).trans works)]⟩
    · rintro e m₁ ⟨error, first, refused⟩
      cases e with
      | stuck => exact absurd rfl error
      | runtimeError what =>
        refine wp_mono ih ?_ (fun _ _ => id)
        rintro - m' ⟨sent, sublist, later, all⟩
        refine ⟨sent, sublist.cons _, first.then later, fun here took => ?_⟩
        obtain ⟨rfl, failed⟩ := refused here (took.first later.toTold)
        exact ⟨(all here took).1, fun works => absurd failed (Bool.eq_false_iff.mp works)⟩

theorem mem_heard_registrations {fd : Nat} {cid gid : Int16} {messages : List (List UInt32)}
    {n : Note Int16 UInt32} (mem : n ∈ heard obs fd (registrations .registerList cid gid messages)) :
    ∃ msgIDs ∈ messages, n = .add cid msgIDs := by
  unfold heard at mem
  split at mem
  · obtain ⟨sent, written, eq⟩ := List.mem_filterMap.mp mem
    obtain ⟨msgIDs, part, rfl⟩ := List.mem_map.mp written
    exact ⟨msgIDs, part, (Option.some.inj eq).symm⟩
  · cases mem

/-- What the writes to `obs` come to, of the clients that have not failed. -/
theorem wp_sendRegistrationsToFD (obs : Nat) {fd : Nat} (cs : List Nat) :
    wp (sendRegistrationsToFD fd cs) m
      (fun _ m' => ∃ log, m.Announced obs m' log ∧
        (∀ n ∈ log, ∃ c ∈ cs, ∃ msgIDs, n = .add (Int16.ofNat c) msgIDs ∧
          ∀ msgID ∈ msgIDs, msgID ∈ (m.proxy c).registeredMsgIDs) ∧
        (fd = obs → m.Took obs m' →
          (∀ c ∈ cs, (m.proxy c).registeredMsgIDs ≠ [] → (m.proxy c).sendFailed = false) →
          log = cs.flatMap fun c =>
            announce .registerList (Int16.ofNat c) (m.proxy c).registeredMsgIDs))
      (fun e _ => e = .stuck) := by
  induction cs generalizing m with
  | nil =>
    exact ⟨[], (refl_of (Quiet obs) m).toAnnounced, fun _ mem => (nomatch mem), fun _ _ _ => rfl⟩
  | cons c cs ih =>
    rw [sendRegistrationsToFD, wp_bind, wp_getProxy, wp_bind]
    refine wp_mono (wp_sendRegistrationsLoop obs _ _ _) ?_ (fun _ _ => id)
    rintro - m₁ ⟨sent, sublist, first, all⟩
    refine wp_mono ih ?_ (fun _ _ => id)
    rintro - m' ⟨log, later, adds, exactly⟩
    refine ⟨_, first.then later, fun n mem => ?_, fun here took works => ?_⟩
    · rcases List.mem_append.mp mem with mem | mem
      · obtain ⟨msgIDs, part, rfl⟩ := mem_heard_registrations mem
        refine ⟨c, List.mem_cons_self, msgIDs, rfl, fun id mem => ?_⟩
        rw [← flatten_regMessages (m.proxy c).registeredMsgIDs]
        exact List.mem_flatten_of_mem (sublist.subset part) mem
      · obtain ⟨x, live, msgIDs, rfl, known⟩ := adds n mem
        exact ⟨x, List.mem_cons_of_mem c live, msgIDs, rfl,
          fun id mem => first.registered x ▸ known id mem⟩
    · obtain ⟨flags, all⟩ := all here (took.first later.toTold)
      have every : sent = regMessages (m.proxy c).registeredMsgIDs := by
        by_cases nothing : (m.proxy c).registeredMsgIDs = []
        · rw [nothing] at sublist ⊢
          exact List.sublist_nil.mp sublist
        · exact all (works c List.mem_cons_self nothing)
      have rest := exactly here (took.then first.toTold) fun x live some => (flags x).trans
        (works x (List.mem_cons_of_mem c live) (first.registered x ▸ some))
      rw [rest, every, heard, if_pos here, filterMap_registrations, List.flatMap_cons]
      exact congrArg _ (List.flatMap_congr fun x _ => by rw [first.registered x])

/-! ## Neat registrations -/

/-- No message ID is registered twice, and who registers has a 16-bit ID. -/
structure Neat (m : Manager) : Prop where
  nodup : ∀ x, (m.proxy x).registeredMsgIDs.Nodup
  small : ∀ x, (m.proxy x).registeredMsgIDs ≠ [] → x < 2 ^ 15

theorem Neat.of_registered (h : m.Neat)
    (same : (fun x => (m'.proxy x).registeredMsgIDs) = fun x => (m.proxy x).registeredMsgIDs) :
    m'.Neat :=
  ⟨fun x => congrFun same x ▸ h.nodup x, fun x => congrFun same x ▸ h.small x⟩

theorem Neat.setRegistered (h : m.Neat) {registered : List UInt32} (nodup : registered.Nodup)
    (small : registered ≠ [] → c < 2 ^ 15) : (m.setRegistered c registered).Neat := by
  refine ⟨fun x => ?_, fun x => ?_⟩ <;> by_cases here : x = c
  · rwa [here, proxy_setProxy]
  · rw [proxy_setProxy_of_ne _ here]
    exact h.nodup x
  · rwa [here, proxy_setProxy]
  · rw [proxy_setProxy_of_ne _ here]
    exact h.small x

instance : Steady (Stays Neat) where
  inside same _ _ h := by
    simp only [settings, Prod.mk.injEq] at same
    exact h.of_registered (by rw [same.2.2.2.2.2.2])
  proxy same h := by
    simp only [ClientProxy.settings, Prod.mk.injEq] at same
    exact h.of_registered (inner_setProxy (·.registeredMsgIDs) same.2.2.2.2.2.2.1)

instance : Sending (Stays Neat) where
  sending _ _ h := h.of_registered (inner_setProxy (·.registeredMsgIDs) rfl)

instance : Reporting (Stays Neat) where
  reporting _ _ h := h.of_registered (inner_setProxy (·.registeredMsgIDs) rfl)
  dropped _ _ h := h.of_registered rfl

instance : Wanting (Stays Neat) where
  wanting _ h := h.of_registered (inner_setProxy (·.registeredMsgIDs) rfl)

instance : Ranking (Stays Neat) where
  ranking _ h := h.of_registered (inner_setProxy (·.registeredMsgIDs) rfl)

instance : Grouping (Stays Neat) where
  groups _ h := h.of_registered rfl
  member _ h := h.of_registered (inner_setProxy (·.registeredMsgIDs) rfl)

instance : Copying (Stays Neat) where
  blockInfo _ _ h := h.of_registered rfl

instance : Resizing (Stays Neat) where
  resized _ _ h := h.of_registered (inner_setProxy (·.registeredMsgIDs) rfl)

instance : Growing (Stays Neat) where
  buffers _ _ _ h := h.of_registered rfl
  granted _ _ h := h.of_registered (inner_setProxy (·.registeredMsgIDs) rfl)

instance (c : Nat) (gid : Int16) (messages : List (List UInt32)) :
    Moves (Stays Neat) (deregisterAllMsgIDs c gid messages) := by
  have dropped (n : Nat) : Moves (Stays Neat) (modifyProxy c fun p =>
      { p with registeredMsgIDs := p.registeredMsgIDs.drop n }) :=
    .modify fun m h => h.setRegistered ((h.nodup c).sublist (List.drop_sublist n _))
      fun some => h.small c fun none_before => some (by rw [none_before, List.drop_nil])
  induction messages with
  | nil => exact inferInstanceAs (Moves _ (pure _))
  | cons msgIDs rest ih =>
    unfold deregisterAllMsgIDs
    infer_instance

instance (c : Nat) (type : RegType) (cid gid : Int16) (msgIDs : List UInt32) :
    Moves (Stays Neat) (handleRegistration c type cid gid msgIDs) := .stays fun m h => by
  simp only [handleRegistration, wp_bind, wp_getProxy, wp_ite, wp_fail]
  split
  · exact h
  · rename_i same
    have small : c < 2 ^ 15 := by
      have lt := cid.toInt_lt
      rw [not_not.mp same] at lt
      exact_mod_cast lt
    split
    · exact h
    · cases type with
      | registerList =>
        rw [wp_bind]
        refine wp_mono (wp_registerMsgIDs msgIDs) ?_ ?_
        · rintro inserted _ ⟨registered, rfl, -, nodup⟩
          have now := h.setRegistered (nodup (h.nodup c)) fun _ => small
          exact Moves.wp_stays now
        · rintro e _ ⟨-, -, registered, rfl, nodup, -⟩
          exact h.setRegistered (nodup (h.nodup c)) fun _ => small
      | deregisterList =>
        rw [wp_bind]
        refine wp_mono (wp_deregisterMsgIDs msgIDs) ?_ fun _ _ => False.elim
        rintro erased _ ⟨registered, rfl, perm⟩
        have nodup := List.Nodup.of_append_right (perm.nodup_iff.mp (h.nodup c))
        have now := h.setRegistered nodup fun _ => small
        exact Moves.wp_stays now
      | registerAllMsgs => exact h

theorem handle_neat (c : Nat) (f : Frame) : Moves (Stays Neat) (f.handle c) := by
  apply Gentle.moves_handle
  case registration =>
    intro type cid gid msgIDs _
    infer_instance
  case wanted =>
    intro wantNew wantCurrent _
    infer_instance
  case level =>
    intro level _
    infer_instance

theorem wp_deleteClient_neat (h : m.Neat) (c : Nat) :
    wp (deleteClient c) m (fun _ => Neat) (fun _ _ => True) :=
  wp_deleteClient.mpr (wp_mono (Moves.wp_stays (h.of_registered rfl)) (fun _ _ => id)
    (fun _ _ _ => trivial))

theorem Neat.add (h : m.Neat) {p : ClientProxy} (nothing : p.registeredMsgIDs = []) :
    (m.setProxy c p).Neat := by
  refine ⟨fun x => ?_, fun x => ?_⟩ <;> by_cases here : x = c
  · rw [here, proxy_setProxy, nothing]
    exact List.nodup_nil
  · rw [proxy_setProxy_of_ne _ here]
    exact h.nodup x
  · rw [here, proxy_setProxy, nothing]
    exact fun some => absurd rfl some
  · rw [proxy_setProxy_of_ne _ here]
    exact h.small x

theorem wp_run_neat (h : m.Neat) (e : Event) : wp e.run m (fun _ => Neat) (fun _ _ => True) := by
  cases e with
  | connect addr accepts =>
    refine Gentle.wp_addConnectedClient (R := Stays Neat) h fun c next m' _ stays => ?_
    have now := stays (Neat.add (m := { m with nextNewClientID := next })
      (p := { clientID := c, addr, sock := { accepts } }) (h.of_registered rfl) rfl)
    exact ⟨now.of_registered rfl, now⟩
  | hangup c => exact wp_deleteClient_neat h c
  | frame c f =>
    have := handle_neat c f
    refine wp_run_frame.mpr (wp_mono (Moves.wp_stays h) (fun _ _ => id) ?_)
    rintro e m' h
    cases e with
    | runtimeError what => exact wp_deleteClient_neat h c
    | stuck => trivial

theorem neat_of_run {params : Params} {ok : History → Manager → Event → Prop} {hist : History}
    (run : Run params ok hist m) : m.Neat := by
  induction run with
  | start first =>
    refine start_eq_some (E := fun _ _ => True) (fun sm _ => ?_) first
    refine wp_mono (Moves.wp_stays (P := Neat) ?_) (fun _ _ => id) (fun _ _ _ => trivial)
    exact ⟨fun _ => List.nodup_nil, fun _ some => absurd rfl some⟩
  | step _ _ _ stepped ih => exact step_eq_some (wp_run_neat ih _) stepped

end
end Manager
end Mcsb
