import Mcsb.Manager.Registrations

/-!
# Observers

A client that asks for the registrations there are and for the changes to come
knows what the clients are registered for. It hears of what is not so when a
list of message IDs is registered in part.
-/

namespace Mcsb
open Effect ChangeLog

set_option maxRecDepth 2000
set_option synthInstance.maxSize 10000

namespace Event

/-- No list of message IDs is registered in part. -/
def RegistersWhole (m : Manager) : Event → Prop
  | .frame c (.registration .registerList cid gid msgIDs) =>
    cid.toInt = c → gid = (m.proxy c).groupID → Whole msgIDs (m.proxy c).registeredMsgIDs
  | _ => True

instance (m : Manager) : DecidablePred (RegistersWhole m) := fun e => by
  unfold RegistersWhole
  split <;> infer_instance

/-- The client goes on wanting to know of registrations. -/
def StaysOn (obs : Nat) : Event → Prop
  | .frame c (.registrationsWanted false _) => c ≠ obs
  | _ => True

instance (obs : Nat) : DecidablePred (StaysOn obs) := fun e => by
  unfold StaysOn
  split <;> infer_instance

end Event

namespace Manager

/-- The registrations that client `obs` has heard of after its first `k` writes. -/
def observed (m : Manager) (obs k : Nat) : List (Note Int16 UInt32) :=
  ((m.proxy obs).sock.out.drop k).filterMap Sent.note?

/-- The log is legal and comes to what the clients are registered for. -/
structure LogCorrect (m : Manager) (obs k : Nat) : Prop where
  legal : Legal [] (m.observed obs k)
  table : ∀ p, p ∈ replay [] (m.observed obs k) ↔ m.Registered p

/-- The observer knows, unless its writes fail. -/
structure Watching (obs k : Nat) (m : Manager) : Prop where
  wants : (m.proxy obs).wantRegistrations = true
  knows : (m.proxy obs).sendFailed = false →
    k ≤ (m.proxy obs).sock.out.length ∧ m.LogCorrect obs k

section
variable {obs k c : Nat} {m m' m'' : Manager} {log : List (Note Int16 UInt32)}

/-- What else it hears keeps it up to date. -/
theorem Watching.told (h : m.Watching obs k) (told : m.Told obs m' log)
    (legal : ∀ t, (∀ p, p ∈ t ↔ m.Registered p) →
      Legal t log ∧ ∀ p, p ∈ replay t log ↔ m'.Registered p) : m'.Watching obs k := by
  refine ⟨told.wants.trans h.wants, fun works => ?_⟩
  obtain ⟨le, correct⟩ := h.knows (Bool.eq_false_iff.mpr fun failed =>
    Bool.eq_false_iff.mp works (told.failed failed))
  obtain ⟨sents, out, rfl⟩ := told.out works
  obtain ⟨legal, table⟩ := legal _ correct.table
  have more : m'.observed obs k = m.observed obs k ++ sents.filterMap Sent.note? := by
    rw [observed, out, List.drop_append_of_le_length le, List.filterMap_append]
    rfl
  refine ⟨?_, ?_, fun p => ?_⟩
  · rw [out, List.length_append]
    exact le.trans (Nat.le_add_right _ _)
  · rw [more]
    exact legal_append.mpr ⟨correct.legal, legal⟩
  · rw [more, replay_append]
    exact table p

theorem registered_congr (clients : m'.clients = m.clients)
    (registered : ∀ x ∈ m.clients, (m'.proxy x).registeredMsgIDs = (m.proxy x).registeredMsgIDs)
    (p : Int16 × UInt32) : m'.Registered p ↔ m.Registered p := by
  unfold Registered
  rw [clients]
  exact exists_congr fun x => and_congr_right fun live => by rw [registered x live]

/-- It hears again of what it knows. -/
theorem Watching.reminded (h : m.Watching obs k) (announced : m.Announced obs m' log)
    (adds : ∀ n ∈ log, ∃ c ∈ m.clients, ∃ msgIDs, n = .add (Int16.ofNat c) msgIDs ∧
      ∀ msgID ∈ msgIDs, msgID ∈ (m.proxy c).registeredMsgIDs) : m'.Watching obs k := by
  refine h.told announced.toTold fun t table => ?_
  have same := registered_congr announced.clients fun x _ => announced.registered x
  clear h announced
  induction log generalizing t with
  | nil => exact ⟨trivial, fun p => (table p).trans (same p).symm⟩
  | cons n log ih =>
    obtain ⟨c, live, msgIDs, rfl, known⟩ := adds n List.mem_cons_self
    obtain ⟨legal, table'⟩ := ih (fun n mem => adds n (List.mem_cons_of_mem _ mem))
      (Note.apply t (.add (Int16.ofNat c) msgIDs)) fun p => by
        refine (mem_replay_adds [msgIDs]).trans ?_
        rw [table p, List.flatten_singleton]
        refine or_iff_left_of_imp fun ⟨key, mem⟩ => ⟨c, live, key, known _ mem⟩
    exact ⟨⟨trivial, legal⟩, table'⟩

theorem Watching.quiet (h : m.Watching obs k) (quiet : m.Quiet obs m') : m'.Watching obs k :=
  h.reminded quiet.toAnnounced fun _ mem => nomatch mem

/-! ## What it hears of registrations -/

theorem told_setRegistered (obs c : Nat) (registered : List UInt32) :
    m.Told obs (m.setRegistered c registered) [] := by
  by_cases here : c = obs
  · subst here
    exact told_setProxy rfl rfl le_rfl id fun _ => ⟨[], (List.append_nil _).symm, rfl⟩
  · exact .of_same (proxy_setProxy_of_ne _ (Ne.symm here) _)

theorem registered_setRegistered (nodup : m.clients.Nodup) (live : c ∈ m.clients)
    (registered : List UInt32) (p : Int16 × UInt32) :
    (m.setRegistered c registered).Registered p ↔
      (p.1 = Int16.ofNat c ∧ p.2 ∈ registered) ∨
        ∃ x ∈ m.clients.erase c, p.1 = Int16.ofNat x ∧ p.2 ∈ (m.proxy x).registeredMsgIDs := by
  constructor
  · rintro ⟨x, mem, key, known⟩
    by_cases here : x = c
    · subst here
      rw [proxy_setProxy] at known
      exact .inl ⟨key, known⟩
    · rw [proxy_setProxy_of_ne _ here] at known
      exact .inr ⟨x, (List.mem_erase_of_ne here).mpr mem, key, known⟩
  · rintro (⟨key, known⟩ | ⟨x, mem, key, known⟩)
    · exact ⟨c, live, key, by rwa [proxy_setProxy]⟩
    · obtain ⟨ne, mem⟩ := nodup.mem_erase_iff.mp mem
      exact ⟨x, mem, key, by rwa [proxy_setProxy_of_ne _ ne]⟩

/-- The clients' keys are different, where they are registered for anything. -/
theorem Neat.ofNat_inj (neat : m.Neat) {x : Nat} {msgID msgID' : UInt32}
    (known : msgID ∈ (m.proxy x).registeredMsgIDs)
    (known' : msgID' ∈ (m.proxy c).registeredMsgIDs) (same : Int16.ofNat x = Int16.ofNat c) :
    x = c := by
  have small := neat.small x (List.ne_nil_of_mem known)
  have small' := neat.small c (List.ne_nil_of_mem known')
  have eq := congrArg Int16.toInt same
  rw [Int16.toInt_ofNat_of_lt small, Int16.toInt_ofNat_of_lt small'] at eq
  exact_mod_cast eq

theorem ofNat_of_toInt {cid : Int16} (same : cid.toInt = c) : cid = Int16.ofNat c := by
  have lt := cid.toInt_lt
  rw [same] at lt
  refine Int16.toInt_inj.mp ?_
  rw [Int16.toInt_ofNat_of_lt (by exact_mod_cast lt), same]

/-- What a client has newly registered is announced. -/
theorem Watching.registered (h : m.Watching obs k) (nodup : m.clients.Nodup) (live : c ∈ m.clients)
    {inserted registered : List UInt32}
    (perm : registered.Perm (inserted ++ (m.proxy c).registeredMsgIDs))
    (announced : Announced obs (m.setRegistered c registered) m'
      (announce .registerList (Int16.ofNat c) inserted)) : m'.Watching obs k := by
  refine h.told ((told_setRegistered obs c registered).then announced.toTold) fun t table => ?_
  rw [List.nil_append, announce]
  refine ⟨legal_adds _, fun p => ?_⟩
  have old := registered_setRegistered nodup live (m.proxy c).registeredMsgIDs p
  rw [setRegistered, setProxy_self] at old
  rw [mem_replay_adds, table, flatten_regMessages,
    registered_congr announced.clients fun x _ => announced.registered x,
    registered_setRegistered nodup live, perm.mem_iff, List.mem_append, old, or_right_comm,
    ← and_or_left, or_comm (b := p.2 ∈ inserted)]

/-- What a client is not registered for any more is announced. -/
theorem Watching.deregistered (h : m.Watching obs k) (neat : m.Neat) (nodup : m.clients.Nodup)
    (live : c ∈ m.clients) {erased registered : List UInt32}
    (perm : (m.proxy c).registeredMsgIDs.Perm (erased ++ registered))
    (announced : Announced obs (m.setRegistered c registered) m'
      (announce .deregisterList (Int16.ofNat c) erased)) : m'.Watching obs k := by
  refine h.told ((told_setRegistered obs c registered).then announced.toTold) fun t table => ?_
  have apart := List.nodup_append.mp (perm.nodup_iff.mp (neat.nodup c))
  have known {msgID : UInt32} : msgID ∈ (m.proxy c).registeredMsgIDs ↔
      msgID ∈ erased ∨ msgID ∈ registered := perm.mem_iff.trans List.mem_append
  rw [List.nil_append, announce]
  refine ⟨legal_removes (by rw [flatten_regMessages]; exact apart.1) fun msgID mem => ?_,
    fun p => ?_⟩
  · rw [flatten_regMessages] at mem
    exact (table _).mpr ⟨c, live, rfl, known.mpr (.inl mem)⟩
  · have old := registered_setRegistered nodup live (m.proxy c).registeredMsgIDs p
    rw [setRegistered, setProxy_self] at old
    rw [mem_replay_removes, table, flatten_regMessages,
      registered_congr announced.clients fun x _ => announced.registered x,
      registered_setRegistered nodup live, old, known]
    constructor
    · rintro ⟨⟨key, mem | mem⟩ | other, kept⟩
      · exact absurd ⟨key, mem⟩ kept
      · exact .inl ⟨key, mem⟩
      · exact .inr other
    · rintro (⟨key, mem⟩ | ⟨x, mem, key, mem'⟩)
      · exact ⟨.inl ⟨key, .inr mem⟩, fun gone => apart.2.2 p.2 gone.2 p.2 mem rfl⟩
      · refine ⟨.inr ⟨x, mem, key, mem'⟩, fun gone => ?_⟩
        have here := neat.ofNat_inj mem' (known.mpr (.inl gone.2)) (key.symm.trans gone.1)
        exact (nodup.mem_erase_iff.mp mem).1 here

theorem wp_handleRegistration_watching (h : m.Watching obs k) (neat : m.Neat)
    (nodup : m.clients.Nodup) (live : obs ∈ m.clients) (sender : c ∈ m.clients) {type : RegType}
    {cid gid : Int16} {msgIDs : List UInt32}
    (whole : (Event.frame c (.registration type cid gid msgIDs)).RegistersWhole m) :
    wp (handleRegistration c type cid gid msgIDs) m
      (fun _ m' => m'.Watching obs k ∧ m'.clients = m.clients)
      (fun e m' => e = .stuck ∨ m'.Watching obs k ∧ m'.clients = m.clients) := by
  simp only [handleRegistration, wp_bind, wp_getProxy, wp_ite, wp_fail]
  split
  · exact .inr ⟨h, trivial⟩
  · rename_i same
    have own := not_not.mp same
    obtain rfl := ofNat_of_toInt own
    split
    · exact .inr ⟨h, trivial⟩
    · rename_i group
      have want (registered : List UInt32) :=
        (told_setRegistered (m := m) obs c registered).wants.trans h.wants
      cases type with
      | registerList =>
        have whole := whole own (not_not.mp group)
        rw [wp_bind]
        refine wp_mono (wp_registerMsgIDs msgIDs) ?_ ?_
        · rintro inserted _ ⟨registered, rfl, perm, -⟩
          rw [wp_ite]
          split
          · rw [wp_bind, wp_get]
            refine wp_mono (wp_sendRegistration _ _ _ _ nodup live (want registered)) ?_ fun _ _ => .inl
            exact fun _ m' announced => ⟨h.registered nodup sender perm announced, announced.clients⟩
          · rename_i nothing
            rw [not_not.mp nothing] at perm
            exact ⟨h.registered nodup sender perm (refl_of (Quiet obs) _).toAnnounced, rfl⟩
        · rintro e _ ⟨-, -, registered, rfl, -, undone⟩
          rw [undone whole, setRegistered, setProxy_self]
          exact .inr ⟨h, rfl⟩
      | deregisterList =>
        rw [wp_bind]
        refine wp_mono (wp_deregisterMsgIDs msgIDs) ?_ fun _ _ => False.elim
        rintro erased _ ⟨registered, rfl, perm⟩
        rw [wp_ite]
        split
        · rw [wp_bind, wp_get]
          refine wp_mono (wp_sendRegistration _ _ _ _ nodup live (want registered)) ?_ fun _ _ => .inl
          exact fun _ m' announced =>
            ⟨h.deregistered neat nodup sender perm announced, announced.clients⟩
        · rename_i nothing
          rw [not_not.mp nothing] at perm
          exact ⟨h.deregistered neat nodup sender perm (refl_of (Quiet obs) _).toAnnounced, rfl⟩
      | registerAllMsgs => exact ⟨h, rfl⟩

/-! ## Events -/

theorem told_wants {wantRegistrations : Bool} (same : c = obs →
    wantRegistrations = (m.proxy obs).wantRegistrations) :
    m.Announced obs (m.setProxy c { m.proxy c with wantRegistrations }) [] := by
  refine announced_setProxy rfl ?_
  by_cases here : c = obs
  · subst here
    exact told_setProxy (same rfl) rfl le_rfl id fun _ => ⟨[], (List.append_nil _).symm, rfl⟩
  · exact .of_same (proxy_setProxy_of_ne _ (Ne.symm here) _)

theorem wp_handleRegistrationsWanted_watching (h : m.Watching obs k) {wantNew wantCurrent : Bool}
    (stays : (Event.frame c (.registrationsWanted wantNew wantCurrent)).StaysOn obs) :
    wp (handleRegistrationsWanted c wantNew wantCurrent) m
      (fun _ m' => m'.Watching obs k ∧ m'.clients = m.clients) (fun e _ => e = .stuck) := by
  rw [handleRegistrationsWanted, wp_bind, wp_modifyProxy]
  have on : c = obs → wantNew = (m.proxy obs).wantRegistrations := fun here => by
    rw [h.wants]
    by_contra off
    rw [Bool.not_eq_true] at off
    subst off
    exact stays here
  have asked := h.reminded (told_wants on) fun _ mem => nomatch mem
  rw [wp_ite]
  split
  · rw [wp_bind, wp_get]
    refine wp_mono (wp_sendRegistrationsToFD obs _) ?_ (fun _ _ => id)
    rintro - m' ⟨log, announced, adds, -⟩
    exact ⟨asked.reminded announced adds, announced.clients⟩
  · exact ⟨asked, rfl⟩

theorem wp_handle_watching (h : m.Watching obs k) (neat : m.Neat) (nodup : m.clients.Nodup)
    (live : obs ∈ m.clients) (sender : c ∈ m.clients) {f : Frame}
    (whole : (Event.frame c f).RegistersWhole m) (stays : (Event.frame c f).StaysOn obs) :
    wp (f.handle c) m (fun _ m' => m'.Watching obs k ∧ m'.clients = m.clients)
      (fun e m' => e = .stuck ∨ m'.Watching obs k ∧ m'.clients = m.clients) := by
  have quiet (x : Act Unit) [Moves (Quiet obs) x] :
      wp x m (fun _ m' => m'.Watching obs k ∧ m'.clients = m.clients)
        (fun e m' => e = .stuck ∨ m'.Watching obs k ∧ m'.clients = m.clients) :=
    wp_mono (Moves.moves (R := Quiet obs) m) (fun _ _ quiet => ⟨h.quiet quiet, quiet.clients⟩)
      (fun _ _ quiet => .inr ⟨h.quiet quiet, quiet.clients⟩)
  cases f with
  | blockIDs ids => exact quiet (handleBlockIDs c ids)
  | slabIDs ids => exact quiet (handleSlabIDs c ids)
  | blocksAndInfo segs => exact quiet (handleBlocksAndInfo c segs)
  | numSlabs prod cons ok => exact quiet (handleNumSlabs c prod cons ok)
  | registration type cid gid msgIDs =>
    exact wp_handleRegistration_watching h neat nodup live sender whole
  | registrationsWanted new current =>
    exact wp_mono (wp_handleRegistrationsWanted_watching h stays) (fun _ _ => id) fun _ _ => .inl
  | dropReportAck => exact quiet (handleDropReportAck c)
  | prodNiceLevel level =>
    exact quiet (modifyProxy c fun p => { p with prodNiceLevel := level.toInt.bmod (2 ^ 8) })
  | managerEcho bytes => exact quiet (sendCtrl c _)
  | sequenceToken token => exact quiet (sendCtrl c _)
  | groupID id => exact quiet (modifyProxy c fun p => { p with groupID := id })
  | groupIDStr str => exact quiet (handleGroupIDStr c str)
  | invalid => exact quiet (fail _)
  | ignored => exact quiet (pure ())

/-- What happens while a client that is gone is deregistered. -/
structure Forgotten (obs c : Nat) (m m' : Manager) (log : List (Note Int16 UInt32)) : Prop
    extends Told obs m m' log where
  clients : m'.clients = m.clients
  registered : ∀ x ∈ m.clients, (m'.proxy x).registeredMsgIDs = (m.proxy x).registeredMsgIDs

theorem wp_deregisterAllMsgIDs (gone : c ∉ m.clients) (live : obs ∈ m.clients)
    (nodup : m.clients.Nodup) (wants : (m.proxy obs).wantRegistrations = true) (gid : Int16)
    (messages : List (List UInt32)) :
    wp (deregisterAllMsgIDs c gid messages) m
      (fun _ m' => m.Forgotten obs c m'
        ((messages.flatMap regMessages).map (.remove (Int16.ofNat c))))
      (fun e _ => e = .stuck) := by
  induction messages generalizing m with
  | nil => exact ⟨.of_same rfl, rfl, fun _ _ => rfl⟩
  | cons msgIDs rest ih =>
    simp only [deregisterAllMsgIDs, wp_bind, wp_modifyProxy, wp_get]
    have told := told_setRegistered (m := m) obs c
      ((m.proxy c).registeredMsgIDs.drop msgIDs.length)
    refine wp_mono (wp_sendRegistration .deregisterList _ gid msgIDs nodup live
      (told.wants.trans wants)) (fun _ m₁ first => ?_) (fun _ _ => id)
    have clients : m₁.clients = m.clients := first.clients
    refine wp_mono (ih (clients ▸ gone) (clients ▸ live) (clients ▸ nodup)
      (first.wants.trans (told.wants.trans wants))) (fun _ m' later => ?_) (fun _ _ => id)
    refine ⟨?_, later.clients.trans clients, fun x mem => ?_⟩
    · rw [List.flatMap_cons, List.map_append]
      exact (told.then first.toTold).then later.toTold
    · rw [later.registered x (clients ▸ mem), first.registered x,
        proxy_setProxy_of_ne _ (ne_of_mem_of_not_mem mem gone)]

theorem flatten_flatMap_regMessages (messages : List (List UInt32)) :
    (messages.flatMap regMessages).flatten = messages.flatten := by
  induction messages with
  | nil => rfl
  | cons msgIDs rest ih => simp [ih]

/-- What is registered when a client has left. -/
theorem left_registered (neat : m.Neat) (nodup : m.clients.Nodup)
    (p : Int16 × UInt32) :
    m.Registered p ∧ ¬ (p.1 = Int16.ofNat c ∧ p.2 ∈ (m.proxy c).registeredMsgIDs) ↔
      ∃ x ∈ m.clients.erase c, p.1 = Int16.ofNat x ∧ p.2 ∈ (m.proxy x).registeredMsgIDs := by
  constructor
  · rintro ⟨⟨x, live, key, known⟩, kept⟩
    have ne : x ≠ c := fun here => kept (here ▸ ⟨key, known⟩)
    exact ⟨x, (List.mem_erase_of_ne ne).mpr live, key, known⟩
  · rintro ⟨x, mem, key, known⟩
    obtain ⟨ne, live⟩ := nodup.mem_erase_iff.mp mem
    exact ⟨⟨x, live, key, known⟩,
      fun gone => ne (neat.ofNat_inj known gone.2 (key.symm.trans gone.1))⟩

/-- A client leaves, and the observer hears that it is registered for nothing. -/
theorem wp_deleteClient_watching (h : m.Watching obs k) (neat : m.Neat) (nodup : m.clients.Nodup)
    (live : obs ∈ m.clients) (leaver : c ∈ m.clients) (other : c ≠ obs) :
    wp (deleteClient c) m (fun _ m' => m'.Watching obs k) (fun _ _ => True) := by
  rw [wp_deleteClient, destroyProxy_eq, wp_bind]
  generalize left : { m with clients := m.clients.erase c } = m₁
  have proxy : m₁.proxy = m.proxy := left ▸ rfl
  have clients : m₁.clients = m.clients.erase c := left ▸ rfl
  have live₁ : obs ∈ m₁.clients := clients ▸ (List.mem_erase_of_ne other.symm).mpr live
  refine wp_mono (Moves.moves (R := Quiet obs) m₁) (fun _ m₂ gave => ?_) (fun _ _ _ => trivial)
  have rest (m₃ : Manager) (quiet : m₁.Quiet obs m₃) (gid : Int16) :
      wp (swallow (deregisterAllMsgIDs c gid (regMessages (m₂.proxy c).registeredMsgIDs))) m₃
        (fun _ m' => m'.Watching obs k) (fun _ _ => True) := by
    have gone : c ∉ m₃.clients := by
      rw [quiet.clients, clients]
      exact nodup.not_mem_erase
    refine wp_swallow.mpr (wp_mono (wp_deregisterAllMsgIDs gone (quiet.clients ▸ live₁)
      (by rw [quiet.clients, clients]; exact nodup.erase c)
      (quiet.wants.trans (proxy ▸ h.wants)) gid _) (fun _ m' forgotten => ?_) ?_)
    · have told := ((Told.of_same (m := m) (by rw [proxy])).then quiet.toTold).then forgotten.toTold
      refine h.told told fun t table => ?_
      have registered : (m₂.proxy c).registeredMsgIDs = (m.proxy c).registeredMsgIDs :=
        (gave.registered c).trans (by rw [proxy])
      have flat : ((regMessages (m₂.proxy c).registeredMsgIDs).flatMap regMessages).flatten =
          (m.proxy c).registeredMsgIDs := by
        rw [flatten_flatMap_regMessages, flatten_regMessages, registered]
      refine ⟨legal_removes (flat ▸ neat.nodup c) fun msgID mem => ?_, fun p => ?_⟩
      · exact (table _).mpr ⟨c, leaver, rfl, flat ▸ mem⟩
      · refine (mem_replay_removes _).trans ?_
        rw [flat, table, left_registered neat nodup p]
        unfold Registered
        rw [forgotten.clients, quiet.clients, clients]
        refine exists_congr fun x => and_congr_right fun mem => ?_
        rw [forgotten.registered x (by rwa [quiet.clients, clients]), quiet.registered, proxy]
    · rintro e m' rfl
      trivial
  rw [giveUpGroup, wp_bind, wp_getProxy]
  dsimp only
  split
  · refine wp_bind.mpr (wp_mono (Moves.moves (R := Quiet obs) m₂) (fun _ m₃ dec => ?_)
      (fun _ _ _ => trivial))
    exact rest m₃ (trans_of (Quiet obs) gave dec) _
  · exact rest m₂ gave _

theorem wp_connect_watching (h : m.Watching obs k) (live : obs ∈ m.clients) (addr : Nat)
    (accepts : Nat → Bool) :
    wp (addConnectedClient addr accepts) m (fun _ m' => m'.Watching obs k) (fun _ _ => True) := by
  refine Gentle.wp_addConnectedClient (R := Quiet obs) h fun c next m' new quiet => ?_
  generalize fresh : Manager.setProxy { m with nextNewClientID := next } c
    { clientID := c, addr, sock := { accepts } } = m₁ at quiet
  have others (x : Nat) (mem : x ∈ m.clients) : m₁.proxy x = m.proxy x := by
    rw [← fresh, proxy_setProxy_of_ne _ (ne_of_mem_of_not_mem mem new)]
  have told := (Told.of_same (others obs live)).then quiet.toTold
  have clients : m'.clients = m.clients := quiet.clients.trans (by rw [← fresh]; rfl)
  have registered (x : Nat) (mem : x ∈ m.clients) :
      (m'.proxy x).registeredMsgIDs = (m.proxy x).registeredMsgIDs :=
    (quiet.registered x).trans (by rw [others x mem])
  have nothing : (m'.proxy c).registeredMsgIDs = [] :=
    (quiet.registered c).trans (by rw [← fresh, proxy_setProxy])
  have same := registered_congr clients registered
  have still : m'.Watching obs k := h.told told fun t table => ⟨trivial,
    fun p => (table p).trans (same p).symm⟩
  refine ⟨still.told (.of_same rfl) fun t table => ⟨trivial, fun p => (table p).trans ?_⟩, still⟩
  unfold Registered
  refine exists_congr fun x => ?_
  rw [(List.perm_orderedInsert _ c m'.clients).mem_iff, List.mem_cons]
  constructor
  · exact fun ⟨mem, known⟩ => ⟨.inr mem, known⟩
  · rintro ⟨rfl | mem, known⟩
    · rw [nothing] at known
      cases known.2
    · exact ⟨mem, known⟩

/-- The observer stays up to date, if it is still there afterwards. -/
theorem wp_deleteClient_still (h : m.Watching obs k) (neat : m.Neat) (nodup : m.clients.Nodup)
    (live : obs ∈ m.clients) (leaver : c ∈ m.clients) :
    wp (deleteClient c) m (fun _ m' => obs ∈ m'.clients → m'.Watching obs k) (fun _ _ => True) := by
  by_cases here : c = obs
  · subst here
    refine wp_mono (wp_deleteClient_isolates c m) (fun _ m' ⟨clients, _⟩ still => ?_) (fun _ _ => id)
    exact absurd (clients ▸ still) nodup.not_mem_erase
  · exact wp_mono (wp_deleteClient_watching h neat nodup live leaver here) (fun _ _ h _ => h)
      (fun _ _ => id)

theorem wp_run_watching {e : Event} (h : m.Watching obs k) (neat : m.Neat)
    (nodup : m.clients.Nodup) (live : obs ∈ m.clients) (enabled : e.Enabled m)
    (whole : e.RegistersWhole m) (stays : e.StaysOn obs) :
    wp e.run m (fun _ m' => obs ∈ m'.clients → m'.Watching obs k) (fun _ _ => True) := by
  cases e with
  | connect addr accepts =>
    exact wp_mono (wp_connect_watching h live addr accepts) (fun _ _ h _ => h) (fun _ _ => id)
  | hangup c => exact wp_deleteClient_still h neat nodup live enabled
  | frame c f =>
    have := handle_neat c f
    refine wp_run_frame.mpr (wp_mono (wp_and
      (wp_handle_watching h neat nodup live enabled whole stays) (Moves.wp_stays neat))
      (fun _ _ h _ => h.1.1) ?_)
    rintro e m₁ ⟨thrown, neat⟩
    cases e with
    | runtimeError what =>
      obtain ⟨h, clients⟩ := thrown.resolve_left nofun
      exact wp_deleteClient_still h neat (clients ▸ nodup) (clients ▸ live) (clients ▸ enabled)
    | stuck => trivial

/-- Every client that is registered for something can be written for. -/
def AllWork (m : Manager) : Prop :=
  ∀ c ∈ m.clients, (m.proxy c).registeredMsgIDs ≠ [] → (m.proxy c).sendFailed = false

/-- The runs in which client `obs` has asked for the current registrations and for
the changes, after `k` writes to it, got an answer and stayed. `asks` is about the
state it asked in and `ok` about what came later. -/
inductive Observed (params : Params) (asks : Manager → Prop) (ok : Manager → Event → Prop)
    (obs k : Nat) : History → Manager → Prop where
  | ask {hist m m'} : Run params (fun _ _ _ => True) hist m → obs ∈ m.clients →
      (m.proxy obs).sock.out.length = k → asks m →
      m.step (.frame obs (.registrationsWanted true true)) = some m' → m.Took obs m' →
      obs ∈ m'.clients →
      Observed params asks ok obs k ((m, .frame obs (.registrationsWanted true true)) :: hist) m'
  | step {hist m e m'} : Observed params asks ok obs k hist m → e.Enabled m → e.StaysOn obs →
      ok m e → m.step e = some m' → obs ∈ m'.clients →
      Observed params asks ok obs k ((m, e) :: hist) m'

theorem Observed.live {params : Params} {asks : Manager → Prop} {ok : Manager → Event → Prop}
    {hist : History} (run : Observed params asks ok obs k hist m) : obs ∈ m.clients := by
  cases run with
  | ask _ _ _ _ _ _ live => exact live
  | step _ _ _ _ _ live => exact live

theorem Observed.run {params : Params} {asks : Manager → Prop} {ok : Manager → Event → Prop}
    {hist : History} (run : Observed params asks ok obs k hist m) :
    Run params (fun _ _ _ => True) hist m := by
  induction run with
  | ask before live _ _ stepped _ _ => exact .step before live trivial stepped
  | step _ enabled _ _ stepped _ ih => exact .step ih enabled trivial stepped

theorem replay_registers (known : Nat → List UInt32) (cs : List Nat) (t : List (Int16 × UInt32)) :
    Legal t (cs.flatMap fun c => announce .registerList (Int16.ofNat c) (known c)) ∧
      ∀ p, p ∈ replay t (cs.flatMap fun c => announce .registerList (Int16.ofNat c) (known c)) ↔
        p ∈ t ∨ ∃ c ∈ cs, p.1 = Int16.ofNat c ∧ p.2 ∈ known c := by
  induction cs generalizing t with
  | nil => exact ⟨trivial, fun p => by simp [replay]⟩
  | cons c cs ih =>
    rw [List.flatMap_cons, announce]
    obtain ⟨legal, table⟩ := ih (replay t ((regMessages (known c)).map (.add (Int16.ofNat c))))
    refine ⟨legal_append.mpr ⟨legal_adds _, legal⟩, fun p => ?_⟩
    rw [replay_append, table, mem_replay_adds, flatten_regMessages, or_assoc]
    simp only [List.mem_cons, exists_eq_or_imp]

/-- The first registrations it hears of are the current ones. -/
theorem wp_ask (works : m.AllWork) : wp (handleRegistrationsWanted obs true true) m
    (fun _ m' => m.Took obs m' → m'.Watching obs (m.proxy obs).sock.out.length)
    (fun e _ => e = .stuck) := by
  rw [handleRegistrationsWanted, wp_bind, wp_modifyProxy, wp_ite, if_pos rfl, wp_bind, wp_get]
  generalize asked : m.setProxy obs { m.proxy obs with wantRegistrations := true } = m₁
  have registered (x : Nat) : (m₁.proxy x).registeredMsgIDs = (m.proxy x).registeredMsgIDs :=
    asked ▸ congrFun (inner_setProxy (p := { m.proxy obs with wantRegistrations := true })
      (·.registeredMsgIDs) rfl) x
  have failed (x : Nat) : (m₁.proxy x).sendFailed = (m.proxy x).sendFailed :=
    asked ▸ congrFun (inner_setProxy (p := { m.proxy obs with wantRegistrations := true })
      (·.sendFailed) rfl) x
  have sock : (m₁.proxy obs).sock = (m.proxy obs).sock := by rw [← asked, proxy_setProxy]
  have clients : m₁.clients = m.clients := asked ▸ rfl
  have wants : (m₁.proxy obs).wantRegistrations = true := by rw [← asked, proxy_setProxy]
  refine wp_mono (wp_sendRegistrationsToFD obs m₁.clients) ?_ (fun _ _ => id)
  rintro - m' ⟨log, announced, -, exactly⟩ took
  have exactly := exactly rfl (fun i lt le => sock ▸ took i lt (sock ▸ le)) fun c live some =>
    (failed c).trans (works c (clients ▸ live) (registered c ▸ some))
  refine ⟨announced.wants.trans wants, fun works => ?_⟩
  obtain ⟨sents, out, heard⟩ := announced.out works
  have new : m'.observed obs (m.proxy obs).sock.out.length = log := by
    rw [observed, out, sock, List.drop_left, heard]
  obtain ⟨legal, table⟩ := replay_registers (fun c => (m₁.proxy c).registeredMsgIDs) m₁.clients []
  rw [← exactly, ← new] at legal table
  refine ⟨?_, legal, fun p => ?_⟩
  · rw [out, sock, List.length_append]
    exact Nat.le_add_right _ _
  · rw [table, or_iff_right (List.not_mem_nil)]
    unfold Registered
    rw [announced.clients]
    exact exists_congr fun x => and_congr_right fun _ => by rw [announced.registered x]

/-- What an observer hears is what there is, as long as all writes to it succeed
and no list of message IDs is registered in part. -/
theorem log_correct {params : Params} {hist : History}
    (run : Observed params AllWork (fun m e => e.RegistersWhole m) obs k hist m)
    (works : (m.proxy obs).sendFailed = false) : m.LogCorrect obs k := by
  suffices m.Watching obs k from (this.knows works).2
  clear works
  induction run with
  | ask before live len works stepped took still =>
    subst len
    refine step_eq_some (Q := fun m' => Took _ obs m' → m'.Watching obs _) (E := fun _ _ => True)
      (wp_run_frame.mpr ?_) stepped took
    refine wp_mono (wp_ask works) (fun _ _ => id) ?_
    rintro e m' rfl
    trivial
  | step before enabled stays whole stepped still ih =>
    exact step_eq_some (wp_run_watching ih (neat_of_run before.run) (clients_nodup before.run)
      before.live enabled whole stays) stepped still

instance (m : Manager) : Decidable m.AllWork := inferInstanceAs (Decidable (∀ c ∈ m.clients, _))

/-- Two clients, of which the second is registered for a message. -/
def oneRegistered : List Event :=
  [.connect 1 fun _ => true, .connect 2 fun _ => true,
    .frame 1 (.registration .registerList 1 0 [7])]

/-- The first client asks, and then there is one more event. -/
def watches (next : Event) : Option (History × Manager × Manager × Manager) :=
  (trace fourSlabs (fun _ _ _ => True) oneRegistered).bind fun (hist, m) =>
    (m.step (.frame 0 (.registrationsWanted true true))).bind fun m' =>
      (m'.step next).map (hist, m, m', ·)

/-- The first client is there all the time, and its socket takes what is sent. -/
def Stays0 (next : Event) (m m' m'' : Manager) : Prop :=
  0 ∈ m.clients ∧ m.Took 0 m' ∧ 0 ∈ m'.clients ∧ next.Enabled m' ∧ next.StaysOn 0 ∧ 0 ∈ m''.clients

instance (next : Event) (m m' m'' : Manager) : Decidable (Stays0 next m m' m'') :=
  inferInstanceAs (Decidable (_ ∧ _))

theorem observed_of_watches {next : Event} {hist : History}
    (h : watches next = some (hist, m, m', m'')) (stays : Stays0 next m m' m'')
    {asks : Manager → Prop} {ok : Manager → Event → Prop} (first : asks m) (later : ok m' next) :
    ∃ hist, Observed fourSlabs asks ok 0 (m.proxy 0).sock.out.length hist m'' := by
  obtain ⟨⟨hist, m⟩, run, h⟩ := Option.bind_eq_some_iff.mp h
  obtain ⟨m', asked, h⟩ := Option.bind_eq_some_iff.mp h
  obtain ⟨m'', stepped, h⟩ := Option.map_eq_some_iff.mp h
  cases h
  obtain ⟨live, took, live', enabled, on, live''⟩ := stays
  exact ⟨_, .step (.ask (run_of_trace run) live rfl first asked took live') enabled on later
    stepped live''⟩

/-- The other client registers for one more message. -/
def registers8 : Event := .frame 1 (.registration .registerList 1 0 [8])

theorem log_correct_registers8 : ∃ hist m m' m'',
    watches registers8 = some (hist, m, m', m'') ∧
      m''.LogCorrect 0 (m.proxy 0).sock.out.length := by
  have ran : (watches registers8).any (fun (_, m, m', m'') => Stays0 registers8 m m' m'' ∧
      m.AllWork ∧ registers8.RegistersWhole m' ∧ (m''.proxy 0).sendFailed = false) = true := by
    decide +kernel
  obtain ⟨⟨hist, m, m', m''⟩, eq, facts⟩ := (Option.any_eq_true _ _).mp ran
  obtain ⟨stays, works, whole, connected⟩ := of_decide_eq_true facts
  obtain ⟨_, run⟩ := observed_of_watches eq stays works whole
  exact ⟨hist, m, m', m'', eq, log_correct run connected⟩

/-- The other client registers for a message and for the reserved ID, and is
deleted. -/
def registersReserved : Event :=
  .frame 1 (.registration .registerList 1 0 [8, kCCIMessageID])

/-- The observer hears that message 8 is deregistered, of which it did not know. -/
theorem not_log_correct : ¬ ∀ params obs k hist m,
    Observed params AllWork (fun _ _ => True) obs k hist m →
      (m.proxy obs).sendFailed = false → m.LogCorrect obs k := by
  intro all
  have ran : (watches registersReserved).any (fun (_, m, m', m'') =>
      Stays0 registersReserved m m' m'' ∧ m.AllWork ∧ (m''.proxy 0).sendFailed = false ∧
        ¬ Legal [] (m''.observed 0 (m.proxy 0).sock.out.length)) = true := by
    decide +kernel
  obtain ⟨⟨hist, m, m', m''⟩, eq, facts⟩ := (Option.any_eq_true _ _).mp ran
  obtain ⟨stays, works, connected, wrong⟩ := of_decide_eq_true facts
  obtain ⟨_, run⟩ := @observed_of_watches _ _ _ _ _ eq stays Manager.AllWork (fun _ _ => True) works trivial
  exact wrong (all _ _ _ _ _ run connected).legal

end
end Manager
end Mcsb
