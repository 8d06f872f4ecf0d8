import Mcsb.Manager.Registrations
import Mathlib.Data.Set.Basic

/-!
# Who is registered for what

A frame changes the registrations of the client that sent it, by what the frame
says, unless the client is deleted over it. No other event changes them.
-/

namespace Mcsb
open Effect

/-- What a client is registered for after such a list of message IDs. -/
def RegType.enrol (type : RegType) (msgIDs : List UInt32) (registered : Set UInt32) : Set UInt32 :=
  match type with
  | .registerList => registered ∪ {msgID | msgID ∈ msgIDs}
  | .deregisterList => registered \ {msgID | msgID ∈ msgIDs}
  | .registerAllMsgs => registered

/-- What a client is registered for after its frame is handled. -/
def Frame.enrol (f : Frame) (registered : Set UInt32) : Set UInt32 :=
  match f with
  | .registration type _ _ msgIDs => type.enrol msgIDs registered
  | _ => registered

namespace Manager

set_option maxRecDepth 2000
set_option synthInstance.maxSize 10000

/-- What a live client is registered for. -/
def registeredSet (m : Manager) (c : Nat) : Set UInt32 :=
  {msgID | msgID ∈ (m.proxy c).registeredMsgIDs}

/-- The clients, and what `c` is registered for. -/
abbrev seat (c : Nat) (m : Manager) : List Nat × List UInt32 :=
  (m.clients, (m.proxy c).registeredMsgIDs)

section
variable {m m' : Manager} {c d : Nat}

theorem clients_of_seat (same : Keeps (seat c) m m') : m'.clients = m.clients :=
  congrArg Prod.fst same

theorem set_of_seat (same : Keeps (seat c) m m') : m'.registeredSet c = m.registeredSet c :=
  congrArg (fun s : List Nat × List UInt32 => {msgID | msgID ∈ s.2}) same

theorem seat_setProxy {p : ClientProxy}
    (same : p.registeredMsgIDs = (m.proxy d).registeredMsgIDs) :
    Keeps (seat c) m (m.setProxy d p) := by
  have h := congrFun (inner_setProxy (·.registeredMsgIDs) same) c
  exact Prod.ext rfl h

instance : Steady (Keeps (seat c)) where
  inside same _ _ := by
    simp only [settings, Prod.mk.injEq] at same
    obtain ⟨-, clients, -, -, -, -, proxy⟩ := same
    exact Prod.ext clients (congrArg (fun f => (f c).registeredMsgIDs) proxy)
  proxy same := by
    simp only [ClientProxy.settings, Prod.mk.injEq] at same
    exact seat_setProxy same.2.2.2.2.2.2.1

instance : Sending (Keeps (seat c)) where
  sending _ _ := seat_setProxy rfl

instance : Reporting (Keeps (seat c)) where
  reporting _ _ := seat_setProxy rfl
  dropped _ _ := rfl

instance : Wanting (Keeps (seat c)) where
  wanting _ := seat_setProxy rfl

instance : Ranking (Keeps (seat c)) where
  ranking _ := seat_setProxy rfl

instance : Grouping (Keeps (seat c)) where
  groups _ := rfl
  member _ := seat_setProxy rfl

instance : Copying (Keeps (seat c)) where
  blockInfo _ _ := rfl

instance : Resizing (Keeps (seat c)) where
  resized _ _ := seat_setProxy rfl

instance : Growing (Keeps (seat c)) where
  buffers _ _ _ := rfl
  granted _ _ := seat_setProxy rfl

/-! ## The client itself -/

theorem wp_registerMsgIDs_mem (msgIDs : List UInt32) : wp (registerMsgIDs c msgIDs) m
    (fun _ m' => m'.clients = m.clients ∧
      m'.registeredSet c = m.registeredSet c ∪ {msgID | msgID ∈ msgIDs})
    (fun _ m' => m'.clients = m.clients) := by
  induction msgIDs generalizing m with
  | nil => exact ⟨rfl, by simp⟩
  | cons msgID msgIDs ih =>
    simp only [registerMsgIDs, wp_bind, wp_getProxy, wp_ite, wp_fail, wp_modifyProxy, wp_pure]
    split
    · trivial
    · split
      · rename_i known
        apply wp_mono ih
        · rintro _ m' ⟨clients, set⟩
          refine ⟨clients, set.trans ?_⟩
          ext x
          simp only [registeredSet, Set.mem_union, Set.mem_ofPred_eq, List.mem_cons]
          constructor
          · rintro (h | h)
            · exact .inl h
            · exact .inr (.inr h)
          · rintro (h | rfl | h)
            · exact .inl h
            · exact .inl known
            · exact .inr h
        · exact fun _ _ => id
      · apply wp_mono ih
        · rintro _ m' ⟨clients, set⟩
          refine ⟨clients, set.trans ?_⟩
          ext x
          simp only [registeredSet, proxy_setProxy, Set.mem_union, Set.mem_ofPred_eq,
            List.mem_orderedInsert, List.mem_cons]
          tauto
        · exact fun _ _ => id

theorem wp_deregisterMsgIDs_mem (nodup : (m.proxy c).registeredMsgIDs.Nodup)
    (msgIDs : List UInt32) : wp (deregisterMsgIDs c msgIDs) m
    (fun _ m' => m'.clients = m.clients ∧
      m'.registeredSet c = m.registeredSet c \ {msgID | msgID ∈ msgIDs})
    (fun _ m' => m'.clients = m.clients) := by
  induction msgIDs generalizing m with
  | nil => exact ⟨rfl, by simp⟩
  | cons msgID msgIDs ih =>
    simp only [deregisterMsgIDs, wp_bind, wp_getProxy, wp_ite, wp_modifyProxy, wp_pure]
    split
    · have erased : ((m.setRegistered c ((m.proxy c).registeredMsgIDs.erase msgID)).proxy
          c).registeredMsgIDs.Nodup := by
        rw [proxy_setProxy]
        exact nodup.erase msgID
      apply wp_mono (ih erased)
      · rintro _ m' ⟨clients, set⟩
        refine ⟨clients, set.trans ?_⟩
        ext x
        simp only [registeredSet, proxy_setProxy, Set.mem_sdiff, Set.mem_ofPred_eq, List.mem_cons,
          nodup.mem_erase_iff]
        tauto
      · exact fun _ _ => id
    · rename_i unknown
      apply wp_mono (ih nodup)
      · rintro _ m' ⟨clients, set⟩
        refine ⟨clients, set.trans ?_⟩
        ext x
        simp only [registeredSet, Set.mem_sdiff, Set.mem_ofPred_eq, List.mem_cons]
        constructor
        · rintro ⟨mem, kept⟩
          exact ⟨mem, fun h => h.elim (fun here => unknown (here ▸ mem)) kept⟩
        · rintro ⟨mem, kept⟩
          exact ⟨mem, fun h => kept (.inr h)⟩
      · exact fun _ _ => id

/-- What was done stays done while others are told. -/
theorem seat_kept {S : Set UInt32} {x : Act Unit} [Moves (Keeps (seat c)) x]
    (clients : m'.clients = m.clients) (set : m'.registeredSet c = S) :
    wp x m' (fun _ m'' => m''.clients = m.clients ∧ m''.registeredSet c = S)
      (fun _ m'' => m''.clients = m.clients) := by
  apply wp_mono (Moves.moves (R := Keeps (seat c)) m')
  · intro _ m'' same
    refine ⟨(clients_of_seat same).trans clients, Eq.trans ?_ set⟩
    exact set_of_seat same
  · intro _ m'' same
    exact (clients_of_seat same).trans clients

theorem wp_handleRegistration_own (nodup : (m.proxy c).registeredMsgIDs.Nodup) {type : RegType}
    {cid gid : Int16} {msgIDs : List UInt32} : wp (handleRegistration c type cid gid msgIDs) m
      (fun _ m' => m'.clients = m.clients ∧ m'.registeredSet c =
        (Frame.registration type cid gid msgIDs).enrol (m.registeredSet c))
      (fun _ m' => m'.clients = m.clients) := by
  simp only [handleRegistration, wp_bind, wp_getProxy, wp_ite, wp_fail]
  split
  · trivial
  · split
    · trivial
    · cases type with
      | registerList =>
        rw [wp_bind]
        apply wp_mono (wp_registerMsgIDs_mem msgIDs)
        · rintro inserted m' ⟨clients, set⟩
          exact seat_kept clients set
        · exact fun _ _ => id
      | deregisterList =>
        rw [wp_bind]
        apply wp_mono (wp_deregisterMsgIDs_mem nodup msgIDs)
        · rintro erased m' ⟨clients, set⟩
          exact seat_kept clients set
        · exact fun _ _ => id
      | registerAllMsgs => exact ⟨rfl, rfl⟩

theorem wp_handle_own (nodup : (m.proxy c).registeredMsgIDs.Nodup) (f : Frame) :
    wp (f.handle c) m
      (fun _ m' => m'.clients = m.clients ∧ m'.registeredSet c = f.enrol (m.registeredSet c))
      (fun _ m' => m'.clients = m.clients) := by
  by_cases registers : ∃ type cid gid msgIDs, f = .registration type cid gid msgIDs
  · obtain ⟨type, cid, gid, msgIDs, rfl⟩ := registers
    exact wp_handleRegistration_own nodup
  · have moves : Moves (Keeps (seat c)) (f.handle c) := Gentle.moves_handle
      (fun type cid gid msgIDs eq => absurd ⟨type, cid, gid, msgIDs, eq⟩ registers)
      (fun _ _ _ => inferInstance) (fun _ _ => inferInstance)
    have same : f.enrol (m.registeredSet c) = m.registeredSet c := by
      unfold Frame.enrol
      split
      · exact absurd ⟨_, _, _, _, rfl⟩ registers
      · rfl
    rw [same]
    exact seat_kept rfl rfl

/-! ## Another client -/

theorem seat_setRegistered (ne : d ≠ c) (registered : List UInt32) :
    Keeps (seat c) m (m.setRegistered d registered) :=
  Prod.ext rfl (congrArg ClientProxy.registeredMsgIDs (proxy_setProxy_of_ne m ne.symm _))

theorem moves_registering (ne : d ≠ c) (f : ClientProxy → List UInt32) :
    Moves (Keeps (seat c)) (modifyProxy d fun p => { p with registeredMsgIDs := f p }) :=
  .modify fun _ => seat_setRegistered ne _

theorem moves_handle_other (ne : d ≠ c) (f : Frame) : Moves (Keeps (seat c)) (f.handle d) := by
  apply Gentle.moves_handle
  · intro type cid gid msgIDs _
    have registering := moves_registering ne
    have registers (msgIDs : List UInt32) : Moves (Keeps (seat c)) (registerMsgIDs d msgIDs) := by
      induction msgIDs with
      | nil => exact inferInstanceAs (Moves _ (pure _))
      | cons msgID msgIDs ih =>
        unfold registerMsgIDs
        infer_instance
    have deregisters (msgIDs : List UInt32) :
        Moves (Keeps (seat c)) (deregisterMsgIDs d msgIDs) := by
      induction msgIDs with
      | nil => exact inferInstanceAs (Moves _ (pure _))
      | cons msgID msgIDs ih =>
        unfold deregisterMsgIDs
        infer_instance
    infer_instance
  · intro new current _
    infer_instance
  · intro level _
    infer_instance

theorem moves_destroyProxy_other (ne : d ≠ c) : Moves (Keeps (seat c)) (destroyProxy d) := by
  have registering := moves_registering ne
  have forgets (gid : Int16) (messages : List (List UInt32)) :
      Moves (Keeps (seat c)) (deregisterAllMsgIDs d gid messages) := by
    induction messages with
    | nil => exact inferInstanceAs (Moves _ (pure _))
    | cons msgIDs rest ih =>
      unfold deregisterAllMsgIDs
      infer_instance
  infer_instance

theorem wp_deleteClient_own (nodup : m.clients.Nodup) :
    wp (deleteClient c) m (fun _ m' => c ∉ m'.clients) (fun _ _ => True) := by
  have moves := moves_destroyProxy_other (Nat.succ_ne_self c).symm
  apply wp_deleteClient.mpr
  apply wp_mono (Moves.moves (R := Keeps (seat (c + 1))) _)
  · intro _ m' same
    rw [clients_of_seat same]
    exact nodup.not_mem_erase
  · exact fun _ _ _ => trivial

theorem wp_deleteClient_other (ne : d ≠ c) (live : c ∈ m.clients) :
    wp (deleteClient d) m (fun _ m' => c ∈ m'.clients ∧ m'.registeredSet c = m.registeredSet c)
      (fun _ _ => True) := by
  have moves := moves_destroyProxy_other ne
  apply wp_deleteClient.mpr
  apply wp_mono (Moves.moves (R := Keeps (seat c)) _)
  · intro _ m' same
    constructor
    · rw [clients_of_seat same]
      exact (List.mem_erase_of_ne ne.symm).mpr live
    · have set := set_of_seat same
      exact set
  · exact fun _ _ _ => trivial

/-- The client whose frame is handled has the registrations that the frame
leaves it with, or is deleted. -/
theorem step_own {f : Frame} (nodup : m.clients.Nodup) (neat : m.Neat)
    (stepped : m.step (.frame c f) = some m') :
    c ∉ m'.clients ∨ m'.registeredSet c = f.enrol (m.registeredSet c) := by
  refine step_eq_some
    (Q := fun m' => c ∉ m'.clients ∨ m'.registeredSet c = f.enrol (m.registeredSet c))
    (E := fun _ _ => True) (wp_run_frame.mpr ?_) stepped
  apply wp_mono (wp_handle_own (neat.nodup c) f)
  · rintro _ m' ⟨-, set⟩
    exact .inr set
  · intro e m' clients
    cases e with
    | runtimeError what =>
      apply wp_mono (wp_deleteClient_own (clients ▸ nodup))
      · exact fun _ _ gone => .inl gone
      · exact fun _ _ => id
    | stuck => trivial

theorem step_hangup (nodup : m.clients.Nodup) (stepped : m.step (.hangup c) = some m') :
    c ∉ m'.clients := by
  have deletes : wp (Event.hangup c).run m (fun _ m' => c ∉ m'.clients) (fun _ _ => True) :=
    wp_deleteClient_own nodup
  exact step_eq_some (Q := fun m' => c ∉ m'.clients) deletes stepped

/-- The event is not about client `c`. -/
def Spares (c : Nat) : Event → Prop
  | .connect _ _ => True
  | .hangup d => d ≠ c
  | .frame d _ => d ≠ c

theorem step_other {e : Event} (spares : Spares c e) (live : c ∈ m.clients)
    (stepped : m.step e = some m') :
    c ∈ m'.clients ∧ m'.registeredSet c = m.registeredSet c := by
  refine step_eq_some
    (Q := fun m' => c ∈ m'.clients ∧ m'.registeredSet c = m.registeredSet c)
    (E := fun _ _ => True) ?_ stepped
  cases e with
  | connect addr accepts =>
    apply Gentle.wp_addConnectedClient (R := Keeps (seat c)) ⟨live, rfl⟩
    intro d next m' new same
    have other : c ≠ d := fun here => new (here ▸ live)
    have set : m'.registeredSet c = m.registeredSet c := by
      refine (set_of_seat same).trans ?_
      rw [registeredSet, proxy_setProxy_of_ne _ other]
      rfl
    have still : c ∈ m'.clients := by
      rw [clients_of_seat same]
      exact live
    exact ⟨⟨(List.mem_orderedInsert ..).mpr (.inr still), set⟩, still, set⟩
  | hangup d => exact wp_deleteClient_other spares live
  | frame d f =>
    have moves := moves_handle_other spares f
    apply wp_run_frame.mpr
    apply wp_mono (Moves.moves (R := Keeps (seat c)) m)
    · intro _ m' same
      constructor
      · rw [clients_of_seat same]
        exact live
      · exact set_of_seat same
    · intro e m' same
      cases e with
      | runtimeError what =>
        have live : c ∈ m'.clients := by
          rw [clients_of_seat same]
          exact live
        apply wp_mono (wp_deleteClient_other spares live)
        · rintro _ m'' ⟨live, set⟩
          exact ⟨live, set.trans
            (set_of_seat same)⟩
        · exact fun _ _ => id
      | stuck => trivial

/-- A new client is registered for nothing. -/
theorem step_new {addr : Nat} {accepts : Nat → Bool} (new : c ∉ m.clients)
    (stepped : m.step (.connect addr accepts) = some m') (live : c ∈ m'.clients) :
    m'.registeredSet c = ∅ := by
  revert live
  refine step_eq_some (Q := fun m' => c ∈ m'.clients → m'.registeredSet c = ∅)
    (E := fun _ _ => True) ?_ stepped
  apply Gentle.wp_addConnectedClient (R := Quiet c)
  · exact fun live => absurd live new
  · intro d next m' _ quiet
    have clients : m'.clients = m.clients := quiet.clients
    constructor
    · intro live
      rcases (List.mem_orderedInsert ..).mp live with rfl | before
      · have nothing := quiet.registered c
        rw [proxy_setProxy] at nothing
        simp [registeredSet, nothing]
      · exact absurd (clients ▸ before) new
    · exact fun live => absurd (clients ▸ live) new

end
end Manager
end Mcsb
