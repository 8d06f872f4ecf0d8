import Mcsb.Manager.Reservation

/-!
# Whose socket fails whom

A proxy that fails has had a write refused on its own socket, except when the
registrations of all proxies are dumped on the socket of one.
-/

namespace Mcsb
open Effect

set_option maxRecDepth 2000
set_option synthInstance.maxSize 10000

/-- The later proxy has failed only if the earlier had, or if its own socket
refused a write in between. -/
structure ClientProxy.FailsAlone (p p' : ClientProxy) : Prop where
  accepts : p'.sock.accepts = p.sock.accepts
  attempts : p.sock.attempts ≤ p'.sock.attempts
  own : p'.sendFailed = true → p.sendFailed = true ∨
    ∃ i, p.sock.attempts ≤ i ∧ i < p'.sock.attempts ∧ p.sock.accepts i = false

theorem ClientProxy.FailsAlone.refl (p : ClientProxy) : p.FailsAlone p := ⟨rfl, le_rfl, .inl⟩

theorem ClientProxy.FailsAlone.trans {p q r : ClientProxy} (h : p.FailsAlone q)
    (h' : q.FailsAlone r) : p.FailsAlone r := by
  refine ⟨h'.accepts.trans h.accepts, h.attempts.trans h'.attempts, fun failed => ?_⟩
  rcases h'.own failed with before | ⟨i, from_, until_, refused⟩
  · rcases h.own before with first | ⟨i, from_, until_, refused⟩
    · exact .inl first
    · exact .inr ⟨i, from_, until_.trans_le h'.attempts, refused⟩
  · exact .inr ⟨i, h.attempts.trans from_, until_, by rw [← h.accepts, refused]⟩

/-- Every proxy fails alone, and no client comes or goes. -/
structure Manager.Isolates (m m' : Manager) : Prop where
  clients : m'.clients = m.clients
  proxies : ∀ c, (m.proxy c).FailsAlone (m'.proxy c)

instance : IsPreorder Manager Manager.Isolates where
  refl _ := ⟨rfl, fun _ => .refl _⟩
  trans _ _ _ h h' := ⟨h'.clients.trans h.clients, fun c => (h.proxies c).trans (h'.proxies c)⟩

theorem Manager.Isolates.of_eq {m m' : Manager} (clients : m'.clients = m.clients)
    (same : m'.proxy = m.proxy) : m.Isolates m' :=
  ⟨clients, fun _ => same ▸ .refl _⟩

theorem Manager.Isolates.setProxy {m : Manager} {c : Nat} {p : ClientProxy}
    (h : (m.proxy c).FailsAlone p) : m.Isolates (m.setProxy c p) := by
  refine ⟨rfl, fun x => ?_⟩
  by_cases here : x = c
  · rw [here, proxy_setProxy]
    exact h
  · rw [m.proxy_setProxy_of_ne here]
    exact .refl _

instance : Routine Manager.Isolates where
  inside same _ := .of_eq (congrArg (·.2.1) same) (congrArg (·.2.2.2.2.2) same)
  proxy same := by
    simp only [ClientProxy.public, Prod.mk.injEq] at same
    obtain ⟨-, -, sock, failed, -⟩ := same
    exact .setProxy ⟨by rw [sock], by rw [sock], by rw [failed]; exact .inl⟩
  wrote _ working _ := .setProxy ⟨rfl, Nat.le_succ _, .inl⟩
  failed _ refused := .setProxy ⟨rfl, Nat.le_succ _,
    fun _ => .inr ⟨_, le_rfl, Nat.lt_succ_self _, refused⟩⟩

instance : Copying Manager.Isolates where
  blockInfo _ _ := .of_eq rfl rfl

instance : Growing Manager.Isolates where
  buffers _ _ _ := .of_eq rfl rfl
  granted _ _ := .setProxy ⟨rfl, le_rfl, .inl⟩

namespace Manager

/-! ## A dump of registrations -/

/-- The writes that a dump of `n` messages makes when the next write is the
`i`-th: it goes on up to the first one refused. -/
def dumpWrites (accepts : Nat → Bool) : Nat → Nat → Nat
  | _, 0 => 0
  | i, n + 1 => if accepts i then dumpWrites accepts (i + 1) n + 1 else 1

def dumpLands (accepts : Nat → Bool) (i n : Nat) : Prop := ∀ k < n, accepts (i + k) = true

instance (accepts : Nat → Bool) (i n : Nat) : Decidable (dumpLands accepts i n) :=
  inferInstanceAs (Decidable (∀ _, _))

theorem dumpLands_succ {accepts : Nat → Bool} {i n : Nat} :
    dumpLands accepts i (n + 1) ↔ accepts i = true ∧ dumpLands accepts (i + 1) n := by
  unfold dumpLands
  rw [Nat.forall_lt_succ_left]
  simp only [Nat.add_zero, Nat.add_assoc, Nat.add_comm 1]

/-- The messages in which the registrations of a client are dumped. -/
def dumpSize (m : Manager) (c : Nat) : Nat := (regMessages (m.proxy c).registeredMsgIDs).length

/-- Of the clients whose registrations go to the socket of `fd`, where the next
write is the `i`-th, none but `fd` itself has a write refused. -/
def DumpsLand (m : Manager) (fd : Nat) : Nat → List Nat → Prop
  | _, [] => True
  | i, c :: cs =>
    if (m.proxy c).sendFailed then m.DumpsLand fd i cs
    else
      (c = fd ∨ dumpLands (m.proxy fd).sock.accepts i (m.dumpSize c)) ∧
        m.DumpsLand fd (i + dumpWrites (m.proxy fd).sock.accepts i (m.dumpSize c)) cs

/-- What the dump of client `c` in `n` messages to the socket of `fd` changes. -/
structure Dumped (m m' : Manager) (c fd n : Nat) : Prop where
  clients : m'.clients = m.clients
  registered : ∀ x, (m'.proxy x).registeredMsgIDs = (m.proxy x).registeredMsgIDs
  accepts : ∀ x, (m'.proxy x).sock.accepts = (m.proxy x).sock.accepts
  attempts : ∀ x, (m'.proxy x).sock.attempts = (m.proxy x).sock.attempts +
    if x = fd ∧ (m.proxy c).sendFailed = false then
      dumpWrites (m.proxy fd).sock.accepts (m.proxy fd).sock.attempts n
    else 0
  failed : ∀ x, (m'.proxy x).sendFailed = true ↔ (m.proxy x).sendFailed = true ∨
    x = c ∧ ¬ dumpLands (m.proxy fd).sock.accepts (m.proxy fd).sock.attempts n

theorem dumpLands_one {accepts : Nat → Bool} {i : Nat} :
    dumpLands accepts i 1 ↔ accepts i = true := by
  simp [dumpLands]

theorem dumped_sendOn (c fd : Nat) (sent : Sent) (m : Manager) :
    wp (swallow (sendOn c fd sent)) m (fun _ m' => m.Dumped m' c fd 1) (fun _ _ => False) := by
  simp only [wp_swallow, sendOn, wp_bind, wp_getProxy, wp_ite, wp_fail, wp_modifyProxy]
  have one : dumpWrites (m.proxy fd).sock.accepts (m.proxy fd).sock.attempts 1 = 1 := by
    simp [dumpWrites]
  by_cases failed : (m.proxy c).sendFailed = true
  · rw [if_pos failed]
    refine ⟨rfl, fun _ => rfl, fun _ => rfl, fun x => by simp [failed], fun x => ?_⟩
    exact ⟨.inl, fun h => h.elim id fun wrote => wrote.1 ▸ failed⟩
  · rw [if_neg failed]
    by_cases accepts : (m.proxy fd).sock.accepts (m.proxy fd).sock.attempts = true
    · rw [if_pos accepts]
      refine ⟨rfl, fun x => ?_, fun x => ?_, fun x => ?_, fun x => ?_⟩
      all_goals
        by_cases here : x = fd
        · subst here
          simp [failed, one, dumpLands_one, accepts]
        · simp [m.proxy_setProxy_of_ne here, here, dumpLands_one, accepts]
    · rw [if_neg accepts]
      refine ⟨rfl, fun x => ?_, fun x => ?_, fun x => ?_, fun x => ?_⟩
      all_goals
        by_cases own : x = c
        · subst own
          by_cases here : x = fd
          · subst here
            simp [failed, one, dumpLands_one, accepts]
          · simp [m.proxy_setProxy_of_ne here, here, dumpLands_one, accepts]
        · rw [proxy_setProxy_of_ne _ own]
          by_cases here : x = fd
          · subst here
            simp [failed, one, own]
          · simp [m.proxy_setProxy_of_ne here, here, own]

/-- One message after the other is the dump of all. -/
theorem Dumped.cons {m m₁ m' : Manager} {c fd n : Nat} (first : m.Dumped m₁ c fd 1)
    (rest : m₁.Dumped m' c fd n) : m.Dumped m' c fd (n + 1) := by
  have failed : (m₁.proxy c).sendFailed = true ↔ (m.proxy c).sendFailed = true ∨
      ¬ (m.proxy fd).sock.accepts (m.proxy fd).sock.attempts = true := by
    rw [first.failed, dumpLands_one]
    tauto
  have one : dumpWrites (m.proxy fd).sock.accepts (m.proxy fd).sock.attempts 1 = 1 := by
    simp [dumpWrites]
  have next : (m₁.proxy fd).sock.attempts = (m.proxy fd).sock.attempts +
      if (m.proxy c).sendFailed = false then 1 else 0 := by
    rw [first.attempts, one]
    simp
  refine ⟨rest.clients.trans first.clients, fun x => (rest.registered x).trans (first.registered x),
    fun x => (rest.accepts x).trans (first.accepts x), fun x => ?_, fun x => ?_⟩
  · rw [rest.attempts, first.attempts, first.accepts, next, one]
    by_cases before : (m.proxy c).sendFailed = true
    · simp [before, failed]
    · by_cases accepts : (m.proxy fd).sock.accepts (m.proxy fd).sock.attempts = true
      · have now : (m₁.proxy c).sendFailed = false :=
          Bool.eq_false_iff.mpr fun h => (failed.mp h).elim before (· accepts)
        by_cases here : x = fd
        · simp [here, before, now, accepts, dumpWrites, Nat.add_assoc, Nat.add_comm 1]
        · simp [here]
      · have now : (m₁.proxy c).sendFailed = true := failed.mpr (.inr accepts)
        by_cases here : x = fd
        · simp [here, before, now, accepts, dumpWrites]
        · simp [here]
  · rw [rest.failed, first.failed, first.accepts, next, dumpLands_one, dumpLands_succ]
    by_cases before : (m.proxy c).sendFailed = true
    · by_cases own : x = c
      · simp [own, before]
      · simp [own]
    · rw [if_pos (Bool.eq_false_iff.mpr before)]
      tauto

theorem dumped_loop (c fd : Nat) (cid gid : Int16) (messages : List (List UInt32)) (m : Manager) :
    wp (sendRegistrationsLoop c fd cid gid messages) m
      (fun _ m' => m.Dumped m' c fd messages.length) (fun _ _ => False) := by
  induction messages generalizing m with
  | nil =>
    exact ⟨rfl, fun _ => rfl, fun _ => rfl, fun x => by simp [dumpWrites],
      fun x => by simp [dumpLands]⟩
  | cons msgIDs rest ih =>
    exact wp_bind.mpr (wp_mono (dumped_sendOn c fd _ m)
      (fun _ m₁ first => wp_mono (ih m₁) (fun _ _ => first.cons) (fun _ _ => id)) (fun _ _ => id))

/-- The condition on the rest of the clients does not depend on a dump of
another's registrations. -/
theorem DumpsLand.congr {m m' : Manager} {fd : Nat} {cs : List Nat}
    (registered : ∀ x, (m'.proxy x).registeredMsgIDs = (m.proxy x).registeredMsgIDs)
    (accepts : (m'.proxy fd).sock.accepts = (m.proxy fd).sock.accepts)
    (failed : ∀ x ∈ cs, (m'.proxy x).sendFailed = (m.proxy x).sendFailed) (i : Nat) :
    m'.DumpsLand fd i cs ↔ m.DumpsLand fd i cs := by
  induction cs generalizing i with
  | nil => rfl
  | cons c cs ih =>
    have size : m'.dumpSize c = m.dumpSize c := by rw [dumpSize, dumpSize, registered]
    have rest := ih fun x mem => failed x (List.mem_cons_of_mem c mem)
    simp only [DumpsLand, failed c List.mem_cons_self, size, accepts, rest]

theorem refused_of_not_dumpLands {accepts : Nat → Bool} {i n : Nat}
    (h : ¬ dumpLands accepts i n) :
    ∃ j, i ≤ j ∧ j < i + dumpWrites accepts i n ∧ accepts j = false := by
  induction n generalizing i with
  | zero => exact absurd (fun k lt => absurd lt (Nat.not_lt_zero k)) h
  | succ n ih =>
    rw [dumpLands_succ] at h
    by_cases here : accepts i = true
    · obtain ⟨j, le, lt, refused⟩ := ih fun rest => h ⟨here, rest⟩
      rw [dumpWrites, if_pos here]
      exact ⟨j, by omega, by omega, refused⟩
    · rw [dumpWrites, if_neg here]
      exact ⟨i, le_rfl, Nat.lt_succ_self i, Bool.eq_false_iff.mpr here⟩

theorem Dumped.failsAlone {m m' : Manager} {c fd n : Nat} (h : m.Dumped m' c fd n) :
    (m.proxy fd).FailsAlone (m'.proxy fd) := by
  refine ⟨h.accepts fd, by rw [h.attempts]; exact Nat.le_add_right _ _, fun failed => ?_⟩
  by_cases before : (m.proxy fd).sendFailed = true
  · exact .inl before
  · obtain ⟨rfl, refused⟩ := ((h.failed fd).mp failed).resolve_left before
    rw [h.attempts, if_pos ⟨rfl, Bool.eq_false_iff.mpr before⟩]
    exact .inr (refused_of_not_dumpLands refused)

/-- What the dumps of clients `cs` to the socket of `fd` leave alone. -/
structure AllDumped (m m' : Manager) (fd : Nat) (cs : List Nat) : Prop where
  clients : m'.clients = m.clients
  accepts : ∀ x, (m'.proxy x).sock.accepts = (m.proxy x).sock.accepts
  attempts : ∀ x ≠ fd, (m'.proxy x).sock.attempts = (m.proxy x).sock.attempts
  failed : ∀ x, (m.proxy x).sendFailed = true → (m'.proxy x).sendFailed = true
  others : ∀ x ∉ cs, (m'.proxy x).sendFailed = true → (m.proxy x).sendFailed = true
  self : (m.proxy fd).FailsAlone (m'.proxy fd)

theorem Dumped.allDumped {m m₁ m' : Manager} {c fd n : Nat} {cs : List Nat}
    (h : m.Dumped m₁ c fd n) (rest : m₁.AllDumped m' fd cs) : m.AllDumped m' fd (c :: cs) where
  clients := rest.clients.trans h.clients
  accepts x := (rest.accepts x).trans (h.accepts x)
  attempts x ne := by
    rw [rest.attempts x ne, h.attempts, if_neg fun both => ne both.1, Nat.add_zero]
  failed x before := rest.failed x ((h.failed x).mpr (.inl before))
  others x out failed := by
    rw [List.mem_cons, not_or] at out
    exact ((h.failed x).mp (rest.others x out.2 failed)).resolve_right fun both => out.1 both.1
  self := h.failsAlone.trans rest.self

/-- The dump of all clients fails none but the one whose socket it is, exactly
if every write of another's registrations is taken. -/
theorem dumped_all (fd : Nat) (cs : List Nat) (nodup : cs.Nodup) (m : Manager) :
    wp (sendRegistrationsToFD fd cs) m (fun _ m' => m.AllDumped m' fd cs ∧
      ((∀ x ≠ fd, (m'.proxy x).sendFailed = true → (m.proxy x).sendFailed = true) ↔
        m.DumpsLand fd (m.proxy fd).sock.attempts cs)) (fun _ _ => False) := by
  induction cs generalizing m with
  | nil =>
    exact ⟨⟨rfl, fun _ => rfl, fun _ _ => rfl, fun _ => id, fun _ _ => id, .refl _⟩,
      fun _ => trivial, fun _ _ _ => id⟩
  | cons c cs ih =>
    obtain ⟨notin, nodup⟩ := List.nodup_cons.mp nodup
    refine wp_bind.mpr (wp_getProxy.mpr (wp_bind.mpr ?_))
    refine wp_mono (dumped_loop c fd _ _ _ m) (fun _ m₁ first => ?_) (fun _ _ => id)
    refine wp_mono (ih nodup m₁) (fun _ m' ⟨rest, exactly⟩ => ?_) (fun _ _ => id)
    refine ⟨first.allDumped rest, ?_⟩
    have later (i : Nat) : m₁.DumpsLand fd i cs ↔ m.DumpsLand fd i cs := by
      refine DumpsLand.congr first.registered (first.accepts fd) (fun x mem => ?_) i
      have other : x ≠ c := fun e => notin (e ▸ mem)
      rw [Bool.eq_iff_iff, first.failed]
      tauto
    rw [later, first.attempts] at exactly
    rw [DumpsLand]
    by_cases before : (m.proxy c).sendFailed = true
    · rw [if_neg fun both => absurd before (Bool.eq_false_iff.mp both.2), Nat.add_zero] at exactly
      rw [if_pos before, ← exactly]
      refine forall₂_congr fun x _ => imp_congr_right fun _ => ?_
      rw [first.failed]
      refine ⟨.inl, fun h => h.elim id fun ⟨here, _⟩ => here ▸ before⟩
    · rw [if_pos ⟨rfl, Bool.eq_false_iff.mpr before⟩] at exactly
      rw [if_neg before]
      unfold dumpSize
      rw [← exactly]
      constructor
      · intro alone
        refine ⟨?_, fun x ne failed => (first.failed x).mpr (.inl (alone x ne failed))⟩
        by_contra bad
        rw [not_or] at bad
        exact before (alone c bad.1 (rest.failed c ((first.failed c).mpr (.inr ⟨rfl, bad.2⟩))))
      · rintro ⟨lands, alone⟩ x ne failed
        rcases (first.failed x).mp (alone x ne failed) with h | ⟨rfl, refused⟩
        · exact h
        · exact absurd (lands.resolve_left ne) refused

/-! ## Every event -/

/-- The flag of a client is up after an event only if it was before, or if a
write to its own socket was refused in the event. -/
def FailuresOwn (m m' : Manager) : Prop := ∀ c ∈ m'.clients, (m'.proxy c).sendFailed = true →
  (c ∈ m.clients ∧ (m.proxy c).sendFailed = true) ∨
    ∃ i, (c ∈ m.clients → (m.proxy c).sock.attempts ≤ i) ∧ i < (m'.proxy c).sock.attempts ∧
      (m'.proxy c).sock.accepts i = false

theorem FailuresOwn.of_failsAlone {m m' : Manager} (sub : ∀ c ∈ m'.clients, c ∈ m.clients)
    (h : ∀ c ∈ m'.clients, (m.proxy c).FailsAlone (m'.proxy c)) : m.FailuresOwn m' := by
  intro c live failed
  refine ((h c live).own failed).imp (fun before => ⟨sub c live, before⟩) ?_
  rintro ⟨i, le, lt, refused⟩
  exact ⟨i, fun _ => le, lt, by rw [(h c live).accepts, refused]⟩

/-- The deletion of a client is isolated. -/
theorem wp_deleteClient_isolates (c : Nat) (m : Manager) : wp (deleteClient c) m
    (fun _ m' => m'.clients = m.clients.erase c ∧ ∀ x, (m.proxy x).FailsAlone (m'.proxy x))
    (fun _ _ => True) :=
  wp_deleteClient.mpr (wp_mono (Moves.moves (R := Isolates) _)
    (fun _ _ h => ⟨h.clients, h.proxies⟩) (fun _ _ _ => trivial))

theorem wp_addConnectedClient_own (addr : Nat) (accepts : Nat → Bool) {m : Manager}
    (nodup : m.clients.Nodup) : wp (addConnectedClient addr accepts) m
      (fun _ m' => m.FailuresOwn m' ∧ m'.clients.Nodup) (fun _ _ => True) := by
  refine Gentle.wp_addConnectedClient (R := Isolates)
    (Q := fun m' => m.FailuresOwn m' ∧ m'.clients.Nodup)
    ⟨.of_failsAlone (fun _ => id) fun _ _ => .refl _, nodup⟩ fun c next m' new moved => ?_
  have old (x : Nat) (live : x ∈ m.clients) : (m.proxy x).FailsAlone (m'.proxy x) := by
    have other : x ≠ c := fun e => new (e ▸ live)
    have := moved.proxies x
    rwa [proxy_setProxy_of_ne _ other] at this
  have clients : m'.clients = m.clients := moved.clients
  have perm := m'.clients.perm_orderedInsert (· ≤ ·) c
  refine ⟨⟨fun x live failed => ?_, ?_⟩, ⟨.of_failsAlone (fun x mem => clients ▸ mem)
    fun x mem => old x (clients ▸ mem), clients ▸ nodup⟩⟩
  · rcases List.mem_cons.mp (perm.mem_iff.mp live) with rfl | mem
    · have fresh := moved.proxies x
      rw [proxy_setProxy] at fresh
      obtain ⟨i, -, lt, refused⟩ := (fresh.own failed).resolve_left Bool.false_ne_true
      exact .inr ⟨i, fun mem => absurd mem new, lt, by rw [fresh.accepts]; exact refused⟩
    · rw [clients] at mem
      refine ((old x mem).own failed).imp (fun before => ⟨mem, before⟩) ?_
      rintro ⟨i, le, lt, refused⟩
      exact ⟨i, fun _ => le, lt, by rw [(old x mem).accepts, refused]⟩
  · exact perm.nodup_iff.mpr (List.nodup_cons.mpr ⟨clients ▸ new, clients ▸ nodup⟩)

end Manager

/-- The event does not dump another's registrations on a socket that refuses them. -/
def Event.DumpsLand (m : Manager) : Event → Prop
  | .frame c (.registrationsWanted _ true) => m.DumpsLand c (m.proxy c).sock.attempts m.clients
  | _ => True

namespace Manager

theorem handle_isolates {c : Nat} {f : Frame} (other : ∀ w, f ≠ .registrationsWanted w true) :
    Moves Isolates (f.handle c) := by
  apply Gentle.moves_handle
  case registration =>
    intro type cid gid msgIDs _
    infer_instance
  case wanted =>
    intro wantNew wantCurrent isWanted
    cases wantCurrent with
    | true => exact absurd isWanted (other wantNew)
    | false => exact inferInstanceAs (Moves Isolates
        (modifyProxy c (fun p => { p with wantRegistrations := wantNew }) >>= fun _ => pure ()))
  case level =>
    intro level _
    infer_instance

/-- All but a dump of registrations is isolated. -/
theorem wp_run_own {m : Manager} {e : Event} (nodup : m.clients.Nodup)
    (other : ∀ c w, e ≠ .frame c (.registrationsWanted w true)) :
    wp e.run m (fun _ m' => m.FailuresOwn m' ∧ m'.clients.Nodup) (fun _ _ => True) := by
  have deleted (c : Nat) (m₁ : Manager) (before : m.Isolates m₁) : wp (deleteClient c) m₁
      (fun _ m' => m.FailuresOwn m' ∧ m'.clients.Nodup) (fun _ _ => True) := by
    refine wp_mono (wp_deleteClient_isolates c m₁) ?_ (fun _ _ => id)
    rintro - m' ⟨clients, alone⟩
    rw [before.clients] at clients
    exact ⟨.of_failsAlone (fun x mem => List.mem_of_mem_erase (clients ▸ mem))
      (fun x _ => (before.proxies x).trans (alone x)), clients ▸ nodup.erase c⟩
  cases e with
  | connect addr accepts => exact wp_addConnectedClient_own addr accepts nodup
  | hangup c => exact deleted c m (refl_of Isolates m)
  | frame c f =>
    have : Moves Isolates (f.handle c) := handle_isolates fun w same => other c w (same ▸ rfl)
    refine wp_run_frame.mpr (wp_mono (Moves.moves (R := Isolates) m) (fun _ m' h => ?_) ?_)
    · exact ⟨.of_failsAlone (fun x mem => h.clients ▸ mem) fun x _ => h.proxies x,
        h.clients ▸ nodup⟩
    · rintro e m' h
      cases e with
      | runtimeError what => exact deleted c m' h
      | stuck => trivial

/-- The dump of registrations that client `c` asked for. -/
theorem wp_run_dump {m : Manager} {c : Nat} (nodup : m.clients.Nodup) (wantNew : Bool) :
    wp (Event.run (.frame c (.registrationsWanted wantNew true))) m
      (fun _ m' => m'.clients = m.clients ∧
        (m.FailuresOwn m' ↔ m.DumpsLand c (m.proxy c).sock.attempts m.clients))
      (fun _ _ => True) := by
  refine wp_run_frame.mpr (wp_bind.mpr (wp_modifyProxy.mpr ?_))
  generalize wants : m.setProxy c { m.proxy c with wantRegistrations := wantNew } = m₁
  have same (x : Nat) : (m₁.proxy x).sock = (m.proxy x).sock ∧
      (m₁.proxy x).sendFailed = (m.proxy x).sendFailed ∧
      (m₁.proxy x).registeredMsgIDs = (m.proxy x).registeredMsgIDs := by
    by_cases here : x = c
    · rw [← wants, here, proxy_setProxy]
      exact ⟨rfl, rfl, rfl⟩
    · rw [← wants, m.proxy_setProxy_of_ne here]
      exact ⟨rfl, rfl, rfl⟩
  have clients : m₁.clients = m.clients := wants ▸ rfl
  refine wp_mono (dumped_all c m₁.clients (clients ▸ nodup) m₁) ?_ (fun _ _ => False.elim)
  rintro - m' ⟨dumped, lands⟩
  refine ⟨dumped.clients.trans clients, ?_⟩
  rw [DumpsLand.congr (fun x => (same x).2.2) (by rw [(same c).1]) (fun x _ => (same x).2.1),
    (same c).1, clients] at lands
  rw [← lands]
  constructor
  · intro own x ne failed
    by_cases live : x ∈ m'.clients
    · rcases own x live failed with ⟨-, before⟩ | ⟨i, le, lt, -⟩
      · rw [(same x).2.1, before]
      · have := le (clients ▸ dumped.clients ▸ live)
        rw [dumped.attempts x ne, (same x).1] at lt
        omega
    · exact dumped.others x (dumped.clients ▸ live) failed
  · intro alone x live failed
    have mem : x ∈ m.clients := clients ▸ dumped.clients ▸ live
    by_cases here : x = c
    · subst here
      rcases dumped.self.own failed with before | ⟨i, le, lt, refused⟩
      · exact .inl ⟨mem, (same x).2.1 ▸ before⟩
      · rw [(same x).1] at le
        exact .inr ⟨i, fun _ => le, lt, by rw [dumped.accepts, refused]⟩
    · exact .inl ⟨mem, (same x).2.1 ▸ alone x here failed⟩

theorem wp_run_iff {m : Manager} {e : Event} (nodup : m.clients.Nodup) :
    wp e.run m (fun _ m' => (m.FailuresOwn m' ↔ e.DumpsLand m) ∧ m'.clients.Nodup)
      (fun _ _ => True) := by
  by_cases dump : ∃ c w, e = .frame c (.registrationsWanted w true)
  · obtain ⟨c, w, rfl⟩ := dump
    exact wp_mono (wp_run_dump nodup w) (fun _ m' ⟨clients, exactly⟩ =>
      ⟨exactly, clients ▸ nodup⟩) (fun _ _ => id)
  · have other (c : Nat) (w : Bool) : e ≠ .frame c (.registrationsWanted w true) :=
      fun same => dump ⟨c, w, same⟩
    refine wp_mono (wp_run_own nodup other) (fun _ m' ⟨own, nodup'⟩ => ⟨?_, nodup'⟩)
      (fun _ _ => id)
    refine iff_of_true own ?_
    unfold Event.DumpsLand
    split
    · rename_i c w
      exact absurd rfl (other c w)
    · trivial

theorem clients_nodup {params : Params} {ok : History → Manager → Event → Prop} {hist : History}
    {m : Manager} (run : Run params ok hist m) : m.clients.Nodup := by
  induction run with
  | start first =>
    refine start_eq_some (Q := (·.clients.Nodup)) (E := fun _ _ => True) (fun sm _ => ?_) first
    exact wp_mono (Moves.moves (R := Isolates) _) (fun _ _ h => h.clients ▸ List.nodup_nil)
      (fun _ _ _ => trivial)
  | step _ _ _ stepped ih => exact (step_eq_some (wp_run_iff ih) stepped).2

/-- In an event in any reachable state, proxies fail only by their own sockets
exactly if no dump of another's registrations is refused. -/
theorem failures_own_iff {params : Params} {hist : History} {m m' : Manager} {e : Event}
    (run : Run params (fun _ _ _ => True) hist m) (stepped : m.step e = some m') :
    m.FailuresOwn m' ↔ e.DumpsLand m :=
  (step_eq_some (wp_run_iff (clients_nodup run)) stepped).1

/-- The first client is registered for a message. The second one's socket takes
the two writes that greet it and the buffers' name, and it asks for the
registrations. -/
def dumpOnFull : List Event :=
  [.connect 1 fun _ => true, .frame 0 (.registration .registerList 0 0 [7]),
    .connect 2 fun i => i < 3]

def asksForDump : Event := .frame 1 (.registrationsWanted false true)

theorem failures_own_iff_dump : ∃ hist m m',
    trace fourSlabs (fun _ _ _ => True) dumpOnFull = some (hist, m) ∧
      m.step asksForDump = some m' ∧ (m.FailuresOwn m' ↔ asksForDump.DumpsLand m) := by
  have ran : (trace fourSlabs (fun _ _ _ => True) dumpOnFull).any
      (fun run => (run.2.step asksForDump).isSome) = true := by
    decide +kernel
  obtain ⟨⟨hist, m⟩, eq, steps⟩ := (Option.any_eq_true _ _).mp ran
  obtain ⟨m', stepped⟩ := Option.isSome_iff_exists.mp steps
  exact ⟨hist, m, m', eq, stepped, failures_own_iff (run_of_trace eq) stepped⟩

/-- The first client is marked failed by the full socket of the second. -/
theorem not_failures_own : ¬ ∀ params hist m e m', Run params (fun _ _ _ => True) hist m →
    e.Enabled m → m.step e = some m' → m.FailuresOwn m' := by
  intro all
  have ran : (trace fourSlabs (fun _ _ _ => True) dumpOnFull).any (fun run =>
      (run.2.step asksForDump).any fun m' => asksForDump.Enabled run.2 ∧ 0 ∈ m'.clients ∧
        (m'.proxy 0).sendFailed = true ∧ (run.2.proxy 0).sendFailed = false ∧ 0 ∈ run.2.clients ∧
        (m'.proxy 0).sock.attempts = (run.2.proxy 0).sock.attempts) = true := by
    decide +kernel
  obtain ⟨⟨hist, m⟩, eq, steps⟩ := (Option.any_eq_true _ _).mp ran
  obtain ⟨m', stepped, facts⟩ := (Option.any_eq_true _ _).mp steps
  obtain ⟨enabled, live, failed, before, was, attempts⟩ := of_decide_eq_true facts
  rcases all _ _ _ _ _ (run_of_trace eq) enabled stepped 0 live failed with ⟨-, h⟩ | ⟨i, le, lt, -⟩
  · rw [before] at h
    cases h
  · rw [attempts] at lt
    exact absurd (le was) (Nat.not_le.mpr lt)

end Manager
end Mcsb
