import Mcsb.Manager.Calls

/-!
# What the calls leave alone

Most calls change no reservation, and let a write fail a proxy only when it is
on the proxy's own socket.
-/

namespace Mcsb
open Effect

set_option maxRecDepth 2000
set_option synthInstance.maxSize 10000

/-- What a client was granted. -/
abbrev SlabTracker.granted (t : SlabTracker) : Nat × Nat := (t.numProdSlabs, t.numConsSlabs)

/-- What a proxy is known by, and what its writes can change. -/
abbrev ClientProxy.public (p : ClientProxy) : Nat × Nat × Sock × Bool × Nat × Nat :=
  (p.clientID, p.addr, p.sock, p.sendFailed, p.slabs.granted)

/-- The proxy after a write that its socket took. -/
def ClientProxy.wrote (p : ClientProxy) (sent : Sent) : ClientProxy :=
  { p with sock := { p.sock with attempts := p.sock.attempts + 1, out := p.sock.out ++ [sent] } }

/-- The proxy after a write that its socket refused. -/
def ClientProxy.failed (p : ClientProxy) : ClientProxy :=
  { p with sock := { p.sock with attempts := p.sock.attempts + 1 }, sendFailed := true }

/-- A write whose errors are printed. -/
def ClientProxy.send (p : ClientProxy) (sent : Sent) : ClientProxy :=
  if p.sendFailed then p
  else if p.sock.accepts p.sock.attempts then p.wrote sent
  else p.failed

namespace ClientProxy
variable (p : ClientProxy) (sent : Sent)

theorem send_eq : ∃ sock sendFailed, p.send sent = { p with sock, sendFailed } := by
  unfold send
  split
  · exact ⟨_, _, rfl⟩
  · split
    · exact ⟨_, _, rfl⟩
    · exact ⟨_, _, rfl⟩

@[simp] theorem slabs_send : (p.send sent).slabs = p.slabs := by
  obtain ⟨_, _, eq⟩ := p.send_eq sent
  rw [eq]

@[simp] theorem wantedQueue_send : (p.send sent).wantedQueue = p.wantedQueue := by
  obtain ⟨_, _, eq⟩ := p.send_eq sent
  rw [eq]

@[simp] theorem clientID_send : (p.send sent).clientID = p.clientID := by
  obtain ⟨_, _, eq⟩ := p.send_eq sent
  rw [eq]

@[simp] theorem addr_send : (p.send sent).addr = p.addr := by
  obtain ⟨_, _, eq⟩ := p.send_eq sent
  rw [eq]

@[simp] theorem registeredMsgIDs_send : (p.send sent).registeredMsgIDs = p.registeredMsgIDs := by
  obtain ⟨_, _, eq⟩ := p.send_eq sent
  rw [eq]

@[simp] theorem pendingFreeSlabRqsts_send :
    (p.send sent).pendingFreeSlabRqsts = p.pendingFreeSlabRqsts := by
  obtain ⟨_, _, eq⟩ := p.send_eq sent
  rw [eq]

end ClientProxy

abbrev Manager.public (m : Manager) :
    Params × List Nat × ShmMapper × (Nat × Nat × Nat × Nat × ℚ) × (Nat → BlockInfo) ×
      (Nat → ClientProxy) :=
  (m.params, m.clients, m.shmMapper, m.slabManager.reserves, m.blockInfo, m.proxy)

abbrev Manager.limits (m : Manager) : Bool × Bool := (m.limitReached, m.slabManager.limitReached)

theorem Manager.AtLimit.of_limits {m m' : Manager} (same : m'.limits = m.limits) (h : m.AtLimit) :
    m'.AtLimit := by
  simp only [limits, Prod.mk.injEq] at same
  exact h.imp (same.1 ▸ id) (same.2 ▸ id)

/-- A relation that goes on through calls that leave reservations, block infos
and the set of clients alone, and write only on a proxy's own socket. -/
class Routine (R : Manager → Manager → Prop) : Prop extends IsPreorder Manager R where
  inside : ∀ {m m'}, m'.public = m.public → (m.AtLimit → m'.AtLimit) → R m m'
  proxy : ∀ {m c p}, p.public = (m.proxy c).public → R m (m.setProxy c p)
  wrote : ∀ {m c} sent, (m.proxy c).sendFailed = false →
    (m.proxy c).sock.accepts (m.proxy c).sock.attempts = true →
    R m (m.setProxy c ((m.proxy c).wrote sent))
  failed : ∀ {m c}, (m.proxy c).sendFailed = false →
    (m.proxy c).sock.accepts (m.proxy c).sock.attempts = false →
    R m (m.setProxy c (m.proxy c).failed)

section
variable {m : Manager} {c : Nat} {Q : Unit → Manager → Prop} {E : Exc → Manager → Prop}

/-- One's own send ends normally, or throws and has done the same. -/
theorem wp_sendOn {sent : Sent} (ok : Q ⟨⟩ (m.setProxy c ((m.proxy c).send sent)))
    (err : ∀ what, E (.runtimeError what) (m.setProxy c ((m.proxy c).send sent))) :
    wp (sendOn c c sent) m Q E := by
  simp only [sendOn, wp_bind, wp_getProxy, wp_ite, wp_fail, wp_modifyProxy,
    Manager.proxy_setProxy, Manager.setProxy_setProxy]
  unfold ClientProxy.send at ok err
  by_cases failed : (m.proxy c).sendFailed = true
  · simpa [failed] using err _
  · by_cases accepts : (m.proxy c).sock.accepts (m.proxy c).sock.attempts = true
    · simpa [failed, accepts, ClientProxy.wrote] using ok
    · simpa [failed, accepts, ClientProxy.failed] using err _

theorem wp_swallow_sendOn {sent : Sent} (ok : Q ⟨⟩ (m.setProxy c ((m.proxy c).send sent))) :
    wp (swallow (sendOn c c sent)) m Q E :=
  wp_swallow.mpr (wp_sendOn ok fun _ => ok)

/-- A write of IDs whose errors are printed. -/
theorem wp_swallow_sendIDs {kind : List Nat → Sent} {ids : List Nat}
    (ok : ∀ sock sendFailed, Q ⟨⟩ (m.setProxy c { m.proxy c with sock, sendFailed })) :
    wp (swallow (sendIDs c kind ids)) m Q E := by
  have still : Q ⟨⟩ m := by
    have same := ok (m.proxy c).sock (m.proxy c).sendFailed
    rwa [Manager.setProxy_self] at same
  have sent (sent : Sent) : Q ⟨⟩ (m.setProxy c ((m.proxy c).send sent)) := by
    obtain ⟨sock, sendFailed, eq⟩ := (m.proxy c).send_eq sent
    rw [eq]
    exact ok sock sendFailed
  apply wp_swallow.mpr
  simp only [sendIDs, wp_bind, wp_getProxy, wp_ite, wp_fail, wp_pure]
  split
  · exact still
  · split
    · exact wp_sendOn (sent _) fun _ => sent _
    · exact still

end

namespace Routine
variable {R : Manager → Manager → Prop} [Routine R] {α : Type}

instance : Steady R where
  inside {m m'} same calm limit := by
    simp only [Manager.settings, Prod.mk.injEq] at same
    refine inside ?_ fun at_ => at_.imp limit calm.limit
    simp only [Manager.public, same, calm.reserves]
  proxy {m c p} same := by
    simp only [ClientProxy.settings, SlabTracker.sizes, Prod.mk.injEq] at same
    refine proxy ?_
    simp only [ClientProxy.public, SlabTracker.granted, same]

instance (f : Manager → Manager) [h : ∀ m, Same (f m).public m.public]
    [h' : ∀ m, Same (f m).limits m.limits] : Moves R (modify f : Act PUnit) :=
  .modify fun m => inside (h m).eq (.of_limits (h' m).eq)

instance (c : Nat) (f : ClientProxy → ClientProxy) [h : ∀ p, Same (f p).public p.public] :
    Moves R (modifyProxy c f) := .modify fun _ => proxy (h _).eq

instance : Reporting R where
  reporting _ _ := proxy rfl
  dropped _ _ := inside rfl id

instance : Registering R where
  registering _ := proxy rfl

instance : Wanting R where
  wanting _ := proxy rfl

instance : Ranking R where
  ranking _ := proxy rfl

instance : Grouping R where
  groups _ := inside rfl id
  member _ := proxy rfl

instance : Resizing R where
  resized _ _ := proxy rfl

instance (c : Nat) (sent : Sent) : Moves R (sendOn c c sent) := ⟨fun m => by
  simp only [sendOn, wp_bind, wp_getProxy, wp_ite, wp_fail, wp_modifyProxy,
    Manager.proxy_setProxy, Manager.setProxy_setProxy]
  split
  · exact refl_of R m
  · rename_i working
    have working := Bool.eq_false_iff.mpr working
    split
    · rename_i accepts
      exact wrote sent working accepts
    · rename_i refuses
      exact failed working (Bool.eq_false_iff.mpr refuses)⟩

end Routine

end Mcsb
