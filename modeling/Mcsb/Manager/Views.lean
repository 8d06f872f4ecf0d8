import Mcsb.Manager.Reservation

/-!
# Three views of the slab space

How many buffers the slab manager and the mapper have, and of how many slabs
each client's tracker is. They agree unless the initial buffers were refused or
a buffer was mapped that could not be locked.
-/

namespace Mcsb
namespace Manager
open Effect

set_option maxRecDepth 2000
set_option synthInstance.maxSize 10000

/-- The length of the vectors of a client's tracker. -/
def tracked (m : Manager) (c : Nat) : Nat := (m.proxy c).slabs.totalNumSlabs

structure ViewsAgree (m : Manager) : Prop where
  buffers : m.slabManager.numBuffers = m.shmMapper.numBuffers
  trackers : ∀ c ∈ m.clients, m.tracked c = m.totalNumSlabs

/-- The sizes in all three views. -/
abbrev sizes (m : Manager) : Nat × Nat × (Nat → Nat) :=
  (m.slabManager.numBuffers, m.shmMapper.numBuffers, m.tracked)

/-- A growth that is refused or throws leaves all sizes as they were. -/
def GrowthAtomic (m : Manager) (n : Nat) : Prop :=
  wp (increaseNumBuffers n) m (fun grown m' => grown = false → m'.sizes = m.sizes)
    (fun _ m' => m'.sizes = m.sizes)

/-- The growth is not needed, or refused, or fails at the first buffer, or
every buffer is created and locked as it must be. -/
def GrowsCleanly (m : Manager) (n : Nat) : Prop :=
  n = m.shmMapper.numBuffers ∨ m.params.maxNumBuffers < m.buffersAsked n ∨
    m.buffersAsked n < m.shmMapper.numBuffers ∨
    m.params.createBuffer m.shmMapper.attempts = .fails ∨ m.CanGrowTo (m.buffersAsked n)

/-- The buffers created up to now are locked, or need not be. -/
def AllLocked (m : Manager) : Prop :=
  m.params.allowUnlockedMemory = true ∨
    ∀ i < m.shmMapper.attempts, m.params.createBuffer i ≠ .unlocked

/-! ## Growth -/

section
variable {m : Manager} {n k : Nat} {shm : ShmMapper}

theorem growsCleanly_of_tries (tries : m.Tries n k) : m.GrowsCleanly n ↔
    m.params.createBuffer m.shmMapper.attempts = .fails ∨
      m.CanGrowTo (m.shmMapper.numBuffers + k) := by
  have max := tries.max
  unfold GrowsCleanly
  rw [tries.asked]
  constructor
  · rintro (same | refused | fewer | created)
    · exact absurd same tries.other
    · omega
    · omega
    · exact created
  · intro created
    exact .inr (.inr (.inr created))

theorem canGrowTo_iff (tries : m.Tries n k) (all : m.CreatesAll k shm) :
    m.CanGrowTo (m.shmMapper.numBuffers + k) ↔ m.LockErrorsAllowed shm := by
  have pos := tries.pos
  obtain ⟨-, -, created, locks⟩ := all
  rw [LockErrorsAllowed, locks, CanGrowTo, Nat.add_sub_cancel_left]
  constructor
  · rintro ⟨-, can⟩
    rcases (can 0 pos).2 with allowed | clean
    · exact .inr allowed
    · by_cases allowed : m.params.allowUnlockedMemory = true
      · exact .inr allowed
      · left
        constructor
        · exact clean.1
        · intro i lt
          exact ((can i lt).2.resolve_left allowed).2
  · intro allowed
    constructor
    · exact tries.max
    · intro i lt
      constructor
      · exact created i lt
      · exact allowed.symm.imp id fun clean => ⟨clean.1, clean.2 i lt⟩

theorem sizes_mapper {m : Manager} {shm : ShmMapper} :
    sizes { m with shmMapper := shm } = m.sizes ↔ shm.numBuffers = m.shmMapper.numBuffers := by
  constructor
  · intro same
    exact congrArg (·.2.1) same
  · intro same
    exact congrArg (fun b => (m.slabManager.numBuffers, b, m.tracked)) same

/-- What a growth comes to. -/
theorem wp_growth (m : Manager) (n : Nat) : wp (increaseNumBuffers n) m
    (fun grown m' => m.GrowsCleanly n ∧ (grown = false → m'.sizes = m.sizes))
    (fun _ m' => m.GrowsCleanly n ↔ m'.sizes = m.sizes) := by
  apply wp_increaseNumBuffers_cases
  case still =>
    rintro grown (⟨-, same⟩ | ⟨-, refused | fewer⟩)
    · exact ⟨.inl same, fun _ => rfl⟩
    · exact ⟨.inr (.inl refused), fun _ => rfl⟩
    · exact ⟨.inr (.inr (.inl fewer)), fun _ => rfl⟩
  case fails =>
    rintro k shm tries ⟨j, lt, made, all, fails, rfl⟩ what
    rw [growsCleanly_of_tries tries, sizes_mapper]
    obtain ⟨buffers, attempts, created, -⟩ := all
    rw [attempts] at fails
    cases j with
    | zero => exact ⟨fun _ => buffers, fun _ => .inl fails⟩
    | succ j =>
      constructor
      · rintro (first | can)
        · exact absurd first (created 0 (Nat.succ_pos j))
        · have all := can.2 (j + 1)
          rw [Nat.add_sub_cancel_left] at all
          exact absurd fails (all lt).1
      · intro same
        have : made.numBuffers = m.shmMapper.numBuffers := same
        omega
  case unlocked =>
    intro k shm tries all errors what
    rw [growsCleanly_of_tries tries, canGrowTo_iff tries all, sizes_mapper, all.1]
    have pos := tries.pos
    constructor
    · rintro (first | allowed)
      · exact absurd first (all.2.2.1 0 pos)
      · exact absurd allowed errors
    · intro same
      omega
  case grown =>
    intro k shm tries all allowed
    apply wp_mono (wp_checkAllBufferParams m.clients _)
    · intro _ m' _
      constructor
      · rw [growsCleanly_of_tries tries, canGrowTo_iff tries all]
        exact .inr allowed
      · intro grown
        cases grown
    · intro _ _
      exact False.elim

/-- One that fails leaves the sizes alone only if no buffer was mapped. -/
theorem growthAtomic_iff (m : Manager) (n : Nat) : m.GrowthAtomic n ↔ m.GrowsCleanly n := by
  constructor
  · intro atomic
    apply of_wp (wp_mono (wp_and (m.wp_growth n) atomic) _ _)
    · intro _ _ ⟨growth, _⟩
      exact growth.1
    · intro _ _ ⟨growth, same⟩
      exact growth.mpr same
  · intro clean
    apply wp_mono (m.wp_growth n)
    · intro _ _ growth
      exact growth.2
    · intro _ _ growth
      exact growth.mp clean

end

/-! ## Between events -/

/-- What the views depend on. -/
abbrev views (m : Manager) : Params × List Nat × ShmMapper × Nat × (Nat → Nat) :=
  (m.params, m.clients, m.shmMapper, m.slabManager.numBuffers, m.tracked)

theorem views_setProxy {m : Manager} {c : Nat} {p : ClientProxy}
    (same : p.slabs.totalNumSlabs = (m.proxy c).slabs.totalNumSlabs) :
    (m.setProxy c p).views = m.views := by
  have tracked : (m.setProxy c p).tracked = m.tracked :=
    inner_setProxy (fun p => p.slabs.totalNumSlabs) same
  simp only [views, tracked]
  rfl

/-- The sizes as the initial buffers and the locks made them. The clients `cs`
are not in the map yet. -/
structure Spaced (cs : List Nat) (m : Manager) : Prop where
  locks : m.shmMapper.lockErrors = 0 ↔
    ∀ i < m.shmMapper.attempts, m.params.createBuffer i ≠ .unlocked
  agree : m.params.numBuffers ≤ m.params.maxNumBuffers → m.LockErrorsAllowed m.shmMapper →
    m.slabManager.numBuffers = m.shmMapper.numBuffers ∧
      ∀ c, c ∈ m.clients ∨ c ∈ cs → m.tracked c = m.totalNumSlabs
  behind : m.params.numBuffers ≤ m.params.maxNumBuffers → ¬ m.LockErrorsAllowed m.shmMapper →
    m.slabManager.numBuffers < m.shmMapper.numBuffers
  tooMany : m.params.maxNumBuffers < m.params.numBuffers →
    m.shmMapper.numBuffers = 0 ∧ 0 < m.slabManager.numBuffers

section
variable {m m' : Manager} {cs : List Nat}

theorem Spaced.of_views (h : m.Spaced cs) (same : m'.views = m.views) : m'.Spaced cs := by
  simp only [views, Prod.mk.injEq] at same
  obtain ⟨params, clients, shm, buffers, tracked⟩ := same
  constructor
  · rw [params, shm]
    exact h.locks
  · rw [LockErrorsAllowed, params, shm, buffers, clients, tracked, totalNumSlabs, params, shm]
    exact h.agree
  · rw [LockErrorsAllowed, params, shm, buffers]
    exact h.behind
  · rw [params, shm, buffers]
    exact h.tooMany

/-- Where fewer clients count. -/
theorem Spaced.fewer {cs' : List Nat} (h : m.Spaced cs) (params : m'.params = m.params)
    (shm : m'.shmMapper = m.shmMapper) (slabs : m'.slabManager = m.slabManager)
    (tracked : ∀ c, c ∈ m'.clients ∨ c ∈ cs' →
      (c ∈ m.clients ∨ c ∈ cs) ∧ m'.tracked c = m.tracked c) : m'.Spaced cs' := by
  constructor
  · rw [params, shm]
    exact h.locks
  · rw [LockErrorsAllowed, params, shm, slabs, totalNumSlabs, params, shm]
    intro fits allowed
    constructor
    · exact (h.agree fits allowed).1
    · intro c counted
      rw [(tracked c counted).2]
      exact (h.agree fits allowed).2 c (tracked c counted).1
  · rw [LockErrorsAllowed, params, shm, slabs]
    exact h.behind
  · rw [params, shm, slabs]
    exact h.tooMany

theorem Spaced.viewsAgree_iff (h : m.Spaced []) :
    m.ViewsAgree ↔ m.params.numBuffers ≤ m.params.maxNumBuffers ∧ m.AllLocked := by
  have allLocked : m.AllLocked ↔ m.LockErrorsAllowed m.shmMapper := by
    rw [AllLocked, LockErrorsAllowed, h.locks, or_comm]
  rw [allLocked]
  constructor
  · intro same
    have fits : m.params.numBuffers ≤ m.params.maxNumBuffers := by
      by_contra tooMany
      have := h.tooMany (Nat.not_le.mp tooMany)
      have := same.buffers
      omega
    constructor
    · exact fits
    · by_contra errors
      have := h.behind fits errors
      have := same.buffers
      omega
  · rintro ⟨fits, allowed⟩
    constructor
    · exact (h.agree fits allowed).1
    · intro c live
      exact (h.agree fits allowed).2 c (.inl live)

end

instance (cs : List Nat) : Steady (Stays (Spaced cs)) where
  inside {m m'} same calm _ h := by
    have reserves := calm.reserves
    simp only [SlabManager.reserves, Prod.mk.injEq] at reserves
    simp only [Manager.settings, Prod.mk.injEq] at same
    have trackers : m'.tracked = m.tracked := by
      funext c
      simp only [Manager.tracked, same]
    apply h.of_views
    simp only [views, same, reserves, trackers]
  proxy same h := by
    simp only [ClientProxy.settings, SlabTracker.sizes, Prod.mk.injEq] at same
    apply h.of_views
    apply views_setProxy
    simp only [same]

instance (cs : List Nat) : Sending (Stays (Spaced cs)) where
  sending _ _ h := h.of_views (views_setProxy rfl)

instance (cs : List Nat) : Reporting (Stays (Spaced cs)) where
  reporting _ _ h := h.of_views (views_setProxy rfl)
  dropped _ _ h := h.of_views rfl

instance (cs : List Nat) : Registering (Stays (Spaced cs)) where
  registering _ h := h.of_views (views_setProxy rfl)

instance (cs : List Nat) : Wanting (Stays (Spaced cs)) where
  wanting _ h := h.of_views (views_setProxy rfl)

instance (cs : List Nat) : Ranking (Stays (Spaced cs)) where
  ranking _ h := h.of_views (views_setProxy rfl)

instance (cs : List Nat) : Grouping (Stays (Spaced cs)) where
  groups _ h := h.of_views rfl
  member _ h := h.of_views (views_setProxy rfl)

instance (cs : List Nat) : Copying (Stays (Spaced cs)) where
  blockInfo _ _ h := h.of_views rfl

instance (cs : List Nat) : Reserving (Stays (Spaced cs)) where
  reserved _ h := h.of_views rfl
  granted _ _ h := h.of_views (views_setProxy rfl)

/-- The manager after the trackers of `cs` were resized. -/
structure Resized (cs : List Nat) (m m' : Manager) : Prop where
  params : m'.params = m.params
  clients : m'.clients = m.clients
  shm : m'.shmMapper = m.shmMapper
  slabs : m'.slabManager = m.slabManager
  listed : ∀ c ∈ cs, m'.tracked c = m.totalNumSlabs
  others : ∀ c, c ∉ cs → m'.tracked c = m.tracked c

theorem wp_checkBufferParams (c : Nat) (m : Manager) :
    wp (checkBufferParams c) m (fun _ m' => m.Resized [c] m') (fun _ _ => False) := by
  simp only [checkBufferParams, wp_bind, wp_get, wp_modifyProxy, sendCtrl]
  apply wp_swallow_sendOn
  rw [setProxy_setProxy]
  constructor
  case listed =>
    intro x mem
    rw [List.mem_singleton.mp mem, tracked, proxy_setProxy, ClientProxy.slabs_send, proxy_setProxy]
    rfl
  case others =>
    intro x ne
    rw [tracked, proxy_setProxy_of_ne _ (List.mem_singleton.not.mp ne)]
    rfl
  all_goals rfl

theorem wp_resizeAll (cs : List Nat) (m : Manager) :
    wp (checkAllBufferParams cs) m (fun _ m' => m.Resized cs m') (fun _ _ => False) := by
  induction cs generalizing m with
  | nil => exact ⟨rfl, rfl, rfl, rfl, by simp, fun _ _ => rfl⟩
  | cons c cs ih =>
    apply wp_bind.mpr
    apply wp_mono (wp_checkBufferParams c m)
    · intro _ m₁ first
      apply wp_mono (ih m₁)
      · intro _ m' rest
        have total : m₁.totalNumSlabs = m.totalNumSlabs := by
          rw [totalNumSlabs, first.params, first.shm]
          rfl
        constructor
        · exact rest.params.trans first.params
        · exact rest.clients.trans first.clients
        · exact rest.shm.trans first.shm
        · exact rest.slabs.trans first.slabs
        · intro x mem
          by_cases later : x ∈ cs
          · rw [rest.listed x later, total]
          · rw [rest.others x later]
            apply first.listed
            exact List.mem_singleton.mpr ((List.mem_cons.mp mem).resolve_right later)
        · intro x ne
          rw [List.mem_cons, not_or] at ne
          rw [rest.others x ne.2]
          exact first.others x (List.mem_singleton.not.mpr ne.1)
      · intro _ _
        exact False.elim
    · intro _ _
      exact False.elim

/-- `k` more attempts, with what is known of the lock errors after them. -/
theorem locks_add {m : Manager} {k : Nat} {shm : ShmMapper}
    (attempts : shm.attempts = m.shmMapper.attempts + k)
    (errors : shm.lockErrors = 0 ↔ m.shmMapper.lockErrors = 0 ∧
      ∀ i < k, m.params.createBuffer (m.shmMapper.attempts + i) ≠ .unlocked)
    (locks : m.shmMapper.lockErrors = 0 ↔
      ∀ i < m.shmMapper.attempts, m.params.createBuffer i ≠ .unlocked) :
    shm.lockErrors = 0 ↔ ∀ i < shm.attempts, m.params.createBuffer i ≠ .unlocked := by
  rw [errors, locks, attempts]
  constructor
  · rintro ⟨before, after⟩ i lt
    by_cases old : i < m.shmMapper.attempts
    · exact before i old
    · obtain ⟨j, rfl⟩ := Nat.exists_eq_add_of_le (Nat.not_lt.mp old)
      exact after j (Nat.lt_of_add_lt_add_left lt)
  · intro all
    constructor
    · intro i lt
      exact all i (Nat.lt_add_right k lt)
    · intro i lt
      exact all _ (Nat.add_lt_add_left lt _)

theorem CreatesAll.errors {m : Manager} {k : Nat} {shm : ShmMapper} (all : m.CreatesAll k shm) :
    shm.lockErrors = 0 ↔ m.shmMapper.lockErrors = 0 ∧
      ∀ i < k, m.params.createBuffer (m.shmMapper.attempts + i) ≠ .unlocked := by
  obtain ⟨-, -, created, locks⟩ := all
  rw [locks]
  apply and_congr_right
  intro _
  apply forall₂_congr
  intro i lt
  have := created i lt
  cases made : m.params.createBuffer (m.shmMapper.attempts + i) with
  | fails => exact absurd made this
  | unlocked => simp
  | locked => simp

theorem Spaced.increaseNumBuffers {m : Manager} (h : m.Spaced []) :
    wp (increaseNumBuffers 0) m (fun _ => Spaced []) (fun _ => Spaced []) := by
  have inside {k : Nat} (tries : m.Tries 0 k) : m.params.numBuffers ≤ m.params.maxNumBuffers := by
    by_contra tooMany
    exact tries.other (h.tooMany (Nat.not_le.mp tooMany)).1.symm
  apply wp_increaseNumBuffers_cases
  case still =>
    intro _ _
    exact h
  case fails =>
    rintro k shm tries ⟨j, lt, made, all, fails, rfl⟩ what
    have first : j = 0 := by
      have := tries.one
      omega
    subst first
    obtain ⟨buffers, attempts, -, locks⟩ := all
    simp only [Nat.not_lt_zero, false_imp_iff, implies_true, and_true] at locks
    rw [attempts] at fails
    have allowed : m.LockErrorsAllowed { made with attempts := made.attempts + 1 } ↔
        m.LockErrorsAllowed m.shmMapper := or_congr_left locks
    constructor
    · apply locks_add (m := m)
      · exact congrArg (· + 1) attempts
      · have created : ∀ i < 1,
            m.params.createBuffer (m.shmMapper.attempts + i) ≠ .unlocked := by
          intro i lt unlocked
          rw [← Nat.lt_one_iff.mp lt, unlocked] at fails
          cases fails
        exact locks.trans (and_iff_left created).symm
      · exact h.locks
    · intro fits clean
      have agree := h.agree fits (allowed.mp clean)
      constructor
      · exact agree.1.trans buffers.symm
      · intro c counted
        exact (agree.2 c counted).trans (congrArg (m.params.slabsPerBuf * ·) buffers.symm)
    · intro fits errors
      exact (h.behind fits fun clean => errors (allowed.mpr clean)).trans_eq buffers.symm
    · intro tooMany
      exact absurd (inside tries) (Nat.not_le.mpr tooMany)
  case unlocked =>
    intro k shm tries all errors what
    have one := tries.one
    subst one
    constructor
    · exact locks_add (m := m) all.2.1 all.errors h.locks
    · intro _ clean
      exact absurd clean errors
    · intro fits _
      have more : shm.numBuffers = m.shmMapper.numBuffers + 1 := all.1
      show m.slabManager.numBuffers < shm.numBuffers
      by_cases clean : m.LockErrorsAllowed m.shmMapper
      · have := (h.agree fits clean).1
        omega
      · have := h.behind fits clean
        omega
    · intro tooMany
      exact absurd (inside tries) (Nat.not_le.mpr tooMany)
  case grown =>
    intro k shm tries all allowed
    have one := tries.one
    subst one
    apply wp_mono (wp_resizeAll m.clients _)
    · intro _ m' resized
      have more : shm.numBuffers = m.shmMapper.numBuffers + 1 := all.1
      have before : m.LockErrorsAllowed m.shmMapper :=
        allowed.imp_left fun clean => (all.errors.mp clean).1
      have still : m'.LockErrorsAllowed m'.shmMapper := by
        rw [LockErrorsAllowed, resized.params, resized.shm]
        exact allowed
      constructor
      · rw [resized.params, resized.shm]
        exact locks_add (m := m) all.2.1 all.errors h.locks
      · intro fits _
        rw [resized.params] at fits
        have agree := (h.agree fits before).1
        constructor
        · rw [resized.slabs, resized.shm]
          show (m.slabManager.setNumBuffers _).numBuffers = shm.numBuffers
          rw [numBuffers_setNumBuffers]
          omega
        · rintro c (live | none)
          · rw [resized.listed c (resized.clients ▸ live), totalNumSlabs, totalNumSlabs,
              resized.params, resized.shm]
          · cases none
      · intro _ errors
        exact absurd still errors
      · intro tooMany
        rw [resized.params] at tooMany
        exact absurd (inside tries) (Nat.not_le.mpr tooMany)
    · intro _ _
      exact False.elim

instance : Moves (Stays (Spaced [])) (increaseNumBuffers 0) :=
  .stays fun _ h => h.increaseNumBuffers

/-! ## Every event -/

section
variable {m : Manager}

theorem Spaced.deleteClient (h : m.Spaced []) (c : Nat) :
    wp (deleteClient c) m (fun _ => Spaced []) (fun _ => Spaced []) := by
  apply wp_deleteClient.mpr
  apply Moves.wp_stays
  apply h.fewer
  case tracked =>
    rintro x (live | none)
    · exact ⟨.inl (List.mem_of_mem_erase live), rfl⟩
    · cases none
  all_goals rfl

theorem Spaced.handle (h : m.Spaced []) (c : Nat) (f : Frame) :
    wp (f.handle c) m (fun _ => Spaced []) (fun _ => Spaced []) := by
  have moves : Moves (Stays (Spaced [])) (f.handle c) := by
    apply Gentle.moves_handle
    · intro type cid gid msgIDs _
      infer_instance
    · intro new current _
      infer_instance
    · intro level _
      infer_instance
  exact Moves.wp_stays h

theorem Spaced.resize {m' : Manager} {cs : List Nat} (h : m.Spaced []) (resized : m.Resized cs m') :
    m'.Spaced cs := by
  have total : m'.totalNumSlabs = m.totalNumSlabs := by
    rw [totalNumSlabs, resized.params, resized.shm]
    rfl
  constructor
  · rw [resized.params, resized.shm]
    exact h.locks
  · rw [LockErrorsAllowed, resized.params, resized.shm, resized.slabs, total]
    intro fits allowed
    have agree := h.agree fits allowed
    constructor
    · exact agree.1
    · intro c counted
      by_cases listed : c ∈ cs
      · exact resized.listed c listed
      · rw [resized.others c listed]
        apply agree.2
        exact .inl (resized.clients ▸ counted.resolve_right listed)
  · rw [LockErrorsAllowed, resized.params, resized.shm, resized.slabs]
    exact h.behind
  · rw [resized.params, resized.shm, resized.slabs]
    exact h.tooMany

/-- A connection sizes the tracker of the new proxy before the client joins. -/
theorem wp_addConnectedClient_sized {P : List Nat → Manager → Prop}
    [∀ c magic version, Moves (Stays (P [])) (sendCtrl c (.validatePeer magic version))]
    [∀ c id, Moves (Stays (P [])) (sendCtrl c (.clientID id))]
    [∀ c, Moves (Stays (P [c])) (fillProducerSlabs c)] (h : P [] m) {addr : Nat}
    {accepts : Nat → Bool}
    (fresh : ∀ c next, c ∉ m.clients → P [] (Manager.setProxy { m with nextNewClientID := next } c
      { clientID := c, addr, sock := { accepts } }))
    (resize : ∀ m c, P [] m → wp (checkBufferParams c) m (fun _ => P [c]) (fun _ => P []))
    (join : ∀ m c, P [c] m → P [] { m with clients := m.clients.orderedInsert (· ≤ ·) c })
    (drop : ∀ m c, P [c] m → P [] m) :
    wp (addConnectedClient addr accepts) m (fun _ => P []) (fun _ _ => True) := by
  have sends (c : Nat) (call : HandlerCall) (k : Act Unit) [Moves (Stays (P [])) (sendCtrl c call)]
      (rest : ∀ m, P [] m → wp k m (fun _ => P []) (fun _ => P [])) (m : Manager)
      (before : P [] m) :
      wp (sendCtrl c call >>= fun _ => k) m (fun _ => P []) (fun _ => P []) := by
    apply wp_bind.mpr
    apply wp_mono (Moves.wp_stays before)
    · intro _ m' sent
      exact rest m' sent
    · intro _ _
      exact id
  have sizes (c : Nat) (m : Manager) (before : P [] m) : wp (do
      checkBufferParams c
      fillProducerSlabs c
      modify fun m => { m with clients := m.clients.orderedInsert (· ≤ ·) c }) m
        (fun _ => P []) (fun _ => P []) := by
    apply wp_bind.mpr
    apply wp_mono (resize m c before)
    · intro _ m' resized
      apply wp_bind.mpr
      apply wp_mono (Moves.wp_stays resized)
      · intro _ m'' filled
        exact join m'' c filled
      · intro _ m'' left
        exact drop m'' c left
    · intro _ _
      exact id
  simp only [Mcsb.addConnectedClient, wp_bind, wp_get, wp_ite, wp_pure]
  split
  · exact h
  · apply wp_mono (Gentle.wp_getNewClientID _ m)
    · rintro c _ ⟨new, next, rfl, -⟩
      apply wp_modify.mpr
      apply wp_swallow.mpr
      apply wp_mono (sends c _ _ (sends c _ _ (sizes c)) _ (fresh c next new))
      · intro _ _
        exact id
      · intro e m' left
        cases e with
        | runtimeError what => exact left
        | stuck => trivial
    · intro _ _ _
      trivial

theorem Spaced.addConnectedClient (h : m.Spaced []) (addr : Nat) (accepts : Nat → Bool) :
    wp (addConnectedClient addr accepts) m (fun _ => Spaced []) (fun _ _ => True) := by
  apply wp_addConnectedClient_sized (P := Spaced) h
  case fresh =>
    intro c next new
    apply h.fewer
    case tracked =>
      rintro x (live | none)
      · have ne : x ≠ c := fun here => new (here ▸ live)
        rw [tracked, proxy_setProxy_of_ne _ ne]
        exact ⟨.inl live, rfl⟩
      · cases none
    all_goals rfl
  case resize =>
    intro m c spaced
    apply wp_mono (m.wp_checkBufferParams c)
    · intro _ m' resized
      exact spaced.resize resized
    · intro _ _
      exact False.elim
  case join =>
    intro m' c filled
    apply filled.fewer
    case tracked =>
      rintro x (live | none)
      · rw [List.mem_orderedInsert] at live
        exact ⟨live.symm.imp_right List.mem_singleton.mpr, rfl⟩
      · cases none
    all_goals rfl
  case drop =>
    intro m' c left
    apply left.fewer
    case tracked =>
      rintro x (live | none)
      · exact ⟨.inl live, rfl⟩
      · cases none
    all_goals rfl

end

/-- The constructor sizes the slab manager before any buffer is asked for. -/
theorem start_spaced {params : Params} {m : Manager} (h : start params = some m) : m.Spaced [] := by
  refine start_eq_some (Q := Spaced []) (E := fun _ _ => True) ?_ h
  intro slabManager made
  have buffers : slabManager.numBuffers = params.numBuffers := by
    rw [made, SlabManager.new, numBuffers_setNumBuffers]
    exact Nat.zero_max _
  have asked (n : Nat) (some : n ≠ 0) : buffersAsked { params, slabManager } n = n := if_neg some
  apply wp_increaseNumBuffers_cases
  case still =>
    intro _ refused
    constructor
    · exact ⟨fun _ _ lt => absurd lt (Nat.not_lt_zero _), fun _ => rfl⟩
    · intro fits _
      constructor
      · by_cases none : params.numBuffers = 0
        · exact buffers.trans none
        · rw [asked _ none] at refused
          rcases refused with ⟨-, zero⟩ | ⟨-, more | fewer⟩
          · exact absurd zero none
          · exact absurd fits (Nat.not_le.mpr more)
          · cases fewer
      · rintro c (live | none)
        · cases live
        · cases none
    · intro _ errors
      exact absurd (.inl rfl) errors
    · intro tooMany
      exact ⟨rfl, buffers ▸ Nat.zero_lt_of_lt tooMany⟩
  case fails =>
    intro _ _ _ _ _
    trivial
  case unlocked =>
    intro _ _ _ _ _ _
    trivial
  case grown =>
    intro k shm tries all allowed
    have target : params.numBuffers = 0 + k := (asked _ tries.other).symm.trans tries.asked
    have inside : params.numBuffers ≤ params.maxNumBuffers := target.trans_le tries.max
    apply wp_mono (wp_resizeAll [] _)
    · intro _ m' resized
      constructor
      · rw [resized.params, resized.shm]
        exact locks_add (m := { params, slabManager }) all.2.1 all.errors
          ⟨fun _ _ lt => absurd lt (Nat.not_lt_zero _), fun _ => rfl⟩
      · intro _ _
        constructor
        · rw [resized.slabs, resized.shm]
          show (slabManager.setNumBuffers (0 + k)).numBuffers = shm.numBuffers
          rw [numBuffers_setNumBuffers, buffers, target, max_self]
          exact all.1.symm
        · rintro c (live | none)
          · rw [resized.clients] at live
            cases live
          · cases none
      · rw [LockErrorsAllowed, resized.params, resized.shm]
        intro _ errors
        exact absurd allowed errors
      · rw [resized.params]
        intro tooMany
        exact absurd inside (Nat.not_le.mpr tooMany)
    · intro _ _ _
      trivial

/-- The views agree exactly as long as the initial buffers were not refused and
all buffers are locked or need not be. -/
theorem views_agree_iff {params : Params} {hist : History} {m : Manager}
    (run : Run params (fun _ _ _ => True) hist m) :
    (m.ViewsAgree ↔ params.numBuffers ≤ params.maxNumBuffers ∧ m.AllLocked) ∧
      ∀ n, m.GrowthAtomic n ↔ m.GrowsCleanly n := by
  have spaced : m.Spaced [] := by
    apply run.invariant
    · intro m first
      exact start_spaced first
    · intro m addr accepts spaced
      exact spaced.addConnectedClient addr accepts
    · intro m c spaced
      apply wp_mono (spaced.deleteClient c)
      · intro _ _
        exact id
      · intro _ _ _
        trivial
    · intro m c f _ spaced
      exact spaced.handle c f
  constructor
  · rw [spaced.viewsAgree_iff, run.params_eq]
  · exact m.growthAtomic_iff

/-- Two buffers to start with where one is the most there may be. -/
def refusedBuffers : Params :=
  { fourSlabs with numBuffers := 2, fits := by decide }

instance (m : Manager) : Decidable m.ViewsAgree :=
  decidable_of_iff (m.slabManager.numBuffers = m.shmMapper.numBuffers ∧
    ∀ c ∈ m.clients, m.tracked c = m.totalNumSlabs) ⟨fun h => ⟨h.1, h.2⟩, fun h => ⟨h.1, h.2⟩⟩

theorem views_agree_fourSlabs : ∃ hist m,
    trace fourSlabs (fun _ _ _ => True) (asksFor 1 1) = some (hist, m) ∧
      ((m.ViewsAgree ↔ fourSlabs.numBuffers ≤ fourSlabs.maxNumBuffers ∧ m.AllLocked) ∧
        ∀ n, m.GrowthAtomic n ↔ m.GrowsCleanly n) := by
  have ran : (trace fourSlabs (fun _ _ _ => True) (asksFor 1 1)).isSome = true := by
    decide +kernel
  obtain ⟨⟨hist, m⟩, eq⟩ := Option.isSome_iff_exists.mp ran
  exact ⟨hist, m, eq, views_agree_iff (run_of_trace eq)⟩

/-- The slab manager has eight slabs that were never mapped. -/
theorem not_views_agree : ¬ ∀ params hist m,
    Run params (fun _ _ _ => True) hist m → m.ViewsAgree := by
  intro all
  have ran : (trace refusedBuffers (fun _ _ _ => True) []).any
      (fun run => ¬ run.2.ViewsAgree) = true := by
    decide +kernel
  obtain ⟨⟨hist, m⟩, eq, wrong⟩ := (Option.any_eq_true _ _).mp ran
  exact of_decide_eq_true wrong (all _ _ _ (run_of_trace eq))

end Manager
end Mcsb
