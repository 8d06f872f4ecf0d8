import Mcsb.Manager.Isolation
import Mcsb.Lib.Accounts

/-!
# Reservations

The slabs reserved are those granted to the live clients, and the share that is
not reservable stays free of them, as long as no sum of a request wraps.
-/

namespace Mcsb
open Effect

set_option maxRecDepth 2000
set_option synthInstance.maxSize 10000

/-- The slabs that are not reservable when there are `b` buffers. -/
def Params.nonreservable (params : Params) (b : Nat) : Nat :=
  ⌈params.pctNonreservable / 100 * (params.slabsPerBuf * b : Nat)⌉₊

/-- One more buffer adds no fewer slabs than it makes nonreservable. -/
theorem Params.nonreservable_add (params : Params) (b k : Nat) :
    params.nonreservable (b + k) ≤ params.nonreservable b + params.slabsPerBuf * k := by
  have share : params.pctNonreservable / 100 ≤ 1 := by
    have := params.pct_le
    linarith
  have pos : 0 ≤ params.pctNonreservable / 100 := div_nonneg params.pct_nonneg (by norm_num)
  have added : params.pctNonreservable / 100 * (params.slabsPerBuf * k : Nat) ≤
      ((params.slabsPerBuf * k : Nat) : ℚ) :=
    mul_le_of_le_one_left (Nat.cast_nonneg _) share
  unfold nonreservable
  rw [Nat.mul_add, Nat.cast_add, mul_add]
  refine (Nat.ceil_add_le _ _).trans (Nat.add_le_add_left ?_ _)
  exact Nat.ceil_le.mpr added

namespace SlabManager

theorem reserves_addBuffer_iterate (k : Nat) (sm : SlabManager) :
    (addBuffer^[k] sm).reserves =
      (sm.numSlabsReserved, sm.numSlabsNonreservable, sm.numBuffers + k, sm.slabsPerBuf,
        sm.pctNonreservable) := by
  induction k generalizing sm with
  | zero => rfl
  | succ k ih =>
    rw [Function.iterate_succ_apply, ih]
    simp [addBuffer, Nat.add_right_comm, Nat.add_assoc]

theorem reserves_setNumBuffers (sm : SlabManager) {n : Nat} (more : sm.numBuffers < n) :
    (sm.setNumBuffers n).reserves =
      (sm.numSlabsReserved, ⌈sm.pctNonreservable / 100 * (sm.slabsPerBuf * n : Nat)⌉₊, n,
        sm.slabsPerBuf, sm.pctNonreservable) := by
  have grown := reserves_addBuffer_iterate (n - sm.numBuffers) sm
  have count : sm.numBuffers + (n - sm.numBuffers) = n := by omega
  simp only [Prod.mk.injEq] at grown
  obtain ⟨reserved, -, buffers, perBuf, pct⟩ := grown
  rw [count] at buffers
  simp only [setNumBuffers, not_le.mpr more, if_false, numSlabs, reserved, buffers, perBuf, pct]

end SlabManager

namespace Manager

/-- What was granted to a client, in all. -/
def granted (m : Manager) (c : Nat) : Nat :=
  (m.proxy c).slabs.numProdSlabs + (m.proxy c).slabs.numConsSlabs

/-- The reservations are what the live clients were granted, and leave the
nonreservable slabs out. -/
def ReservationsExact (m : Manager) : Prop :=
  (m.clients.map m.granted).sum = m.slabManager.numSlabsReserved ∧
    m.slabManager.numSlabsReserved + m.slabManager.numSlabsNonreservable ≤ m.slabManager.numSlabs

/-- Buffers can be created, and locked where they must be, until there are `b`. -/
def CanGrowTo (m : Manager) (b : Nat) : Prop :=
  b ≤ m.params.maxNumBuffers ∧ ∀ i < b - m.shmMapper.numBuffers,
    m.params.createBuffer (m.shmMapper.attempts + i) ≠ .fails ∧
    (m.params.allowUnlockedMemory = true ∨ m.shmMapper.lockErrors = 0 ∧
      m.params.createBuffer (m.shmMapper.attempts + i) = .locked)

instance (m : Manager) (b : Nat) : Decidable (m.CanGrowTo b) :=
  inferInstanceAs (Decidable (_ ∧ _))

/-- With `b` buffers the sum for `n` more slabs does not wrap to one that fits. -/
def SumHonest (m : Manager) (n b : Nat) : Prop :=
  let sum := m.slabManager.numSlabsReserved + m.params.nonreservable b + n
  sum < 2 ^ 32 ∨ m.params.slabsPerBuf * b < sum % 2 ^ 32

instance (m : Manager) (n b : Nat) : Decidable (m.SumHonest n b) :=
  inferInstanceAs (Decidable (_ ∨ _))

/-- The sum for `n` more slabs does not wrap to one that fits, neither now nor
with the buffers that can be added. -/
def RequestHonest (m : Manager) (n : Nat) : Prop :=
  m.SumHonest n m.slabManager.numBuffers ∧
    ∀ b ≤ m.params.maxNumBuffers, m.shmMapper.numBuffers < b → m.CanGrowTo b → m.SumHonest n b

instance (m : Manager) (n : Nat) : Decidable (m.RequestHonest n) :=
  inferInstanceAs (Decidable (_ ∧ _))

/-- The increase that a `NumSlabs` frame asks for. -/
def increaseAsked (m : Manager) (c : Nat) (prodSlbs consSlbs : UInt32) : Nat :=
  (slabIncrease prodSlbs.toNat (m.proxy c).slabs.numProdSlabs +
    slabIncrease consSlbs.toNat (m.proxy c).slabs.numConsSlabs) % 2 ^ 32

end Manager

/-- No sum of a reservation that the event makes wraps to one that fits. -/
def Event.SumsHonest (m : Manager) : Event → Prop
  | .frame c (.numSlabs prodSlbs consSlbs _) =>
    m.RequestHonest (m.increaseAsked c prodSlbs consSlbs)
  | _ => True

instance (m : Manager) (e : Event) : Decidable (e.SumsHonest m) := by
  unfold Event.SumsHonest
  split <;> infer_instance

namespace Manager

/-- What reservations depend on. -/
abbrev booked (m : Manager) :
    Params × List Nat × ShmMapper × (Nat × Nat × Nat × Nat × ℚ) × (Nat → Nat × Nat) :=
  (m.params, m.clients, m.shmMapper, m.slabManager.reserves, fun c => (m.proxy c).slabs.granted)

theorem booked_setProxy {m : Manager} {c : Nat} {p : ClientProxy}
    (same : p.slabs.granted = (m.proxy c).slabs.granted) : (m.setProxy c p).booked = m.booked := by
  have grants : (fun x => ((m.setProxy c p).proxy x).slabs.granted) =
      fun x => (m.proxy x).slabs.granted := by
    funext x
    by_cases here : x = c
    · rw [here, proxy_setProxy, same]
    · rw [proxy_setProxy_of_ne m here]
  simp only [booked, grants]
  rfl

instance : Routine (Keeps booked) where
  inside {m m'} same _ := by
    simp only [Manager.public, Prod.mk.injEq] at same
    obtain ⟨params, clients, shm, ⟨h₁, h₂, h₃, h₄, h₅⟩, -, proxy⟩ := same
    simp only [Keeps, booked, SlabManager.reserves, params, clients, shm, h₁, h₂, h₃, h₄, h₅, proxy]
  proxy same := booked_setProxy (by
    simp only [ClientProxy.public, Prod.mk.injEq] at same
    simp [same])
  wrote _ _ _ := booked_setProxy rfl
  failed _ _ := booked_setProxy rfl

instance : Copying (Keeps booked) where
  blockInfo _ _ := rfl

/-- The blocks are numbered in 31 bits. -/
structure Numbered (m : Manager) : Prop where
  blocks : m.slabManager.numBuffers * (m.params.slabsPerBuf * m.params.blocksPerSlab) ≤ 2 ^ 31
  counted : m.shmMapper.Counted m.params

/-- The books of the reservations, with `extra` slabs reserved for nobody yet. -/
structure Reserved (m : Manager) (extra : Nat) : Prop where
  nodup : m.clients.Nodup
  perBuf : m.slabManager.slabsPerBuf = m.params.slabsPerBuf
  pct : m.slabManager.pctNonreservable = m.params.pctNonreservable
  buffers : m.Numbered
  nonreservable :
    m.slabManager.numSlabsNonreservable = m.params.nonreservable m.slabManager.numBuffers
  exact : (m.clients.map m.granted).sum + extra = m.slabManager.numSlabsReserved
  bounded : m.slabManager.numSlabsReserved + m.slabManager.numSlabsNonreservable ≤
    m.slabManager.numSlabs

theorem granted_of_booked {m m' : Manager} (same : m'.booked = m.booked) (c : Nat) :
    (m'.proxy c).slabs.granted = (m.proxy c).slabs.granted := by
  simp only [booked, Prod.mk.injEq] at same
  exact congrFun same.2.2.2.2 c

theorem granted_eq_of_booked {m m' : Manager} (same : m'.booked = m.booked) (c : Nat) :
    m'.granted c = m.granted c := by
  have := granted_of_booked same c
  simp only [SlabTracker.granted, Prod.mk.injEq] at this
  rw [granted, granted, this.1, this.2]

theorem Reserved.of_booked {m m' : Manager} {extra : Nat} (h : m.Reserved extra)
    (same : m'.booked = m.booked) : m'.Reserved extra := by
  have grants : m'.granted = m.granted := funext (granted_eq_of_booked same)
  simp only [booked, Prod.mk.injEq] at same
  obtain ⟨params, clients, shm, ⟨h₁, h₂, h₃, h₄, h₅⟩, -⟩ := same
  exact ⟨by rw [clients]; exact h.nodup, by rw [h₄, params]; exact h.perBuf,
    by rw [h₅, params]; exact h.pct,
    ⟨by rw [h₃, params]; exact h.buffers.blocks, by rw [shm, params]; exact h.buffers.counted⟩,
    by rw [h₂, h₃, params]; exact h.nonreservable, by rw [clients, grants, h₁]; exact h.exact,
    by rw [SlabManager.numSlabs, h₁, h₂, h₃, h₄]; exact h.bounded⟩

/-- There are never more than 2^31 slabs. -/
theorem Reserved.small {m : Manager} {extra : Nat} (h : m.Reserved extra) :
    m.slabManager.numSlabs ≤ 2 ^ 31 := by
  have blocks : m.params.slabsPerBuf ≤ m.params.slabsPerBuf * m.params.blocksPerSlab :=
    Nat.le_mul_of_pos_right _ m.params.blocks_pos
  calc m.slabManager.numSlabs
      = m.params.slabsPerBuf * m.slabManager.numBuffers := by
        rw [SlabManager.numSlabs, h.perBuf]
    _ ≤ m.params.slabsPerBuf * m.params.blocksPerSlab * m.slabManager.numBuffers :=
        Nat.mul_le_mul_right _ blocks
    _ ≤ 2 ^ 31 := by
        rw [Nat.mul_comm]
        exact h.buffers.blocks

/-- The reservations still fit when buffers are added. -/
theorem Reserved.grow {m m' : Manager} {extra b : Nat} (h : m.Reserved extra)
    (params : m'.params = m.params) (clients : m'.clients = m.clients)
    (grants : m'.granted = m.granted)
    (few : b * (m.params.slabsPerBuf * m.params.blocksPerSlab) ≤ 2 ^ 31)
    (counted : m'.shmMapper.Counted m.params)
    (slabs : m'.slabManager = m.slabManager.setNumBuffers b) : m'.Reserved extra := by
  by_cases more : m.slabManager.numBuffers < b
  · have reserves := m.slabManager.reserves_setNumBuffers more
    rw [← slabs] at reserves
    simp only [Prod.mk.injEq, h.perBuf, h.pct] at reserves
    obtain ⟨h₁, h₂, h₃, h₄, h₅⟩ := reserves
    refine ⟨by rw [clients]; exact h.nodup, by rw [h₄, params], by rw [h₅, params],
      ⟨?_, params ▸ counted⟩, by rw [h₂, h₃, params]; rfl,
      by rw [clients, grants, h₁]; exact h.exact, ?_⟩
    · rw [h₃, params]
      exact few
    · obtain ⟨k, rfl⟩ := Nat.exists_eq_add_of_lt more
      have added := m.params.nonreservable_add m.slabManager.numBuffers (k + 1)
      have bounded := h.bounded
      have count : m.params.slabsPerBuf * (m.slabManager.numBuffers + k + 1) =
          m.params.slabsPerBuf * m.slabManager.numBuffers + m.params.slabsPerBuf * (k + 1) := by
        rw [Nat.add_assoc, Nat.mul_add]
      have share : m'.slabManager.numSlabsNonreservable =
          m.params.nonreservable (m.slabManager.numBuffers + (k + 1)) := h₂
      rw [h.nonreservable, SlabManager.numSlabs, h.perBuf] at bounded
      rw [h₁, share, SlabManager.numSlabs, h₃, h₄, count]
      omega
  · have same : m'.slabManager = m.slabManager := by
      rw [slabs, SlabManager.setNumBuffers, if_pos (not_lt.mp more)]
    exact ⟨by rw [clients]; exact h.nodup, by rw [same, params]; exact h.perBuf,
      by rw [same, params]; exact h.pct,
      ⟨by rw [same, params]; exact h.buffers.blocks, params ▸ counted⟩,
      by rw [same, params]; exact h.nonreservable, by rw [clients, grants, same]; exact h.exact,
      by rw [same]; exact h.bounded⟩

/-! ## Growth -/

/-- What `n` creations in a row come to. -/
def CreatesAll (m : Manager) (n : Nat) (shm : ShmMapper) : Prop :=
  shm.numBuffers = m.shmMapper.numBuffers + n ∧ shm.attempts = m.shmMapper.attempts + n ∧
    (∀ i < n, m.params.createBuffer (m.shmMapper.attempts + i) ≠ .fails) ∧
    (shm.lockErrors = 0 ↔ m.shmMapper.lockErrors = 0 ∧
      ∀ i < n, m.params.createBuffer (m.shmMapper.attempts + i) = .locked)

theorem CreatesAll.cons {m : Manager} {n : Nat} {first shm : ShmMapper}
    (buffers : first.numBuffers = m.shmMapper.numBuffers + 1)
    (attempts : first.attempts = m.shmMapper.attempts + 1)
    (created : m.params.createBuffer m.shmMapper.attempts ≠ .fails)
    (locked : first.lockErrors = 0 ↔ m.shmMapper.lockErrors = 0 ∧
      m.params.createBuffer m.shmMapper.attempts = .locked)
    (rest : CreatesAll { m with shmMapper := first } n shm) : m.CreatesAll (n + 1) shm := by
  obtain ⟨h₁, h₂, h₃, h₄⟩ := rest
  simp only [buffers, attempts, Nat.add_right_comm _ 1] at h₁ h₂ h₃ h₄
  refine ⟨by omega, by omega, ?_, ?_⟩
  · rw [Nat.forall_lt_succ_left]
    exact ⟨created, h₃⟩
  · rw [h₄, locked, Nat.forall_lt_succ_left, and_assoc]
    rfl

theorem CreatesAll.counted {m : Manager} {n : Nat} {shm : ShmMapper} (h : m.CreatesAll n shm)
    (counted : m.shmMapper.Counted m.params) : shm.Counted m.params := by
  obtain ⟨buffers, attempts, created, -⟩ := h
  have all (k : Nat) (le : k ≤ n) : m.params.created (m.shmMapper.attempts + k) =
      m.shmMapper.numBuffers + k := by
    induction k with
    | zero => exact counted.symm
    | succ k ih =>
      rw [← Nat.add_assoc, Params.created_succ, if_pos (created k le), ih (Nat.le_of_lt le)]
      rfl
  rw [ShmMapper.Counted, buffers, attempts, all n le_rfl]

theorem CreatesAll.blocks {m : Manager} {n : Nat} {shm : ShmMapper} (h : m.CreatesAll n shm)
    (counted : m.shmMapper.Counted m.params) :
    (m.shmMapper.numBuffers + n) * (m.params.slabsPerBuf * m.params.blocksPerSlab) ≤ 2 ^ 31 := by
  rw [← h.1, h.counted counted]
  exact m.params.created_le _

/-- One of `n` creations fails, and the ones before it stay. -/
def CreationFails (m : Manager) (n : Nat) (shm : ShmMapper) : Prop :=
  ∃ k < n, ∃ made, m.CreatesAll k made ∧ m.params.createBuffer made.attempts = .fails ∧
    shm = { made with attempts := made.attempts + 1 }

theorem CreationFails.counted {m : Manager} {n : Nat} {shm : ShmMapper} (h : m.CreationFails n shm)
    (counted : m.shmMapper.Counted m.params) : shm.Counted m.params := by
  obtain ⟨k, -, made, all, fails, rfl⟩ := h
  rw [ShmMapper.Counted, Params.created_succ, if_neg (not_not.mpr fails)]
  exact all.counted counted

theorem wp_createAndMap (n : Nat) (m : Manager) : wp (createAndMap n) m
    (fun _ m' => ∃ shm, m' = { m with shmMapper := shm } ∧ m.CreatesAll n shm)
    (fun e m' => e ≠ .stuck ∧ ∃ shm, m' = { m with shmMapper := shm } ∧
      m.CreationFails n shm) := by
  induction n generalizing m with
  | zero => exact ⟨m.shmMapper, rfl, rfl, rfl, by simp, by simp⟩
  | succ n ih =>
    have goOn (first : ShmMapper) (buffers : first.numBuffers = m.shmMapper.numBuffers + 1)
        (attempts : first.attempts = m.shmMapper.attempts + 1)
        (created : m.params.createBuffer m.shmMapper.attempts ≠ .fails)
        (locked : first.lockErrors = 0 ↔ m.shmMapper.lockErrors = 0 ∧
          m.params.createBuffer m.shmMapper.attempts = .locked) :
        wp (createAndMap n) { m with shmMapper := first }
          (fun _ m' => ∃ shm, m' = { m with shmMapper := shm } ∧ m.CreatesAll (n + 1) shm)
          (fun e m' => e ≠ .stuck ∧ ∃ shm, m' = { m with shmMapper := shm } ∧
            m.CreationFails (n + 1) shm) := by
      apply wp_mono (ih _)
      · rintro - m' ⟨shm, rfl, rest⟩
        exact ⟨shm, rfl, rest.cons buffers attempts created locked⟩
      · rintro e m' ⟨error, shm, rfl, k, lt, made, all, fails⟩
        exact ⟨error, shm, rfl, k + 1, by omega, made,
          all.cons buffers attempts created locked, fails⟩
    simp only [createAndMap, wp_bind, wp_get]
    cases created : m.params.createBuffer m.shmMapper.attempts with
    | fails =>
      exact ⟨by simp, _, rfl, 0, by omega, m.shmMapper, ⟨rfl, rfl, by simp, by simp⟩, created, rfl⟩
    | unlocked => exact goOn _ rfl rfl (by simp [created]) (by simp [created])
    | locked => exact goOn _ rfl rfl (by simp [created]) (by simp [created])

/-- The manager with buffers up to `n`, as `increaseNumBuffers` leaves it. -/
def grownTo (m : Manager) (n : Nat) (shmMapper : ShmMapper) : Manager :=
  { m with shmMapper, slabManager := m.slabManager.setNumBuffers n }

theorem wp_checkAllBufferParams (cs : List Nat) (m : Manager) : wp (checkAllBufferParams cs) m
    (fun _ m' => m'.booked = m.booked) (fun _ _ => False) := by
  induction cs generalizing m with
  | nil => exact rfl
  | cons c cs ih =>
    have checked : wp (checkBufferParams c) m (fun _ m' => m'.booked = m.booked)
        (fun _ _ => False) := by
      refine wp_bind.mpr (wp_get.mpr (wp_bind.mpr (wp_modify.mpr (wp_swallow_sendOn ?_))))
      rw [setProxy_setProxy]
      exact booked_setProxy (by simp [SlabTracker.setTotalNumSlabs])
    exact wp_bind.mpr (wp_mono checked (fun _ m' same => wp_mono (ih m')
      (fun _ _ next => next.trans same) (fun _ _ => id)) (fun _ _ => id))

/-- The number of buffers that `increaseNumBuffers n` goes for. -/
def buffersAsked (m : Manager) (n : Nat) : Nat := if n = 0 then m.shmMapper.numBuffers + 1 else n

/-- `increaseNumBuffers n` goes on to create `k` buffers. -/
structure Tries (m : Manager) (n k : Nat) : Prop where
  other : n ≠ m.shmMapper.numBuffers
  asked : m.buffersAsked n = m.shmMapper.numBuffers + k
  max : m.shmMapper.numBuffers + k ≤ m.params.maxNumBuffers

theorem Tries.pos {m : Manager} {n k : Nat} (h : m.Tries n k) : 0 < k := by
  have asked := h.asked
  have other := h.other
  unfold buffersAsked at asked
  split at asked <;> omega

theorem Tries.one {m : Manager} {k : Nat} (h : m.Tries 0 k) : k = 1 := by
  have asked := h.asked
  rw [buffersAsked, if_pos rfl] at asked
  omega

/-- The lock errors do not stop the growth. -/
def LockErrorsAllowed (m : Manager) (shm : ShmMapper) : Prop :=
  shm.lockErrors = 0 ∨ m.params.allowUnlockedMemory = true

/-- Growth is not needed or refused, or a creation fails, or all succeed and
the lock errors decide. -/
theorem wp_increaseNumBuffers_cases {n : Nat} {m : Manager} {Q : Bool → Manager → Prop}
    {E : Exc → Manager → Prop}
    (still : ∀ grown, (grown = true ∧ n = m.shmMapper.numBuffers) ∨
      grown = false ∧ (m.params.maxNumBuffers < m.buffersAsked n ∨
        m.buffersAsked n < m.shmMapper.numBuffers) → Q grown m)
    (fails : ∀ k shm, m.Tries n k → m.CreationFails k shm →
      ∀ what, E (.runtimeError what) { m with shmMapper := shm })
    (unlocked : ∀ k shm, m.Tries n k → m.CreatesAll k shm → ¬ m.LockErrorsAllowed shm →
      ∀ what, E (.runtimeError what) { m with shmMapper := shm })
    (grown : ∀ k shm, m.Tries n k → m.CreatesAll k shm → m.LockErrorsAllowed shm →
      wp (checkAllBufferParams m.clients) (m.grownTo (m.shmMapper.numBuffers + k) shm)
        (fun _ m' => Q true m') E) : wp (increaseNumBuffers n) m Q E := by
  simp only [increaseNumBuffers, wp_bind, wp_get, wp_ite, wp_pure]
  split
  · rename_i same
    exact still true (.inl ⟨rfl, same⟩)
  · rename_i other
    rw [← buffersAsked]
    split
    · rename_i refused
      exact still false (.inr ⟨rfl, refused⟩)
    · rename_i inside
      push Not at inside
      obtain ⟨k, eq⟩ := Nat.exists_eq_add_of_le inside.2
      have tries : m.Tries n k := ⟨other, eq, eq ▸ inside.1⟩
      rw [eq, Nat.add_sub_cancel_left]
      apply wp_mono (wp_createAndMap k m)
      · rintro - m' ⟨shm, rfl, all⟩
        split
        · rename_i errors
          apply unlocked k shm tries all
          rintro (none | allowed)
          · exact errors.1 none
          · exact errors.2 allowed
        · rename_i allowed
          apply wp_set.mpr
          apply grown k shm tries all
          by_contra errors
          rw [LockErrorsAllowed, not_or] at errors
          exact allowed errors
      · rintro e m' ⟨error, shm, rfl, failed⟩
        cases e with
        | stuck => exact absurd rfl error
        | runtimeError what => exact fails k shm tries failed what

theorem wp_increaseNumBuffers (n : Nat) (m : Manager) : wp (increaseNumBuffers n) m
    (fun ok m' => m'.booked = m.booked ∨ ok = true ∧ ∃ k shm,
      m.Tries n k ∧ m.CreatesAll k shm ∧ m.LockErrorsAllowed shm ∧
      m'.booked = (m.grownTo (m.shmMapper.numBuffers + k) shm).booked)
    (fun _ m' => ∃ shm, m' = { m with shmMapper := shm } ∧
      (m.shmMapper.Counted m.params → shm.Counted m.params)) := by
  apply wp_increaseNumBuffers_cases
  case still =>
    intro grown _
    exact .inl rfl
  case fails =>
    intro k shm _ failed what
    exact ⟨shm, rfl, failed.counted⟩
  case unlocked =>
    intro k shm _ all _ what
    exact ⟨shm, rfl, all.counted⟩
  case grown =>
    intro k shm tries all allowed
    apply wp_mono (wp_checkAllBufferParams m.clients _)
    · intro _ m' same
      exact .inr ⟨rfl, k, shm, tries, all, allowed, same⟩
    · intro _ _
      exact False.elim

/-! ## A request -/

theorem RequestHonest.of_booked {m m' : Manager} {n : Nat} (h : m.RequestHonest n)
    (same : m'.booked = m.booked) : m'.RequestHonest n := by
  simp only [booked, Prod.mk.injEq] at same
  obtain ⟨params, -, shm, ⟨reserved, -, buffers, -, -⟩, -⟩ := same
  unfold RequestHonest SumHonest CanGrowTo at *
  rw [params, shm, reserved, buffers]
  exact h

theorem numSlabsReserved_setNumBuffers (sm : SlabManager) (b : Nat) :
    (sm.setNumBuffers b).numSlabsReserved = sm.numSlabsReserved := by
  by_cases more : sm.numBuffers < b
  · exact congrArg Prod.fst (sm.reserves_setNumBuffers more)
  · rw [SlabManager.setNumBuffers, if_pos (not_lt.mp more)]

theorem numBuffers_setNumBuffers (sm : SlabManager) (b : Nat) :
    (sm.setNumBuffers b).numBuffers = max sm.numBuffers b := by
  by_cases more : sm.numBuffers < b
  · rw [max_eq_right more.le]
    exact congrArg (·.2.2.1) (sm.reserves_setNumBuffers more)
  · rw [SlabManager.setNumBuffers, if_pos (not_lt.mp more), max_eq_left (not_lt.mp more)]

theorem SumHonest.grow {m : Manager} {n b b' : Nat} {shm : ShmMapper} (h : m.SumHonest n b) :
    (m.grownTo b' shm).SumHonest n b := by
  unfold SumHonest grownTo at *
  rw [numSlabsReserved_setNumBuffers]
  exact h

/-- What can be reached after one more buffer could be reached before. -/
theorem CanGrowTo.of_grown {m : Manager} {b b' : Nat} {shm : ShmMapper}
    (h : (m.grownTo b' shm).CanGrowTo b) (all : m.CreatesAll 1 shm)
    (locked : m.LockErrorsAllowed shm) : m.CanGrowTo b := by
  obtain ⟨buffers, attempts, created, locks⟩ := all
  simp only [Nat.lt_one_iff, forall_eq, Nat.add_zero] at created locks
  refine ⟨h.1, fun i lt => ?_⟩
  have later := h.2
  simp only [grownTo, buffers, attempts] at later
  cases i with
  | zero =>
    refine ⟨created, locked.symm.imp id fun clean => ?_⟩
    exact locks.mp clean
  | succ i =>
    have next := later i (by omega)
    rw [Nat.add_assoc, Nat.add_comm 1 i] at next
    exact ⟨next.1, next.2.imp id (And.imp_left fun clean => (locks.mp clean).1)⟩

theorem RequestHonest.grow {m : Manager} {n : Nat} {shm : ShmMapper} (h : m.RequestHonest n)
    (all : m.CreatesAll 1 shm)
    (locked : m.LockErrorsAllowed shm)
    (max : m.shmMapper.numBuffers + 1 ≤ m.params.maxNumBuffers) :
    (m.grownTo (m.shmMapper.numBuffers + 1) shm).RequestHonest n := by
  refine ⟨SumHonest.grow ?_, fun b le lt can => SumHonest.grow ?_⟩
  · have now : (m.grownTo (m.shmMapper.numBuffers + 1) shm).slabManager.numBuffers =
        Max.max m.slabManager.numBuffers (m.shmMapper.numBuffers + 1) :=
      numBuffers_setNumBuffers _ _
    rw [now]
    rcases le_total m.slabManager.numBuffers (m.shmMapper.numBuffers + 1) with le | le
    · rw [max_eq_right le]
      refine h.2 _ max (Nat.lt_succ_self _) ⟨max, fun i lt => ?_⟩
      have here : i = 0 := by omega
      subst here
      obtain ⟨-, -, created, locks⟩ := all
      refine ⟨created 0 Nat.one_pos, locked.symm.imp id fun clean => ?_⟩
      exact ⟨(locks.mp clean).1, (locks.mp clean).2 0 Nat.one_pos⟩
    · rw [max_eq_left le]
      exact h.1
  · have more : m.shmMapper.numBuffers < b := by
      have buffers : shm.numBuffers = m.shmMapper.numBuffers + 1 := all.1
      have : shm.numBuffers < b := lt
      omega
    exact h.2 b le more (can.of_grown all locked)

/-- An honest request that is granted is reserved, and no more than fits. -/
theorem Reserved.getSlabReservation {m : Manager} {n : Nat} {sm : SlabManager}
    (h : m.Reserved 0) (honest : m.SumHonest n m.slabManager.numBuffers)
    (granted : m.slabManager.getSlabReservation n = some sm) :
    Manager.Reserved { m with slabManager := sm } n := by
  simp only [SlabManager.getSlabReservation] at granted
  by_cases zero : n = 0
  · simp only [zero, if_true, Option.some.injEq] at granted
    subst granted zero
    exact ⟨h.nodup, h.perBuf, h.pct, ⟨h.buffers.blocks, h.buffers.counted⟩,
      h.nonreservable, h.exact, h.bounded⟩
  · have small := h.small
    have exact := h.exact
    simp only [zero, if_false] at granted
    simp only [SumHonest, ← h.nonreservable, ← h.perBuf] at honest
    split at granted
    · cases granted
    · rename_i fits
      simp only [Option.some.injEq] at granted
      subst granted
      have sum := honest.resolve_right fits
      rw [Nat.mod_eq_of_lt sum, not_lt] at fits
      have kept : (m.slabManager.numSlabsReserved + n) % 2 ^ 32 =
          m.slabManager.numSlabsReserved + n := Nat.mod_eq_of_lt (by omega)
      simp only [kept]
      refine ⟨h.nodup, h.perBuf, h.pct, ⟨h.buffers.blocks, h.buffers.counted⟩,
        h.nonreservable, ?_, ?_⟩
      · exact congrArg (· + n) exact
      · exact (Nat.add_right_comm ..).trans_le fits

theorem Reserved.reserveLoop {n : Nat} (fuel : Nat) {m : Manager} (h : m.Reserved 0)
    (honest : m.RequestHonest n) : wp (reserveLoop n fuel) m
      (fun ok m' => m'.Reserved (if ok then n else 0) ∧ m'.clients = m.clients ∧
        ∀ c, (m'.proxy c).slabs.granted = (m.proxy c).slabs.granted)
      (fun _ m' => m'.Reserved 0 ∧ m'.clients = m.clients) := by
  induction fuel generalizing m with
  | zero => exact ⟨h, rfl⟩
  | succ fuel ih =>
    simp only [Mcsb.reserveLoop, wp_bind, wp_get]
    cases granted : m.slabManager.getSlabReservation n with
    | some sm => exact ⟨h.getSlabReservation honest.1 granted, rfl, fun _ => rfl⟩
    | none =>
      refine wp_bind.mpr (wp_mono (wp_increaseNumBuffers 0 m) ?_ ?_)
      · rintro ok m₁ grown
        have clients : m₁.clients = m.clients ∧
            ∀ c, (m₁.proxy c).slabs.granted = (m.proxy c).slabs.granted := by
          rcases grown with same | ⟨-, k, shm, -, -, -, same⟩
          · exact ⟨congrArg (·.2.1) same, granted_of_booked same⟩
          · exact ⟨congrArg (·.2.1) same, granted_of_booked (m := m.grownTo _ shm) same⟩
        have reserved : m₁.Reserved 0 := by
          rcases grown with same | ⟨-, k, shm, -, all, -, same⟩
          · exact h.of_booked same
          · exact Reserved.of_booked (m := m.grownTo _ shm) (h.grow rfl rfl rfl
              (all.blocks h.buffers.counted) (all.counted h.buffers.counted) rfl) same
        cases ok with
        | false => exact ⟨reserved, clients⟩
        | true =>
          have honest' : m₁.RequestHonest n := by
            rcases grown with same | ⟨-, k, shm, tries, all, locked, same⟩
            · exact honest.of_booked same
            · have one := tries.one
              subst one
              exact (honest.grow all locked tries.max).of_booked same
          refine wp_mono (ih reserved honest') ?_ ?_
          · rintro ok m' ⟨reserved', clients', grants'⟩
            exact ⟨reserved', clients'.trans clients.1,
              fun c => (grants' c).trans (clients.2 c)⟩
          · rintro - m' ⟨reserved', clients'⟩
            exact ⟨reserved', clients'.trans clients.1⟩
      · rintro - m' ⟨shm, rfl, counted⟩
        exact ⟨⟨h.nodup, h.perBuf, h.pct, ⟨h.buffers.blocks, counted h.buffers.counted⟩,
          h.nonreservable, h.exact, h.bounded⟩, rfl⟩

/-- What was reserved goes to a live client. -/
theorem Reserved.grant {m : Manager} {c extra numProdSlabs numConsSlabs : Nat}
    (h : m.Reserved extra) (live : c ∈ m.clients)
    (more : numProdSlabs + numConsSlabs = m.granted c + extra) :
    (m.setProxy c { m.proxy c with
      slabs := { (m.proxy c).slabs with numProdSlabs, numConsSlabs } }).Reserved 0 := by
  generalize given : m.setProxy c _ = m'
  have others (x : Nat) (ne : x ≠ c) : m'.granted x = m.granted x := by
    rw [granted, granted, ← given, m.proxy_setProxy_of_ne ne]
  have here : m'.granted c = m.granted c + extra := by
    rw [granted, ← given, proxy_setProxy, more]
  have sum := Accounts.sum_change h.nodup live others
  have total := h.exact
  have all : (m.clients.map m'.granted).sum + 0 = m.slabManager.numSlabsReserved := by omega
  subst given
  exact ⟨h.nodup, h.perBuf, h.pct, ⟨h.buffers.blocks, h.buffers.counted⟩,
    h.nonreservable, all, h.bounded⟩

theorem Reserved.granted_le {m : Manager} {c extra : Nat} (h : m.Reserved extra)
    (live : c ∈ m.clients) : m.granted c + extra ≤ m.slabManager.numSlabs := by
  have := Accounts.le_sum live m.granted
  have := h.exact
  have := h.bounded
  omega

/-- A difference of 32 bits that is not refused is what was asked for. -/
theorem slabIncrease_lt (slabs numSlabs : Nat) : slabIncrease slabs numSlabs < 2 ^ 31 := by
  unfold slabIncrease
  dsimp only
  split
  · assumption
  · exact Nat.two_pow_pos 31

theorem Reserved.grantNumSlabs {m : Manager} {c : Nat} {prodSlbs consSlbs : UInt32} {ok : Bool}
    (h : m.Reserved 0) (live : c ∈ m.clients)
    (honest : m.RequestHonest (m.increaseAsked c prodSlbs consSlbs)) :
    wp (grantNumSlabs c prodSlbs consSlbs ok) m
      (fun _ m' => m'.Reserved 0 ∧ m'.clients = m.clients)
      (fun _ m' => m'.Reserved 0 ∧ m'.clients = m.clients) := by
  have asked : (slabIncrease prodSlbs.toNat (m.proxy c).slabs.numProdSlabs +
      slabIncrease consSlbs.toNat (m.proxy c).slabs.numConsSlabs) % 2 ^ 32 =
      slabIncrease prodSlbs.toNat (m.proxy c).slabs.numProdSlabs +
        slabIncrease consSlbs.toNat (m.proxy c).slabs.numConsSlabs := by
    have := slabIncrease_lt prodSlbs.toNat (m.proxy c).slabs.numProdSlabs
    have := slabIncrease_lt consSlbs.toNat (m.proxy c).slabs.numConsSlabs
    exact Nat.mod_eq_of_lt (by omega)
  unfold Mcsb.grantNumSlabs
  refine wp_bind.mpr (wp_getProxy.mpr (wp_bind.mpr ?_))
  unfold Mcsb.getSlabReservation
  refine wp_bind.mpr (wp_get.mpr (wp_mono (h.reserveLoop _ honest) ?_ (fun _ _ => id)))
  rintro granted m' ⟨reserved, clients, grants⟩
  have sends (m' : Manager) (reserved : m'.Reserved 0) (clients : m'.clients = m.clients)
      (x : Act Unit) [Moves (Keeps booked) x] : wp x m'
        (fun _ m' => m'.Reserved 0 ∧ m'.clients = m.clients)
        (fun _ m' => m'.Reserved 0 ∧ m'.clients = m.clients) :=
    wp_mono (Moves.moves (R := Keeps booked) m')
      (fun _ _ same => ⟨reserved.of_booked same, (congrArg (·.2.1) same).trans clients⟩)
      (fun _ _ same => ⟨reserved.of_booked same, (congrArg (·.2.1) same).trans clients⟩)
  cases granted with
  | false =>
    rw [if_neg Bool.false_ne_true] at reserved ⊢
    exact sends m' reserved clients _
  | true =>
    rw [if_pos rfl, asked] at reserved
    rw [if_pos rfl]
    refine wp_bind.mpr (wp_modifyProxy.mpr (sends _ (reserved.grant (clients ▸ live) ?_) clients _))
    have fits := reserved.granted_le (clients ▸ live : c ∈ m'.clients)
    have small := reserved.small
    have same := grants c
    simp only [SlabTracker.granted, Prod.mk.injEq] at same
    simp only [Manager.granted, same.1, same.2] at fits ⊢
    rw [Nat.mod_eq_of_lt (by omega), Nat.mod_eq_of_lt (by omega)]
    omega

/-! ## Clients that come and go -/

theorem Reserved.release {m : Manager} {n : Nat} (h : m.Reserved n) :
    Manager.Reserved { m with slabManager := m.slabManager.releaseSlabReservation n } 0 := by
  have total := h.exact
  have bounded := h.bounded
  rw [SlabManager.releaseSlabReservation, if_neg (by omega)]
  have all : (m.clients.map m.granted).sum + 0 = m.slabManager.numSlabsReserved - n := by omega
  refine ⟨h.nodup, h.perBuf, h.pct, ⟨h.buffers.blocks, h.buffers.counted⟩, h.nonreservable, all, ?_⟩
  exact (by omega : m.slabManager.numSlabsReserved - n + m.slabManager.numSlabsNonreservable ≤
    m.slabManager.numSlabs)

theorem Reserved.destroyProxy {m : Manager} {c : Nat} (h : m.Reserved (m.granted c)) :
    wp (destroyProxy c) m (fun _ m' => m'.Reserved 0) (fun _ _ => True) := by
  unfold Mcsb.destroyProxy
  refine wp_bind.mpr (wp_getProxy.mpr (wp_bind.mpr (wp_mono
    (Moves.moves (R := Keeps booked) m) (fun _ m₁ same => ?_) (fun _ _ _ => trivial))))
  have reserved : m₁.Reserved (m₁.granted c) := by
    rw [granted_eq_of_booked same]
    exact h.of_booked same
  have fits := reserved.exact
  have bounded := reserved.bounded
  have small := reserved.small
  refine wp_bind.mpr (wp_getProxy.mpr (wp_bind.mpr (wp_modify.mpr ?_)))
  have noWrap : ((m₁.proxy c).slabs.numProdSlabs + (m₁.proxy c).slabs.numConsSlabs) % 2 ^ 32 =
      m₁.granted c := Nat.mod_eq_of_lt (by unfold granted at *; omega)
  rw [noWrap]
  exact wp_mono (Moves.moves (R := Keeps booked) _)
    (fun _ _ same => reserved.release.of_booked same) (fun _ _ _ => trivial)

theorem Reserved.deleteClient {m : Manager} {c : Nat} (h : m.Reserved 0) (live : c ∈ m.clients) :
    wp (deleteClient c) m (fun _ m' => m'.Reserved 0) (fun _ _ => True) := by
  have sum := Accounts.sum_erase live m.granted
  have gone : Manager.Reserved { m with clients := m.clients.erase c } (m.granted c) :=
    ⟨h.nodup.erase c, h.perBuf, h.pct, ⟨h.buffers.blocks, h.buffers.counted⟩,
      h.nonreservable, sum.trans h.exact, h.bounded⟩
  exact wp_deleteClient.mpr gone.destroyProxy

/-! ## Every event -/

instance : Sending (Keeps booked) where
  sending _ _ := booked_setProxy rfl

theorem Reserved.handle {m : Manager} {c : Nat} {f : Frame} (h : m.Reserved 0)
    (live : c ∈ m.clients) (honest : (Event.frame c f).SumsHonest m) :
    wp (f.handle c) m (fun _ m' => m'.Reserved 0)
      (fun _ m' => m'.Reserved 0 ∧ m'.clients = m.clients) := by
  have routine (x : Act Unit) [Moves (Keeps booked) x] : wp x m (fun _ m' => m'.Reserved 0)
      (fun _ m' => m'.Reserved 0 ∧ m'.clients = m.clients) :=
    wp_mono (Moves.moves (R := Keeps booked) m) (fun _ _ same => h.of_booked same)
      (fun _ _ same => ⟨h.of_booked same, congrArg (·.2.1) same⟩)
  cases f with
  | numSlabs prodSlbs consSlbs ok =>
    refine wp_bind.mpr (wp_mono (h.grantNumSlabs live honest) (fun _ m' granted => ?_)
      (fun _ _ => id))
    exact wp_mono (Moves.moves (R := Keeps booked) m')
      (fun _ _ same => granted.1.of_booked same)
      (fun _ _ same => ⟨granted.1.of_booked same, (congrArg (·.2.1) same).trans granted.2⟩)
  | blockIDs ids => exact routine (handleBlockIDs c ids)
  | slabIDs ids => exact routine (handleSlabIDs c ids)
  | blocksAndInfo segs => exact routine (handleBlocksAndInfo c segs)
  | registration type cid gid msgIDs => exact routine (handleRegistration c type cid gid msgIDs)
  | registrationsWanted wantNew wantCurrent =>
    exact routine (handleRegistrationsWanted c wantNew wantCurrent)
  | dropReportAck => exact routine (handleDropReportAck c)
  | prodNiceLevel level =>
    exact routine (modifyProxy c fun p => { p with prodNiceLevel := level.toInt.bmod (2 ^ 8) })
  | managerEcho bytes => exact routine (sendCtrl c _)
  | sequenceToken token => exact routine (sendCtrl c _)
  | groupID id => exact routine (modifyProxy c fun p => { p with groupID := id })
  | groupIDStr str => exact routine (handleGroupIDStr c str)
  | invalid => exact routine (fail _)
  | ignored => exact routine (pure ())

/-- A new client joins with nothing granted. -/
theorem Reserved.join {m : Manager} {c : Nat} (h : m.Reserved 0) (new : c ∉ m.clients)
    (zero : m.granted c = 0) :
    Manager.Reserved { m with clients := m.clients.orderedInsert (· ≤ ·) c } 0 := by
  have perm := m.clients.perm_orderedInsert (· ≤ ·) c
  have sum : ((m.clients.orderedInsert (· ≤ ·) c).map m.granted).sum =
      (m.clients.map m.granted).sum := by
    rw [(perm.map m.granted).sum_eq, List.map_cons, List.sum_cons, zero, Nat.zero_add]
  exact ⟨perm.nodup_iff.mpr (List.nodup_cons.mpr ⟨new, h.nodup⟩), h.perBuf, h.pct,
    ⟨h.buffers.blocks, h.buffers.counted⟩,
    h.nonreservable, (congrArg (· + 0) sum).trans h.exact, h.bounded⟩

theorem Reserved.addConnectedClient {m : Manager} (h : m.Reserved 0) (addr : Nat)
    (accepts : Nat → Bool) :
    wp (addConnectedClient addr accepts) m (fun _ m' => m'.Reserved 0) (fun _ _ => True) := by
  refine Gentle.wp_addConnectedClient (R := Keeps booked) (Q := fun m' => m'.Reserved 0) h
    fun c next m' new same => ?_
  have clients : m'.clients = m.clients := congrArg (·.2.1) same
  have zero : m'.granted c = 0 := by
    rw [granted_eq_of_booked same, granted, proxy_setProxy]
    rfl
  have reserved : m'.Reserved 0 := by
    refine Reserved.of_booked ?_ same
    refine ⟨h.nodup, h.perBuf, h.pct, ⟨h.buffers.blocks, h.buffers.counted⟩,
      h.nonreservable, ?_, h.bounded⟩
    refine Eq.trans (congrArg (· + 0) (Accounts.sum_same new fun x ne => ?_)) h.exact
    rw [granted, granted, proxy_setProxy_of_ne _ ne]
  exact ⟨reserved.join (clients ▸ new) zero, reserved⟩

theorem Reserved.run {m : Manager} {e : Event} (h : m.Reserved 0) (enabled : e.Enabled m)
    (honest : e.SumsHonest m) : wp e.run m (fun _ m' => m'.Reserved 0) (fun _ _ => True) := by
  cases e with
  | connect addr accepts => exact h.addConnectedClient addr accepts
  | hangup c => exact h.deleteClient enabled
  | frame c f =>
    refine wp_run_frame.mpr (wp_mono (h.handle enabled honest) (fun _ _ => id) ?_)
    rintro e m' ⟨reserved, clients⟩
    cases e with
    | runtimeError what =>
      exact reserved.deleteClient (clients ▸ (enabled : c ∈ m.clients))
    | stuck => trivial

theorem start_reserved {params : Params} {m : Manager} (h : start params = some m) :
    m.Reserved 0 := by
  have zero : params.nonreservable 0 = 0 := by simp [Params.nonreservable]
  have empty : Manager.Reserved { params, slabManager :=
      { slabsPerBuf := params.slabsPerBuf, pctNonreservable := params.pctNonreservable } } 0 :=
    ⟨List.nodup_nil, rfl, rfl, ⟨by simp, rfl⟩, zero.symm, rfl, by simp [SlabManager.numSlabs]⟩
  refine start_eq_some (Q := (·.Reserved 0)) (E := fun _ _ => True) (fun slabManager made => ?_) h
  have first : Manager.Reserved { params, slabManager } 0 :=
    empty.grow rfl rfl rfl params.fits rfl made
  refine wp_mono (wp_increaseNumBuffers params.numBuffers { params, slabManager }) ?_
    (fun _ _ _ => trivial)
  rintro - m' (same | ⟨-, k, shm, -, all, -, same⟩)
  · exact first.of_booked same
  · refine Reserved.of_booked (m := Manager.grownTo _ _ shm) ?_ same
    exact first.grow rfl rfl rfl (all.blocks rfl) (all.counted rfl) rfl

/-- As long as no sum of a request wraps to one that fits, what is reserved is
what the live clients were granted, and it leaves the nonreservable slabs out. -/
theorem reservations_exact {params : Params} {hist : History} {m : Manager}
    (run : Run params (fun _ m e => e.SumsHonest m) hist m) : m.ReservationsExact := by
  have reserved : m.Reserved 0 := by
    induction run with
    | start first => exact start_reserved first
    | step _ enabled honest stepped ih => exact step_eq_some (ih.run enabled honest) stepped
  exact ⟨reserved.exact, reserved.bounded⟩

/-- One buffer of four slabs, two of them nonreservable, and no memory for more. -/
def fourSlabs : Params where
  slabsPerBuf := 4
  blocksPerSlab := 1
  numBuffers := 1
  maxNumBuffers := 1
  pctNonreservable := 50
  maxNumClients := 2
  allowUnlockedMemory := false
  playbackMode := false
  shmNameFormat := []
  createBuffer := fun i => if i = 0 then .locked else .fails
  slabs_pos := by decide
  blocks_pos := by decide
  fits := by decide
  memory i success := by
    have first : i = 0 := by
      by_contra later
      exact success (if_neg later)
    subst first
    decide
  pct_nonneg := by decide
  pct_le := by decide

/-- The first client asks for slabs. -/
def asksFor (prodSlbs consSlbs : UInt32) : List Event :=
  [.connect 1 fun _ => true, .frame 0 (.numSlabs prodSlbs consSlbs true)]

theorem reservations_exact_fourSlabs : ∃ hist m,
    trace fourSlabs (fun _ m e => e.SumsHonest m) (asksFor 1 1) = some (hist, m) ∧
      m.ReservationsExact := by
  have ran : (trace fourSlabs (fun _ m e => e.SumsHonest m) (asksFor 1 1)).isSome = true := by
    decide +kernel
  obtain ⟨⟨hist, m⟩, eq⟩ := Option.isSome_iff_exists.mp ran
  exact ⟨hist, m, eq, reservations_exact (run_of_trace eq)⟩

instance (m : Manager) : Decidable m.ReservationsExact := inferInstanceAs (Decidable (_ ∧ _))

/-- The first client waits for its turn with the slabs it asks for. -/
def asksNicely (prodSlbs consSlbs : UInt32) : List Event :=
  [.connect 1 fun _ => true, .frame 0 (.prodNiceLevel 1),
    .frame 0 (.numSlabs prodSlbs consSlbs true)]

/-- Two increases of 2^31 - 1 and the two nonreservable slabs are 2^32, which
fits as it is 0. -/
theorem not_reservations_exact : ¬ ∀ params hist m,
    Run params (fun _ _ _ => True) hist m → m.ReservationsExact := by
  intro all
  have ran : (trace fourSlabs (fun _ _ _ => True) (asksNicely 0x7FFFFFFF 0x7FFFFFFF)).any
      (fun run => ¬ run.2.ReservationsExact) = true := by
    decide +kernel
  obtain ⟨⟨hist, m⟩, eq, wrong⟩ := (Option.any_eq_true _ _).mp ran
  exact of_decide_eq_true wrong (all _ _ _ (run_of_trace eq))

end Manager
end Mcsb
