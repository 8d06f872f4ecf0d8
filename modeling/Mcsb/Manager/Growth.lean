import Mcsb.Manager.Views

/-!
# Growing until a request fits

`Manager::GetSlabReservation` adds a buffer for each denial of the slab manager,
until that fails. With no buffer mapped nothing is added and nothing fails, so
it goes on for ever; `reservationEnds_iff` says that there is no other case.
-/

namespace Mcsb
namespace Manager
open Effect

set_option maxRecDepth 2000
set_option synthInstance.maxSize 10000

/-- The loop ends after finitely many turns, granted, denied or with an exception. -/
def ReservationEnds (m : Manager) (n : Nat) : Prop :=
  ∃ turns, wp (reserveLoop n turns) m (fun _ _ => True) (fun e _ => e ≠ .stuck)

/-- The slab manager grants the request as it is. -/
def GrantedAtOnce (m : Manager) (n : Nat) : Prop :=
  n = 0 ∨ (m.slabManager.numSlabsReserved + m.slabManager.numSlabsNonreservable + n) % 2 ^ 32 ≤
    m.slabManager.numSlabs

/-- The buffers mapped are within the limit, and there are some from the start
or never. -/
structure Mapped (m : Manager) : Prop where
  some : 0 < m.shmMapper.numBuffers ↔
    0 < m.params.numBuffers ∧ m.params.numBuffers ≤ m.params.maxNumBuffers
  max : m.shmMapper.numBuffers ≤ m.params.maxNumBuffers

section
variable {m : Manager} {n : Nat}

theorem grantedAtOnce_iff : m.GrantedAtOnce n ↔ m.slabManager.getSlabReservation n ≠ none := by
  unfold GrantedAtOnce SlabManager.getSlabReservation
  split
  · rename_i none
    simp [none]
  · rename_i some
    rw [or_iff_right some, ← Nat.not_lt]
    split
    · rename_i more
      exact iff_of_false (not_not.mpr more) (not_not.mpr rfl)
    · rename_i fits
      exact iff_of_true fits (Option.some_ne_none _)

/-! ## The loop -/

theorem increaseNumBuffers_nothing (none : m.shmMapper.numBuffers = 0) :
    increaseNumBuffers 0 m = .ok true m := by
  show (if 0 = m.shmMapper.numBuffers then pure true else _ : Act Bool) m = .ok true m
  rw [if_pos none.symm]
  rfl

/-- Nothing is added and nothing fails. -/
theorem reserveLoop_stuck (denied : m.slabManager.getSlabReservation n = none)
    (none : m.shmMapper.numBuffers = 0) (turns : Nat) :
    reserveLoop n turns m = .error .stuck m := by
  induction turns with
  | zero => rfl
  | succ turns ih =>
    have same : wp (reserveLoop n (turns + 1)) m (fun _ _ => False)
        (fun e m' => e = .stuck ∧ m' = m) := by
      apply wp_bind.mpr
      apply wp_get.mpr
      rw [denied]
      apply wp_bind.mpr
      unfold wp
      rw [increaseNumBuffers_nothing none]
      show wp (reserveLoop n turns) m (fun _ _ => False) (fun e m' => e = .stuck ∧ m' = m)
      unfold wp
      rw [ih]
      exact ⟨rfl, rfl⟩
    unfold wp at same
    split at same
    · exact same.elim
    · rename_i e m' ran
      rw [ran, same.1, same.2]

/-- Buffers were added, if there were some, and they stay within the limit. -/
structure Added (m m' : Manager) : Prop where
  params : m'.params = m.params
  more : m.shmMapper.numBuffers ≤ m'.shmMapper.numBuffers
  inside : m.shmMapper.numBuffers < m'.shmMapper.numBuffers →
    0 < m.shmMapper.numBuffers ∧ m'.shmMapper.numBuffers ≤ m.params.maxNumBuffers

theorem Added.of_tries {m' : Manager} {k : Nat} (tries : m.Tries 0 k)
    (params : m'.params = m.params) {j : Nat} (le : j ≤ k)
    (buffers : m'.shmMapper.numBuffers = m.shmMapper.numBuffers + j) : m.Added m' := by
  have max := tries.max
  constructor
  · exact params
  · omega
  · intro _
    constructor
    · exact Nat.pos_of_ne_zero tries.other.symm
    · omega

/-- One buffer is added, or none with success if there is none, or it fails. -/
theorem wp_increaseNumBuffers_one (m : Manager) : wp (increaseNumBuffers 0) m
    (fun grown m' => m.Added m' ∧ (grown = true → 0 < m.shmMapper.numBuffers →
      m'.shmMapper.numBuffers = m.shmMapper.numBuffers + 1))
    (fun e m' => e ≠ .stuck ∧ m.Added m') := by
  apply wp_increaseNumBuffers_cases
  case still =>
    intro grown why
    constructor
    · exact ⟨rfl, le_rfl, fun more => absurd more (Nat.lt_irrefl _)⟩
    · intro done some
      rcases why with ⟨-, none⟩ | ⟨refused, -⟩
      · exact absurd none some.ne
      · exact absurd done (refused ▸ Bool.false_ne_true)
  case fails =>
    rintro k shm tries ⟨j, lt, made, all, -, rfl⟩ what
    constructor
    · simp
    · exact .of_tries tries rfl lt.le all.1
  case unlocked =>
    intro k shm tries all _ what
    constructor
    · simp
    · exact .of_tries tries rfl le_rfl all.1
  case grown =>
    intro k shm tries all _
    apply wp_mono (wp_resizeAll m.clients _)
    · intro _ m' resized
      have buffers : m'.shmMapper.numBuffers = m.shmMapper.numBuffers + k := by
        rw [resized.shm]
        exact all.1
      constructor
      · exact .of_tries tries resized.params le_rfl buffers
      · intro _ _
        rw [buffers, tries.one]
    · intro _ _
      exact False.elim

/-- Each turn but the last adds a buffer, and there are at most `maxNumBuffers`. -/
theorem reserveLoop_ends {turns : Nat} (some : 0 < m.shmMapper.numBuffers)
    (max : m.shmMapper.numBuffers ≤ m.params.maxNumBuffers)
    (enough : m.params.maxNumBuffers < m.shmMapper.numBuffers + turns) :
    wp (reserveLoop n turns) m (fun _ _ => True) (fun e _ => e ≠ .stuck) := by
  induction turns generalizing m with
  | zero => omega
  | succ turns ih =>
    apply wp_bind.mpr
    apply wp_get.mpr
    cases m.slabManager.getSlabReservation n with
    | some slabManager => trivial
    | none =>
      apply wp_bind.mpr
      apply wp_mono m.wp_increaseNumBuffers_one
      · rintro grown m' ⟨added, one⟩
        cases grown with
        | false => trivial
        | true =>
          have buffers := one rfl some
          have params := added.params
          have inside := (added.inside (by omega)).2
          apply ih
          · omega
          · rw [params]
            exact inside
          · rw [params, buffers]
            omega
      · intro _ _ ended
        exact ended.1

theorem reserveLoop_granted (granted : m.slabManager.getSlabReservation n ≠ none) (turns : Nat) :
    wp (reserveLoop n (turns + 1)) m (fun _ _ => True) (fun e _ => e ≠ .stuck) := by
  apply wp_bind.mpr
  apply wp_get.mpr
  cases reserved : m.slabManager.getSlabReservation n with
  | some slabManager => trivial
  | none => exact absurd reserved granted

theorem Mapped.ends_iff (h : m.Mapped) :
    m.ReservationEnds n ↔ m.GrantedAtOnce n ∨
      0 < m.params.numBuffers ∧ m.params.numBuffers ≤ m.params.maxNumBuffers := by
  rw [grantedAtOnce_iff, ← h.some]
  constructor
  · rintro ⟨turns, ends⟩
    by_contra never
    rw [not_or, not_not, Nat.pos_iff_ne_zero, not_not] at never
    unfold wp at ends
    rw [reserveLoop_stuck never.1 never.2] at ends
    exact ends rfl
  · rintro (granted | some)
    · exact ⟨1, reserveLoop_granted granted 0⟩
    · exact ⟨m.params.maxNumBuffers + 1, reserveLoop_ends some h.max (by omega)⟩

/-- The turns that the model gives the loop are enough. -/
theorem Mapped.getSlabReservation_ends_iff (h : m.Mapped) : m.ReservationEnds n ↔
    wp (getSlabReservation n) m (fun _ _ => True) (fun e _ => e ≠ .stuck) := by
  constructor
  · rw [h.ends_iff, grantedAtOnce_iff, ← h.some]
    intro ends
    apply wp_bind.mpr
    apply wp_get.mpr
    rcases ends with granted | some
    · exact reserveLoop_granted granted _
    · exact reserveLoop_ends some h.max (by omega)
  · intro ends
    exact ⟨m.params.maxNumBuffers + 1, wp_get.mp (wp_bind.mp ends)⟩

end

/-! ## Every run -/

theorem Mapped.of_eq {m m' : Manager} (h : m.Mapped) (params : m'.params = m.params)
    (shm : m'.shmMapper = m.shmMapper) : m'.Mapped := by
  constructor
  · rw [params, shm]
    exact h.some
  · rw [params, shm]
    exact h.max

instance : Steady (Stays Mapped) where
  inside {m m'} same _ _ h := by
    simp only [Manager.settings, Prod.mk.injEq] at same
    exact h.of_eq same.1 same.2.2.1
  proxy _ h := h.of_eq rfl rfl

instance : Sending (Stays Mapped) := ⟨fun _ _ h => h.of_eq rfl rfl⟩
instance : Reporting (Stays Mapped) :=
  ⟨fun _ _ h => h.of_eq rfl rfl, fun _ _ h => h.of_eq rfl rfl⟩
instance : Registering (Stays Mapped) := ⟨fun _ h => h.of_eq rfl rfl⟩
instance : Wanting (Stays Mapped) := ⟨fun _ h => h.of_eq rfl rfl⟩
instance : Ranking (Stays Mapped) := ⟨fun _ h => h.of_eq rfl rfl⟩
instance : Grouping (Stays Mapped) := ⟨fun _ h => h.of_eq rfl rfl, fun _ h => h.of_eq rfl rfl⟩
instance : Copying (Stays Mapped) := ⟨fun _ _ h => h.of_eq rfl rfl⟩
instance : Resizing (Stays Mapped) := ⟨fun _ _ h => h.of_eq rfl rfl⟩
instance : Reserving (Stays Mapped) := ⟨fun _ h => h.of_eq rfl rfl, fun _ _ h => h.of_eq rfl rfl⟩

theorem Mapped.add {m m' : Manager} (h : m.Mapped) (added : m.Added m') : m'.Mapped := by
  have more := added.more
  have max := h.max
  rcases more.lt_or_eq with lt | same
  · have inside := added.inside lt
    constructor
    · rw [added.params, ← h.some]
      exact iff_of_true (inside.1.trans lt) inside.1
    · rw [added.params]
      exact inside.2
  · constructor
    · rw [added.params, ← same]
      exact h.some
    · rw [added.params, ← same]
      exact max

instance : Moves (Stays Mapped) (increaseNumBuffers 0) := .stays fun m h =>
  wp_mono m.wp_increaseNumBuffers_one (fun _ _ grown => h.add grown.1)
    fun _ _ ended => h.add ended.2

theorem start_mapped {params : Params} {m : Manager} (h : start params = some m) : m.Mapped := by
  refine start_eq_some (Q := Mapped) (E := fun _ _ => True) ?_ h
  intro slabManager _
  have asked (n : Nat) (some : n ≠ 0) : buffersAsked { params, slabManager } n = n := if_neg some
  apply wp_increaseNumBuffers_cases
  case still =>
    intro _ refused
    constructor
    · apply iff_of_false (Nat.lt_irrefl 0)
      rintro ⟨some, fits⟩
      rw [asked _ some.ne'] at refused
      rcases refused with ⟨-, none⟩ | ⟨-, more | fewer⟩
      · exact some.ne' none
      · exact absurd fits (Nat.not_le.mpr more)
      · exact Nat.not_lt_zero _ fewer
    · exact Nat.zero_le _
  case fails =>
    intro _ _ _ _ _
    trivial
  case unlocked =>
    intro _ _ _ _ _ _
    trivial
  case grown =>
    intro k shm tries all _
    have target : params.numBuffers = 0 + k := (asked _ tries.other).symm.trans tries.asked
    have buffers : shm.numBuffers = 0 + k := all.1
    have pos := tries.pos
    have max : 0 + k ≤ params.maxNumBuffers := tries.max
    apply wp_mono (wp_resizeAll [] _)
    · intro _ m' resized
      constructor
      · rw [resized.shm, resized.params]
        show 0 < shm.numBuffers ↔ 0 < params.numBuffers ∧ params.numBuffers ≤ params.maxNumBuffers
        omega
      · rw [resized.shm, resized.params]
        exact buffers.trans_le max
    · intro _ _ _
      trivial

theorem Run.mapped {params : Params} {ok : History → Manager → Event → Prop} {hist : History}
    {m : Manager} (run : Run params ok hist m) : m.Mapped := by
  apply run.invariant
  case first =>
    intro m first
    exact start_mapped first
  case connect =>
    intro m addr accepts mapped
    apply Gentle.wp_addConnectedClient (R := Stays Mapped) mapped
    intro c next m' _ stays
    have mapped' := stays (mapped.of_eq rfl rfl)
    exact ⟨mapped'.of_eq rfl rfl, mapped'⟩
  case delete =>
    intro m c mapped
    apply wp_deleteClient.mpr
    have erased : Mapped { m with clients := m.clients.erase c } := mapped.of_eq rfl rfl
    apply wp_mono (Moves.wp_stays erased)
    · intro _ _
      exact id
    · intro _ _ _
      trivial
  case handle =>
    intro m c f _ mapped
    have moves : Moves (Stays Mapped) (f.handle c) := by
      apply Gentle.moves_handle
      · intro type cid gid msgIDs _
        infer_instance
      · intro new current _
        infer_instance
      · intro level _
        infer_instance
    exact Moves.wp_stays mapped

/-- A request that is not granted at once is answered only if buffers were
mapped at the start. -/
theorem reservationEnds_iff {params : Params} {hist : History} {m : Manager}
    (run : Run params (fun _ _ _ => True) hist m) (n : Nat) :
    m.ReservationEnds n ↔ m.GrantedAtOnce n ∨
      0 < params.numBuffers ∧ params.numBuffers ≤ params.maxNumBuffers := by
  rw [run.mapped.ends_iff, run.params_eq]

theorem reservationEnds_iff_fourSlabs : ∃ hist m,
    trace fourSlabs (fun _ _ _ => True) (asksFor 1 1) = some (hist, m) ∧
      ∀ n, m.ReservationEnds n ↔ m.GrantedAtOnce n ∨
        0 < fourSlabs.numBuffers ∧ fourSlabs.numBuffers ≤ fourSlabs.maxNumBuffers := by
  have ran : (trace fourSlabs (fun _ _ _ => True) (asksFor 1 1)).isSome = true := by
    decide +kernel
  obtain ⟨⟨hist, m⟩, eq⟩ := Option.isSome_iff_exists.mp ran
  exact ⟨hist, m, eq, reservationEnds_iff (run_of_trace eq)⟩

instance (m : Manager) (n : Nat) : Decidable (m.GrantedAtOnce n) :=
  inferInstanceAs (Decidable (_ ∨ _))

/-- No buffer to start with. -/
def noBuffers : Params :=
  { fourSlabs with numBuffers := 0, fits := by decide }

/-- The first slab that a client asks for is never denied. -/
theorem not_reservationEnds : ¬ ∀ params hist m n,
    Run params (fun _ _ _ => True) hist m → m.ReservationEnds n := by
  intro all
  have ran : (trace noBuffers (fun _ _ _ => True) []).any
      (fun run => ¬ run.2.GrantedAtOnce 1) = true := by
    decide +kernel
  obtain ⟨⟨hist, m⟩, eq, denied⟩ := (Option.any_eq_true _ _).mp ran
  have run := run_of_trace eq
  rcases run.mapped.ends_iff.mp (all _ _ _ 1 run) with granted | ⟨some, -⟩
  · exact of_decide_eq_true denied granted
  · rw [run.params_eq] at some
    exact Nat.lt_irrefl 0 some

end Manager
end Mcsb
