import Mcsb.Manager.Views

/-!
# Inside the vectors

A frame of IDs goes to the tracker before anything has checked its IDs. Which
lists make the tracker look beyond its vectors. The slabs that the manager itself
hands out, and those of queued segments, never do.
-/

namespace Mcsb
open Effect

set_option maxRecDepth 2000
set_option synthInstance.maxSize 10000

namespace SlabTracker

theorem lookedUp_lt_iff (t : SlabTracker) {n : Nat} (slabIDs : List Nat) :
    (∀ s ∈ t.lookedUp slabIDs, s < n) ↔ ∀ before s after, slabIDs = before ++ s :: after →
      (∀ x ∈ before, t.prodSlabRefcnt x = true) → s < n := by
  induction slabIDs with
  | nil => simp [lookedUp]
  | cons first slabIDs ih =>
    rw [lookedUp, List.forall_mem_cons]
    constructor
    · rintro ⟨here, later⟩ before s after eq held
      cases before with
      | nil =>
        cases eq
        exact here
      | cons x before =>
        cases eq
        rw [if_pos (held first List.mem_cons_self)] at later
        exact ih.mp later before s after rfl fun x mem => held x (List.mem_cons_of_mem _ mem)
    · intro all
      constructor
      · exact all [] first slabIDs rfl (by simp)
      · split
        · rename_i heldFirst
          apply ih.mpr
          intro before s after eq held
          apply all (first :: before) s after (congrArg _ eq)
          intro x mem
          rcases List.mem_cons.mp mem with rfl | mem
          · exact heldFirst
          · exact held x mem
        · intro s mem
          cases mem

theorem wp_eraseProdSlabs_tooMany {t : SlabTracker} {slabIDs : List Nat}
    (tooMany : t.prodSlabsHeld < slabIDs.length) {Q : Unit → SlabTracker → Prop}
    {E : Exc → SlabTracker → Prop} (err : ∀ what, E (.runtimeError what) t) :
    wp (eraseProdSlabs slabIDs) t Q E := by
  rw [eraseProdSlabs, wp_bind, wp_get, if_pos tooMany]
  exact err _

end SlabTracker

namespace SlabManager

theorem valid_setNumBuffers {sm : SlabManager} {s : Nat} (n : Nat) (valid : sm.Valid s) :
    (sm.setNumBuffers n).Valid s :=
  setNumBuffers_keeps (P := fun sm => sm.Valid s) (fun _ => Nat.lt_succ_of_lt) (fun _ _ => id)
    valid n

/-- All free slabs are ones that `GetSlabInfo` takes. -/
def FreeValid (sm : SlabManager) : Prop :=
  0 < sm.slabsPerBuf ∧ ∀ s ∈ sm.freeSlabs, sm.Valid s

theorem freeValid_addBuffer {sm : SlabManager} (h : sm.FreeValid) : sm.addBuffer.FreeValid := by
  constructor
  · exact h.1
  · intro s mem
    rcases List.mem_append.mp mem with old | new
    · exact Nat.lt_succ_of_lt (h.2 s old)
    · obtain ⟨i, lt, rfl⟩ := List.mem_map.mp new
      show (sm.slabsPerBuf * sm.numBuffers + i) / sm.slabsPerBuf < sm.numBuffers + 1
      rw [Nat.mul_add_div h.1, Nat.div_eq_of_lt (List.mem_range.mp lt)]
      exact Nat.lt_succ_self _

theorem freeValid_setNumBuffers {sm : SlabManager} (h : sm.FreeValid) (n : Nat) :
    (sm.setNumBuffers n).FreeValid :=
  setNumBuffers_keeps (P := FreeValid) (fun _ => freeValid_addBuffer) (fun _ _ => id) h n

/-- How many slabs there are, and in which buffers. -/
abbrev shape (sm : SlabManager) : Nat × Nat := (sm.numBuffers, sm.slabsPerBuf)

theorem Calm.shape {sm sm' : SlabManager} (h : sm.Calm sm') : sm'.shape = sm.shape := by
  have same := h.reserves
  simp only [Prod.mk.injEq] at same
  rw [SlabManager.shape, SlabManager.shape, same.2.2.1, same.2.2.2.1]

theorem FreeValid.calm {sm sm' : SlabManager} (h : sm.FreeValid) (calm : sm.Calm sm') :
    sm'.FreeValid := by
  have same : sm'.slabsPerBuf = sm.slabsPerBuf := congrArg Prod.snd calm.shape
  constructor
  · rw [same]
    exact h.1
  · intro s mem
    apply (valid_of_reserves calm.reserves s).mpr
    exact (calm.free s mem).elim (h.2 s) id

theorem FreeValid.lt {sm : SlabManager} {s : Nat} (h : sm.FreeValid) (valid : sm.Valid s) :
    s < sm.numSlabs := by
  rw [numSlabs, Nat.mul_comm]
  exact (Nat.div_lt_iff_lt_mul h.1).mp valid

/-- What is handed out was free. -/
theorem wp_getFreeSlabs_mem (n : Nat) (sm : SlabManager) :
    wp (getFreeSlabs n) sm (fun slabIDs _ => ∀ s ∈ slabIDs, s ∈ sm.freeSlabs)
      (fun _ _ => True) := by
  induction n generalizing sm with
  | zero =>
    intro s none
    cases none
  | succ n ih =>
    rw [getFreeSlabs, wp_bind, wp_get]
    split
    · intro s none
      cases none
    · rename_i slabID rest front
      simp only [getFreeSlab, wp_bind, wp_get, wp_modify, wp_ite, wp_throw, wp_pure]
      split
      · trivial
      · split
        · trivial
        · apply wp_mono (ih _)
          · intro slabIDs _ later s mem
            rw [front]
            rcases List.mem_cons.mp mem with rfl | mem
            · exact List.mem_cons_self
            · exact List.mem_cons_of_mem _ (later s mem)
          · intro _ _ _
            trivial

end SlabManager

namespace Manager

/-- No vector is indexed beyond its end while a handler runs, however it ends. -/
def IndexesInside (m : Manager) (c : Nat) (f : Frame) : Prop :=
  wp (f.handle c) { m with outOfRange := false } (fun _ m' => m'.outOfRange = false)
    (fun _ m' => m'.outOfRange = false)

/-- More slabs than the client holds are refused at once. Otherwise no ID beyond
the vectors comes before the first in range that is not held. -/
def SlabsInRange (m : Manager) (c : Nat) (slabIDs : List Nat) : Prop :=
  (m.proxy c).slabs.prodSlabsHeld < slabIDs.length ∨
    ∀ before s after, slabIDs = before ++ s :: after →
      (∀ x ∈ before, (m.proxy c).slabs.prodSlabRefcnt x = true) → s < m.tracked c

/-- Every block is of a slab that the tracker knows. -/
def BlocksInRange (m : Manager) (c : Nat) (blockIDs : List Nat) : Prop :=
  ∀ b ∈ blockIDs, b / m.blocksPerSlab < m.tracked c

/-! ## The slabs of queued segments -/

/-- The free slabs are valid, and so are those of all queued segments and of the
segments `rest`. -/
structure Queued (rest : List WantedSegment) (m : Manager) : Prop where
  free : m.slabManager.FreeValid
  queued : ∀ c, ∀ seg ∈ (m.proxy c).wantedQueue,
    m.slabManager.Valid (seg.blockID / m.blocksPerSlab)
  rest : ∀ seg ∈ rest, m.slabManager.Valid (seg.blockID / m.blocksPerSlab)

section
variable {m m' : Manager} {rest : List WantedSegment}

theorem Queued.of_slabs (h : m.Queued rest) (params : m'.params = m.params)
    (free : m'.slabManager.FreeValid)
    (valid : ∀ s, m.slabManager.Valid s → m'.slabManager.Valid s)
    (queues : ∀ c, (m'.proxy c).wantedQueue ⊆ (m.proxy c).wantedQueue) : m'.Queued rest := by
  have same : m'.blocksPerSlab = m.blocksPerSlab := congrArg Params.blocksPerSlab params
  constructor
  · exact free
  · intro c seg mem
    rw [same]
    exact valid _ (h.queued c seg (queues c mem))
  · intro seg mem
    rw [same]
    exact valid _ (h.rest seg mem)

theorem Queued.setProxy (h : m.Queued rest) {c : Nat} {p : ClientProxy}
    (queue : ∀ seg ∈ p.wantedQueue, m.slabManager.Valid (seg.blockID / m.blocksPerSlab)) :
    (m.setProxy c p).Queued rest := by
  constructor
  · exact h.free
  · intro x
    by_cases here : x = c
    · rw [here, proxy_setProxy]
      exact queue
    · rw [proxy_setProxy_of_ne _ here]
      exact h.queued x
  · exact h.rest

end

instance (rest : List WantedSegment) : Orderly (Stays (Queued rest)) where
  inside {m m'} same calm _ _ h := by
    simp only [Manager.settings, Prod.mk.injEq] at same
    apply h.of_slabs same.1 (h.free.calm calm)
    · intro s valid
      exact (SlabManager.valid_of_reserves calm.reserves s).mpr valid
    · intro c
      rw [same.2.2.2.2.2.2]
      exact List.Subset.refl _
  proxy {m c p} _ fewer h := h.setProxy fun seg mem => h.queued c seg (fewer mem)
  queued {m c seg} valid h := h.setProxy fun seg' mem => by
    rcases List.mem_append.mp mem with old | new
    · exact h.queued c seg' old
    · rw [List.mem_singleton.mp new]
      exact valid

instance (rest : List WantedSegment) (c : Nat) (slabIDs : List Nat) :
    Moves (Stays (Queued rest)) (indexing c slabIDs) :=
  .modify fun _ h => h.of_slabs rfl h.free (fun _ => id) fun _ => List.Subset.refl _

instance (rest : List WantedSegment) : Sending (Stays (Queued rest)) where
  sending {_ c} _ _ h := h.setProxy (h.queued c)

instance (rest : List WantedSegment) : Reporting (Stays (Queued rest)) where
  reporting {_ c} _ _ h := h.setProxy (h.queued c)
  dropped _ _ h := h.of_slabs rfl h.free (fun _ => id) fun _ => List.Subset.refl _

instance (rest : List WantedSegment) : Registering (Stays (Queued rest)) where
  registering {_ c} _ h := h.setProxy (h.queued c)

instance (rest : List WantedSegment) : Wanting (Stays (Queued rest)) where
  wanting {_ c} _ h := h.setProxy (h.queued c)

instance (rest : List WantedSegment) : Ranking (Stays (Queued rest)) where
  ranking {_ c} _ h := h.setProxy (h.queued c)

instance (rest : List WantedSegment) : Grouping (Stays (Queued rest)) where
  groups _ h := h.of_slabs rfl h.free (fun _ => id) fun _ => List.Subset.refl _
  member {_ c} _ h := h.setProxy (h.queued c)

instance (rest : List WantedSegment) : Copying (Stays (Queued rest)) where
  blockInfo _ _ h := h.of_slabs rfl h.free (fun _ => id) fun _ => List.Subset.refl _

instance (rest : List WantedSegment) : Resizing (Stays (Queued rest)) where
  resized {_ c} _ _ h := h.setProxy (h.queued c)

instance (rest : List WantedSegment) : Reserving (Stays (Queued rest)) where
  reserved _ h := h.of_slabs rfl h.free (fun _ => id) fun _ => List.Subset.refl _
  granted {_ c} _ _ h := h.setProxy (h.queued c)

instance (rest : List WantedSegment) (n : Nat) :
    Moves (Stays (Queued rest)) (increaseNumBuffers n) := .stays fun m h => by
  have mapped (shm : ShmMapper) : Queued rest { m with shmMapper := shm } :=
    h.of_slabs rfl h.free (fun _ => id) fun _ => List.Subset.refl _
  apply wp_increaseNumBuffers_cases
  case still =>
    intro _ _
    exact h
  case fails =>
    intro _ shm _ _ _
    exact mapped shm
  case unlocked =>
    intro _ shm _ _ _ _
    exact mapped shm
  case grown =>
    intro k shm _ _ _
    have grown : Queued rest (m.grownTo (m.shmMapper.numBuffers + k) shm) :=
      h.of_slabs rfl (SlabManager.freeValid_setNumBuffers h.free _)
        (fun s => SlabManager.valid_setNumBuffers _) fun _ => List.Subset.refl _
    exact Moves.wp_stays grown

/-- The queue that a destructor empties is the client's own. -/
instance (c : Nat) : Moves (Stays (Queued []))
    (getProxy c >>= fun p => releaseQueue c p.wantedQueue) := .stays fun m h => by
  have empties (queue : List WantedSegment) (m : Manager) (h : m.Queued queue) :
      wp (releaseQueue c queue) m (fun _ => Queued []) (fun _ => Queued []) := by
    induction queue generalizing m with
    | nil => exact h
    | cons seg queue ih =>
      have fewer : m.Queued queue :=
        ⟨h.free, h.queued, fun seg mem => h.rest seg (List.mem_cons_of_mem _ mem)⟩
      rw [releaseQueue, wp_bind, wp_modifyProxy, wp_bind]
      apply wp_mono (Moves.wp_stays (fewer.setProxy fewer.rest))
      · intro _ m' released
        exact ih m' released
      · intro _ m' left
        exact ⟨left.free, left.queued, by simp⟩
  rw [wp_bind, wp_getProxy]
  exact empties _ m ⟨h.free, h.queued, h.queued c⟩

theorem queued_new {params : Params} {slabManager : SlabManager}
    (made : slabManager = SlabManager.new params.slabsPerBuf params.numBuffers
      params.pctNonreservable) : Queued [] { params, slabManager } := by
  constructor
  · rw [made]
    apply SlabManager.freeValid_setNumBuffers
    constructor
    · exact params.slabs_pos
    · intro s none
      cases none
  · intro c seg none
    cases none
  · intro seg none
    cases none

theorem start_queued {params : Params} {m : Manager} (h : start params = some m) : m.Queued [] := by
  refine start_eq_some (Q := Queued []) (E := fun _ _ => True) ?_ h
  intro slabManager made
  apply wp_mono (Moves.wp_stays (queued_new made))
  · intro _ _
    exact id
  · intro _ _ _
    trivial

theorem Run.queued {params : Params} {ok : History → Manager → Event → Prop} {hist : History}
    {m : Manager} (run : Run params ok hist m) : m.Queued [] := by
  apply run.invariant
  case first =>
    intro m first
    exact start_queued first
  case connect =>
    intro m addr accepts queued
    apply Gentle.wp_addConnectedClient (R := Stays (Queued [])) queued
    intro c next m' _ stays
    have numbered : Queued [] { m with nextNewClientID := next } :=
      queued.of_slabs rfl queued.free (fun _ => id) fun _ => List.Subset.refl _
    have queued' := stays (numbered.setProxy fun seg none => by cases none)
    constructor
    · exact queued'.of_slabs rfl queued'.free (fun _ => id) fun _ => List.Subset.refl _
    · exact queued'
  case delete =>
    intro m c queued
    apply wp_deleteClient.mpr
    have erased : Queued [] { m with clients := m.clients.erase c } :=
      queued.of_slabs rfl queued.free (fun _ => id) fun _ => List.Subset.refl _
    apply wp_mono (Moves.wp_stays erased)
    · intro _ _
      exact id
    · intro _ _ _
      trivial
  case handle =>
    intro m c f _ queued
    have moves : Moves (Stays (Queued [])) (f.handle c) := by
      apply Gentle.moves_handle
      · intro type cid gid msgIDs _
        infer_instance
      · intro new current _
        infer_instance
      · intro level _
        infer_instance
    exact Moves.wp_stays queued

/-! ## The lengths of the vectors -/

/-- A vector of `n` entries has one for every slab there can be. It has none
where the initial buffers were refused. -/
def Spans (m : Manager) (n : Nat) : Prop :=
  (m.params.numBuffers ≤ m.params.maxNumBuffers → m.slabManager.numSlabs ≤ n) ∧
    (m.params.maxNumBuffers < m.params.numBuffers → n = 0)

/-- The clients `cs` are not in the map yet. -/
structure Spanned (cs : List Nat) (m : Manager) : Prop where
  perBuf : m.slabManager.slabsPerBuf = m.params.slabsPerBuf
  total : m.Spans m.totalNumSlabs
  trackers : ∀ c, c ∈ m.clients ∨ c ∈ cs → m.Spans (m.tracked c)

section
variable {m m' : Manager} {cs cs' : List Nat}

theorem Spans.of_eq {n n' : Nat} (h : m.Spans n) (params : m'.params = m.params)
    (slabs : m'.slabManager.numSlabs = m.slabManager.numSlabs) (same : n' = n) : m'.Spans n' := by
  rw [Spans, params, slabs, same]
  exact h

theorem Spanned.fewer (h : m.Spanned cs) (params : m'.params = m.params)
    (shm : m'.shmMapper = m.shmMapper) (slabs : m'.slabManager.shape = m.slabManager.shape)
    (tracked : ∀ c, c ∈ m'.clients ∨ c ∈ cs' →
      (c ∈ m.clients ∨ c ∈ cs) ∧ m'.tracked c = m.tracked c) : m'.Spanned cs' := by
  simp only [SlabManager.shape, Prod.mk.injEq] at slabs
  have count : m'.slabManager.numSlabs = m.slabManager.numSlabs := by
    rw [SlabManager.numSlabs, SlabManager.numSlabs, slabs.1, slabs.2]
  constructor
  · rw [slabs.2, params]
    exact h.perBuf
  · apply h.total.of_eq params count
    rw [totalNumSlabs, totalNumSlabs, params, shm]
  · intro c counted
    exact (h.trackers c (tracked c counted).1).of_eq params count (tracked c counted).2

theorem Spanned.of_views (h : m.Spanned cs) (params : m'.params = m.params)
    (clients : m'.clients = m.clients) (shm : m'.shmMapper = m.shmMapper)
    (slabs : m'.slabManager.shape = m.slabManager.shape)
    (tracked : m'.tracked = m.tracked) : m'.Spanned cs := by
  apply h.fewer params shm slabs
  intro c counted
  constructor
  · exact clients ▸ counted
  · rw [tracked]

theorem Spanned.setProxy (h : m.Spanned cs) {c : Nat} {p : ClientProxy}
    (same : p.slabs.totalNumSlabs = (m.proxy c).slabs.totalNumSlabs) :
    (m.setProxy c p).Spanned cs :=
  h.of_views rfl rfl rfl rfl (inner_setProxy (fun p => p.slabs.totalNumSlabs) same)

theorem Spanned.resize {cs : List Nat} (h : m.Spanned []) (resized : m.Resized cs m') :
    m'.Spanned cs := by
  have count : m'.slabManager.numSlabs = m.slabManager.numSlabs := by rw [resized.slabs]
  have total : m'.totalNumSlabs = m.totalNumSlabs := by
    rw [totalNumSlabs, totalNumSlabs, resized.params, resized.shm]
  constructor
  · rw [resized.slabs, resized.params]
    exact h.perBuf
  · exact h.total.of_eq resized.params count total
  · intro c counted
    by_cases listed : c ∈ cs
    · exact h.total.of_eq resized.params count (resized.listed c listed)
    · apply (h.trackers c _).of_eq resized.params count (resized.others c listed)
      exact .inl (resized.clients ▸ counted.resolve_right listed)

end

instance (cs : List Nat) : Steady (Stays (Spanned cs)) where
  inside {m m'} same calm _ h := by
    simp only [Manager.settings, Prod.mk.injEq] at same
    apply h.of_views same.1 same.2.1 same.2.2.1 calm.shape
    funext c
    rw [tracked, tracked, same.2.2.2.2.2.2]
  proxy same h := by
    simp only [ClientProxy.settings, SlabTracker.sizes, Prod.mk.injEq] at same
    apply h.setProxy
    simp only [same]

instance (cs : List Nat) : Sending (Stays (Spanned cs)) where
  sending _ _ h := h.setProxy rfl

instance (cs : List Nat) : Reporting (Stays (Spanned cs)) where
  reporting _ _ h := h.setProxy rfl
  dropped _ _ h := h.of_views rfl rfl rfl rfl rfl

instance (cs : List Nat) : Registering (Stays (Spanned cs)) where
  registering _ h := h.setProxy rfl

instance (cs : List Nat) : Wanting (Stays (Spanned cs)) where
  wanting _ h := h.setProxy rfl

instance (cs : List Nat) : Ranking (Stays (Spanned cs)) where
  ranking _ h := h.setProxy rfl

instance (cs : List Nat) : Grouping (Stays (Spanned cs)) where
  groups _ h := h.of_views rfl rfl rfl rfl rfl
  member _ h := h.setProxy rfl

instance (cs : List Nat) : Copying (Stays (Spanned cs)) where
  blockInfo _ _ h := h.of_views rfl rfl rfl rfl rfl

instance (cs : List Nat) : Reserving (Stays (Spanned cs)) where
  reserved _ h := h.of_views rfl rfl rfl rfl rfl
  granted _ _ h := h.setProxy rfl

/-- Every vector is resized to the buffers mapped, and the slab manager has no more. -/
theorem Spanned.grow {m m' : Manager} {cs : List Nat} {b : Nat} {shm : ShmMapper}
    (perBuf : m.slabManager.slabsPerBuf = m.params.slabsPerBuf)
    (fits : m.params.numBuffers ≤ m.params.maxNumBuffers)
    (enough : m.slabManager.numBuffers ≤ b) (buffers : shm.numBuffers = b)
    (all : ∀ c, c ∈ m.clients → c ∈ cs) (resized : (m.grownTo b shm).Resized cs m') :
    m'.Spanned [] := by
  have perBuf : m'.slabManager.slabsPerBuf = m'.params.slabsPerBuf := by
    rw [resized.slabs, resized.params]
    exact (SlabManager.slabsPerBuf_setNumBuffers ..).trans perBuf
  have total : m'.totalNumSlabs = m'.slabManager.numSlabs := by
    rw [totalNumSlabs, SlabManager.numSlabs, perBuf, resized.shm, resized.slabs]
    show _ * shm.numBuffers = _ * (m.slabManager.setNumBuffers b).numBuffers
    rw [numBuffers_setNumBuffers, max_eq_right enough, buffers]
  have spans : m'.Spans m'.totalNumSlabs := by
    constructor
    · intro _
      exact total.ge
    · intro tooMany
      rw [resized.params] at tooMany
      exact absurd fits (Nat.not_le.mpr tooMany)
  constructor
  · exact perBuf
  · exact spans
  · rintro c (live | none)
    · have listed := resized.listed c (all c (resized.clients ▸ live))
      rw [listed]
      apply spans.of_eq rfl rfl
      rw [totalNumSlabs, totalNumSlabs, resized.params, resized.shm]
    · cases none

instance : Moves (Stays (Spanned [])) (increaseNumBuffers 0) := .stays fun m h => by
  have fits {k : Nat} (tries : m.Tries 0 k) : m.params.numBuffers ≤ m.params.maxNumBuffers := by
    by_contra tooMany
    rcases Nat.mul_eq_zero.mp (h.total.2 (Nat.not_le.mp tooMany)) with none | none
    · exact m.params.slabs_pos.ne' none
    · exact tries.other none.symm
  have mapped {k : Nat} (tries : m.Tries 0 k) (shm : ShmMapper)
      (more : m.shmMapper.numBuffers ≤ shm.numBuffers) :
      Spanned [] { m with shmMapper := shm } := by
    constructor
    · exact h.perBuf
    · constructor
      · intro _
        exact (h.total.1 (fits tries)).trans (Nat.mul_le_mul_left _ more)
      · intro tooMany
        exact absurd (fits tries) (Nat.not_le.mpr tooMany)
    · intro c counted
      exact h.trackers c counted
  apply wp_increaseNumBuffers_cases
  case still =>
    intro _ _
    exact h
  case fails =>
    rintro k shm tries ⟨j, _, made, all, _, rfl⟩ what
    apply mapped tries
    exact all.1.symm ▸ Nat.le_add_right _ _
  case unlocked =>
    intro k shm tries all _ what
    apply mapped tries
    exact all.1.symm ▸ Nat.le_add_right _ _
  case grown =>
    intro k shm tries all _
    have enough : m.slabManager.numBuffers ≤ m.shmMapper.numBuffers := by
      have total := h.total.1 (fits tries)
      rw [SlabManager.numSlabs, h.perBuf] at total
      exact Nat.le_of_mul_le_mul_left total m.params.slabs_pos
    apply wp_mono (wp_resizeAll m.clients _)
    · intro _ m' resized
      apply Spanned.grow h.perBuf (fits tries) _ all.1 (fun _ => id) resized
      exact enough.trans (Nat.le_add_right _ k)
    · intro _ _
      exact False.elim

theorem start_spanned {params : Params} {m : Manager} (h : start params = some m) :
    m.Spanned [] := by
  refine start_eq_some (Q := Spanned []) (E := fun _ _ => True) ?_ h
  intro slabManager made
  have perBuf : slabManager.slabsPerBuf = params.slabsPerBuf := by
    rw [made]
    exact SlabManager.slabsPerBuf_setNumBuffers ..
  have buffers : slabManager.numBuffers = params.numBuffers := by
    rw [made, SlabManager.new, numBuffers_setNumBuffers]
    exact Nat.zero_max _
  have asked (n : Nat) (some : n ≠ 0) : buffersAsked { params, slabManager } n = n := if_neg some
  apply wp_increaseNumBuffers_cases
  case still =>
    intro _ refused
    constructor
    · exact perBuf
    · constructor
      · intro fits
        have none : params.numBuffers = 0 := by
          by_contra some
          rw [asked _ some] at refused
          rcases refused with ⟨-, zero⟩ | ⟨-, more | fewer⟩
          · exact some zero
          · exact absurd fits (Nat.not_le.mpr more)
          · cases fewer
        show slabManager.slabsPerBuf * slabManager.numBuffers ≤ _
        rw [buffers, none]
        exact Nat.zero_le _
      · intro _
        rfl
    · rintro c (live | none)
      · cases live
      · cases none
  case fails =>
    intro _ _ _ _ _
    trivial
  case unlocked =>
    intro _ _ _ _ _ _
    trivial
  case grown =>
    intro k shm tries all _
    have target : params.numBuffers = 0 + k := (asked _ tries.other).symm.trans tries.asked
    have inside : params.numBuffers ≤ params.maxNumBuffers := target.trans_le tries.max
    apply wp_mono (wp_resizeAll [] _)
    · intro _ m' resized
      apply Spanned.grow (m := { params, slabManager }) perBuf inside _ all.1 (fun _ => id) resized
      exact (buffers.trans target).le
    · intro _ _ _
      trivial

theorem Run.spanned {params : Params} {ok : History → Manager → Event → Prop} {hist : History}
    {m : Manager} (run : Run params ok hist m) : m.Spanned [] := by
  apply run.invariant
  case first =>
    intro m first
    exact start_spanned first
  case connect =>
    intro m addr accepts spanned
    apply wp_addConnectedClient_sized (P := Spanned) spanned
    case fresh =>
      intro c next new
      apply spanned.fewer
      case tracked =>
        rintro x (live | none)
        · have ne : x ≠ c := fun here => new (here ▸ live)
          rw [tracked, proxy_setProxy_of_ne _ ne]
          exact ⟨.inl live, rfl⟩
        · cases none
      all_goals rfl
    case resize =>
      intro m c spanned
      apply wp_mono (m.wp_checkBufferParams c)
      · intro _ m' resized
        exact spanned.resize resized
      · intro _ _
        exact False.elim
    case join =>
      intro m c filled
      apply filled.fewer
      case tracked =>
        rintro x (live | none)
        · rw [List.mem_orderedInsert] at live
          exact ⟨live.symm.imp_right List.mem_singleton.mpr, rfl⟩
        · cases none
      all_goals rfl
    case drop =>
      intro m c left
      apply left.fewer
      case tracked =>
        rintro x (live | none)
        · exact ⟨.inl live, rfl⟩
        · cases none
      all_goals rfl
  case delete =>
    intro m c spanned
    apply wp_deleteClient.mpr
    have erased : Spanned [] { m with clients := m.clients.erase c } := by
      apply spanned.fewer
      case tracked =>
        rintro x (live | none)
        · exact ⟨.inl (List.mem_of_mem_erase live), rfl⟩
        · cases none
      all_goals rfl
    apply wp_mono (Moves.wp_stays erased)
    · intro _ _
      exact id
    · intro _ _ _
      trivial
  case handle =>
    intro m c f _ spanned
    have moves : Moves (Stays (Spanned [])) (f.handle c) := by
      apply Gentle.moves_handle
      · intro type cid gid msgIDs _
        infer_instance
      · intro new current _
        infer_instance
      · intro level _
        infer_instance
    exact Moves.wp_stays spanned

/-! ## Within a handler -/

/-- Client `c` is connected, every slab that can be handed out is within the
vectors of every client, and none was indexed beyond its end. -/
structure Inside (c : Nat) (m : Manager) : Prop where
  live : c ∈ m.clients
  queued : m.Queued []
  covered : ∀ x ∈ m.clients, m.slabManager.numSlabs ≤ m.tracked x
  fine : m.outOfRange = false

section
variable {m m' : Manager} {c : Nat}

theorem Inside.of_eq (h : m.Inside c) (clients : m'.clients = m.clients)
    (shape : m'.slabManager.shape = m.slabManager.shape) (tracked : m'.tracked = m.tracked)
    (fine : m'.outOfRange = m.outOfRange) (queued : m'.Queued []) : m'.Inside c := by
  simp only [Prod.mk.injEq] at shape
  constructor
  · rw [clients]
    exact h.live
  · exact queued
  · rw [clients, SlabManager.numSlabs, shape.1, shape.2, tracked]
    exact h.covered
  · rw [fine]
    exact h.fine

theorem Inside.setProxy (h : m.Inside c) {x : Nat} {p : ClientProxy}
    (same : p.slabs.totalNumSlabs = (m.proxy x).slabs.totalNumSlabs)
    (queued : (m.setProxy x p).Queued []) : (m.setProxy x p).Inside c :=
  h.of_eq rfl rfl (inner_setProxy (fun p => p.slabs.totalNumSlabs) same) rfl queued

theorem Inside.lt (h : m.Inside c) {x s : Nat} (live : x ∈ m.clients)
    (valid : m.slabManager.Valid s) : s < m.tracked x :=
  (h.queued.free.lt valid).trans_le (h.covered x live)

theorem any_beyond {n : Nat} {slabIDs : List Nat} :
    slabIDs.any (n ≤ ·) = false ↔ ∀ s ∈ slabIDs, s < n := by
  simp

theorem Inside.indexing (h : m.Inside c) {x : Nat} {slabIDs : List Nat}
    (within : ∀ s ∈ slabIDs, s < m.tracked x) :
    wp (indexing x slabIDs) m (fun _ m' => m'.Inside c ∧ m'.clients = m.clients)
      (fun _ _ => False) := by
  rw [Mcsb.indexing, wp_modify]
  constructor
  · apply h.of_eq
    case fine =>
      rw [h.fine, Bool.false_or]
      exact any_beyond.mpr within
    case queued =>
      exact h.queued.of_slabs rfl h.queued.free (fun _ => id) fun _ => List.Subset.refl _
    all_goals rfl
  · rfl

end

instance (c : Nat) : Orderly (Stays (Inside c)) where
  inside {m m'} same calm limit fine h := by
    have queued := Orderly.inside (R := Stays (Queued [])) same calm limit fine h.queued
    simp only [Manager.settings, Prod.mk.injEq] at same
    apply h.of_eq same.2.1 calm.shape _ fine queued
    funext x
    rw [tracked, tracked, same.2.2.2.2.2.2]
  proxy {m x p} same fewer h := by
    have queued := Orderly.proxy (R := Stays (Queued [])) same fewer h.queued
    simp only [ClientProxy.settings, SlabTracker.sizes, Prod.mk.injEq] at same
    apply h.setProxy _ queued
    simp only [same]
  queued valid h := h.setProxy rfl (Orderly.queued (R := Stays (Queued [])) valid h.queued)

instance (c : Nat) : Sending (Stays (Inside c)) where
  sending sock failed h :=
    h.setProxy rfl (Sending.sending (R := Stays (Queued [])) sock failed h.queued)

instance (c : Nat) : Reporting (Stays (Inside c)) where
  reporting reporter log h :=
    h.setProxy rfl (Reporting.reporting (R := Stays (Queued [])) reporter log h.queued)
  dropped segs bytes h := h.of_eq rfl rfl rfl rfl
    (Reporting.dropped (R := Stays (Queued [])) segs bytes h.queued)

section
variable {m : Manager} {c x : Nat} {slabIDs : List Nat}

/-- Valid slabs are inserted within range. -/
theorem Inside.takeFreeSlabs (h : m.Inside c) (live : x ∈ m.clients)
    (valid : ∀ s ∈ slabIDs, m.slabManager.Valid s) :
    wp (takeFreeSlabs x slabIDs) m (fun _ => Inside c) (fun _ => Inside c) := by
  rw [Mcsb.takeFreeSlabs, wp_bind]
  apply wp_mono (h.indexing fun s mem => h.lt live (valid s mem))
  · intro _ m' next
    exact Moves.wp_stays next.1
  · intro _ _
    exact False.elim

/-- Free slabs are handed out within range. -/
theorem Inside.grant (h : m.Inside c) (live : x ∈ m.clients) (n : Nat) :
    wp (onSlabs (SlabManager.getFreeSlabs n)) m
      (fun slabIDs m' => m'.Inside c ∧ wp (Mcsb.takeFreeSlabs x slabIDs) m'
        (fun _ => Inside c) (fun _ => Inside c)) (fun _ => Inside c) := by
  have stays := Moves.wp_stays (P := Inside c) (x := onSlabs (SlabManager.getFreeSlabs n)) h
  rw [wp_onSlabs] at stays ⊢
  have calm := Moves.moves (R := SlabManager.Calm) (x := SlabManager.getFreeSlabs n) m.slabManager
  apply wp_mono (wp_and stays (wp_and calm (SlabManager.wp_getFreeSlabs_mem n m.slabManager)))
  · rintro slabIDs sm ⟨inside, calm, free⟩
    constructor
    · exact inside
    · apply inside.takeFreeSlabs live
      intro s mem
      apply (SlabManager.valid_of_reserves calm.reserves s).mpr
      exact h.queued.free.2 s (free s mem)
  · rintro _ sm ⟨inside, -⟩
    exact inside

end

instance (c level : Nat) (req : SlabRequest) :
    Moves (Stays (Inside c)) (serveRequest level req) := .stays fun m h => by
  rw [serveRequest, wp_bind, wp_get]
  by_cases live : req.id ∈ m.clients ∧ (m.proxy req.id).addr = req.arg
  · rw [if_pos live, wp_bind]
    apply wp_mono (h.grant live.1 1)
    · rintro slabIDs m' ⟨-, taken⟩
      exact Moves.wp_bind_stays taken
    · intro _ _
      exact id
  · rw [if_neg live]
    exact h

instance (c n : Nat) (niceLevel : Int) :
    Moves (Stays (Inside c)) (requestFreeSlabs n c niceLevel) := .stays fun m h => by
  rw [requestFreeSlabs, wp_bind, wp_get]
  by_cases nice : niceLevel + (if m.params.playbackMode then 1 else 0) ≠ 0
  · rw [if_pos nice]
    exact Moves.wp_stays h
  · rw [if_neg nice, wp_ite]
    split
    · exact h
    · rw [wp_bind]
      apply wp_mono (Moves.wp_stays h)
      · intro _ m' inside
        rw [wp_bind]
        apply wp_mono (inside.grant inside.live n)
        · rintro slabIDs m'' ⟨-, taken⟩
          exact taken
        · intro _ _
          exact id
      · intro _ _
        exact id

section
variable {m : Manager} {c : Nat}

theorem Inside.takeConsSlab (h : m.Inside c) {s : Nat} (valid : m.slabManager.Valid s) :
    wp (takeConsSlab c s) m (fun _ => Inside c) (fun _ => Inside c) := by
  rw [Mcsb.takeConsSlab, wp_bind, wp_modify, wp_bind]
  have looks (limitReached : Bool) : wp (Mcsb.indexing c [s]) { m with limitReached }
      (fun _ m' => m'.Inside c ∧ m'.clients = m.clients) (fun _ _ => False) := by
    apply Inside.indexing
    · exact h.of_eq rfl rfl rfl rfl
        (h.queued.of_slabs rfl h.queued.free (fun _ => id) fun _ => List.Subset.refl _)
    · intro t mem
      rw [List.mem_singleton.mp mem]
      exact h.lt h.live valid
  apply wp_mono (looks _)
  · intro _ m' next
    exact Moves.wp_stays next.1
  · intro _ _
    exact False.elim

theorem Inside.popWanted (h : m.Inside c) {seg : WantedSegment}
    (valid : m.slabManager.Valid (seg.blockID / m.blocksPerSlab)) :
    wp (popWanted c seg) m (fun _ => Inside c) (fun _ => Inside c) := by
  rw [Mcsb.popWanted, wp_bind, wp_get, wp_ite]
  split
  · exact Moves.wp_bind_stays (h.takeConsSlab valid)
  · exact Moves.wp_stays h

end

instance (c fuel : Nat) : Moves (Stays (Inside c)) (popLoop c fuel) := .stays fun m h => by
  induction fuel generalizing m with
  | zero => exact h
  | succ fuel ih =>
    rw [popLoop, wp_bind, wp_getProxy]
    split
    · exact h
    · rename_i seg queue front
      have valid := h.queued.queued c seg (front ▸ List.mem_cons_self)
      rw [wp_bind]
      apply wp_mono (h.popWanted valid)
      · intro again m' inside
        cases again with
        | false => exact inside
        | true => exact ih m' inside
      · intro _ _
        exact id

/-- Once a vector was indexed beyond its end, that is so for good. -/
def Beyond (m : Manager) : Prop := m.outOfRange = true

instance : Orderly (Stays Beyond) where
  inside _ _ _ same h := same.trans h
  proxy _ _ h := h
  queued _ h := h

instance (c : Nat) (slabIDs : List Nat) : Moves (Stays Beyond) (indexing c slabIDs) :=
  .modify fun _ h => Bool.or_eq_true_iff.mpr (.inl h)

instance : Sending (Stays Beyond) where
  sending _ _ h := h

instance : Reporting (Stays Beyond) where
  reporting _ _ h := h
  dropped _ _ h := h

/-- The rest of a handler that is fine unless it starts beyond. -/
theorem wp_fine_iff {x : Act Unit} [Moves (Stays Beyond) x] {m : Manager}
    (fine : m.outOfRange = false →
      wp x m (fun _ m' => m'.outOfRange = false) (fun _ m' => m'.outOfRange = false)) :
    wp x m (fun _ m' => m'.outOfRange = false) (fun _ m' => m'.outOfRange = false) ↔
      m.outOfRange = false := by
  constructor
  · intro ends
    by_contra beyond
    have beyond : m.Beyond := Bool.of_not_eq_false beyond
    apply of_wp
    apply wp_mono (wp_and ends (Moves.wp_stays beyond))
    · rintro _ m' ⟨no, yes⟩
      exact Bool.false_ne_true (no.symm.trans yes)
    · rintro _ m' ⟨no, yes⟩
      exact Bool.false_ne_true (no.symm.trans yes)
  · exact fine

theorem Inside.wp_fine {x : Act Unit} {m : Manager} {c : Nat} [Moves (Stays (Inside c)) x]
    (h : m.Inside c) :
    wp x m (fun _ m' => m'.outOfRange = false) (fun _ m' => m'.outOfRange = false) :=
  wp_mono (Moves.wp_stays h) (fun _ _ inside => inside.fine) (fun _ _ inside => inside.fine)

/-- A client whose tracker knows a slab at all is inside. -/
theorem Spanned.inside {m : Manager} {c : Nat} (h : m.Spanned []) (queued : m.Queued [])
    (live : c ∈ m.clients) (some : m.tracked c ≠ 0) {outOfRange : Bool}
    (fine : outOfRange = false) : Inside c { m with outOfRange } := by
  have fits : m.params.numBuffers ≤ m.params.maxNumBuffers := by
    by_contra tooMany
    exact some ((h.trackers c (.inl live)).2 (Nat.not_le.mp tooMany))
  constructor
  · exact live
  · exact queued.of_slabs rfl queued.free (fun _ => id) fun _ => List.Subset.refl _
  · intro x live
    exact (h.trackers x (.inl live)).1 fits
  · exact fine

/-! ## The two frames of IDs -/

section
variable {m : Manager} {c : Nat} {ids : List Nat}

theorem slabsInRange_iff : m.SlabsInRange c ids ↔
    ∀ s ∈ (m.proxy c).slabs.erasing ids, s < m.tracked c := by
  rw [SlabsInRange, SlabTracker.erasing]
  split
  · rename_i tooMany
    apply iff_of_true (.inl tooMany)
    intro s none
    cases none
  · rename_i few
    rw [SlabTracker.lookedUp_lt_iff]
    exact or_iff_right few

theorem indexesInside_slabs_iff (spanned : m.Spanned []) (queued : m.Queued [])
    (live : c ∈ m.clients) (some : ids ≠ []) :
    m.IndexesInside c (.slabIDs ids) ↔ m.SlabsInRange c ids := by
  rw [slabsInRange_iff, ← any_beyond]
  show wp (handleSlabIDs c ids) _ _ _ ↔ _
  simp only [handleSlabIDs, releaseProdSlabs, bind_assoc, wp_bind (x := getProxy c), wp_getProxy]
  rw [wp_bind, indexing, wp_modify]
  have fill : Moves (Stays Beyond) (fillProducerSlabs c) := inferInstance
  apply wp_fine_iff
  intro fine
  by_cases tooMany : (m.proxy c).slabs.prodSlabsHeld < ids.length
  · rw [wp_bind, wp_onTracker]
    apply SlabTracker.wp_eraseProdSlabs_tooMany tooMany
    intro _
    exact fine
  · have within := any_beyond.mp fine
    rw [SlabTracker.erasing, if_neg tooMany] at within
    obtain ⟨s, rest, rfl⟩ := List.exists_cons_of_ne_nil some
    have first := within s List.mem_cons_self
    exact (spanned.inside queued live (Nat.ne_zero_of_lt first) fine).wp_fine

theorem indexesInside_blocks_iff (spanned : m.Spanned []) (queued : m.Queued [])
    (live : c ∈ m.clients) (some : ids ≠ []) :
    m.IndexesInside c (.blockIDs ids) ↔ m.BlocksInRange c ids := by
  rw [BlocksInRange, ← List.forall_mem_map (f := (· / m.blocksPerSlab)) (P := (· < m.tracked c)),
    ← any_beyond]
  show wp (handleBlockIDs c ids) _ _ _ ↔ _
  rw [handleBlockIDs, wp_bind, wp_get]
  dsimp only
  rw [wp_bind, indexing, wp_modify]
  apply wp_fine_iff
  intro fine
  have within := any_beyond.mp fine
  obtain ⟨b, rest, rfl⟩ := List.exists_cons_of_ne_nil some
  have first := within (b / m.blocksPerSlab) List.mem_cons_self
  exact (spanned.inside queued live (Nat.ne_zero_of_lt first) fine).wp_fine

end

/-- A frame of IDs stays within the vectors exactly if no ID out of range comes
up before something is refused. -/
theorem indexesInside_iff {params : Params} {hist : History} {m : Manager}
    (run : Run params (fun _ _ _ => True) hist m) {c : Nat} (live : c ∈ m.clients) {ids : List Nat}
    (some : ids ≠ []) : (m.IndexesInside c (.slabIDs ids) ↔ m.SlabsInRange c ids) ∧
      (m.IndexesInside c (.blockIDs ids) ↔ m.BlocksInRange c ids) := by
  constructor
  · exact indexesInside_slabs_iff run.spanned run.queued live some
  · exact indexesInside_blocks_iff run.spanned run.queued live some

theorem indexesInside_iff_fourSlabs : ∃ hist m,
    trace fourSlabs (fun _ _ _ => True) (asksFor 1 1) = some (hist, m) ∧
      (m.IndexesInside 0 (.slabIDs [0, 4]) ↔ m.SlabsInRange 0 [0, 4]) ∧
        (m.IndexesInside 0 (.blockIDs [0, 4]) ↔ m.BlocksInRange 0 [0, 4]) := by
  have ran : (trace fourSlabs (fun _ _ _ => True) (asksFor 1 1)).any
      (fun run => 0 ∈ run.2.clients) = true := by
    decide +kernel
  obtain ⟨⟨hist, m⟩, eq, live⟩ := (Option.any_eq_true _ _).mp ran
  have live : 0 ∈ m.clients := of_decide_eq_true live
  exact ⟨hist, m, eq, indexesInside_iff (run_of_trace eq) live (by decide)⟩

/-- The client holds slab 0 of four, and names another beyond the last. -/
theorem not_indexesInside :
    (¬ ∀ params hist m, Run params (fun _ _ _ => True) hist m → ∀ c ∈ m.clients, ∀ ids ≠ [],
      m.IndexesInside c (.slabIDs ids)) ∧
    ¬ ∀ params hist m, Run params (fun _ _ _ => True) hist m → ∀ c ∈ m.clients, ∀ ids ≠ [],
      m.IndexesInside c (.blockIDs ids) := by
  have ran : (trace fourSlabs (fun _ _ _ => True) (asksFor 1 1)).any (fun run =>
      0 ∈ run.2.clients ∧ (run.2.proxy 0).slabs.prodSlabsHeld = 1 ∧ run.2.tracked 0 = 4 ∧
        run.2.blocksPerSlab = 1) = true := by
    decide +kernel
  obtain ⟨⟨hist, m⟩, eq, found⟩ := (Option.any_eq_true _ _).mp ran
  obtain ⟨live, held, length, perSlab⟩ := of_decide_eq_true found
  dsimp only at live held length perSlab
  have run := run_of_trace eq
  constructor
  · intro all
    have inRange (ids : List Nat) (some : ids ≠ []) : m.SlabsInRange 0 ids :=
      (indexesInside_slabs_iff run.spanned run.queued live some).mp (all _ _ _ run 0 live ids some)
    rcases inRange [4] (List.cons_ne_nil _ _) with tooMany | within
    · rw [held] at tooMany
      exact absurd tooMany (by decide)
    · have lt := within [] 4 [] rfl (by simp)
      rw [length] at lt
      exact absurd lt (by decide)
  · intro all
    have inRange (ids : List Nat) (some : ids ≠ []) : m.BlocksInRange 0 ids :=
      (indexesInside_blocks_iff run.spanned run.queued live some).mp (all _ _ _ run 0 live ids some)
    have lt := inRange [4] (List.cons_ne_nil _ _) 4 (by simp)
    rw [length, perSlab] at lt
    exact absurd lt (by decide)

end Manager
end Mcsb
