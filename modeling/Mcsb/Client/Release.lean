import Mathlib.Data.List.Count
import Mcsb.Client.Descriptors

/-!
# Slabs in and out

Slabs are added and handed back, and the segments of a live descriptor are
released to their slabs.
-/

namespace Mcsb
namespace ClientSendManager

variable {p : SizeParams} {m m' : ClientSendManager} {fit : Prop} {live loose : List Nat} {g d : Nat}

/-! ## Slabs come and go -/

theorem Sound.moves (h : Sound fit p m live loose)
    (moved : ∀ busy : Nat → Prop, (∀ s, (m.slabInfo s).refcount ≠ 0 → busy s) → Moves busy m m')
    (few : m'.workingSlabs.length ≤ m'.maxWorkingSlabs) : Sound fit p m' live loose := by
  have any := moved (fun _ => True) fun _ _ => trivial
  obtain ⟨segs, -, busySegs, -⟩ := any.segs
  constructor
  case lists => exact h.lists.moves any
  case pooled => exact h.pooled.moves any
  case few => exact few
  case owns =>
    have next : m'.next = m.next := by
      funext x
      simp only [ClientSendManager.next, segs]
    unfold Owns
    rw [next, busySegs]
    exact h.owns
  case counts => exact fun fits => (h.counts fits).moves (moved _ fun _ refs => refs)

theorem Sound.setMaxWorkingSlabs (h : Sound fit p m live loose) (max : Nat) :
    Sound fit p (m.setMaxWorkingSlabs max) live loose := by
  have set (busy : Nat → Prop) (counted : ∀ s, (m.slabInfo s).refcount ≠ 0 → busy s) :=
    h.lists.setMaxWorkingSlabs counted max
  obtain ⟨-, few, -, limit⟩ := set (fun _ => True) fun _ _ => trivial
  exact h.moves (fun busy counted => (set busy counted).1) (limit.symm ▸ few)

theorem Sound.flushWorkingSlabs (h : Sound fit p m live loose) :
    Sound fit p m.flushWorkingSlabs live loose :=
  h.moves (fun _ counted => (h.lists.flushWorkingSlabs counted).1)
    (h.lists.flushWorkingSlabs fun _ _ => (trivial : (fun _ => True) _)).2

/-- What adding a slab leaves. -/
structure Adds (m : ClientSendManager) (slab : UInt32 × Nat) (m' : ClientSendManager) : Prop where
  known : slab.1.toNat < m'.numTotalSlabs
  grown : m.numTotalSlabs ≤ m'.numTotalSlabs
  rest : ∃ numTotalSlabs, m' = { m with
    freeSlabs := m.freeSlabs ++ [slab.1.toNat]
    numTotalSlabs
    slabInfo := Function.update m.slabInfo slab.1.toNat { buf := slab.2 } }

theorem addFreeSlab_some {slab : UInt32 × Nat} (added : m.addFreeSlab slab = some m') :
    Adds m slab m' := by
  unfold addFreeSlab at added
  dsimp only at added
  generalize stocks : (if m.numTotalSlabs ≤ slab.1.toNat then
    m.setNumTotalSlabs (slab.1 + 1).toNat else m) = stocked at added
  have stock : m.numTotalSlabs ≤ stocked.numTotalSlabs ∧
      ∃ numTotalSlabs, stocked = { m with numTotalSlabs } := by
    subst stocks
    unfold setNumTotalSlabs
    split
    · split
      · exact ⟨Nat.le_refl _, _, rfl⟩
      · rename_i more
        exact ⟨Nat.le_of_not_le more, _, rfl⟩
    · exact ⟨Nat.le_refl _, _, rfl⟩
  obtain ⟨grown, numTotalSlabs, rfl⟩ := stock
  split at added
  · rename_i known
    cases added
    exact ⟨known, grown, _, rfl⟩
  · cases added

theorem addFreeSlab_isSome {slab : UInt32 × Nat} (m : ClientSendManager)
    (fits : slab.1.toNat + 1 < 2 ^ 32) : (m.addFreeSlab slab).isSome := by
  have next : (slab.1 + 1).toNat = slab.1.toNat + 1 := by
    rw [UInt32.toNat_add]
    exact Nat.mod_eq_of_lt fits
  have known : slab.1.toNat < (if m.numTotalSlabs ≤ slab.1.toNat then
      m.setNumTotalSlabs (slab.1 + 1).toNat else m).numTotalSlabs := by
    unfold setNumTotalSlabs
    rw [next]
    split
    · split
      · omega
      · exact Nat.lt_succ_self _
    · omega
  unfold addFreeSlab
  dsimp only
  rw [if_pos known]
  rfl

theorem Counts.busyIn_eq_zero {s : Nat} (h : Counts p m) (absent : s ∉ m.held) :
    busyIn p m s = 0 := by
  apply List.countP_eq_zero.mpr
  intro g mem
  simp only [decide_eq_true_eq]
  rintro rfl
  exact absent (h.inside g mem).slab

/-- The number of slabs held is set when all have been added. -/
theorem Sound.addFreeSlab {n : Nat} {slab : UInt32 × Nat}
    (h : Sound fit p { m with slabsHeld := n } live loose) (new : slab.1.toNat ∉ m.held)
    (fits : fit → (slab.1.toNat + 1) * p.blocksPerSlab ≤ 2 ^ 32) (added : Adds m slab m') :
    Sound fit p { m' with slabsHeld := n + 1 } live loose ∧
      m'.held.Perm (m.held ++ [slab.1.toNat]) := by
  have known := added.known
  have grown := added.grown
  obtain ⟨numTotalSlabs, rfl⟩ := added.rest
  generalize slab.1.toNat = s at new fits known ⊢
  have held : ((m.freeSlabs ++ [s]) ++ m.workingSlabs ++ m.fullSlabs ++ m.retiredSlabs).Perm
      (m.held ++ [s]) := by
    apply List.perm_iff_count.mpr
    intro x
    simp only [ClientSendManager.held, List.count_append]
    omega
  have info (x : Nat) : Function.update m.slabInfo s { buf := slab.2 } x =
      if x = s then { buf := slab.2 } else m.slabInfo x := update_slab _ _ _ _
  have other {x : Nat} (mem : x ∈ m.held) : x ≠ s := ne_of_mem_of_not_mem mem new
  refine ⟨?_, held⟩
  constructor
  case lists =>
    constructor
    case nodup =>
      apply held.nodup_iff.mpr
      exact List.nodup_append_comm.mp (List.nodup_cons.mpr ⟨new, h.lists.nodup⟩)
    case total =>
      have total := h.lists.total
      change n = m.held.length at total
      change n + 1 = _
      rw [total]
      exact (held.length_eq.trans (by simp)).symm
    case known =>
      intro x mem
      rcases List.mem_append.mp (held.mem_iff.mp mem) with before | here
      · exact (h.lists.known x before).trans_le grown
      · exact List.mem_singleton.mp here ▸ known
    case flag =>
      intro x
      have flag := h.lists.flag x
      dsimp only at flag ⊢
      rw [info]
      split
      · rename_i here
        simp only [here, Bool.false_eq_true, false_iff]
        exact fun mem => new (mem_held_of_working mem)
      · exact flag
    case unused =>
      intro x mem
      dsimp only at mem ⊢
      rw [info]
      split
      · rfl
      · rename_i here
        rcases List.mem_append.mp mem with before | new
        · exact h.lists.unused x before
        · exact absurd (List.mem_singleton.mp new) here
    case within =>
      intro x
      dsimp only
      rw [info]
      split
      · exact Nat.zero_le _
      · exact h.lists.within x
  case pooled => exact h.pooled
  case few => exact h.few
  case owns => exact h.owns
  case counts =>
    intro fitting
    have counts := h.counts fitting
    have none := counts.busyIn_eq_zero new
    have part {x : Nat} (mem : x ∈ m.held) :
        Function.update m.slabInfo s { buf := slab.2 } x = m.slabInfo x := by
      rw [info, if_neg (other mem)]
    constructor
    case fits =>
      intro x mem
      rcases List.mem_append.mp (held.mem_iff.mp mem) with before | here
      · exact counts.fits x before
      · exact List.mem_singleton.mp here ▸ fits fitting
    case refs =>
      intro x
      have refs := counts.refs x
      dsimp only
      rw [info]
      split
      · rename_i here
        exact (here ▸ none).symm
      · exact refs
    case free =>
      intro x mem
      dsimp only at mem ⊢
      rw [info]
      split
      · rfl
      · rename_i here
        rcases List.mem_append.mp mem with before | new
        · exact counts.free x before
        · exact absurd (List.mem_singleton.mp new) here
    case full =>
      intro x mem
      dsimp only
      rw [part (by simp only [ClientSendManager.held, List.mem_append]; tauto)]
      exact counts.full x mem
    case retired =>
      intro x mem
      dsimp only
      rw [part (by simp only [ClientSendManager.held, List.mem_append]; tauto)]
      exact counts.retired x mem
    case few =>
      intro x
      have few := counts.few x
      dsimp only
      rw [info]
      split
      · rename_i here
        subst here
        exact none.le
      · exact few
    case inside =>
      intro g mem
      obtain ⟨mem_held, pos, size, within, buf⟩ := counts.inside g mem
      refine ⟨held.mem_iff.mpr (List.mem_append_left _ mem_held), pos, size, ?_, ?_⟩
      · dsimp only
        rw [part mem_held]
        exact within
      · dsimp only
        rw [part mem_held]
        exact buf
    case apart => exact counts.apart

theorem Sound.addLoop {slabs : List (UInt32 × Nat)} {n : Nat}
    (h : Sound fit p { m with slabsHeld := n } live loose)
    (distinct : (slabs.map fun slab => slab.1.toNat).Nodup)
    (new : ∀ slab ∈ slabs, slab.1.toNat ∉ m.held)
    (fits : fit → ∀ slab ∈ slabs, (slab.1.toNat + 1) * p.blocksPerSlab ≤ 2 ^ 32)
    (loop : slabs.foldlM ClientSendManager.addFreeSlab m = some m') :
    Sound fit p { m' with slabsHeld := n + slabs.length } live loose ∧
      m'.held.Perm (m.held ++ slabs.map fun slab => slab.1.toNat) ∧
      m'.slabsHeld = m.slabsHeld := by
  induction slabs generalizing m n with
  | nil =>
    cases loop
    exact ⟨h, by simp, rfl⟩
  | cons slab slabs ih =>
    rw [List.foldlM_cons] at loop
    obtain ⟨m₁, first, later⟩ := Option.bind_eq_some_iff.mp loop
    have adds := addFreeSlab_some first
    obtain ⟨sound, held⟩ := h.addFreeSlab (new slab List.mem_cons_self)
      (fun fitting => fits fitting slab List.mem_cons_self) adds
    obtain ⟨apart, distinct⟩ := List.nodup_cons.mp distinct
    have absent : ∀ other ∈ slabs, other.1.toNat ∉ m₁.held := by
      intro other mem before
      rcases List.mem_append.mp (held.mem_iff.mp before) with before | here
      · exact new other (List.mem_cons_of_mem _ mem) before
      · exact apart (List.mem_map.mpr ⟨other, mem, List.mem_singleton.mp here⟩)
    have fitting : fit → ∀ other ∈ slabs, (other.1.toNat + 1) * p.blocksPerSlab ≤ 2 ^ 32 :=
      fun fitting other mem => fits fitting other (List.mem_cons_of_mem _ mem)
    obtain ⟨sound, perm, same⟩ := ih sound distinct absent fitting later
    refine ⟨?_, ?_, ?_⟩
    · rw [List.length_cons, Nat.add_comm slabs.length, ← Nat.add_assoc]
      exact sound
    · have all := perm.trans (held.append_right _)
      rw [List.append_assoc] at all
      exact all
    · obtain ⟨_, rfl⟩ := adds.rest
      exact same

theorem Sound.addFreeSlabs {slabs : List (UInt32 × Nat)} (h : Sound fit p m live loose)
    (distinct : (slabs.map fun slab => slab.1.toNat).Nodup)
    (new : ∀ slab ∈ slabs, slab.1.toNat ∉ m.held)
    (fits : fit → ∀ slab ∈ slabs, (slab.1.toNat + 1) * p.blocksPerSlab ≤ 2 ^ 32)
    (added : m.addFreeSlabs slabs = some m') :
    Sound fit p m' live loose ∧
      m'.held.Perm (m.held ++ slabs.map fun slab => slab.1.toNat) := by
  unfold ClientSendManager.addFreeSlabs at added
  obtain ⟨m₁, loop, rfl⟩ := Option.map_eq_some_iff.mp added
  obtain ⟨sound, perm, same⟩ := Sound.addLoop h distinct new fits loop
  rw [← same] at sound
  exact ⟨sound, perm⟩

theorem addFreeSlabs_isSome {slabs : List (UInt32 × Nat)} (m : ClientSendManager)
    (fits : ∀ slab ∈ slabs, slab.1.toNat + 1 < 2 ^ 32) : (m.addFreeSlabs slabs).isSome := by
  unfold ClientSendManager.addFreeSlabs
  rw [Option.isSome_map]
  induction slabs generalizing m with
  | nil => rfl
  | cons slab slabs ih =>
    obtain ⟨first, rest⟩ := List.forall_mem_cons.mp fits
    obtain ⟨m₁, added⟩ := Option.isSome_iff_exists.mp (m.addFreeSlab_isSome first)
    rw [List.foldlM_cons, added]
    exact ih m₁ rest

/-- A slab with a busy segment is not retired. -/
theorem Sound.getRetiredSlabs (h : Sound fit p m live loose) (maxCount : Nat) :
    Sound fit p (m.getRetiredSlabs maxCount).2 live loose ∧
      ((m.getRetiredSlabs maxCount).2.held ++ (m.getRetiredSlabs maxCount).1).Perm m.held := by
  have held : ((m.freeSlabs ++ m.workingSlabs ++ m.fullSlabs ++ m.retiredSlabs.drop maxCount) ++
      m.retiredSlabs.take maxCount).Perm m.held := by
    unfold ClientSendManager.held
    rw [List.append_assoc _ (m.retiredSlabs.drop maxCount)]
    apply List.Perm.append_left
    refine List.perm_append_comm.trans ?_
    rw [List.take_append_drop]
  obtain ⟨distinct, -, apart⟩ := List.nodup_append.mp (held.nodup_iff.mpr h.lists.nodup)
  refine ⟨?_, held⟩
  constructor
  case lists =>
    constructor
    case nodup => exact distinct
    case total =>
      have total := h.lists.total
      rw [← held.length_eq, List.length_append] at total
      simp only [ClientSendManager.getRetiredSlabs, total]
      exact Nat.add_sub_cancel _ _
    case known => exact fun s mem => h.lists.known s (held.mem_iff.mp (List.mem_append_left _ mem))
    case flag => exact h.lists.flag
    case unused => exact h.lists.unused
    case within => exact h.lists.within
  case pooled => exact h.pooled
  case few => exact h.few
  case owns => exact h.owns
  case counts =>
    intro fitting
    have counts := h.counts fitting
    constructor
    case fits => exact fun s mem => counts.fits s (held.mem_iff.mp (List.mem_append_left _ mem))
    case refs => exact counts.refs
    case free => exact counts.free
    case full => exact counts.full
    case retired => exact fun s mem => counts.retired s (List.mem_of_mem_drop mem)
    case few => exact counts.few
    case inside =>
      intro g mem
      obtain ⟨slab, pos, size, within, buf⟩ := counts.inside g mem
      refine ⟨?_, pos, size, within, buf⟩
      rcases List.mem_append.mp (held.mem_iff.mpr slab) with still | gone
      · exact still
      · have idle := counts.retired _ (List.mem_of_mem_take gone)
        have refs := counts.refs (slabOf p (m.segs g))
        rw [idle] at refs
        have none := List.countP_eq_zero.mp refs.symm g mem
        exact absurd (decide_eq_true rfl) none
    case apart => exact counts.apart

/-! ## Release -/

/-- A segment is released to its slab, which may be retired by that. -/
structure Releases (p : SizeParams) (m : ClientSendManager) (g s : Nat) (m' : ClientSendManager) :
    Prop where
  slab : slabOf p (m.segs g) = s
  used : ∀ x, (m'.slabInfo x).blocksUsed = (m.slabInfo x).blocksUsed
  working : ∀ x, (m'.slabInfo x).working = (m.slabInfo x).working
  buf : ∀ x, (m'.slabInfo x).buf = (m.slabInfo x).buf
  refcount : ∀ x, (m'.slabInfo x).refcount =
    if x = s then (m.slabInfo x).refcount - 1 else (m.slabInfo x).refcount
  still : m'.freeSlabs = m.freeSlabs ∧ m'.workingSlabs = m.workingSlabs ∧
    m'.maxWorkingSlabs = m.maxWorkingSlabs ∧ m'.slabsHeld = m.slabsHeld ∧
    m'.numTotalSlabs = m.numTotalSlabs
  lists : (m'.fullSlabs = m.fullSlabs ∧ m'.retiredSlabs = m.retiredSlabs ∧
      ((m'.slabInfo s).working = true ∨ (m'.slabInfo s).refcount ≠ 0)) ∨
    (s ∈ m.fullSlabs ∧ m'.fullSlabs = m.fullSlabs.erase s ∧
      m'.retiredSlabs = m.retiredSlabs ++ [s] ∧ (m'.slabInfo s).refcount = 0)
  segs : m'.segs = m.segs ∧ m'.busySegs = m.busySegs.erase g ∧
    m'.freeSegs = m.freeSegs ++ [g] ∧ m'.numSegs = m.numSegs

theorem releaseSegment_some (released : m.releaseSegment p g = some m') :
    Releases p m g (slabOf p (m.segs g)) m' := by
  have slab : (m.segs g).blockID.toNat / p.blocksPerSlab = slabOf p (m.segs g) := rfl
  unfold releaseSegment at released
  simp only [slab] at released
  generalize slabOf p (m.segs g) = s at slab released
  have info (x : Nat) : (Function.update m.slabInfo s
      { m.slabInfo s with refcount := (m.slabInfo s).refcount - 1 } x).refcount =
      if x = s then (m.slabInfo x).refcount - 1 else (m.slabInfo x).refcount := by
    rw [update_slab]
    split
    · rename_i here
      rw [here]
    · rfl
  split at released
  · cases released
  split at released
  · rename_i last
    split at released
    · rename_i mem
      cases released
      constructor
      case slab => exact slab
      case used => exact update_same (·.blocksUsed) rfl
      case working => exact update_same (·.working) rfl
      case buf => exact update_same (·.buf) rfl
      case refcount => exact info
      case still => exact ⟨rfl, rfl, rfl, rfl, rfl⟩
      case lists =>
        refine .inr ⟨mem, rfl, rfl, ?_⟩
        simp only [setSlab, Function.update_self]
        exact last.2
      case segs => exact ⟨rfl, rfl, rfl, rfl⟩
    · cases released
  · rename_i more
    cases released
    constructor
    case slab => exact slab
    case used => exact update_same (·.blocksUsed) rfl
    case working => exact update_same (·.working) rfl
    case buf => exact update_same (·.buf) rfl
    case refcount => exact info
    case still => exact ⟨rfl, rfl, rfl, rfl, rfl⟩
    case lists =>
      refine .inl ⟨rfl, rfl, ?_⟩
      simp only [setSlab, Function.update_self]
      cases working : (m.slabInfo s).working with
      | true => exact .inl rfl
      | false => exact .inr fun none => more ⟨by rw [working]; rfl, none⟩
    case segs => exact ⟨rfl, rfl, rfl, rfl⟩

/-- Such a segment is one of those that were counted. -/
theorem busyIn_erase (m : ClientSendManager) (s : Nat) (mem : g ∈ m.busySegs) :
    (m.busySegs.erase g).countP (fun x => slabOf p (m.segs x) = s) +
      (if slabOf p (m.segs g) = s then 1 else 0) = busyIn p m s := by
  have perm := List.perm_cons_erase mem
  unfold busyIn
  rw [perm.countP_eq, List.countP_cons]
  simp only [decide_eq_true_eq]

namespace Releases
variable {s : Nat} (released : Releases p m g s m')
include released

theorem held : m'.held.Perm m.held := by
  obtain ⟨free, working, -⟩ := released.still
  unfold ClientSendManager.held
  rw [free, working]
  rcases released.lists with ⟨full, retired, -⟩ | ⟨mem, full, retired, -⟩
  · rw [full, retired]
  · rw [full, retired]
    have perm := List.perm_cons_erase mem
    apply List.perm_iff_count.mpr
    intro x
    have count := perm.count_eq x
    simp only [List.count_append, List.count_cons, List.count_nil] at count ⊢
    omega

theorem keeps (h : Lists p m) : Lists p m' := by
  have held := released.held
  obtain ⟨free, working, -, total, known⟩ := released.still
  constructor
  case nodup => exact held.nodup_iff.mpr h.nodup
  case total => rw [total, h.total, held.length_eq]
  case known =>
    intro x mem
    rw [known]
    exact h.known x (held.mem_iff.mp mem)
  case flag =>
    intro x
    rw [released.working, working]
    exact h.flag x
  case unused =>
    intro x mem
    rw [released.used]
    exact h.unused x (free ▸ mem)
  case within =>
    intro x
    rw [released.used]
    exact h.within x

theorem pooled (h : Pooled m) (mem : g ∈ m.busySegs) : Pooled m' := by
  obtain ⟨-, busy, free, size⟩ := released.segs
  have perm := List.perm_cons_erase mem
  unfold Pooled at h ⊢
  rw [busy, free, size]
  refine List.Perm.trans ?_ h
  apply List.perm_iff_count.mpr
  intro x
  have count := perm.count_eq x
  simp only [List.count_append, List.count_cons, List.count_nil] at count ⊢
  omega

theorem busyIn (mem : g ∈ m.busySegs) (x : Nat) :
    ClientSendManager.busyIn p m' x + (if x = s then 1 else 0) =
      ClientSendManager.busyIn p m x := by
  obtain ⟨segs, busy, -⟩ := released.segs
  have erase := busyIn_erase (p := p) m x mem
  rw [released.slab] at erase
  unfold ClientSendManager.busyIn at erase ⊢
  rw [segs, busy, ← erase]
  simp only [eq_comm (a := x)]

theorem counts (h : Counts p m) (lists : Lists p m) (mem : g ∈ m.busySegs) : Counts p m' := by
  have held := released.held
  have count := released.busyIn mem
  obtain ⟨free, -⟩ := released.still
  obtain ⟨segs, busy, -⟩ := released.segs
  have refs (x : Nat) : (m'.slabInfo x).refcount.toNat = ClientSendManager.busyIn p m' x := by
    have before := h.refs x
    have count := count x
    rw [released.refcount]
    split
    · rename_i here
      rw [if_pos here] at count
      rw [UInt32.toNat_sub_of_le _ _ (UInt32.le_iff_toNat_le.mpr (by rw [UInt32.toNat_one]; omega)),
        UInt32.toNat_one]
      omega
    · rename_i other
      rw [if_neg other] at count
      omega
  have pos : (m.slabInfo s).refcount ≠ 0 := by
    have before := h.refs s
    have count := count s
    rw [if_pos rfl] at count
    intro none
    rw [none, UInt32.toNat_zero] at before
    omega
  have same {x : Nat} (zero : (m.slabInfo x).refcount = 0) : (m'.slabInfo x).refcount = 0 := by
    rw [released.refcount, if_neg]
    · exact zero
    · rintro rfl
      exact pos zero
  have others {x : Nat} (mem : x ∈ m.fullSlabs) (other : x ≠ s) : (m'.slabInfo x).refcount ≠ 0 := by
    rw [released.refcount, if_neg other]
    exact h.full x mem
  constructor
  case fits => exact fun x mem => h.fits x (held.mem_iff.mp mem)
  case refs => exact refs
  case free => exact fun x mem => same (h.free x (free ▸ mem))
  case full =>
    intro x mem
    rcases released.lists with ⟨full, -, last⟩ | ⟨-, full, -, -⟩
    · rw [full] at mem
      by_cases here : x = s
      · subst here
        rcases last with working | some
        · rw [released.working] at working
          exact absurd mem (lists.only_working ((lists.flag x).mp working)).2.1
        · exact some
      · exact others mem here
    · rw [full] at mem
      have distinct := (List.nodup_append.mp (List.nodup_append.mp lists.nodup).1).2.1
      exact others (List.mem_of_mem_erase mem) (distinct.mem_erase_iff.mp mem).1
  case retired =>
    intro x mem
    rcases released.lists with ⟨-, retired, -⟩ | ⟨-, -, retired, zero⟩
    · exact same (h.retired x (retired ▸ mem))
    · rw [retired] at mem
      rcases List.mem_append.mp mem with before | here
      · exact same (h.retired x before)
      · exact List.mem_singleton.mp here ▸ zero
  case few =>
    intro x
    have few := h.few x
    have count := count x
    rw [released.used]
    omega
  case inside =>
    intro x mem
    rw [busy] at mem
    obtain ⟨slab, pos, size, within, buf⟩ := h.inside x (List.mem_of_mem_erase mem)
    rw [segs]
    refine ⟨held.mem_iff.mpr slab, pos, size, ?_, ?_⟩
    · rw [released.used]
      exact within
    · rw [released.buf]
      exact buf
  case apart =>
    rw [busy, segs]
    exact h.apart.sublist List.erase_sublist

end Releases

/-- A busy segment can be released. -/
theorem releaseSegment_isSome (h : Counts p m) (lists : Lists p m) (mem : g ∈ m.busySegs) :
    (m.releaseSegment p g).isSome := by
  have slab : (m.segs g).blockID.toNat / p.blocksPerSlab = slabOf p (m.segs g) := rfl
  have held := (h.inside g mem).slab
  have count := busyIn_erase (p := p) m (slabOf p (m.segs g)) mem
  have refs := h.refs (slabOf p (m.segs g))
  unfold releaseSegment
  simp only [slab]
  rw [if_pos rfl] at count
  generalize slabOf p (m.segs g) = s at held count refs ⊢
  have refcount : (m.slabInfo s).refcount ≠ 0 := by
    intro none
    rw [none, UInt32.toNat_zero] at refs
    omega
  rw [if_neg (Nat.not_le.mpr (lists.known s held))]
  split
  · rename_i last
    have full : s ∈ m.fullSlabs := by
      have idle : s ∉ m.workingSlabs := by
        intro mem
        have working := (lists.flag s).mpr mem
        simp [working] at last
      simp only [ClientSendManager.held, List.mem_append] at held
      rcases held with ((free | working) | full) | retired
      · exact absurd (h.free s free) refcount
      · exact absurd working idle
      · exact full
      · exact absurd (h.retired s retired) refcount
    rw [if_pos full]
    rfl
  · rfl

/-- A segment of the descriptor in hand is released. -/
theorem Sound.releaseSegment (h : Sound fit p m live (g :: loose))
    (released : m.releaseSegment p g = some m') : Sound fit p m' live loose := by
  have releases := releaseSegment_some released
  have mem : g ∈ m.busySegs := h.mem_busySegs List.mem_cons_self
  obtain ⟨segs, busy, -⟩ := releases.segs
  obtain ⟨-, working, max, -⟩ := releases.still
  constructor
  case lists => exact releases.keeps h.lists
  case pooled => exact releases.pooled h.pooled mem
  case few =>
    rw [working, max]
    exact h.few
  case owns =>
    obtain ⟨chains, linked, perm⟩ := h.owns
    have next : m'.next = m.next := by
      funext x
      simp only [ClientSendManager.next, segs]
    refine ⟨chains, next ▸ linked, ?_⟩
    rw [busy]
    have erased := perm.erase g
    have notin : g ∉ chains.flatten := by
      have distinct := perm.nodup_iff.mpr h.pooled.nodup_busySegs
      exact fun before => (List.nodup_append.mp distinct).2.2 g before g List.mem_cons_self rfl
    rw [List.erase_append_right _ notin, List.erase_cons_head] at erased
    exact erased
  case counts => exact fun fits => releases.counts (h.counts fits) h.lists mem

/-- A whole descriptor is released, given the fuel for it. -/
theorem Sound.releaseLoop {fuel : Nat} {desc : Option Nat} (h : Sound fit p m live loose)
    (linked : Linked m.next desc loose) (enough : loose.length ≤ fuel) :
    (∀ m', m.releaseLoop p fuel desc = some m' → Sound fit p m' live [] ∧ m'.held.Perm m.held) ∧
      (fit → (m.releaseLoop p fuel desc).isSome) := by
  induction loose generalizing m fuel desc with
  | nil =>
    cases linked
    cases fuel <;> exact ⟨fun m' eq => Option.some.inj eq ▸ ⟨h, .refl _⟩, fun _ => rfl⟩
  | cons g rest ih =>
    obtain ⟨fuel, rfl⟩ := Nat.exists_eq_succ_of_ne_zero (Nat.ne_of_gt (Nat.zero_lt_of_lt enough))
    cases linked with
    | cons linked =>
      have further (m₁ : ClientSendManager) (released : m.releaseSegment p g = some m₁) :
          Sound fit p m₁ live rest ∧ Linked m₁.next (m₁.next g) rest ∧ m₁.held.Perm m.held := by
        have releases := releaseSegment_some released
        have next : m₁.next = m.next := by
          funext x
          simp only [ClientSendManager.next, releases.segs.1]
        rw [next]
        exact ⟨h.releaseSegment released, linked, releases.held⟩
      have le : rest.length ≤ fuel := Nat.le_of_succ_le_succ enough
      constructor
      · intro m' released
        unfold ClientSendManager.releaseLoop at released
        obtain ⟨m₁, first, later⟩ := Option.bind_eq_some_iff.mp released
        obtain ⟨sound, linked, held⟩ := further m₁ first
        obtain ⟨done, perm⟩ := (ih sound linked le).1 m' later
        exact ⟨done, perm.trans held⟩
      · intro fits
        have mem : g ∈ m.busySegs := h.mem_busySegs List.mem_cons_self
        obtain ⟨m₁, first⟩ := Option.isSome_iff_exists.mp
          (releaseSegment_isSome (h.counts fits) h.lists mem)
        obtain ⟨sound, linked, -⟩ := further m₁ first
        unfold ClientSendManager.releaseLoop
        rw [first]
        exact (ih sound linked le).2 fits

/-- The chain of a live descriptor is taken in hand. -/
theorem Owns.takes (h : Owns m live []) (mem : d ∈ live) :
    ∃ chain, Linked m.next (some d) chain ∧ Owns m (live.erase d) chain := by
  obtain ⟨chains, linked, perm⟩ := h
  rw [List.append_nil] at perm
  have split : ∃ chain others, Linked m.next (some d) chain ∧
      List.Forall₂ (fun d chain => Linked m.next (some d) chain) (live.erase d) others ∧
      (others.flatten ++ chain).Perm chains.flatten := by
    clear perm
    induction linked with
    | nil => cases mem
    | @cons d' chain live chains first rest ih =>
      by_cases here : d' = d
      · subst here
        refine ⟨chain, chains, first, ?_, List.perm_append_comm⟩
        rw [List.erase_cons_head]
        exact rest
      · have later := (List.mem_cons.mp mem).resolve_left (Ne.symm here)
        obtain ⟨found, others, linked, all, perm⟩ := ih later
        refine ⟨found, chain :: others, linked, ?_, ?_⟩
        · rw [List.erase_cons_tail (by simpa using here)]
          exact .cons first all
        · rw [List.flatten_cons, List.flatten_cons, List.append_assoc]
          exact perm.append_left _
  obtain ⟨chain, others, first, all, same⟩ := split
  exact ⟨chain, first, others, all, same.trans perm⟩

theorem Sound.releaseMessageDescriptor (h : Sound fit p m live []) (mem : d ∈ live) :
    (∀ m', m.releaseMessageDescriptor p d = some m' →
      Sound fit p m' (live.erase d) [] ∧ m'.held.Perm m.held) ∧
      (fit → (m.releaseMessageDescriptor p d).isSome) := by
  obtain ⟨chain, linked, owns⟩ := h.owns.takes mem
  have enough : chain.length ≤ m.busySegs.length := by
    obtain ⟨chains, -, perm⟩ := owns
    rw [← perm.length_eq, List.length_append]
    omega
  have taken : Sound fit p m (live.erase d) chain := ⟨h.lists, h.pooled, h.few, owns, h.counts⟩
  exact taken.releaseLoop linked enough

end ClientSendManager
end Mcsb
