import Mcsb.Manager.SlabManager
import Mcsb.Lib.Accounts
import Mathlib.Data.List.Nodup

/-!
# Every slab on its list

What each call of the slab manager does to it, as a function, and the invariant
they keep: a slab is free, held or wanted as its count and its segments say.
-/

namespace Mcsb
open Effect

namespace SlabManager

/-- The first free slab is taken. -/
def grab (sm : SlabManager) (slabID : Nat) (rest : List Nat) : SlabManager :=
  { sm.updateInfo slabID fun slab => { slab with heldRefcnt := slab.heldRefcnt + 1 } with
    freeSlabs := rest
    heldSlabs := sm.heldSlabs ++ [slabID] }

/-- One more holder, which may take the slab off the wanted list. -/
def hold (sm : SlabManager) (slabID : Nat) : SlabManager :=
  incrementHeld slabID (if (sm.info slabID).heldRefcnt = 0 then
    { sm with wantedSlabs := sm.wantedSlabs.erase slabID, heldSlabs := sm.heldSlabs ++ [slabID] }
  else sm)

/-- `amount` holders less. -/
def unhold (sm : SlabManager) (slabID amount : Nat) : SlabManager :=
  let slab := sm.info slabID
  let sm := sm.updateInfo slabID fun slab => { slab with heldRefcnt := slab.heldRefcnt - amount }
  if slab.heldRefcnt - amount ≠ 0 then sm
  else if slab.wantedSegs ≠ [] then
    { sm with heldSlabs := sm.heldSlabs.erase slabID, wantedSlabs := sm.wantedSlabs ++ [slabID] }
  else
    { sm with heldSlabs := sm.heldSlabs.erase slabID, freeSlabs := sm.freeSlabs ++ [slabID] }

/-- One more segment wanted, in a record from the pool. -/
def want (sm : SlabManager) (clientID blockID slabID : Nat) : WantedSegment × SlabManager :=
  let seg : WantedSegment := { ref := sm.freeWantedSegs.take.1, clientID, blockID }
  (seg, { sm.updateInfo slabID fun slab => { slab with wantedSegs := slab.wantedSegs ++ [seg] } with
    freeWantedSegs := sm.freeWantedSegs.take.2 })

/-- One segment wanted less. -/
def unwant (sm : SlabManager) (seg : WantedSegment) (slabID : Nat) : SlabManager :=
  let slab := sm.info slabID
  let sm := { sm.updateInfo slabID
      fun slab => { slab with wantedSegs := slab.wantedSegs.erase seg } with
    freeWantedSegs := sm.freeWantedSegs.put seg.ref }
  if slab.wantedSegs.erase seg = [] ∧ slab.heldRefcnt = 0 then
    { sm with wantedSlabs := sm.wantedSlabs.erase slabID, freeSlabs := sm.freeSlabs ++ [slabID] }
  else sm

/-- What the three lists hold, and that nothing is known of slabs past the end. -/
structure Partition (sm : SlabManager) : Prop where
  slabs_pos : 0 < sm.slabsPerBuf
  free_nodup : sm.freeSlabs.Nodup
  held_nodup : sm.heldSlabs.Nodup
  wanted_nodup : sm.wantedSlabs.Nodup
  mem_free : ∀ s, s ∈ sm.freeSlabs ↔
    s < sm.numSlabs ∧ (sm.info s).heldRefcnt = 0 ∧ (sm.info s).wantedSegs = []
  mem_held : ∀ s, s ∈ sm.heldSlabs ↔ s < sm.numSlabs ∧ (sm.info s).heldRefcnt ≠ 0
  mem_wanted : ∀ s, s ∈ sm.wantedSlabs ↔
    s < sm.numSlabs ∧ (sm.info s).heldRefcnt = 0 ∧ (sm.info s).wantedSegs ≠ []
  outside : ∀ s, sm.numSlabs ≤ s → sm.info s = {}

section
variable {sm : SlabManager} {s : Nat}

@[simp] theorem info_updateInfo (f : SlabInfo → SlabInfo) (t : Nat) :
    (sm.updateInfo s f).info t = if t = s then f (sm.info s) else sm.info t := by
  simp only [updateInfo, Function.update_apply]

@[simp] theorem freeSlabs_updateInfo (f : SlabInfo → SlabInfo) :
    (sm.updateInfo s f).freeSlabs = sm.freeSlabs := rfl

@[simp] theorem heldSlabs_updateInfo (f : SlabInfo → SlabInfo) :
    (sm.updateInfo s f).heldSlabs = sm.heldSlabs := rfl

@[simp] theorem wantedSlabs_updateInfo (f : SlabInfo → SlabInfo) :
    (sm.updateInfo s f).wantedSlabs = sm.wantedSlabs := rfl

theorem info_grab (rest : List Nat) (t : Nat) : (sm.grab s rest).info t =
    if t = s then { sm.info s with heldRefcnt := (sm.info s).heldRefcnt + 1 } else sm.info t := by
  simp [grab]

theorem info_hold (t : Nat) : (sm.hold s).info t =
    if t = s then { sm.info s with heldRefcnt := ((sm.info s).heldRefcnt + 1) % 2 ^ 32 }
    else sm.info t := by
  unfold hold incrementHeld
  split <;> simp

theorem freeSlabs_hold : (sm.hold s).freeSlabs = sm.freeSlabs := by
  unfold hold incrementHeld
  split <;> rfl

theorem heldSlabs_hold : (sm.hold s).heldSlabs =
    if (sm.info s).heldRefcnt = 0 then sm.heldSlabs ++ [s] else sm.heldSlabs := by
  unfold hold incrementHeld
  split <;> rfl

theorem wantedSlabs_hold : (sm.hold s).wantedSlabs =
    if (sm.info s).heldRefcnt = 0 then sm.wantedSlabs.erase s else sm.wantedSlabs := by
  unfold hold incrementHeld
  split <;> rfl

theorem numBuffers_hold : (sm.hold s).numBuffers = sm.numBuffers := by
  unfold hold incrementHeld
  split <;> rfl

theorem slabsPerBuf_hold : (sm.hold s).slabsPerBuf = sm.slabsPerBuf := by
  unfold hold incrementHeld
  split <;> rfl

theorem info_unhold (amount t : Nat) : (sm.unhold s amount).info t =
    if t = s then { sm.info s with heldRefcnt := (sm.info s).heldRefcnt - amount }
    else sm.info t := by
  simp only [unhold]
  split
  · simp
  · split <;> simp

theorem info_want (clientID blockID t : Nat) : (sm.want clientID blockID s).2.info t =
    if t = s then
      { sm.info s with
        wantedSegs := (sm.info s).wantedSegs ++ [(sm.want clientID blockID s).1] }
    else sm.info t := by
  simp [want]

theorem info_unwant (seg : WantedSegment) (t : Nat) : (sm.unwant seg s).info t =
    if t = s then { sm.info s with wantedSegs := (sm.info s).wantedSegs.erase seg }
    else sm.info t := by
  simp only [unwant]
  split <;> simp

theorem freeWantedSegs_hold : (sm.hold s).freeWantedSegs = sm.freeWantedSegs := by
  unfold hold incrementHeld
  split <;> rfl

/-- What taking or giving up a slab leaves as it was. -/
structure SameShape (sm sm' : SlabManager) : Prop where
  perBuf : sm'.slabsPerBuf = sm.slabsPerBuf
  buffers : sm'.numBuffers = sm.numBuffers
  pool : sm'.freeWantedSegs = sm.freeWantedSegs
  wanted : ∀ s, (sm'.info s).wantedSegs = (sm.info s).wantedSegs

theorem SameShape.numSlabs {sm' : SlabManager} (h : sm.SameShape sm') :
    sm'.numSlabs = sm.numSlabs := by
  rw [SlabManager.numSlabs, SlabManager.numSlabs, h.perBuf, h.buffers]

theorem SameShape.refl (sm : SlabManager) : sm.SameShape sm := ⟨rfl, rfl, rfl, fun _ => rfl⟩

theorem SameShape.trans {sm₁ sm₂ : SlabManager} (h : sm.SameShape sm₁) (h' : sm₁.SameShape sm₂) :
    sm.SameShape sm₂ :=
  ⟨h'.perBuf.trans h.perBuf, h'.buffers.trans h.buffers, h'.pool.trans h.pool,
    fun s => (h'.wanted s).trans (h.wanted s)⟩

theorem sameShape_grab (rest : List Nat) : sm.SameShape (sm.grab s rest) :=
  ⟨rfl, rfl, rfl, fun t => by rw [info_grab]; split <;> simp_all⟩

theorem sameShape_hold : sm.SameShape (sm.hold s) :=
  ⟨slabsPerBuf_hold, numBuffers_hold, freeWantedSegs_hold,
    fun t => by rw [info_hold]; split <;> simp_all⟩

theorem sameShape_unhold (amount : Nat) : sm.SameShape (sm.unhold s amount) := by
  refine ⟨?_, ?_, ?_, fun t => by rw [info_unhold]; split <;> simp_all⟩
  all_goals
    simp only [unhold]
    split
    · rfl
    · split <;> rfl

theorem valid_of_lt (lt : s < sm.numSlabs) : ¬ sm.numBuffers ≤ s / sm.slabsPerBuf := by
  rw [not_le]
  exact Nat.div_lt_of_lt_mul lt

theorem Partition.lt_of_held (h : sm.Partition) (held : (sm.info s).heldRefcnt ≠ 0) :
    s < sm.numSlabs := by
  by_contra ge
  rw [h.outside s (Nat.not_lt.mp ge)] at held
  exact held rfl

theorem Partition.lt_of_wanted (h : sm.Partition) (wanted : (sm.info s).wantedSegs ≠ []) :
    s < sm.numSlabs := by
  by_contra ge
  rw [h.outside s (Nat.not_lt.mp ge)] at wanted
  exact wanted rfl

theorem Partition.idle (h : sm.Partition) {rest : List Nat} (front : sm.freeSlabs = s :: rest) :
    (sm.info s).heldRefcnt = 0 ∧ (sm.info s).wantedSegs = [] :=
  ((h.mem_free s).mp (front ▸ List.mem_cons_self)).2

theorem getSlabInfo_ok (lt : s < sm.numSlabs)
    {Q : SlabInfo → SlabManager → Prop} {E : Exc → SlabManager → Prop} :
    wp (getSlabInfo s) sm Q E ↔ Q (sm.info s) sm := by
  simp [getSlabInfo, valid_of_lt lt]

/-! ## What the calls do -/

theorem getFreeSlabs_one (h : sm.Partition) {rest : List Nat} (front : sm.freeSlabs = s :: rest)
    {Q : List Nat → SlabManager → Prop} {E : Exc → SlabManager → Prop} (n : Nat)
    (next : wp (getFreeSlabs n) (sm.grab s rest) (fun ids => Q (s :: ids)) E) :
    wp (getFreeSlabs (n + 1)) sm Q E := by
  obtain ⟨lt, held, wanted⟩ := (h.mem_free s).mp (front ▸ List.mem_cons_self)
  simp only [getFreeSlabs, wp_bind, wp_get, front, getFreeSlab, wp_modify, held, wanted]
  simpa [grab, updateInfo] using next

theorem incrementHeldRefcnt_cons (h : sm.Partition)
    (known : (sm.info s).heldRefcnt ≠ 0 ∨ (sm.info s).wantedSegs ≠ []) {slabIDs : List Nat}
    {Q : Unit → SlabManager → Prop} {E : Exc → SlabManager → Prop}
    (next : wp (incrementHeldRefcnt slabIDs) (sm.hold s) Q E) :
    wp (incrementHeldRefcnt (s :: slabIDs)) sm Q E := by
  have lt : s < sm.numSlabs := known.elim h.lt_of_held h.lt_of_wanted
  simp only [incrementHeldRefcnt, wp_bind, getSlabInfo_ok lt]
  by_cases held : (sm.info s).heldRefcnt = 0
  · have wanted := known.resolve_left (not_not.mpr held)
    simpa [held, wanted, hold] using next
  · simpa [held, hold] using next

/-- The state change of `unhold`. -/
def unholdChange (sm : SlabManager) (slabID amount : Nat) : Option StateChange :=
  if (sm.info slabID).heldRefcnt - amount ≠ 0 then none
  else if (sm.info slabID).wantedSegs ≠ [] then some .heldToWanted
  else some .heldToFree

theorem decrementHeldRefcnt_ok (h : sm.Partition) {amount : Nat} (pos : 0 < amount)
    (le : amount ≤ (sm.info s).heldRefcnt) {Q : Option StateChange → SlabManager → Prop}
    {E : Exc → SlabManager → Prop} :
    wp (decrementHeldRefcnt s amount) sm Q E ↔
      Q (sm.unholdChange s amount) (sm.unhold s amount) := by
  have lt : s < sm.numSlabs := h.lt_of_held (by omega)
  simp only [decrementHeldRefcnt, wp_bind, getSlabInfo_ok lt, not_lt.mpr le, unholdChange, unhold]
  by_cases last : (sm.info s).heldRefcnt - amount = 0
  · by_cases wanted : (sm.info s).wantedSegs = []
    · simp [last, wanted, updateInfo]
    · simp [last, wanted, updateInfo]
  · simp [last]

theorem getWantedSegment_valid (lt : s < sm.numSlabs) {clientID blockID : Nat}
    (known : (sm.info s).heldRefcnt ≠ 0 ∨ (sm.info s).wantedSegs ≠ [])
    {Q : WantedSegment → SlabManager → Prop} {E : Exc → SlabManager → Prop} :
    wp (getWantedSegment clientID blockID s) sm Q E ↔
      Q (sm.want clientID blockID s).1 (sm.want clientID blockID s).2 := by
  have free : ¬ ((sm.info s).heldRefcnt = 0 ∧ (sm.info s).wantedSegs = []) := by tauto
  simp [getWantedSegment, getSlabInfo_ok lt, free, want, updateInfo]

theorem getWantedSegment_ok (h : sm.Partition) {clientID blockID : Nat}
    (known : (sm.info s).heldRefcnt ≠ 0 ∨ (sm.info s).wantedSegs ≠ [])
    {Q : WantedSegment → SlabManager → Prop} {E : Exc → SlabManager → Prop} :
    wp (getWantedSegment clientID blockID s) sm Q E ↔
      Q (sm.want clientID blockID s).1 (sm.want clientID blockID s).2 :=
  getWantedSegment_valid (known.elim h.lt_of_held h.lt_of_wanted) known

/-- The state change of `unwant`. -/
def unwantChange (sm : SlabManager) (seg : WantedSegment) (slabID : Nat) : Option StateChange :=
  if (sm.info slabID).wantedSegs.erase seg = [] ∧ (sm.info slabID).heldRefcnt = 0 then
    some .wantedToFree
  else none

theorem releaseWantedSegment_ok (h : sm.Partition) {seg : WantedSegment}
    (mem : seg ∈ (sm.info s).wantedSegs) {Q : Option StateChange → SlabManager → Prop}
    {E : Exc → SlabManager → Prop} :
    wp (releaseWantedSegment seg s) sm Q E ↔ Q (sm.unwantChange seg s) (sm.unwant seg s) := by
  have wanted := List.ne_nil_of_mem mem
  simp only [releaseWantedSegment, wp_bind, getSlabInfo_ok (h.lt_of_wanted wanted), unwantChange,
    unwant, wanted, if_false]
  by_cases free : (sm.info s).wantedSegs.erase seg = [] ∧ (sm.info s).heldRefcnt = 0
  · simp only [if_pos free]
    rfl
  · simp only [if_neg free]
    rfl

/-! ## Each call keeps every slab on its list -/

/-- Only slab `s` changes, and it ends up on the list that its info calls for. -/
theorem Partition.move (h : sm.Partition) {sm' : SlabManager} (lt : s < sm.numSlabs)
    (spb : sm'.slabsPerBuf = sm.slabsPerBuf) (bufs : sm'.numBuffers = sm.numBuffers)
    (free_nodup : sm'.freeSlabs.Nodup) (held_nodup : sm'.heldSlabs.Nodup)
    (wanted_nodup : sm'.wantedSlabs.Nodup)
    (others : ∀ t, t ≠ s → sm'.info t = sm.info t ∧ (t ∈ sm'.freeSlabs ↔ t ∈ sm.freeSlabs) ∧
      (t ∈ sm'.heldSlabs ↔ t ∈ sm.heldSlabs) ∧ (t ∈ sm'.wantedSlabs ↔ t ∈ sm.wantedSlabs))
    (free : s ∈ sm'.freeSlabs ↔ (sm'.info s).heldRefcnt = 0 ∧ (sm'.info s).wantedSegs = [])
    (held : s ∈ sm'.heldSlabs ↔ (sm'.info s).heldRefcnt ≠ 0)
    (wanted : s ∈ sm'.wantedSlabs ↔
      (sm'.info s).heldRefcnt = 0 ∧ (sm'.info s).wantedSegs ≠ []) : sm'.Partition := by
  have num : sm'.numSlabs = sm.numSlabs := by rw [numSlabs, numSlabs, spb, bufs]
  refine ⟨spb ▸ h.slabs_pos, free_nodup, held_nodup, wanted_nodup, fun t => ?_, fun t => ?_,
    fun t => ?_, fun t ge => ?_⟩
  · by_cases here : t = s
    · rw [here, free, num]
      exact (and_iff_right lt).symm
    · obtain ⟨same, mem, -, -⟩ := others t here
      rw [mem, h.mem_free, same, num]
  · by_cases here : t = s
    · rw [here, held, num]
      exact (and_iff_right lt).symm
    · obtain ⟨same, -, mem, -⟩ := others t here
      rw [mem, h.mem_held, same, num]
  · by_cases here : t = s
    · rw [here, wanted, num]
      exact (and_iff_right lt).symm
    · obtain ⟨same, -, -, mem⟩ := others t here
      rw [mem, h.mem_wanted, same, num]
  · rw [num] at ge
    rw [(others t (by omega)).1, h.outside t ge]

theorem nodup_push {l : List Nat} (nodup : l.Nodup) (notin : s ∉ l) : (l ++ [s]).Nodup :=
  (List.perm_append_singleton s l).nodup_iff.mpr (List.nodup_cons.mpr ⟨notin, nodup⟩)

theorem mem_push {l : List Nat} {t : Nat} (ne : t ≠ s) : t ∈ l ++ [s] ↔ t ∈ l := by
  simp [ne]

theorem Partition.grab (h : sm.Partition) {rest : List Nat} (front : sm.freeSlabs = s :: rest) :
    (sm.grab s rest).Partition := by
  obtain ⟨lt, held, wanted⟩ := (h.mem_free s).mp (front ▸ List.mem_cons_self)
  obtain ⟨notin, restNodup⟩ := List.nodup_cons.mp (front ▸ h.free_nodup)
  have notHeld : s ∉ sm.heldSlabs := fun mem => ((h.mem_held s).mp mem).2 held
  have notWanted : s ∉ sm.wantedSlabs := fun mem => ((h.mem_wanted s).mp mem).2.2 wanted
  refine h.move lt rfl rfl restNodup (nodup_push h.held_nodup notHeld) h.wanted_nodup
    (fun t ne => ⟨by simp [info_grab, ne], ?_, mem_push ne, Iff.rfl⟩) ?_ ?_ ?_
  · simp [SlabManager.grab, front, ne]
  · simp [SlabManager.grab, notin]
  · simp [SlabManager.grab]
  · simp [SlabManager.grab, notWanted]

theorem Partition.hold (h : sm.Partition)
    (known : (sm.info s).heldRefcnt ≠ 0 ∨ (sm.info s).wantedSegs ≠ [])
    (room : (sm.info s).heldRefcnt + 1 < 2 ^ 32) : (sm.hold s).Partition := by
  have lt : s < sm.numSlabs := known.elim h.lt_of_held h.lt_of_wanted
  have notFree : s ∉ sm.freeSlabs := fun mem => by
    obtain ⟨-, held, wanted⟩ := (h.mem_free s).mp mem
    exact known.elim (· held) (· wanted)
  have info (t : Nat) : (sm.hold s).info t =
      if t = s then { sm.info s with heldRefcnt := (sm.info s).heldRefcnt + 1 }
      else sm.info t := by
    rw [info_hold, Nat.mod_eq_of_lt room]
  have others (t : Nat) (ne : t ≠ s) : (sm.hold s).info t = sm.info t := by rw [info, if_neg ne]
  have here : (sm.hold s).info s = { sm.info s with heldRefcnt := (sm.info s).heldRefcnt + 1 } := by
    rw [info, if_pos rfl]
  by_cases held : (sm.info s).heldRefcnt = 0
  · have notHeld : s ∉ sm.heldSlabs := fun mem => ((h.mem_held s).mp mem).2 held
    have notWanted := h.wanted_nodup.not_mem_erase (a := s)
    refine h.move lt slabsPerBuf_hold numBuffers_hold (by rw [freeSlabs_hold]; exact h.free_nodup) ?_ ?_
      (fun t ne => ⟨others t ne, by rw [freeSlabs_hold], ?_, ?_⟩) ?_ ?_ ?_
    all_goals simp only [freeSlabs_hold, heldSlabs_hold, wantedSlabs_hold, here, held, if_true]
    · exact nodup_push h.held_nodup notHeld
    · exact h.wanted_nodup.erase s
    · exact mem_push ne
    · exact List.mem_erase_of_ne ne
    · simp [notFree]
    · simp
    · simp [notWanted]
  · have isHeld : s ∈ sm.heldSlabs := (h.mem_held s).mpr ⟨lt, held⟩
    have notWanted : s ∉ sm.wantedSlabs := fun mem => held ((h.mem_wanted s).mp mem).2.1
    refine h.move lt slabsPerBuf_hold numBuffers_hold (by rw [freeSlabs_hold]; exact h.free_nodup) ?_ ?_
      (fun t ne => ⟨others t ne, by rw [freeSlabs_hold], ?_, ?_⟩) ?_ ?_ ?_
    all_goals simp only [freeSlabs_hold, heldSlabs_hold, wantedSlabs_hold, here, held, if_false]
    · exact h.held_nodup
    · exact h.wanted_nodup
    · simp [notFree]
    · simp [isHeld]
    · simp [notWanted]

theorem Partition.unhold (h : sm.Partition) {amount : Nat} (pos : 0 < amount)
    (le : amount ≤ (sm.info s).heldRefcnt) : (sm.unhold s amount).Partition := by
  have held : (sm.info s).heldRefcnt ≠ 0 := by omega
  have lt := h.lt_of_held held
  have isHeld : s ∈ sm.heldSlabs := (h.mem_held s).mpr ⟨lt, held⟩
  have notFree : s ∉ sm.freeSlabs := fun mem => held ((h.mem_free s).mp mem).2.1
  have notWanted : s ∉ sm.wantedSlabs := fun mem => held ((h.mem_wanted s).mp mem).2.1
  have notHeld := h.held_nodup.not_mem_erase (a := s)
  simp only [SlabManager.unhold]
  by_cases last : (sm.info s).heldRefcnt - amount = 0
  · by_cases wanted : (sm.info s).wantedSegs = []
    · simp only [last, wanted, ne_eq, not_true_eq_false, if_false]
      refine h.move lt rfl rfl (nodup_push h.free_nodup notFree) (h.held_nodup.erase s)
        h.wanted_nodup (fun t ne => ⟨by simp [ne], mem_push ne, List.mem_erase_of_ne ne, Iff.rfl⟩)
        ?_ ?_ ?_
      · simp [last, wanted]
      · simp [last, notHeld]
      · simp [last, wanted, notWanted]
    · simp only [last, wanted, ne_eq, not_true_eq_false, not_false_eq_true, if_false, if_true]
      refine h.move lt rfl rfl h.free_nodup (h.held_nodup.erase s)
        (nodup_push h.wanted_nodup notWanted)
        (fun t ne => ⟨by simp [ne], Iff.rfl, List.mem_erase_of_ne ne, mem_push ne⟩) ?_ ?_ ?_
      · simp [wanted, notFree]
      · simp [last, notHeld]
      · simp [last, wanted]
  · simp only [last, ne_eq, not_false_eq_true, if_true]
    refine h.move lt rfl rfl h.free_nodup h.held_nodup h.wanted_nodup
      (fun t ne => ⟨by simp [ne], Iff.rfl, Iff.rfl, Iff.rfl⟩) ?_ ?_ ?_
    · simp [updateInfo, last, notFree]
    · simp [updateInfo, last, isHeld]
    · simp [updateInfo, last, notWanted]

theorem Partition.want (h : sm.Partition) {clientID blockID : Nat}
    (known : (sm.info s).heldRefcnt ≠ 0 ∨ (sm.info s).wantedSegs ≠ []) :
    (sm.want clientID blockID s).2.Partition := by
  have lt : s < sm.numSlabs := known.elim h.lt_of_held h.lt_of_wanted
  have notFree : s ∉ sm.freeSlabs := fun mem => by
    obtain ⟨-, held, wanted⟩ := (h.mem_free s).mp mem
    exact known.elim (· held) (· wanted)
  refine h.move lt rfl rfl h.free_nodup h.held_nodup h.wanted_nodup
    (fun t ne => ⟨by simp [SlabManager.want, ne], Iff.rfl, Iff.rfl, Iff.rfl⟩) ?_ ?_ ?_
  · simp [SlabManager.want, notFree]
  · simp [SlabManager.want, h.mem_held, lt]
  · have wanted := h.mem_wanted s
    simp only [lt, true_and] at wanted
    simp [SlabManager.want, wanted]
    tauto

theorem Partition.unwant (h : sm.Partition) {seg : WantedSegment}
    (mem : seg ∈ (sm.info s).wantedSegs) : (sm.unwant seg s).Partition := by
  have wanted := List.ne_nil_of_mem mem
  have lt := h.lt_of_wanted wanted
  have notFree : s ∉ sm.freeSlabs := fun mem => wanted ((h.mem_free s).mp mem).2.2
  have notWanted := h.wanted_nodup.not_mem_erase (a := s)
  simp only [SlabManager.unwant]
  by_cases free : (sm.info s).wantedSegs.erase seg = [] ∧ (sm.info s).heldRefcnt = 0
  · have notHeld : s ∉ sm.heldSlabs := fun mem => ((h.mem_held s).mp mem).2 free.2
    rw [if_pos free]
    refine h.move lt rfl rfl (nodup_push h.free_nodup notFree) h.held_nodup
      (h.wanted_nodup.erase s) (fun t ne => ⟨by simp [ne], mem_push ne, Iff.rfl,
        List.mem_erase_of_ne ne⟩) ?_ ?_ ?_
    · simp only [info_updateInfo, if_true, free]
      simp
    · simp [free, notHeld]
    · simp only [info_updateInfo, if_true, free]
      simp [notWanted]
  · rw [if_neg free]
    refine h.move lt rfl rfl h.free_nodup h.held_nodup h.wanted_nodup
      (fun t ne => ⟨by simp [ne], Iff.rfl, Iff.rfl, Iff.rfl⟩) ?_ ?_ ?_
    · simp only [info_updateInfo, if_true]
      tauto
    · simp [h.mem_held, lt]
    · simp only [info_updateInfo, if_true]
      rw [wantedSlabs_updateInfo, h.mem_wanted]
      tauto

/-! ## Counts of references -/

/-- The slab manager after references were taken and given up. -/
structure Rebooked (sm sm' : SlabManager) (taken given : Nat → Nat) : Prop where
  partition : sm'.Partition
  shape : sm.SameShape sm'
  small : ∀ t, (sm'.info t).heldRefcnt < 2 ^ 32
  count : ∀ t, (sm'.info t).heldRefcnt + given t = (sm.info t).heldRefcnt + taken t

/-- The counts fit their 32 bits. -/
def Small (sm : SlabManager) : Prop := ∀ t, (sm.info t).heldRefcnt < 2 ^ 32

theorem Rebooked.refl (h : sm.Partition) (small : sm.Small) :
    sm.Rebooked sm (fun _ => 0) (fun _ => 0) := ⟨h, .refl sm, small, fun _ => rfl⟩

theorem Partition.rebooked_grab (h : sm.Partition) (small : sm.Small) {rest : List Nat}
    (front : sm.freeSlabs = s :: rest) :
    sm.Rebooked (sm.grab s rest) (fun t => if t = s then 1 else 0) (fun _ => 0) := by
  have free := ((h.mem_free s).mp (front ▸ List.mem_cons_self)).2.1
  refine ⟨h.grab front, sameShape_grab rest, fun t => ?_, fun t => ?_⟩
  · rw [info_grab]
    split
    · simp [free]
    · exact small t
  · rw [info_grab]
    split <;> simp_all

theorem Partition.rebooked_hold (h : sm.Partition) (small : sm.Small)
    (known : (sm.info s).heldRefcnt ≠ 0 ∨ (sm.info s).wantedSegs ≠ [])
    (room : (sm.info s).heldRefcnt + 1 < 2 ^ 32) :
    sm.Rebooked (sm.hold s) (fun t => if t = s then 1 else 0) (fun _ => 0) := by
  refine ⟨h.hold known room, sameShape_hold, fun t => ?_, fun t => ?_⟩
  · rw [info_hold, Nat.mod_eq_of_lt room]
    split
    · exact room
    · exact small t
  · rw [info_hold, Nat.mod_eq_of_lt room]
    split <;> simp_all

theorem Partition.rebooked_unhold (h : sm.Partition) (small : sm.Small) {amount : Nat}
    (pos : 0 < amount) (le : amount ≤ (sm.info s).heldRefcnt) :
    sm.Rebooked (sm.unhold s amount) (fun _ => 0) (fun t => if t = s then amount else 0) := by
  refine ⟨h.unhold pos le, sameShape_unhold amount, fun t => ?_, fun t => ?_⟩
  · rw [info_unhold]
    split
    · exact (Nat.sub_le _ _).trans_lt (small s)
    · exact small t
  · rw [info_unhold]
    split
    · rename_i here
      subst here
      dsimp only
      omega
    · rfl

theorem Rebooked.then {sm₁ sm₂ : SlabManager} {taken taken' : Nat → Nat}
    (h : sm.Rebooked sm₁ taken (fun _ => 0)) (h' : sm₁.Rebooked sm₂ taken' (fun _ => 0)) :
    sm.Rebooked sm₂ (fun t => taken t + taken' t) (fun _ => 0) :=
  ⟨h'.partition, h.shape.trans h'.shape, h'.small, fun t => by
    have := h.count t
    have := h'.count t
    omega⟩

/-- The first free slabs are handed out. -/
theorem Partition.getFreeSlabs (h : sm.Partition) (small : sm.Small) (n : Nat) :
    wp (getFreeSlabs n) sm (fun slabIDs sm' => slabIDs = sm.freeSlabs.take n ∧
      sm'.freeSlabs = sm.freeSlabs.drop n ∧
      sm.Rebooked sm' (fun t => slabIDs.count t) (fun _ => 0)) (fun _ _ => False) := by
  induction n generalizing sm with
  | zero => exact ⟨rfl, rfl, .refl h small⟩
  | succ n ih =>
    cases front : sm.freeSlabs with
    | nil =>
      rw [SlabManager.getFreeSlabs, wp_bind, wp_get, front]
      exact ⟨rfl, front, .refl h small⟩
    | cons s rest =>
      have grabbed := h.rebooked_grab small front
      apply getFreeSlabs_one h front
      apply wp_mono (ih grabbed.partition grabbed.small)
      · rintro slabIDs sm' ⟨taken, left, moved⟩
        have count : (fun t => (s :: slabIDs).count t) =
            fun t => (if t = s then 1 else 0) + slabIDs.count t :=
          funext fun t => Accounts.count_cons s t slabIDs
        refine ⟨by rw [taken]; rfl, left, ?_⟩
        rw [count]
        exact grabbed.then moved
      · intro _ _
        exact id

theorem limitReached_hold : (sm.hold s).limitReached =
    (sm.limitReached || (sm.info s).heldRefcnt + 1 == 2 ^ 32) := by
  unfold hold incrementHeld
  split <;> rfl

/-! ## The lists together -/

/-- The lists hold every slab once. -/
theorem Partition.perm (h : sm.Partition) :
    (sm.freeSlabs ++ (sm.heldSlabs ++ sm.wantedSlabs)).Perm (List.range sm.numSlabs) := by
  have apart : (sm.heldSlabs ++ sm.wantedSlabs).Nodup := by
    refine List.nodup_append.mpr ⟨h.held_nodup, h.wanted_nodup, ?_⟩
    rintro t held _ wanted rfl
    exact ((h.mem_held t).mp held).2 ((h.mem_wanted t).mp wanted).2.1
  have nodup : (sm.freeSlabs ++ (sm.heldSlabs ++ sm.wantedSlabs)).Nodup := by
    refine List.nodup_append.mpr ⟨h.free_nodup, apart, ?_⟩
    rintro t free _ other rfl
    obtain ⟨-, none, unwanted⟩ := (h.mem_free t).mp free
    rcases List.mem_append.mp other with held | wanted
    · exact ((h.mem_held t).mp held).2 none
    · exact ((h.mem_wanted t).mp wanted).2.2 unwanted
  refine (List.perm_ext_iff_of_nodup nodup List.nodup_range).mpr fun t => ?_
  rw [List.mem_append, List.mem_append, h.mem_free, h.mem_held, h.mem_wanted, List.mem_range]
  tauto

theorem Partition.sizes (h : sm.Partition) :
    sm.freeSlabs.length + sm.heldSlabs.length + sm.wantedSlabs.length = sm.numSlabs := by
  have := h.perm.length_eq
  rw [List.length_append, List.length_append, List.length_range] at this
  omega

theorem numSlabs_addBuffer (sm : SlabManager) :
    sm.addBuffer.numSlabs = sm.numSlabs + sm.slabsPerBuf := Nat.mul_succ ..

theorem Partition.info_addBuffer (h : sm.Partition) (t : Nat) :
    sm.addBuffer.info t = sm.info t := by
  show (if t / sm.slabsPerBuf = sm.numBuffers then {} else sm.info t) = sm.info t
  split
  · rename_i here
    apply (h.outside t _).symm
    rw [numSlabs, ← here]
    exact Nat.mul_div_le t sm.slabsPerBuf
  · rfl

theorem Partition.addBuffer (h : sm.Partition) : sm.addBuffer.Partition := by
  have num := numSlabs_addBuffer sm
  have info := h.info_addBuffer
  have new (t : Nat) : t ∈ (List.range sm.slabsPerBuf).map (sm.numSlabs + ·) ↔
      sm.numSlabs ≤ t ∧ t < sm.numSlabs + sm.slabsPerBuf := by
    rw [List.mem_map]
    constructor
    · rintro ⟨i, mem, rfl⟩
      have := List.mem_range.mp mem
      omega
    · intro inside
      exact ⟨t - sm.numSlabs, List.mem_range.mpr (by omega), by omega⟩
  constructor
  case slabs_pos => exact h.slabs_pos
  case free_nodup =>
    refine List.nodup_append.mpr ⟨h.free_nodup, ?_, ?_⟩
    · exact List.nodup_range.map fun _ _ => Nat.add_left_cancel
    · rintro t free _ added rfl
      have := ((h.mem_free t).mp free).1
      have := ((new t).mp added).1
      omega
  case held_nodup => exact h.held_nodup
  case wanted_nodup => exact h.wanted_nodup
  case mem_free =>
    intro t
    show t ∈ sm.freeSlabs ++ _ ↔ _
    rw [List.mem_append, h.mem_free, new, info, num]
    constructor
    · rintro (before | added)
      · exact ⟨by omega, before.2⟩
      · rw [h.outside t added.1]
        exact ⟨added.2, rfl, rfl⟩
    · rintro ⟨lt, idle⟩
      by_cases before : t < sm.numSlabs
      · exact .inl ⟨before, idle⟩
      · exact .inr ⟨Nat.not_lt.mp before, lt⟩
  case mem_held =>
    intro t
    rw [info, num, show sm.addBuffer.heldSlabs = sm.heldSlabs from rfl, h.mem_held]
    refine and_congr_left fun held => iff_of_true (h.lt_of_held held) ?_
    exact (h.lt_of_held held).trans_le (Nat.le_add_right _ _)
  case mem_wanted =>
    intro t
    rw [info, num, show sm.addBuffer.wantedSlabs = sm.wantedSlabs from rfl, h.mem_wanted]
    refine and_congr_left fun wanted => iff_of_true (h.lt_of_wanted wanted.2) ?_
    exact (h.lt_of_wanted wanted.2).trans_le (Nat.le_add_right _ _)
  case outside =>
    intro t ge
    rw [num] at ge
    rw [info, h.outside t (by omega)]

end
end SlabManager
end Mcsb
