import Mcsb.Client.Release

/-!
# Runs of a producer

Any sequence of calls on `ClientSendManager`, where slabs added are not held
and a live descriptor is released once.
-/

namespace Mcsb

/-- A producer, with its live descriptors and the slabs it was given and has not
handed back. -/
structure SendHistory where
  mgr : ClientSendManager := {}
  live : List Nat := []
  slabs : List Nat := []

inductive SendCall where
  | addFreeSlabs (slabs : List (UInt32 × Nat))
  | getMessageDescriptor (len : UInt32) (contiguous : Bool)
  | releaseMessageDescriptor (desc : Nat)
  | maxWorkingSlabs (maxSlabs : Nat)
  | flushWorkingSlabs
  | getRetiredSlabs (maxCount : Nat)

namespace SendHistory

def Legal (h : SendHistory) : SendCall → Prop
  | .addFreeSlabs slabs =>
    (slabs.map fun slab => slab.1.toNat).Nodup ∧ ∀ slab ∈ slabs, slab.1.toNat ∉ h.slabs
  | .releaseMessageDescriptor desc => desc ∈ h.live
  | _ => True

/-- `none` is a call without a defined result. -/
def step (p : SizeParams) (h : SendHistory) : SendCall → Option SendHistory
  | .addFreeSlabs slabs => (h.mgr.addFreeSlabs slabs).map fun mgr =>
      { h with mgr, slabs := h.slabs ++ slabs.map fun slab => slab.1.toNat }
  | .getMessageDescriptor len contiguous =>
    match h.mgr.getMessageDescriptor p len contiguous with
    | .error (.thrown _) => some h -- before anything is changed
    | .error .undefined => none
    | .ok (none, mgr) => some { h with mgr }
    | .ok (some desc, mgr) => some { h with mgr, live := h.live ++ [desc] }
  | .releaseMessageDescriptor desc => (h.mgr.releaseMessageDescriptor p desc).map fun mgr =>
      { h with mgr, live := h.live.erase desc }
  | .maxWorkingSlabs maxSlabs => some { h with mgr := h.mgr.setMaxWorkingSlabs maxSlabs }
  | .flushWorkingSlabs => some { h with mgr := h.mgr.flushWorkingSlabs }
  | .getRetiredSlabs maxCount =>
    let (slabIDs, mgr) := h.mgr.getRetiredSlabs maxCount
    some { h with mgr, slabs := h.slabs.diff slabIDs }

end SendHistory

/-- The IDs of the blocks of the slabs added have 32 bits, and so have the numbers
of slabs. -/
def SendCall.Fits (p : SizeParams) : SendCall → Prop
  | .addFreeSlabs slabs => ∀ slab ∈ slabs,
      (slab.1.toNat + 1) * p.blocksPerSlab ≤ 2 ^ 32 ∧ slab.1.toNat + 1 < 2 ^ 32
  | _ => True

/-- The histories of legal calls, which also fit if that is asked for. -/
inductive SendHistory.Run (p : SizeParams) (fit : Prop) : SendHistory → Prop where
  | start : Run p fit {}
  | step {h h' : SendHistory} (run : Run p fit h) (call : SendCall) (legal : h.Legal call)
      (fits : fit → call.Fits p) (next : h.step p call = some h') : Run p fit h'

namespace SendHistory
open ClientSendManager

variable {p : SizeParams} {fit : Prop} {h h' : SendHistory} {call : SendCall}

theorem sound_start (p : SizeParams) (fit : Prop) : Sound fit p {} [] [] := by
  constructor
  case lists =>
    constructor
    case nodup => exact List.nodup_nil
    case total => rfl
    case known => exact fun s mem => absurd mem List.not_mem_nil
    case flag => simp
    case unused => exact fun s mem => rfl
    case within => exact fun s => Nat.zero_le _
  case pooled => exact .refl _
  case few => exact Nat.zero_le _
  case owns => exact ⟨[], .nil, .nil⟩
  case counts =>
    intro _
    constructor
    case fits => exact fun s mem => absurd mem List.not_mem_nil
    case refs => exact fun s => rfl
    case free => exact fun s mem => rfl
    case full => exact fun s mem => absurd mem List.not_mem_nil
    case retired => exact fun s mem => rfl
    case few => exact fun s => Nat.le_refl _
    case inside => exact fun g mem => absurd mem List.not_mem_nil
    case apart => exact .nil

/-- The slabs held are those given and not handed back. -/
structure Valid (fit : Prop) (p : SizeParams) (h : SendHistory) : Prop where
  sound : Sound fit p h.mgr h.live []
  held : h.mgr.held.Perm h.slabs

theorem Valid.step (valid : Valid fit p h) (legal : h.Legal call) (fits : fit → call.Fits p)
    (next : h.step p call = some h') : Valid fit p h' := by
  obtain ⟨sound, held⟩ := valid
  cases call with
  | addFreeSlabs slabs =>
    obtain ⟨mgr, added, rfl⟩ := Option.map_eq_some_iff.mp next
    obtain ⟨sound, perm⟩ := sound.addFreeSlabs legal.1
      (fun slab mem before => legal.2 slab mem (held.mem_iff.mp before))
      (fun fitting slab mem => (fits fitting slab mem).1) added
    exact ⟨sound, perm.trans (held.append_right _)⟩
  | getMessageDescriptor len contiguous =>
    simp only [SendHistory.step] at next
    split at next
    · cases next
      exact ⟨sound, held⟩
    · cases next
    · rename_i mgr got
      cases next
      rcases sound.getMessageDescriptor got with ⟨-, rfl⟩ | ⟨d, chain, eq, -⟩
      · exact ⟨sound, held⟩
      · cases eq
    · rename_i desc mgr got
      cases next
      rcases sound.getMessageDescriptor got with ⟨eq, -⟩ | ⟨d, chain, eq, gets⟩
      · cases eq
      · cases eq
        exact ⟨gets.sound, gets.held.trans held⟩
  | releaseMessageDescriptor desc =>
    obtain ⟨mgr, released, rfl⟩ := Option.map_eq_some_iff.mp next
    obtain ⟨sound, perm⟩ := (sound.releaseMessageDescriptor legal).1 mgr released
    exact ⟨sound, perm.trans held⟩
  | maxWorkingSlabs maxSlabs =>
    cases next
    have moved : Moves (fun _ => True) _ _ :=
      (sound.lists.setMaxWorkingSlabs (fun _ _ => trivial) maxSlabs).1
    exact ⟨sound.setMaxWorkingSlabs maxSlabs, moved.held.trans held⟩
  | flushWorkingSlabs =>
    cases next
    have moved : Moves (fun _ => True) _ _ :=
      (sound.lists.flushWorkingSlabs fun _ _ => trivial).1
    exact ⟨sound.flushWorkingSlabs, moved.held.trans held⟩
  | getRetiredSlabs maxCount =>
    cases next
    obtain ⟨sound, perm⟩ := sound.getRetiredSlabs maxCount
    refine ⟨sound, List.perm_iff_count.mpr fun x => ?_⟩
    have count := (perm.trans held).count_eq x
    change (h.mgr.getRetiredSlabs maxCount).2.held.count x =
      (h.slabs.diff (h.mgr.getRetiredSlabs maxCount).1).count x
    rw [List.count_append] at count
    rw [List.count_diff]
    omega

theorem Run.valid (run : Run p fit h) : Valid fit p h := by
  induction run with
  | start => exact ⟨sound_start p fit, .refl _⟩
  | step run call legal fits next ih => exact ih.step legal fits next

/-- A legal call that fits has a defined result once slabs have blocks. -/
theorem Valid.defined (valid : Valid True p h) (sized : p.Sized) (legal : h.Legal call)
    (fits : call.Fits p) : (h.step p call).isSome := by
  cases call with
  | addFreeSlabs slabs =>
    simp only [SendHistory.step, Option.isSome_map]
    exact addFreeSlabs_isSome h.mgr fun slab mem => (fits slab mem).2
  | getMessageDescriptor len contiguous =>
    simp only [SendHistory.step]
    split
    · rfl
    · rename_i got
      exact absurd got (valid.sound.getMessageDescriptor_defined sized)
    · rfl
    · rfl
  | releaseMessageDescriptor desc =>
    simp only [SendHistory.step, Option.isSome_map]
    exact (valid.sound.releaseMessageDescriptor legal).2 trivial
  | maxWorkingSlabs maxSlabs => rfl
  | flushWorkingSlabs => rfl
  | getRetiredSlabs maxCount => rfl

/-- What the allocator maintains. The slabs are on one list each, and the live
segments are inside of their slabs and apart. -/
structure Consistent (p : SizeParams) (h : SendHistory) : Prop where
  held : (h.mgr.freeSlabs ++ h.mgr.workingSlabs ++ h.mgr.fullSlabs ++ h.mgr.retiredSlabs).Perm
    h.slabs
  distinct : h.slabs.Nodup
  total : h.mgr.slabsHeld = h.slabs.length
  working : ∀ s, (h.mgr.slabInfo s).working = true ↔ s ∈ h.mgr.workingSlabs
  free : ∀ s ∈ h.mgr.freeSlabs,
    (h.mgr.slabInfo s).blocksUsed = 0 ∧ (h.mgr.slabInfo s).refcount = 0
  refcount : ∀ s, (h.mgr.slabInfo s).refcount.toNat = busyIn p h.mgr s
  full : ∀ s ∈ h.mgr.fullSlabs, (h.mgr.slabInfo s).refcount ≠ 0
  retired : ∀ s ∈ h.mgr.retiredSlabs, (h.mgr.slabInfo s).refcount = 0
  few : h.mgr.workingSlabs.length ≤ h.mgr.maxWorkingSlabs
  live : Owns h.mgr h.live []
  inside : ∀ g ∈ h.mgr.busySegs, Inside p h.mgr (h.mgr.segs g)
  used : ∀ s, (h.mgr.slabInfo s).blocksUsed ≤ p.blocksPerSlab
  apart : h.mgr.busySegs.Pairwise fun g g' => Apart p (h.mgr.segs g) (h.mgr.segs g')

theorem Valid.consistent (valid : Valid True p h) : Consistent p h := by
  obtain ⟨⟨lists, -, few, owns, counts⟩, held⟩ := valid
  have counts := counts trivial
  constructor
  case held => exact held
  case distinct => exact held.nodup_iff.mp lists.nodup
  case total => exact lists.total.trans held.length_eq
  case working => exact lists.flag
  case free => exact fun s mem => ⟨lists.unused s mem, counts.free s mem⟩
  case refcount => exact counts.refs
  case full => exact counts.full
  case retired => exact counts.retired
  case few => exact few
  case live => exact owns
  case inside => exact counts.inside
  case used => exact lists.within
  case apart => exact counts.apart

/-- As long as the slabs fit, every state is consistent, and if they have blocks
every legal call has a defined result. -/
theorem Run.slabs_consistent (run : Run p True h) : Consistent p h ∧
    (p.Sized → ∀ call, h.Legal call → call.Fits p → (h.step p call).isSome) :=
  ⟨run.valid.consistent, fun sized _ legal fits => run.valid.defined sized legal fits⟩

/-- Blocks of 4096 bytes, and two of them in a slab. -/
def pages : SizeParams := ⟨4096, 8192, 2, rfl⟩

/-- A descriptor of both blocks of a slab is got and released. -/
theorem Run.slabs_consistent_released : ∃ busy done : SendHistory,
    busy.live = [0] ∧ busy.mgr.fullSlabs = [0] ∧ Consistent pages busy ∧
    done.live = [] ∧ done.mgr.retiredSlabs = [0] ∧ Consistent pages done ∧
    ∀ call, done.Legal call → call.Fits pages → (done.step pages call).isSome := by
  have added : Run pages True _ := .step .start (.addFreeSlabs [(0, 0)]) (by simp [Legal])
    (fun _ => by simp [SendCall.Fits, pages]) rfl
  have got : Run pages True _ := .step added (.getMessageDescriptor 5000 true) trivial
    (fun _ => trivial) rfl
  have live : 0 ∈ [0] := List.mem_singleton_self 0
  have released : Run pages True _ := .step got (.releaseMessageDescriptor 0) live
    (fun _ => trivial) rfl
  have sized : pages.Sized := .inr Nat.two_pos
  exact ⟨_, _, rfl, rfl, got.slabs_consistent.1, rfl, rfl, released.slabs_consistent.1,
    released.slabs_consistent.2 sized⟩

/-- Slabs of 2^31 blocks: the IDs of the blocks of slab 2 start at 0 again. -/
def halves : SizeParams := ⟨1, 0x80000000, 0x80000000, rfl⟩

/-- Slab 2 is given, and a segment of it is got and released, but counted as one of
slab 0. -/
theorem not_consistent : ¬ ∀ p h, Run p False h → Consistent p h := by
  intro always
  have added : Run halves False _ :=
    .step .start (.addFreeSlabs [(2, 0)]) (by simp [Legal]) False.elim rfl
  have got : Run halves False _ :=
    .step added (.getMessageDescriptor 1 true) trivial False.elim rfl
  have live : 0 ∈ [0] := List.mem_singleton_self 0
  have released : Run halves False _ :=
    .step got (.releaseMessageDescriptor 0) live False.elim rfl
  have count := (always _ _ released).refcount 2
  revert count
  decide

/-! ## Lengths -/

/-- Any descriptor got for a message of that length is large enough for it, and
for one block. -/
def LargeEnough (p : SizeParams) (len : UInt32) : Prop :=
  ∀ (h : SendHistory) (contiguous : Bool) (desc : Nat) (mgr : ClientSendManager), Run p False h →
    h.mgr.getMessageDescriptor p len contiguous = .ok (some desc, mgr) →
    ∃ chain, Linked mgr.next (some desc) chain ∧
      len.toNat ≤ (chain.map fun seg => (mgr.segs seg).size).sum ∧
      p.blockSize.toNat ≤ (chain.map fun seg => (mgr.segs seg).size).sum

/-- The sum that `nBlocks` is calculated from has 32 bits. -/
theorem blocksFor_eq (p : SizeParams) {len : UInt32} (some : len ≠ 0) :
    blocksFor p len =
      if (len.toNat - 1 + p.blockSize.toNat) % 2 ^ 32 / p.blockSize.toNat = 0 then 1
      else (len.toNat - 1 + p.blockSize.toNat) % 2 ^ 32 / p.blockSize.toNat := by
  have pos : 1 ≤ len.toNat := Nat.one_le_iff_ne_zero.mpr fun none => some (UInt32.toNat_inj.mp none)
  have before : (len - 1).toNat = len.toNat - 1 :=
    UInt32.toNat_sub_of_le _ _ (UInt32.le_iff_toNat_le.mpr pos)
  simp only [blocksFor, UInt32.toNat_div, UInt32.toNat_add, before]

/-- A sum that wraps around is less than a block. -/
theorem blocksFor_wrapped (p : SizeParams) {len : UInt32} (sized : p.blockSize ≠ 0)
    (wraps : 2 ^ 32 ≤ len.toNat - 1 + p.blockSize.toNat) : blocksFor p len = 1 := by
  have bytes : 0 < p.blockSize.toNat :=
    Nat.pos_of_ne_zero fun none => sized (UInt32.toNat_inj.mp none)
  have lt := len.toNat_lt
  have small := p.blockSize.toNat_lt
  have some : len ≠ 0 := by
    rintro rfl
    simp only [UInt32.toNat_zero] at wraps
    omega
  have wrapped : (len.toNat - 1 + p.blockSize.toNat) % 2 ^ 32 < p.blockSize.toNat := by omega
  rw [blocksFor_eq p some, if_pos (Nat.div_eq_of_lt wrapped)]

/-- A number of blocks is enough unless the sum wraps around. -/
theorem le_blocksFor_iff (p : SizeParams) (len : UInt32) (sized : p.blockSize ≠ 0) :
    len.toNat ≤ blocksFor p len * p.blockSize.toNat ↔
      len.toNat ≤ p.blockSize.toNat ∨ len.toNat - 1 + p.blockSize.toNat < 2 ^ 32 := by
  by_cases wraps : len.toNat - 1 + p.blockSize.toNat < 2 ^ 32
  · have bytes : 0 < p.blockSize.toNat :=
      Nat.pos_of_ne_zero fun none => sized (UInt32.toNat_inj.mp none)
    by_cases some : len = 0
    · subst some
      exact iff_of_true (Nat.zero_le _) (.inr wraps)
    have parts := Nat.div_add_mod (len.toNat - 1 + p.blockSize.toNat) p.blockSize.toNat
    have rest := Nat.mod_lt (len.toNat - 1 + p.blockSize.toNat) bytes
    have one : 1 ≤ (len.toNat - 1 + p.blockSize.toNat) / p.blockSize.toNat :=
      (Nat.one_le_div_iff bytes).mpr (Nat.le_add_left _ _)
    rw [blocksFor_eq p some, Nat.mod_eq_of_lt wraps, if_neg (Nat.ne_of_gt one), Nat.mul_comm]
    exact iff_of_true (by omega) (.inr wraps)
  · rw [blocksFor_wrapped p sized (Nat.not_lt.mp wraps), Nat.one_mul]
    exact (or_iff_left wraps).symm

/-- A producer that was given a slab. -/
def oneSlab : SendHistory where
  mgr := {
    slabsHeld := 1
    freeSlabs := [0]
    numTotalSlabs := 1
    slabInfo := Function.update (fun _ => {}) 0 {} }
  slabs := [0]

theorem run_oneSlab (p : SizeParams) : Run p False oneSlab :=
  have legal : SendHistory.Legal {} (.addFreeSlabs [(0, 0)]) := by simp [Legal]
  .step .start _ legal (fun fit => fit.elim) rfl

theorem oneSlab_gets {len : UInt32} (contiguous : Bool) (sized : p.blockSize ≠ 0)
    (pos : 0 < p.blocksPerSlab) (one : blocksFor p len = 1) :
    ∃ d m', oneSlab.mgr.getMessageDescriptor p len contiguous = .ok (some d, m') := by
  have full : oneSlab.mgr.findRoom p 1 = none := by
    unfold findRoom
    split <;> rfl
  have source : Source p oneSlab.mgr 1 false (oneSlab.mgr.harvest 0 []) 0 :=
    .free 0 [] full rfl rfl
  have got := source.getSegment pos
  have fits : contiguous = true ∨ 1 ≤ p.blocksPerSlab := .inr pos
  unfold ClientSendManager.getMessageDescriptor
  simp only [one, if_neg sized]
  rw [if_pos fits]
  exact ⟨_, _, got⟩

/-- Nothing is allocated without sizes. -/
theorem sized_of_got {m m' : ClientSendManager} {len : UInt32} {contiguous : Bool} {d : Nat}
    (got : m.getMessageDescriptor p len contiguous = .ok (some d, m')) :
    p.blockSize ≠ 0 ∧ 0 < p.blocksPerSlab := by
  have pos := blocksFor_pos p len
  unfold ClientSendManager.getMessageDescriptor at got
  split at got
  · cases got
  rename_i sized
  refine ⟨sized, Nat.pos_of_ne_zero fun none => ?_⟩
  dsimp only at got
  split at got
  · unfold getSegment at got
    rw [if_pos (none ▸ pos)] at got
    cases got
  · cases got

/-- A message whose blocks wrap around is given one block. -/
theorem not_largeEnough {len : UInt32} (sized : p.blockSize ≠ 0) (pos : 0 < p.blocksPerSlab)
    (more : p.blockSize.toNat < len.toNat) (wraps : 2 ^ 32 ≤ len.toNat - 1 + p.blockSize.toNat) :
    ¬ LargeEnough p len := by
  intro large
  have one := blocksFor_wrapped p sized wraps
  obtain ⟨d, m', got⟩ := oneSlab_gets false sized pos one
  obtain ⟨chain, linked, enough, -⟩ := large oneSlab false d m' (run_oneSlab p) got
  rcases (run_oneSlab p).valid.sound.getMessageDescriptor got with ⟨eq, -⟩ | ⟨_, _, eq, gets⟩
  · cases eq
  · cases eq
    have size := gets.size
    rw [← linked.unique gets.linked, one, Nat.one_mul] at size
    omega

theorem slabSize_eq_zero (sized : p.blockSize ≠ 0) : p.slabSize = 0 ↔ p.blocksPerSlab = 0 := by
  have bytes : p.blockSize.toNat ≠ 0 := fun none => sized (UInt32.toNat_inj.mp none)
  rw [← UInt32.toNat_inj, p.whole, UInt32.toNat_zero, Nat.mul_eq_zero, or_iff_left bytes]

/-- A descriptor is large enough for its message unless the sum that the number of
blocks is calculated from wraps around. -/
theorem largeEnough_iff (p : SizeParams) (len : UInt32) :
    LargeEnough p len ↔ p.blockSize = 0 ∨ p.slabSize = 0 ∨ len.toNat ≤ p.blockSize.toNat ∨
      len.toNat - 1 + p.blockSize.toNat < 2 ^ 32 := by
  constructor
  · intro large
    by_contra none
    simp only [not_or] at none
    obtain ⟨sized, whole, more, wraps⟩ := none
    have pos := Nat.pos_of_ne_zero (mt (slabSize_eq_zero sized).mpr whole)
    exact not_largeEnough sized pos (Nat.not_le.mp more) (Nat.not_lt.mp wraps) large
  · intro condition h contiguous desc mgr run got
    obtain ⟨sized, pos⟩ := sized_of_got got
    have whole : p.slabSize ≠ 0 := mt (slabSize_eq_zero sized).mp (Nat.ne_of_gt pos)
    have enough := (le_blocksFor_iff p len sized).mpr
      ((condition.resolve_left sized).resolve_left whole)
    rcases run.valid.sound.getMessageDescriptor got with ⟨eq, -⟩ | ⟨_, chain, eq, gets⟩
    · cases eq
    · cases eq
      refine ⟨chain, gets.linked, ?_, ?_⟩
      · rw [gets.size]
        exact enough
      · rw [gets.size]
        exact Nat.le_mul_of_pos_left _ (blocksFor_pos p len)

theorem not_largeEnough_pages : ¬ LargeEnough pages 0xFFFFFFFF :=
  not_largeEnough (by decide) (by decide) (by decide) (by decide)

/-! ## Messages of several slabs -/

/-- A message of more blocks than a slab has is either allocated whole or not at
all, and the free slabs decide which. -/
theorem Run.allOrNothing {len : UInt32} (run : Run p fit h) (pos : 0 < p.blocksPerSlab)
    (several : p.blocksPerSlab < blocksFor p len) :
    (h.mgr.freeSlabs.length < slabsNeeded p h.mgr (blocksFor p len) ∧
      h.mgr.getMessageDescriptor p len false = .ok (none, h.mgr)) ∨
    (slabsNeeded p h.mgr (blocksFor p len) ≤ h.mgr.freeSlabs.length ∧
      ∃ desc mgr slabs part whole,
        h.mgr.getMessageDescriptor p len false = .ok (some desc, mgr) ∧
        Multi fit p h.mgr h.live (blocksFor p len) mgr desc slabs part whole) :=
  run.valid.sound.getMessageDescriptor_multi pos several

/-- Three blocks, where a slab has two: they are refused with one slab, and with two
of them the block left over has a segment of its own. -/
theorem allOrNothing_twoSlabs :
    oneSlab.mgr.getMessageDescriptor pages 12288 false = .ok (none, oneSlab.mgr) ∧
    ∃ (h : SendHistory) (desc : Nat) (mgr : ClientSendManager) (slabs part whole : List Nat),
      h.mgr.freeSlabs = [0, 1] ∧
      h.mgr.getMessageDescriptor pages 12288 false = .ok (some desc, mgr) ∧
      Multi False pages h.mgr [] 3 mgr desc slabs part whole := by
  have several : pages.blocksPerSlab < blocksFor pages 12288 := by decide
  have few : ¬ slabsNeeded pages oneSlab.mgr 3 ≤ 1 := by decide
  have refused := ((run_oneSlab pages).allOrNothing Nat.two_pos several).resolve_right
    fun granted => few granted.1
  have added : Run pages False _ := .step .start (.addFreeSlabs [(0, 0), (1, 8192)])
    (by simp [Legal]) False.elim rfl
  have room : ¬ 2 < slabsNeeded pages {} 3 := by decide
  have granted := (added.allOrNothing Nat.two_pos several).resolve_left
    fun refused => room refused.1
  obtain ⟨-, desc, mgr, slabs, part, whole, got, multi⟩ := granted
  exact ⟨refused.2, _, desc, mgr, slabs, part, whole, rfl, got, multi⟩

end SendHistory
end Mcsb
