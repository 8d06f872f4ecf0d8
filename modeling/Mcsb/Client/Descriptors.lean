import Mcsb.Client.Allocation

/-!
# The descriptors of a producer

The live descriptors are chains of busy segments, each its own. What holds of
the slabs and of the segments is kept by every call, so it holds after any run.
-/

namespace Mcsb.ClientSendManager

/-- The pointers between the segments. -/
def next (m : ClientSendManager) (g : Nat) : Option Nat := (m.segs g).next

/-- The busy segments are those of the live descriptors and some loose ones. -/
def Owns (m : ClientSendManager) (live loose : List Nat) : Prop :=
  ∃ chains, List.Forall₂ (fun d chain => Linked m.next (some d) chain) live chains ∧
    (chains.flatten ++ loose).Perm m.busySegs

/-- What holds between any two steps; the counts only if the block IDs fit. -/
structure Sound (fit : Prop) (p : SizeParams) (m : ClientSendManager) (live loose : List Nat) :
    Prop where
  lists : Lists p m
  pooled : Pooled m
  few : m.workingSlabs.length ≤ m.maxWorkingSlabs
  owns : Owns m live loose
  counts : fit → Counts p m

variable {p : SizeParams} {m m' m'' : ClientSendManager} {s : Nat} {fit : Prop} {live loose : List Nat} {n g d : Nat}

/-- Chains stay as they are when pointers of other segments change. -/
theorem forall₂_linked {chains : List (List Nat)}
    (linked : List.Forall₂ (fun d chain => Linked m.next (some d) chain) live chains)
    (same : ∀ g ∈ chains.flatten, m'.next g = m.next g) :
    List.Forall₂ (fun d chain => Linked m'.next (some d) chain) live chains := by
  induction linked with
  | nil => exact .nil
  | cons first rest ih =>
    simp only [List.flatten_cons, List.mem_append] at same
    exact .cons (first.congr fun g mem => same g (.inl mem)) (ih fun g mem => same g (.inr mem))

theorem next_update {m : ClientSendManager} {segs : Nat → MessageSegment} {seg : MessageSegment}
    (eq : m.segs = Function.update segs g seg) :
    m.next = Function.update (fun x => (segs x).next) g seg.next := by
  funext x
  simp only [next, eq, Function.update_apply]
  split <;> rfl

/-- A segment without its pointer. -/
def place (m : ClientSendManager) (g : Nat) : MessageSegment := { m.segs g with next := none }

/-- A segment got is loose, and its pointer is null. -/
structure Got (fit : Prop) (p : SizeParams) (m : ClientSendManager) (live loose : List Nat)
    (n : Nat) (noFreeSlabs : Bool) (g : Nat) (m' : ClientSendManager) : Prop where
  sound : Sound fit p m' live (loose ++ [g])
  fresh : g ∉ m.busySegs
  pointers : m'.next = Function.update m.next g none
  others : ∀ x, x ≠ g → m'.segs x = m.segs x
  busy : m'.busySegs = m.busySegs ++ [g]
  buf : ∀ x, (m'.slabInfo x).buf = (m.slabInfo x).buf
  held : m'.held.Perm m.held
  source : ∃ m₀ s, Source p m n noFreeSlabs m₀ s ∧ m'.freeSlabs = m₀.freeSlabs ∧
    m'.place g = carved p m₀ s n

theorem Got.size {noFreeSlabs : Bool} (h : Got fit p m live loose n noFreeSlabs g m') :
    (m'.place g).size = n * p.blockSize.toNat := by
  obtain ⟨m₀, s, -, -, here⟩ := h.source
  rw [here]
  rfl

theorem Sound.getSegment {noFreeSlabs : Bool} (h : Sound fit p m live loose)
    (sized : p.blockSize ≠ 0) (pos : 0 < n)
    (got : m.getSegment p n noFreeSlabs = .ok (some g, m')) :
    Got fit p m live loose n noFreeSlabs g m' := by
  obtain ⟨m₀, s, source, allocates⟩ := h.lists.getSegment_some pos got
  have any : Moves (fun _ => True) m m₀ := source.moves h.lists
  have lists := h.lists.moves any
  have pooled := h.pooled.moves any
  obtain ⟨busySegs, segs⟩ := allocates.segs pooled
  obtain ⟨segs₀, -, busySegs₀, -⟩ := any.segs
  have fresh := allocates.fresh pooled
  rw [busySegs₀] at busySegs fresh
  rw [segs₀] at segs
  have next : m'.next = Function.update m.next g none := next_update segs
  constructor
  case fresh => exact fresh
  case pointers => exact next
  case busy => exact busySegs
  case others =>
    intro x other
    rw [segs, Function.update_of_ne other]
  case buf => exact fun x => (allocates.buf x).trans (any.buf x)
  case held => exact allocates.held.trans any.held
  case source =>
    refine ⟨m₀, s, source, allocates.free, ?_⟩
    unfold place
    rw [segs, Function.update_self]
    rfl
  case sound =>
    constructor
    case lists => exact allocates.lists lists
    case pooled => exact allocates.pooled pooled
    case few => exact allocates.few
    case owns =>
      obtain ⟨chains, linked, perm⟩ := h.owns
      refine ⟨chains, forall₂_linked linked ?_, ?_⟩
      · intro x mem
        have other : x ≠ g :=
          ne_of_mem_of_not_mem (perm.mem_iff.mp (List.mem_append_left _ mem)) fresh
        rw [next, Function.update_of_ne other]
      · rw [busySegs, ← List.append_assoc]
        exact perm.append_right _
    case counts =>
      exact fun fits =>
        allocates.counts ((h.counts fits).moves (source.moves h.lists)) lists pooled sized

/-! ## Linking whole slabs -/

/-- Only a pointer is set. -/
theorem place_setNext (m : ClientSendManager) (seg new x : Nat) :
    (m.setNext seg new).place x = m.place x := by
  simp only [place, setNext, Function.update_apply]
  split
  · rename_i here
    exact here ▸ rfl
  · rfl

theorem next_setNext (m : ClientSendManager) (seg new : Nat) :
    (m.setNext seg new).next = Function.update m.next seg (some new) := by
  funext x
  simp only [next, setNext, Function.update_apply]
  split <;> rfl

theorem Counts.setNext (h : Counts p m) (seg new : Nat) : Counts p (m.setNext seg new) := by
  have same (x : Nat) : ((m.setNext seg new).segs x).blockID = (m.segs x).blockID ∧
      ((m.setNext seg new).segs x).size = (m.segs x).size ∧
      ((m.setNext seg new).segs x).buf = (m.segs x).buf := by
    have place := m.place_setNext seg new x
    exact ⟨congrArg (·.blockID) place, congrArg (·.size) place, congrArg (·.buf) place⟩
  have slab (x : Nat) : slabOf p ((m.setNext seg new).segs x) = slabOf p (m.segs x) := by
    simp only [slabOf, same]
  have blocks (x : Nat) : segBlocks p ((m.setNext seg new).segs x) = segBlocks p (m.segs x) := by
    simp only [segBlocks, same]
  have busy (s : Nat) : busyIn p (m.setNext seg new) s = busyIn p m s := by
    simp only [busyIn, slab]
    rfl
  constructor
  case fits => exact h.fits
  case refs => exact fun s => (h.refs s).trans (busy s).symm
  case free => exact h.free
  case full => exact h.full
  case retired => exact h.retired
  case few => exact fun s => (busy s).symm ▸ h.few s
  case inside =>
    intro x mem
    have inside := h.inside x mem
    constructor
    case slab => exact (slab x).symm ▸ inside.slab
    case pos => exact (blocks x).symm ▸ inside.pos
    case size => rw [(same x).2.1, blocks, inside.size]
    case within =>
      rw [(same x).1, blocks, slab]
      exact inside.within
    case buf =>
      rw [(same x).1, (same x).2.2, slab]
      exact inside.buf
  case apart =>
    have apart := h.apart
    simp only [Apart, same, blocks] at apart ⊢
    exact apart

/-- A pointer of a loose segment does not matter to the live descriptors. -/
theorem Sound.setNext (h : Sound fit p m live loose) (mem : g ∈ loose) (new : Nat) :
    Sound fit p (m.setNext g new) live loose := by
  obtain ⟨nodup, total, known, flag, unused, within⟩ := h.lists
  constructor
  case lists => exact ⟨nodup, total, known, flag, unused, within⟩
  case pooled => exact h.pooled
  case few => exact h.few
  case owns =>
    obtain ⟨chains, linked, perm⟩ := h.owns
    have distinct := perm.nodup_iff.mpr h.pooled.nodup_busySegs
    refine ⟨chains, forall₂_linked linked ?_, perm⟩
    intro x inChain
    have other : x ≠ g := (List.nodup_append.mp distinct).2.2 x inChain g mem
    rw [next_setNext, Function.update_of_ne other]
  case counts => exact fun fits => (h.counts fits).setNext g new

/-- The loose segments are linked from `seg0` to `segN`, up to the pointer of the
last one. -/
def Linking (m : ClientSendManager) (loose : List Nat) : Option (Nat × Nat) → Prop
  | none => loose = []
  | some (seg0, segN) => ∃ l, loose = l ++ [segN] ∧
      Linked (Function.update m.next segN none) (some seg0) loose

/-- The pointer of the last segment is null when the loop ends. -/
def Ends (m : ClientSendManager) (turns : Nat) : Option (Nat × Nat) → Prop
  | none => 2 ≤ turns
  | some (_, segN) => m.next segN = none ∨ 0 < turns

theorem Sound.loose_nodup (h : Sound fit p m live loose) : loose.Nodup := by
  obtain ⟨chains, -, perm⟩ := h.owns
  exact (List.nodup_append.mp (perm.nodup_iff.mpr h.pooled.nodup_busySegs)).2.1

theorem Sound.mem_busySegs (h : Sound fit p m live loose) (mem : g ∈ loose) : g ∈ m.busySegs := by
  obtain ⟨chains, -, perm⟩ := h.owns
  exact perm.mem_iff.mp (List.mem_append_right _ mem)

/-- The segment that takes a whole slab. -/
def wholeSlab (p : SizeParams) (m : ClientSendManager) (s : Nat) : MessageSegment where
  buf := (m.slabInfo s).buf
  size := p.slabSize.toNat
  blockID := UInt32.ofNat (s * p.blocksPerSlab)

/-- No working slab is looked at for a whole one. -/
theorem findRoom_whole (m : ClientSendManager) : m.findRoom p p.blocksPerSlab = none := by
  unfold findRoom
  exact if_neg (Nat.lt_irrefl _)

theorem Got.wholeSlab (h : Got fit p m live loose p.blocksPerSlab false g m') (lists : Lists p m) :
    ∃ s, m.freeSlabs = s :: m'.freeSlabs ∧ m'.place g = wholeSlab p m s := by
  obtain ⟨m₀, s, source, free, here⟩ := h.source
  cases source with
  | working _ found => simp only [findRoom_whole, reduceCtorEq] at found
  | free _ rest full front allowed =>
    have unused := lists.unused s (front ▸ List.mem_cons_self)
    refine ⟨s, free ▸ front, here.trans ?_⟩
    simp only [carved, ClientSendManager.wholeSlab, harvest, setSlab, Function.update_self, unused,
      Nat.zero_mul, Nat.add_zero, p.whole]

/-- What one turn of the loop leaves. -/
structure Turned (fit : Prop) (p : SizeParams) (m : ClientSendManager) (live loose : List Nat)
    (turns g : Nat) (ends : Nat × Nat) (m' : ClientSendManager) : Prop where
  sound : Sound fit p m' live (loose ++ [g])
  linking : Linking m' (loose ++ [g]) (some ends)
  ends : Ends m' turns (some ends)
  whole : ∃ s, m.freeSlabs = s :: m'.freeSlabs ∧ m'.place g = wholeSlab p m s
  old : ∀ x ∈ m.busySegs, m'.place x = m.place x
  fresh : g ∉ m.busySegs
  busy : m'.busySegs = m.busySegs ++ [g]
  buf : ∀ x, (m'.slabInfo x).buf = (m.slabInfo x).buf
  held : m'.held.Perm m.held

theorem Sound.turn {ends : Option (Nat × Nat)} {turns : Nat} (h : Sound fit p m live loose)
    (sized : p.blockSize ≠ 0) (pos : 0 < p.blocksPerSlab) (linking : Linking m loose ends)
    (ready : Ends m (turns + 1) ends)
    (got : m.getSegment p p.blocksPerSlab false = .ok (some g, m')) :
    Turned fit p m live loose turns g ((ends.getD (g, g)).1, g)
      (m'.setNext (ends.getD (g, g)).2 g) := by
  have gets := h.getSegment sized pos got
  have null : m'.next g = none := by rw [gets.pointers, Function.update_self]
  have linked : Linking (m'.setNext (ends.getD (g, g)).2 g) (loose ++ [g])
        (some ((ends.getD (g, g)).1, g)) ∧
      Ends (m'.setNext (ends.getD (g, g)).2 g) turns (some ((ends.getD (g, g)).1, g)) ∧
      (ends.getD (g, g)).2 ∈ loose ++ [g] := by
    cases ends with
    | none =>
      subst linking
      refine ⟨⟨[], rfl, ?_⟩, ?_, List.mem_singleton_self g⟩
      · rw [next_setNext]
        simp only [Option.getD_none, Function.update_idem, List.nil_append]
        exact .cons (by rw [Function.update_self]; exact .nil)
      · exact .inr (by simp only [Ends] at ready; omega)
    | some pair =>
      obtain ⟨seg0, segN⟩ := pair
      obtain ⟨l, rfl, linked⟩ := linking
      have fresh : g ∉ l ++ [segN] := fun mem => gets.fresh (h.mem_busySegs mem)
      have other : segN ≠ g := by
        rintro rfl
        exact fresh (by simp)
      refine ⟨⟨l ++ [segN], rfl, ?_⟩, ?_, by simp⟩
      · -- the segment got is linked in behind the last, which stands alone until then
        have linked' : Linked (Function.update m'.next segN none) (some seg0) (l ++ [segN]) := by
          apply linked.congr
          intro x mem
          simp only [gets.pointers, Function.update_apply, ne_of_mem_of_not_mem mem fresh, if_false]
        have ends : Function.update m'.next segN none g = none := by
          rw [Function.update_of_ne other.symm]
          exact null
        have longer := linked'.snoc h.loose_nodup fresh ends
        simp only [Function.update_idem] at longer
        apply longer.congr
        intro x mem
        simp only [Option.getD_some, next_setNext, Function.update_apply]
        split
        · rename_i here
          simp only [here, other.symm, if_false, null]
        · rfl
      · left
        rw [next_setNext]
        simp only [Option.getD_some, Function.update_of_ne other.symm, null]
  obtain ⟨linking, ready, mem⟩ := linked
  constructor
  case sound => exact gets.sound.setNext mem g
  case linking => exact linking
  case ends => exact ready
  case whole =>
    rw [place_setNext]
    exact gets.wholeSlab h.lists
  case old =>
    intro x mem
    rw [place_setNext]
    unfold place
    rw [gets.others x (ne_of_mem_of_not_mem mem gets.fresh)]
  case fresh => exact gets.fresh
  case busy => exact gets.busy
  case buf => exact gets.buf
  case held => exact gets.held

/-- The loose segments are linked up with as many whole slabs, from the front of
the free ones. -/
structure Links (fit : Prop) (p : SizeParams) (m : ClientSendManager) (live loose : List Nat)
    (wholeSlabs : Nat) (m' : ClientSendManager) (d : Nat) (new : List Nat) : Prop where
  sound : Sound fit p m' live (loose ++ new)
  linked : Linked m'.next (some d) (loose ++ new)
  places : new.map m'.place = (m.freeSlabs.take wholeSlabs).map (wholeSlab p m)
  fresh : ∀ x ∈ new, x ∉ m.busySegs
  old : ∀ x ∈ m.busySegs, m'.place x = m.place x
  held : m'.held.Perm m.held

/-- With that many free slabs the loop does not fail. -/
theorem Sound.linkLoop {ends : Option (Nat × Nat)} {wholeSlabs : Nat}
    (h : Sound fit p m live loose) (sized : p.blockSize ≠ 0) (pos : 0 < p.blocksPerSlab)
    (linking : Linking m loose ends) (ready : Ends m wholeSlabs ends)
    (enough : wholeSlabs ≤ m.freeSlabs.length) :
    ∃ d m' new, m.linkLoop p wholeSlabs ends = .ok (some d, m') ∧
      Links fit p m live loose wholeSlabs m' d new := by
  induction wholeSlabs generalizing m loose ends with
  | zero =>
    cases ends with
    | none => exact absurd ready (by simp [Ends])
    | some pair =>
      obtain ⟨seg0, segN⟩ := pair
      obtain ⟨l, rfl, linked⟩ := linking
      have null := ready.resolve_right (Nat.lt_irrefl 0)
      rw [← null, Function.update_eq_self] at linked
      refine ⟨seg0, m, [], rfl, ?_⟩
      constructor
      case sound => simpa using h
      case linked => simpa using linked
      case places => rfl
      case fresh => exact fun x mem => absurd mem List.not_mem_nil
      case old => exact fun x mem => rfl
      case held => exact .refl _
  | succ wholeSlabs ih =>
    obtain ⟨s, rest, front⟩ := List.exists_cons_of_length_pos (Nat.zero_lt_of_lt enough)
    have source : Source p m p.blocksPerSlab false (m.harvest s rest) s :=
      .free s rest (findRoom_whole m) front rfl
    have got := source.getSegment (Nat.le_refl _)
    generalize (ClientSendManager.allocate p (m.harvest s rest) s p.blocksPerSlab).1 = g at got
    generalize (ClientSendManager.allocate p (m.harvest s rest) s p.blocksPerSlab).2 = m₁ at got
    have turned := h.turn sized pos linking ready got
    obtain ⟨s', front', here⟩ := turned.whole
    have room : wholeSlabs ≤ (m₁.setNext (ends.getD (g, g)).2 g).freeSlabs.length := by
      rw [front', List.length_cons] at enough
      exact Nat.le_of_succ_le_succ enough
    obtain ⟨d, m', new, eq, links⟩ := ih turned.sound turned.linking turned.ends room
    refine ⟨d, m', g :: new, ?_, ?_⟩
    · unfold ClientSendManager.linkLoop
      simp only [got, eq]
    have mem : g ∈ (m₁.setNext (ends.getD (g, g)).2 g).busySegs := by
      rw [turned.busy]
      simp
    constructor
    case sound => simpa using links.sound
    case linked => simpa using links.linked
    case places =>
      have same : wholeSlab p (m₁.setNext (ends.getD (g, g)).2 g) = wholeSlab p m := by
        funext x
        simp only [wholeSlab, turned.buf]
      rw [front', List.take_succ_cons, List.map_cons, List.map_cons, links.places, links.old g mem,
        here, same]
    case fresh =>
      intro x mem before
      rcases List.mem_cons.mp mem with rfl | later
      · exact turned.fresh before
      · apply links.fresh x later
        rw [turned.busy]
        exact List.mem_append_left _ before
    case old =>
      intro x mem
      have still : x ∈ (m₁.setNext (ends.getD (g, g)).2 g).busySegs := by
        rw [turned.busy]
        exact List.mem_append_left _ mem
      rw [links.old x still, turned.old x mem]
    case held => exact links.held.trans turned.held

/-! ## Messages -/

/-- The loose segments become a live descriptor. -/
theorem Sound.owned (h : Sound fit p m live loose) (linked : Linked m.next (some d) loose) :
    Sound fit p m (live ++ [d]) [] := by
  constructor
  case lists => exact h.lists
  case pooled => exact h.pooled
  case few => exact h.few
  case owns =>
    obtain ⟨chains, all, perm⟩ := h.owns
    refine ⟨chains ++ [loose], List.rel_append all (.cons linked .nil), ?_⟩
    simpa using perm
  case counts => exact h.counts

theorem Lists.nodup_freeSlabs (h : Lists p m) : m.freeSlabs.Nodup :=
  (List.nodup_append.mp (List.nodup_append.mp (List.nodup_append.mp h.nodup).1).1).1

/-- The segment in front of the whole slabs, in a slab that is none of these. -/
inductive Part (p : SizeParams) (m : ClientSendManager) (slabs : List Nat) (n : Nat) :
    List MessageSegment → Prop where
  | none (exactly : n = 0) : Part p m slabs n []
  | some (s : Nat) (pos : 0 < n) (before : s ∈ m.workingSlabs ∨ s ∈ m.freeSlabs)
      (other : s ∉ slabs) : Part p m slabs n [carved p m s n]

/-- A message of more blocks than a slab has was allocated. -/
structure Multi (fit : Prop) (p : SizeParams) (m : ClientSendManager) (live : List Nat) (n : Nat)
    (m' : ClientSendManager) (d : Nat) (slabs part whole : List Nat) : Prop where
  sound : Sound fit p m' (live ++ [d]) []
  linked : Linked m'.next (some d) (part ++ whole)
  distinct : (part ++ whole).Nodup
  fresh : ∀ x ∈ part ++ whole, x ∉ m.busySegs
  free : slabs.Sublist m.freeSlabs
  apart : slabs.Nodup
  count : slabs.length = n / p.blocksPerSlab
  whole : whole.map m'.place = slabs.map (wholeSlab p m)
  part : Part p m slabs (n % p.blocksPerSlab) (part.map m'.place)
  held : m'.held.Perm m.held

/-- The free slabs that such a message takes: one more than it has whole slabs if
no working slab has room for the rest. -/
def slabsNeeded (p : SizeParams) (m : ClientSendManager) (n : Nat) : Nat :=
  n / p.blocksPerSlab +
    if n % p.blocksPerSlab = 0 ∨ ∃ s ∈ m.workingSlabs,
      (m.slabInfo s).blocksUsed + n % p.blocksPerSlab ≤ p.blocksPerSlab then 0 else 1

theorem findRoom_eq_none (lists : Lists p m) (lt : n < p.blocksPerSlab) :
    m.findRoom p n = none ↔
      ¬ ∃ s ∈ m.workingSlabs, (m.slabInfo s).blocksUsed + n ≤ p.blocksPerSlab := by
  unfold findRoom
  rw [if_pos lt, List.find?_eq_none]
  simp only [decide_eq_true_eq, not_exists, not_and]
  apply forall₂_congr
  intro s mem
  have within := lists.within s
  omega

/-- With a slab for the part, enough slabs are left for the rest. -/
theorem Source.enough {noFreeSlabs : Bool} {m₀ : ClientSendManager}
    (source : Source p m n noFreeSlabs m₀ s) {wholeSlabs : Nat}
    (enough : ¬ m.freeSlabs.length < wholeSlabs)
    (flag : noFreeSlabs = (wholeSlabs == m.freeSlabs.length)) :
    wholeSlabs ≤ m₀.freeSlabs.length ∧ m₀.freeSlabs.Sublist m.freeSlabs ∧
      (s ∈ m.workingSlabs ∨ s ∈ m.freeSlabs) := by
  cases source with
  | working _ found =>
    refine ⟨Nat.not_lt.mp enough, .refl _, .inl ?_⟩
    unfold findRoom at found
    split at found
    · exact List.mem_of_find?_eq_some found
    · cases found
  | free _ rest full front allowed =>
    simp only [allowed, front, List.length_cons, Bool.false_eq, beq_eq_false_iff_ne] at flag enough
    simp only [harvest, setSlab, front]
    exact ⟨by omega, List.sublist_cons_self _ _, .inr List.mem_cons_self⟩

theorem Sound.linkPart {noFreeSlabs : Bool} {seg0 n total : Nat} {m₁ : ClientSendManager}
    (h : Sound fit p m live []) (sized : p.blockSize ≠ 0) (blocks : 0 < p.blocksPerSlab)
    (rest : total % p.blocksPerSlab = n) (pos : 0 < n)
    (enough : ¬ m.freeSlabs.length < total / p.blocksPerSlab)
    (flag : noFreeSlabs = (total / p.blocksPerSlab == m.freeSlabs.length))
    (got : m.getSegment p n noFreeSlabs = .ok (some seg0, m₁)) :
    ∃ d m' slabs part whole,
      m₁.linkLoop p (total / p.blocksPerSlab) (some (seg0, seg0)) = .ok (some d, m') ∧
      Multi fit p m live total m' d slabs part whole := by
  have gets := h.getSegment sized pos got
  obtain ⟨m₀, s, source, free, here⟩ := gets.source
  obtain ⟨room, sublist, before⟩ := source.enough enough flag
  have moved : Moves (fun _ => True) m m₀ := source.moves h.lists
  have null : m₁.next seg0 = none := by rw [gets.pointers, Function.update_self]
  have linking : Linking m₁ ([] ++ [seg0]) (some (seg0, seg0)) :=
    ⟨[], rfl, .cons (by rw [Function.update_self]; exact .nil)⟩
  obtain ⟨d, m', new, eq, links⟩ :=
    gets.sound.linkLoop sized blocks linking (.inl null) (free ▸ room)
  have busy : seg0 ∈ m₁.busySegs := by
    rw [gets.busy]
    simp
  refine ⟨d, m', m₀.freeSlabs.take (total / p.blocksPerSlab), [seg0], new, eq, ?_⟩
  constructor
  case sound => exact links.sound.owned links.linked
  case linked => exact links.linked
  case distinct => exact links.sound.loose_nodup
  case fresh =>
    intro x mem before
    rcases List.mem_cons.mp mem with rfl | later
    · exact gets.fresh before
    · apply links.fresh x later
      rw [gets.busy]
      exact List.mem_append_left _ before
  case free => exact (List.take_sublist _ _).trans sublist
  case apart => exact ((List.take_sublist _ _).trans sublist).nodup h.lists.nodup_freeSlabs
  case count => rw [List.length_take, Nat.min_eq_left room]
  case whole =>
    have same : wholeSlab p m₁ = wholeSlab p m := by
      funext x
      simp only [wholeSlab, gets.buf]
    rw [links.places, free, same]
  case part =>
    subst rest
    have same : carved p m₀ s (total % p.blocksPerSlab) =
        carved p m s (total % p.blocksPerSlab) := by
      simp only [carved, moved.buf, moved.used]
    rw [List.map_singleton, links.old seg0 busy, here, same]
    refine .some s pos before fun mem => ?_
    have working : s ∈ m₀.workingSlabs := by
      cases source with
      | working _ found => exact (hasRoom_of_findRoom pos found).working
      | free => exact List.mem_append_right _ (List.mem_singleton_self s)
    exact ((h.lists.moves moved).only_working working).1 (List.mem_of_mem_take mem)
  case held => exact links.held.trans gets.held

theorem blocksFor_pos (p : SizeParams) (len : UInt32) : 0 < blocksFor p len := by
  simp only [blocksFor]
  split
  · exact Nat.one_pos
  · rename_i some
    exact Nat.pos_of_ne_zero some

theorem sized_of_several {len : UInt32} (pos : 0 < p.blocksPerSlab)
    (several : p.blocksPerSlab < blocksFor p len) : p.blockSize ≠ 0 := by
  intro none
  simp only [blocksFor, none, UInt32.div_zero, UInt32.toNat_zero, if_true] at several
  omega

/-- All or nothing. -/
theorem Sound.getMessageDescriptor_multi {len : UInt32} (h : Sound fit p m live [])
    (pos : 0 < p.blocksPerSlab) (several : p.blocksPerSlab < blocksFor p len) :
    (m.freeSlabs.length < slabsNeeded p m (blocksFor p len) ∧
      m.getMessageDescriptor p len false = .ok (none, m)) ∨
    (slabsNeeded p m (blocksFor p len) ≤ m.freeSlabs.length ∧ ∃ d m' slabs part whole,
      m.getMessageDescriptor p len false = .ok (some d, m') ∧
      Multi fit p m live (blocksFor p len) m' d slabs part whole) := by
  have sized := sized_of_several pos several
  have split : ¬(false = true ∨ blocksFor p len ≤ p.blocksPerSlab) := by
    simpa using several
  unfold slabsNeeded ClientSendManager.getMessageDescriptor
  dsimp only
  rw [if_neg sized, if_neg split, if_neg (Nat.ne_of_gt pos), ← Nat.mod_eq_sub_div_mul]
  generalize blocksFor p len = n at several ⊢
  have lt : n % p.blocksPerSlab < p.blocksPerSlab := Nat.mod_lt n pos
  have le : n % p.blocksPerSlab ≤ p.blocksPerSlab := Nat.le_of_lt lt
  by_cases few : m.freeSlabs.length < n / p.blocksPerSlab
  · rw [if_pos few]
    exact .inl ⟨Nat.lt_add_right _ few, rfl⟩
  have enough := few
  rw [if_neg few]
  by_cases part : n % p.blocksPerSlab ≠ 0
  · rw [if_pos part]
    have absent := findRoom_eq_none h.lists lt
    simp only [part, false_or]
    have part := Nat.pos_of_ne_zero part
    cases found : m.findRoom p (n % p.blocksPerSlab) with
    | some s =>
      have source : Source p m (n % p.blocksPerSlab) (n / p.blocksPerSlab == m.freeSlabs.length)
        m s := .working s found
      have got := source.getSegment le
      obtain ⟨d, m', slabs, part, whole, eq, multi⟩ := h.linkPart sized pos rfl part enough rfl got
      have room := not_not.mp (mt absent.mpr (by simp [found]))
      simp only [got, room, if_true, Nat.add_zero]
      exact .inr ⟨Nat.not_lt.mp enough, d, m', slabs, part, whole, eq, multi⟩
    | none =>
      simp only [absent.mp found, if_false]
      cases flag : n / p.blocksPerSlab == m.freeSlabs.length with
      | true =>
        have last := eq_of_beq flag
        have none : m.getSegment p (n % p.blocksPerSlab) true = .ok (none, m) := by
          unfold ClientSendManager.getSegment
          simp only [if_neg (Nat.not_lt.mpr le), found]
          cases m.freeSlabs <;> rfl
        rw [none]
        exact .inl ⟨by omega, rfl⟩
      | false =>
        have more : n / p.blocksPerSlab ≠ m.freeSlabs.length := beq_eq_false_iff_ne.mp flag
        have lt : n / p.blocksPerSlab < m.freeSlabs.length := by omega
        obtain ⟨s, rest, front⟩ := List.exists_cons_of_length_pos (Nat.zero_lt_of_lt lt)
        have source : Source p m (n % p.blocksPerSlab) false (m.harvest s rest) s :=
          .free s rest found front rfl
        have got := source.getSegment le
        obtain ⟨d, m', slabs, part, whole, eq, multi⟩ :=
          h.linkPart sized pos rfl part enough flag.symm got
        simp only [got]
        exact .inr ⟨lt, d, m', slabs, part, whole, eq, multi⟩
  · rw [if_neg part]
    have exactly := not_not.mp part
    have parts := Nat.div_mul_cancel (Nat.dvd_of_mod_eq_zero exactly)
    -- the message does not fit one slab, so the last segment is not the first
    have two : 2 ≤ n / p.blocksPerSlab := by
      by_contra one
      have le := Nat.mul_le_mul_right p.blocksPerSlab (Nat.lt_succ_iff.mp (Nat.not_le.mp one))
      omega
    have none : Linking m [] none := rfl
    obtain ⟨d, m', new, eq, links⟩ := h.linkLoop sized pos none two (Nat.not_lt.mp enough)
    rw [if_pos (Or.inl exactly)]
    refine .inr ⟨Nat.not_lt.mp enough, d, m', m.freeSlabs.take (n / p.blocksPerSlab), [], new, eq,
      ?_⟩
    constructor
    case sound => exact links.sound.owned links.linked
    case linked => exact links.linked
    case distinct => exact links.sound.loose_nodup
    case fresh => exact links.fresh
    case free => exact List.take_sublist _ _
    case apart => exact (List.take_sublist _ _).nodup h.lists.nodup_freeSlabs
    case count => rw [List.length_take, Nat.min_eq_left (Nat.not_lt.mp enough)]
    case whole => exact links.places
    case part => exact .none exactly
    case held => exact links.held

/-- A message of `n` blocks was allocated. -/
structure Gets (fit : Prop) (p : SizeParams) (m : ClientSendManager) (live : List Nat) (n : Nat)
    (m' : ClientSendManager) (d : Nat) (chain : List Nat) : Prop where
  sound : Sound fit p m' (live ++ [d]) []
  linked : Linked m'.next (some d) chain
  fresh : ∀ x ∈ chain, x ∉ m.busySegs
  size : (chain.map fun x => (m'.segs x).size).sum = n * p.blockSize.toNat
  held : m'.held.Perm m.held

theorem Got.gets {noFreeSlabs : Bool} (h : Got fit p m live [] n noFreeSlabs g m') :
    Gets fit p m live n m' g [g] := by
  have linked : Linked m'.next (some g) [g] := by
    apply Linked.cons
    rw [h.pointers, Function.update_self]
    exact .nil
  constructor
  case sound => exact h.sound.owned linked
  case linked => exact linked
  case fresh => simpa using h.fresh
  case size =>
    rw [List.map_singleton, List.sum_singleton]
    exact h.size
  case held => exact h.held

theorem Multi.gets {slabs part whole : List Nat}
    (h : Multi fit p m live n m' d slabs part whole) : Gets fit p m live n m' d (part ++ whole) := by
  constructor
  case sound => exact h.sound
  case linked => exact h.linked
  case fresh => exact h.fresh
  case size =>
    have wholes : whole.map (fun x => (m'.segs x).size) =
        List.replicate (n / p.blocksPerSlab) p.slabSize.toNat := by
      have sizes := congrArg (List.map (·.size)) h.whole
      simp only [List.map_map] at sizes
      rw [← h.count, ← List.map_const']
      exact sizes
    have parts : (part.map fun x => (m'.segs x).size).sum =
        n % p.blocksPerSlab * p.blockSize.toNat := by
      have eq : part.map (fun x => (m'.segs x).size) = (part.map m'.place).map (·.size) := by
        rw [List.map_map]
        rfl
      have place := h.part
      rw [eq]
      generalize part.map m'.place = places at place ⊢
      cases place with
      | none exactly => simp [exactly]
      | some => simp [carved]
    rw [List.map_append, List.sum_append, wholes, parts, List.sum_replicate_nat, p.whole,
      ← Nat.mul_assoc, ← Nat.add_mul, Nat.mod_add_div']
  case held => exact h.held

theorem Sound.getMessageDescriptor {len : UInt32} {contiguous : Bool} {result : Option Nat}
    (h : Sound fit p m live [])
    (got : m.getMessageDescriptor p len contiguous = .ok (result, m')) :
    (result = none ∧ m' = m) ∨
      ∃ d chain, result = some d ∧ Gets fit p m live (blocksFor p len) m' d chain := by
  by_cases several : contiguous = false ∧ 0 < p.blocksPerSlab ∧ p.blocksPerSlab < blocksFor p len
  · obtain ⟨rfl, pos, several⟩ := several
    rcases h.getMessageDescriptor_multi pos several with ⟨-, none⟩ | ⟨-, d, m₁, _, _, _, eq, multi⟩
    · rw [none] at got
      cases got
      exact .inl ⟨rfl, rfl⟩
    · rw [eq] at got
      cases got
      exact .inr ⟨d, _, rfl, multi.gets⟩
  unfold ClientSendManager.getMessageDescriptor at got
  split at got
  · cases got
    exact .inl ⟨rfl, rfl⟩
  rename_i sized
  dsimp only at got
  split at got
  · cases result with
    | none => exact .inl ⟨rfl, getSegment_none got⟩
    | some g => exact .inr ⟨g, [g], rfl, (h.getSegment sized (blocksFor_pos p len) got).gets⟩
  rename_i split
  simp only [not_or, Bool.not_eq_true, Nat.not_le] at split
  split at got
  · cases got
  · rename_i some
    exact absurd ⟨split.1, Nat.pos_of_ne_zero some, split.2⟩ several

theorem getSegment_defined {noFreeSlabs : Bool} :
    m.getSegment p n noFreeSlabs ≠ .error .undefined := by
  intro got
  unfold ClientSendManager.getSegment at got
  split at got
  · cases got
  cases found : m.findRoom p n with
  | some s => simp only [found, reduceCtorEq] at got
  | none =>
    simp only [found] at got
    cases front : m.freeSlabs with
    | nil => simp only [front, reduceCtorEq] at got
    | cons s rest =>
      simp only [front] at got
      split at got <;> cases got

/-- A slab with blocks is all that `GetMessageDescriptor` needs. -/
theorem Sound.getMessageDescriptor_defined {len : UInt32} {contiguous : Bool}
    (h : Sound fit p m live []) (sized : p.Sized) :
    m.getMessageDescriptor p len contiguous ≠ .error .undefined := by
  intro got
  by_cases several : contiguous = false ∧ 0 < p.blocksPerSlab ∧ p.blocksPerSlab < blocksFor p len
  · obtain ⟨rfl, pos, several⟩ := several
    rcases h.getMessageDescriptor_multi pos several with ⟨-, none⟩ | ⟨-, d, m₁, _, _, _, eq, -⟩
    · rw [none] at got
      cases got
    · rw [eq] at got
      cases got
  unfold ClientSendManager.getMessageDescriptor at got
  split at got
  · cases got
  rename_i set
  have pos := sized.resolve_left set
  dsimp only at got
  split at got
  · exact getSegment_defined got
  · rename_i split
    simp only [not_or, Bool.not_eq_true, Nat.not_le] at split
    exact several ⟨split.1, pos, split.2⟩

end Mcsb.ClientSendManager
