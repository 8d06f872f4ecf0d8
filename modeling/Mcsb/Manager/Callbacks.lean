import Mcsb.Manager.Partition

/-!
# The slab manager under a handler

A state-change handler is called in the middle of `GetFreeSlabs`,
`IncrementHeldRefcnt`, `DecrementHeldRefcnt` and `ReleaseWantedSegment`, and may
itself take free slabs. Between the calls every slab is on its list, every
wanted segment on one slab, and the handler's count of the lists is right
(`sound_of_run`).
-/

namespace Mcsb
open Effect

/-- What the handler is called for. -/
inductive Which where
  | freeToHeld
  | wantedToHeld
  | released (change : StateChange)
  deriving DecidableEq, Repr

/-- How many slabs are on each list, as the changes tell. -/
structure SlabCounter where
  numFree : Int := 0
  numHeld : Int := 0
  numWanted : Int := 0
  deriving DecidableEq, Repr

def SlabCounter.handleSlabStateChange (n : SlabCounter) : Which → SlabCounter
  | .freeToHeld => { n with numFree := n.numFree - 1, numHeld := n.numHeld + 1 }
  | .released .heldToFree => { n with numHeld := n.numHeld - 1, numFree := n.numFree + 1 }
  | .released .heldToWanted => { n with numHeld := n.numHeld - 1, numWanted := n.numWanted + 1 }
  | .released .wantedToFree => { n with numWanted := n.numWanted - 1, numFree := n.numFree + 1 }
  | .wantedToHeld => { n with numWanted := n.numWanted - 1, numHeld := n.numHeld + 1 }

/-- What a handler does when it is called. It keeps a state of its own, and sees
the slab manager again after each call of `GetFreeSlabs`. -/
inductive Reaction (σ : Type) where
  | done (user : σ)
  | getFreeSlabs (user : σ) (mxcount : Nat) (next : List Nat → SlabManager → σ → Reaction σ)

abbrev SlabHandler (σ : Type) := Which → Nat → SlabManager → σ → Reaction σ

/-- The slab manager, its handler's state, and the changes told so far: counted, and
with their slabs. -/
structure Called (σ : Type) where
  slabs : SlabManager
  user : σ
  counter : SlabCounter
  told : List (Which × Nat) := []

def Called.tell {σ : Type} (w : Called σ) (which : Which) (slabID : Nat) : Called σ :=
  { w with
    counter := w.counter.handleSlabStateChange which
    told := w.told ++ [(which, slabID)] }

@[simp] theorem Called.slabs_tell {σ : Type} (w : Called σ) (which : Which) (slabID : Nat) :
    (w.tell which slabID).slabs = w.slabs := rfl

@[simp] theorem Called.counter_tell {σ : Type} (w : Called σ) (which : Which) (slabID : Nat) :
    (w.tell which slabID).counter = w.counter.handleSlabStateChange which := rfl

abbrev SlabAct (σ : Type) := EStateM Exc (Called σ)

namespace SlabAct

section
variable {σ α : Type}

def onSlabs (x : EStateM Exc SlabManager α) : SlabAct σ α :=
  zoom Called.slabs (fun slabs w => { w with slabs }) x

def react (getFreeSlabs : Nat → SlabAct σ (List Nat)) : Reaction σ → SlabAct σ Unit
  | .done user => modify fun w => { w with user }
  | .getFreeSlabs user mxcount next => do
    modify fun w => { w with user }
    let slabIDs ← getFreeSlabs mxcount
    let w ← get
    react getFreeSlabs (next slabIDs w.slabs w.user)

/-- `CallStateChangeHandler`, of a handler for all changes. -/
def callHandler (handler : SlabHandler σ) (getFreeSlabs : Nat → SlabAct σ (List Nat)) (which : Which)
    (slabID : Nat) : SlabAct σ Unit := do
  modify fun w => w.tell which slabID
  let w ← get
  react getFreeSlabs (handler which slabID w.slabs w.user)

/-- The loop of `GetFreeSlabs`. -/
def takeSlabs (call : Which → Nat → SlabAct σ Unit) : Nat → SlabAct σ (List Nat)
  | 0 => pure []
  | mxcount + 1 => do
    match (← get).slabs.freeSlabs with
    | [] => pure []
    | slabID :: rest =>
      onSlabs (modify fun sm => { sm with freeSlabs := rest })
      onSlabs (SlabManager.getFreeSlab slabID)
      onSlabs (modify fun sm => { sm with heldSlabs := sm.heldSlabs ++ [slabID] })
      call .freeToHeld slabID
      let slabIDs ← takeSlabs call mxcount
      pure (slabID :: slabIDs)

/-- `GetFreeSlabs`, in which the handler may call it again down to a depth. -/
def getFreeSlabsTo (handler : SlabHandler σ) : Nat → Nat → SlabAct σ (List Nat)
  | 0, _ => throw .stuck
  | depth + 1, mxcount => takeSlabs (callHandler handler (getFreeSlabsTo handler depth)) mxcount

/-- Each call within a call has one free slab less. -/
def getFreeSlabs (handler : SlabHandler σ) (mxcount : Nat) : SlabAct σ (List Nat) := do
  getFreeSlabsTo handler ((← get).slabs.freeSlabs.length + 1) mxcount

def notify (handler : SlabHandler σ) (which : Which) (slabID : Nat) : SlabAct σ Unit :=
  callHandler handler (getFreeSlabs handler) which slabID

def incrementHeldRefcnt (handler : SlabHandler σ) : List Nat → SlabAct σ Unit
  | [] => pure ()
  | slabID :: slabIDs => do
    let slab ← onSlabs (SlabManager.getSlabInfo slabID)
    if slab.heldRefcnt = 0 then
      if slab.wantedSegs = [] then
        throw (.runtimeError "IncrementHeldRefcnt but slab not held or wanted")
      onSlabs (modify fun sm => { sm with
        wantedSlabs := sm.wantedSlabs.erase slabID
        heldSlabs := sm.heldSlabs ++ [slabID] })
      notify handler .wantedToHeld slabID
    onSlabs (modify (SlabManager.incrementHeld slabID))
    incrementHeldRefcnt handler slabIDs

def notifyChange (handler : SlabHandler σ) (slabID : Nat) : Option StateChange → SlabAct σ Unit
  | none => pure ()
  | some change => notify handler (.released change) slabID

/-- `DecrementHeldRefcnt` of slabs with their amounts. -/
def decrementHeldRefcnt (handler : SlabHandler σ) : List (Nat × Nat) → SlabAct σ Unit
  | [] => pure ()
  | (slabID, amount) :: slabs => do
    let change ← onSlabs (SlabManager.decrementHeldRefcnt slabID amount)
    notifyChange handler slabID change
    decrementHeldRefcnt handler slabs

def releaseWantedSegment (handler : SlabHandler σ) (seg : WantedSegment) (slabID : Nat) :
    SlabAct σ Unit := do
  let change ← onSlabs (SlabManager.releaseWantedSegment seg slabID)
  notifyChange handler slabID change

/-- `NumBuffers(n)`. The new slabs count as free. -/
def setNumBuffers (n : Nat) : SlabAct σ Unit :=
  modify fun w =>
    let slabs := w.slabs.setNumBuffers n
    { w with slabs, counter := { w.counter with
      numFree := w.counter.numFree + ((slabs.numSlabs : Int) - w.slabs.numSlabs) } }

end

end SlabAct

/-- A call of the slab manager from outside. -/
inductive SlabCall where
  | numBuffers (n : Nat)
  | getFreeSlabs (mxcount : Nat)
  | incrementHeldRefcnt (slabIDs : List Nat)
  | decrementHeldRefcnt (slabs : List (Nat × Nat))
  | getWantedSegment (clientID blockID slabID : Nat)
  | releaseWantedSegment (seg : WantedSegment) (slabID : Nat)
  | frontWantedSegment

section
variable {σ : Type}

def SlabCall.run (handler : SlabHandler σ) : SlabCall → SlabAct σ Unit
  | numBuffers n => SlabAct.setNumBuffers n
  | getFreeSlabs mxcount => do discard <| SlabAct.getFreeSlabs handler mxcount
  | incrementHeldRefcnt slabIDs => SlabAct.incrementHeldRefcnt handler slabIDs
  | decrementHeldRefcnt slabs => SlabAct.decrementHeldRefcnt handler slabs
  | getWantedSegment clientID blockID slabID => do
    discard <| SlabAct.onSlabs (SlabManager.getWantedSegment clientID blockID slabID)
  | releaseWantedSegment seg slabID => SlabAct.releaseWantedSegment handler seg slabID
  | frontWantedSegment => do discard <| SlabAct.onSlabs SlabManager.frontWantedSegment

/-- Slab IDs have 32 bits, amounts are not zero, and a segment released is on
the slab. -/
def SlabCall.Allowed (sm : SlabManager) : SlabCall → Prop
  | numBuffers n => sm.slabsPerBuf * n ≤ 2 ^ 32
  | decrementHeldRefcnt slabs => ∀ slab ∈ slabs, 0 < slab.2
  | releaseWantedSegment seg slabID => seg ∈ (sm.info slabID).wantedSegs
  | _ => True

/-- The constructor, and a counter of the slabs it makes. -/
def Called.new (slabsPerBuf numBufs : Nat) (pctNonreservable : ℚ) (user : σ) : Called σ where
  slabs := SlabManager.new slabsPerBuf numBufs pctNonreservable
  user := user
  counter := { numFree := (slabsPerBuf * numBufs : Nat) }

/-- The runs of calls that return normally and leave a state that is `ok`. -/
inductive CallRun (handler : SlabHandler σ) (ok : Called σ → Prop) : Called σ → Prop where
  | new {slabsPerBuf numBufs pctNonreservable user} : 0 < slabsPerBuf →
      slabsPerBuf * numBufs ≤ 2 ^ 32 →
      CallRun handler ok (Called.new slabsPerBuf numBufs pctNonreservable user)
  | call {w : Called σ} (call : SlabCall) {w' : Called σ} : CallRun handler ok w → call.Allowed w.slabs →
      call.run handler w = .ok ⟨⟩ w' → ok w' → CallRun handler ok w'

end

namespace SlabManager

/-- The records of the segments wanted on all slabs. -/
def wantedRefs (sm : SlabManager) : List Nat :=
  (List.range sm.numSlabs).flatMap fun s => (sm.info s).wantedSegs.map (·.ref)

/-- Every slab is on the list that its info calls for, every wanted segment is in
the pool or on one slab, and the counts fit 32 bits. -/
structure Sound (sm : SlabManager) : Prop where
  partition : sm.Partition
  segments : sm.freeWantedSegs.Accounts sm.wantedRefs
  small : sm.Small

section
variable {sm : SlabManager} {s : Nat}

theorem perm_flatMap {α β : Type} {l : List α} {x : α} {f g : α → List β} {b : β}
    (nodup : l.Nodup) (mem : x ∈ l) (others : ∀ y, y ≠ x → f y = g y)
    (here : (f x).Perm (b :: g x)) : (l.flatMap f).Perm (b :: l.flatMap g) := by
  induction l with
  | nil => cases mem
  | cons y l ih =>
    rw [List.nodup_cons] at nodup
    rw [List.flatMap_cons, List.flatMap_cons]
    rcases List.mem_cons.mp mem with rfl | later
    · have rest : l.flatMap f = l.flatMap g :=
        List.flatMap_congr fun z mem => others z fun same => nodup.1 (same ▸ mem)
      rw [rest]
      exact here.append_right _
    · have ne : y ≠ x := fun same => nodup.1 (same ▸ later)
      rw [others y ne]
      exact ((ih nodup.2 later).append_left _).trans List.perm_middle

theorem wantedRefs_of_shape {sm' : SlabManager} (h : sm.SameShape sm') :
    sm'.wantedRefs = sm.wantedRefs := by
  unfold wantedRefs
  rw [h.numSlabs]
  apply List.flatMap_congr
  intro t _
  rw [h.wanted]

/-- Where only slabs move between lists. -/
theorem Sound.rebooked {sm' : SlabManager} {taken given : Nat → Nat} (h : sm.Sound)
    (moved : sm.Rebooked sm' taken given) : sm'.Sound := by
  constructor
  · exact moved.partition
  · rw [moved.shape.pool, wantedRefs_of_shape moved.shape]
    exact h.segments
  · exact moved.small

theorem Sound.want (h : sm.Sound) {clientID blockID : Nat}
    (known : (sm.info s).heldRefcnt ≠ 0 ∨ (sm.info s).wantedSegs ≠ []) :
    (sm.want clientID blockID s).2.Sound := by
  have lt : s < sm.numSlabs := known.elim h.partition.lt_of_held h.partition.lt_of_wanted
  constructor
  · exact h.partition.want known
  · apply h.segments.take.perm
    apply List.Perm.symm
    apply perm_flatMap List.nodup_range (List.mem_range.mpr lt)
    · intro t ne
      rw [info_want, if_neg ne]
    · rw [info_want, if_pos rfl, List.map_append]
      exact List.perm_append_comm
  · intro t
    rw [info_want]
    split
    · exact h.small s
    · exact h.small t

theorem Sound.unwant (h : sm.Sound) {seg : WantedSegment}
    (mem : seg ∈ (sm.info s).wantedSegs) : (sm.unwant seg s).Sound := by
  have lt := h.partition.lt_of_wanted (List.ne_nil_of_mem mem)
  have pool : (sm.unwant seg s).freeWantedSegs = sm.freeWantedSegs.put seg.ref := by
    unfold SlabManager.unwant
    dsimp only
    split <;> rfl
  have num : (sm.unwant seg s).numSlabs = sm.numSlabs := by
    unfold SlabManager.unwant
    dsimp only
    split <;> rfl
  constructor
  · exact h.partition.unwant mem
  · rw [pool]
    apply Pool.Accounts.put
    apply h.segments.perm
    unfold wantedRefs
    rw [num]
    apply perm_flatMap List.nodup_range (List.mem_range.mpr lt)
    · intro t ne
      rw [info_unwant, if_neg ne]
    · rw [info_unwant, if_pos rfl]
      exact (List.perm_cons_erase mem).map _
  · intro t
    rw [info_unwant]
    split
    · exact h.small s
    · exact h.small t

theorem Sound.addBuffer (h : sm.Sound) : sm.addBuffer.Sound := by
  have info := h.partition.info_addBuffer
  constructor
  · exact h.partition.addBuffer
  · have new : (((List.range sm.slabsPerBuf).map (sm.numSlabs + ·)).flatMap fun t =>
        (sm.info t).wantedSegs.map (·.ref)) = [] := by
      rw [List.flatMap_eq_nil_iff]
      intro t mem
      obtain ⟨i, -, rfl⟩ := List.mem_map.mp mem
      rw [h.partition.outside _ (Nat.le_add_right _ _)]
      rfl
    have refs : sm.addBuffer.wantedRefs = sm.wantedRefs := by
      unfold wantedRefs
      simp only [info]
      rw [numSlabs_addBuffer, List.range_add, List.flatMap_append, new, List.append_nil]
    rw [refs]
    exact h.segments
  · intro t
    rw [info]
    exact h.small t

theorem addBuffers_eq (k : Nat) (sm : SlabManager) :
    (addBuffer^[k] sm).slabsPerBuf = sm.slabsPerBuf ∧
    (addBuffer^[k] sm).numBuffers = sm.numBuffers + k ∧
    (addBuffer^[k] sm).freeSlabs.length = sm.freeSlabs.length + sm.slabsPerBuf * k ∧
    (addBuffer^[k] sm).heldSlabs = sm.heldSlabs ∧
    (addBuffer^[k] sm).wantedSlabs = sm.wantedSlabs ∧
    (addBuffer^[k] sm).limitReached = sm.limitReached := by
  induction k generalizing sm with
  | zero => exact ⟨rfl, rfl, rfl, rfl, rfl, rfl⟩
  | succ k ih =>
    obtain ⟨perBuf, buffers, free, held, wanted, limit⟩ := ih sm.addBuffer
    refine ⟨perBuf, ?_, ?_, held, wanted, limit⟩
    · rw [Function.iterate_succ_apply, buffers, SlabManager.addBuffer]
      dsimp only
      omega
    · rw [Function.iterate_succ_apply, free, SlabManager.addBuffer]
      dsimp only
      rw [List.length_append, List.length_map, List.length_range, Nat.mul_succ]
      omega

theorem Sound.setNumBuffers (h : sm.Sound) (n : Nat) : (sm.setNumBuffers n).Sound := by
  have grown (k : Nat) : (SlabManager.addBuffer^[k] sm).Sound := by
    induction k with
    | zero => exact h
    | succ k ih =>
      rw [Function.iterate_succ_apply']
      exact ih.addBuffer
  unfold SlabManager.setNumBuffers
  split
  · exact h
  · have := grown (n - sm.numBuffers)
    exact ⟨⟨this.partition.slabs_pos, this.partition.free_nodup, this.partition.held_nodup,
      this.partition.wanted_nodup, this.partition.mem_free, this.partition.mem_held,
      this.partition.mem_wanted, this.partition.outside⟩, this.segments, this.small⟩

theorem setNumBuffers_sizes (sm : SlabManager) (n : Nat) :
    (sm.setNumBuffers n).freeSlabs.length + sm.numSlabs =
      sm.freeSlabs.length + (sm.setNumBuffers n).numSlabs ∧
    (sm.setNumBuffers n).heldSlabs = sm.heldSlabs ∧
    (sm.setNumBuffers n).wantedSlabs = sm.wantedSlabs := by
  unfold SlabManager.setNumBuffers
  split
  · exact ⟨rfl, rfl, rfl⟩
  · obtain ⟨perBuf, buffers, free, held, wanted, -⟩ := addBuffers_eq (n - sm.numBuffers) sm
    refine ⟨?_, held, wanted⟩
    show (addBuffer^[n - sm.numBuffers] sm).freeSlabs.length + _ = _ +
      (addBuffer^[n - sm.numBuffers] sm).slabsPerBuf * (addBuffer^[n - sm.numBuffers] sm).numBuffers
    rw [free, perBuf, buffers, Nat.mul_add, numSlabs]
    omega

theorem sound_empty (slabsPerBuf : Nat) (pctNonreservable : ℚ) (pos : 0 < slabsPerBuf) :
    Sound { slabsPerBuf, pctNonreservable } := by
  have none : numSlabs { slabsPerBuf, pctNonreservable } = 0 := rfl
  constructor
  · constructor
    case slabs_pos => exact pos
    case outside =>
      intro _ _
      rfl
    all_goals simp [none]
  · exact Pool.accounts_empty
  · intro t
    exact Nat.two_pow_pos 32

end
end SlabManager

namespace SlabAct
open SlabManager (Sound)

/-- The slab manager is sound and the handler's counts are those of its lists. -/
structure Right (sm : SlabManager) (n : SlabCounter) : Prop where
  sound : sm.Sound
  counts : n = ⟨sm.freeSlabs.length, sm.heldSlabs.length, sm.wantedSlabs.length⟩

section
variable {σ : Type} {handler : SlabHandler σ}

/-! ## What a handler may do -/

/-- What holds goes on holding when a free slab is taken and this is told. If a
free slab may not be free, the call may end by an exception. -/
structure GrabStable (P : Called σ → Prop) (E : Exc → Called σ → Prop) : Prop where
  user : ∀ {w} user, P w → P { w with user }
  free : ∀ {w s rest}, P w → w.slabs.freeSlabs = s :: rest →
    (w.slabs.info s).heldRefcnt = 0 ∧ (w.slabs.info s).wantedSegs = [] ∨
      ∀ what w', E (.runtimeError what) w'
  grab : ∀ {w s rest}, P w → w.slabs.freeSlabs = s :: rest → (w.slabs.info s).heldRefcnt = 0 →
    (w.slabs.info s).wantedSegs = [] →
    P (Called.tell { w with slabs := w.slabs.grab s rest } .freeToHeld s)

variable {P : Called σ → Prop} {E : Exc → Called σ → Prop}

/-- The number of free slabs only goes down. -/
theorem GrabStable.fewer (stable : GrabStable P E) (n : Nat) :
    GrabStable (fun w => P w ∧ w.slabs.freeSlabs.length < n) E := by
  constructor
  · intro w user h
    exact ⟨stable.user user h.1, h.2⟩
  · intro w s rest h
    exact stable.free h.1
  · intro w s rest h front held wanted
    refine ⟨stable.grab h.1 front held wanted, ?_⟩
    have := h.2
    rw [front, List.length_cons] at this
    exact (Nat.lt_succ_self _).trans this

section
variable (stable : GrabStable P E) {call : Nat → SlabAct σ (List Nat)}
  (calls : ∀ w mxcount, P w → wp (call mxcount) w (fun _ => P) E)
include stable calls

theorem wp_react (reaction : Reaction σ) {w : Called σ} (h : P w) :
    wp (react call reaction) w (fun _ => P) E := by
  induction reaction generalizing w with
  | done user => exact stable.user user h
  | getFreeSlabs user mxcount next ih =>
    apply wp_bind.mpr
    apply wp_modify.mpr
    apply wp_bind.mpr
    apply wp_mono (calls _ mxcount (stable.user user h))
    · intro slabIDs w' taken
      exact ih slabIDs w'.slabs w'.user taken
    · intro _ _
      exact id

theorem wp_callHandler {which : Which} {s : Nat} {w : Called σ}
    (h : P (w.tell which s)) :
    wp (callHandler handler call which s) w (fun _ => P) E := by
  apply wp_bind.mpr
  apply wp_modify.mpr
  exact wp_react stable calls _ h

end

theorem wp_getFreeSlabsTo (stable : GrabStable P E) (depth mxcount : Nat) {w : Called σ}
    (h : P w) (room : w.slabs.freeSlabs.length < depth) :
    wp (getFreeSlabsTo handler depth mxcount) w (fun _ => P) E := by
  induction depth generalizing P mxcount w with
  | zero => cases room
  | succ depth ih =>
    -- each turn of the loop leaves one slab less to the calls within it
    suffices loop : wp (takeSlabs (callHandler handler (getFreeSlabsTo handler depth)) mxcount) w
        (fun _ w' => P w' ∧ w'.slabs.freeSlabs.length < depth + 1) E from
      wp_mono loop (fun _ _ done => done.1) (fun _ _ => id)
    induction mxcount generalizing w with
    | zero => exact ⟨h, room⟩
    | succ mxcount more =>
      apply wp_bind.mpr
      apply wp_get.mpr
      cases front : w.slabs.freeSlabs with
      | nil =>
        refine ⟨h, ?_⟩
        rw [front]
        exact Nat.succ_pos depth
      | cons s rest =>
        simp only [wp_bind, onSlabs, wp_zoom, wp_modify, SlabManager.getFreeSlab, wp_get, wp_ite,
          wp_throw]
        have isFree := stable.free h front
        split
        · rename_i held
          rcases isFree with free | fails
          · exact absurd free.1 held
          · exact fails _ _
        · rename_i held
          split
          · rename_i wanted
            rcases isFree with free | fails
            · exact absurd free.2 wanted
            · exact fails _ _
          · rename_i wanted
            rw [not_not] at held wanted
            rw [front, List.length_cons] at room
            have grabbed := stable.grab h front held wanted
            have inner (w : Called σ) (mxcount : Nat)
                (h : P w ∧ w.slabs.freeSlabs.length < depth) :
                wp (getFreeSlabsTo handler depth mxcount) w
                  (fun _ w' => P w' ∧ w'.slabs.freeSlabs.length < depth) E :=
              ih (stable.fewer depth) mxcount h h.2
            apply wp_mono (wp_callHandler (stable.fewer depth) inner ⟨grabbed, Nat.lt_of_succ_lt_succ room⟩)
            · intro _ w' taken
              apply wp_mono (more taken.1 (taken.2.trans (Nat.lt_succ_self depth)))
              · intro _ _
                exact id
              · intro _ _
                exact id
            · intro _ _
              exact id

theorem wp_getFreeSlabs (stable : GrabStable P E) (mxcount : Nat) {w : Called σ} (h : P w) :
    wp (getFreeSlabs handler mxcount) w (fun _ => P) E := by
  apply wp_bind.mpr
  apply wp_get.mpr
  exact wp_getFreeSlabsTo stable _ mxcount h (Nat.lt_succ_self _)

theorem wp_notify (stable : GrabStable P E) {which : Which} {s : Nat} {w : Called σ}
    (h : P (w.tell which s)) :
    wp (notify handler which s) w (fun _ => P) E :=
  wp_callHandler stable (fun _ mxcount h => wp_getFreeSlabs stable mxcount h) h

/-! ## What each call keeps -/

section
variable {sm : SlabManager} {n : SlabCounter} {s : Nat}

theorem Right.grab (h : Right sm n) {rest : List Nat} (front : sm.freeSlabs = s :: rest) :
    Right (sm.grab s rest) (n.handleSlabStateChange .freeToHeld) := by
  constructor
  · exact h.sound.rebooked (h.sound.partition.rebooked_grab h.sound.small front)
  · rw [h.counts, front]
    simp [SlabCounter.handleSlabStateChange, SlabManager.grab]

theorem grabStable_right :
    GrabStable (fun w : Called σ => Right w.slabs w.counter) (fun _ _ => False) := by
  constructor
  · intro _ _ h
    exact h
  · intro w s rest h front
    exact .inl (h.sound.partition.idle front)
  · intro w s rest h front _ _
    exact h.grab front

/-- The counter after a call that may have told of a change. -/
def told (n : SlabCounter) : Option StateChange → SlabCounter
  | none => n
  | some change => n.handleSlabStateChange (.released change)

theorem length_push (l : List Nat) : ((l ++ [s]).length : Int) = l.length + 1 := by
  rw [List.length_append, List.length_singleton, Int.natCast_add, Int.natCast_one]

theorem length_erase {l : List Nat} (mem : s ∈ l) : ((l.erase s).length : Int) = l.length - 1 := by
  have := List.length_pos_of_mem mem
  rw [List.length_erase_of_mem mem]
  omega

theorem Right.hold (h : Right sm n)
    (known : (sm.info s).heldRefcnt ≠ 0 ∨ (sm.info s).wantedSegs ≠ [])
    (room : (sm.info s).heldRefcnt + 1 < 2 ^ 32) :
    Right (sm.hold s) (if (sm.info s).heldRefcnt = 0 then
      n.handleSlabStateChange .wantedToHeld else n) := by
  have lt : s < sm.numSlabs :=
    known.elim h.sound.partition.lt_of_held h.sound.partition.lt_of_wanted
  constructor
  · exact h.sound.rebooked (h.sound.partition.rebooked_hold h.sound.small known room)
  · rw [SlabManager.freeSlabs_hold, SlabManager.heldSlabs_hold, SlabManager.wantedSlabs_hold,
      h.counts]
    split
    · rename_i held
      have mem : s ∈ sm.wantedSlabs :=
        (h.sound.partition.mem_wanted s).mpr ⟨lt, held, known.resolve_left (not_not.mpr held)⟩
      rw [length_push, length_erase mem]
      rfl
    · rfl

theorem Right.unhold (h : Right sm n) {amount : Nat} (pos : 0 < amount)
    (le : amount ≤ (sm.info s).heldRefcnt) :
    Right (sm.unhold s amount) (told n (sm.unholdChange s amount)) := by
  have held : (sm.info s).heldRefcnt ≠ 0 := by omega
  have mem : s ∈ sm.heldSlabs :=
    (h.sound.partition.mem_held s).mpr ⟨h.sound.partition.lt_of_held held, held⟩
  constructor
  · exact h.sound.rebooked (h.sound.partition.rebooked_unhold h.sound.small pos le)
  · rw [h.counts]
    simp only [SlabManager.unhold, SlabManager.unholdChange]
    split
    · rfl
    · split
      · simp [told, SlabCounter.handleSlabStateChange, length_erase mem]
      · simp [told, SlabCounter.handleSlabStateChange, length_erase mem]

theorem Right.want (h : Right sm n) {clientID blockID : Nat}
    (known : (sm.info s).heldRefcnt ≠ 0 ∨ (sm.info s).wantedSegs ≠ []) :
    Right (sm.want clientID blockID s).2 n := by
  constructor
  · exact h.sound.want known
  · exact h.counts

theorem Right.unwant (h : Right sm n) {seg : WantedSegment}
    (mem : seg ∈ (sm.info s).wantedSegs) :
    Right (sm.unwant seg s) (told n (sm.unwantChange seg s)) := by
  have some := List.ne_nil_of_mem mem
  constructor
  · exact h.sound.unwant mem
  · rw [h.counts]
    simp only [SlabManager.unwant, SlabManager.unwantChange]
    split
    · rename_i free
      have mem : s ∈ sm.wantedSlabs := (h.sound.partition.mem_wanted s).mpr
        ⟨h.sound.partition.lt_of_wanted some, free.2, some⟩
      simp [told, SlabCounter.handleSlabStateChange, length_erase mem]
    · rfl

/-! ## A slab that is about to be held -/

theorem incrementHeld_grab {t : Nat} (rest : List Nat) (ne : t ≠ s) :
    (sm.grab t rest).incrementHeld s = (sm.incrementHeld s).grab t rest := by
  simp only [SlabManager.incrementHeld, SlabManager.grab, SlabManager.updateInfo,
    Function.update_of_ne ne, Function.update_of_ne ne.symm]
  rw [Function.update_comm ne]

/-- As long as no count went past its limit. -/
def Unlimited (w : Called σ) : Prop :=
  w.slabs.limitReached = false → Right w.slabs w.counter

/-- The count of `s` is about to go up. -/
def Holding (s : Nat) (w : Called σ) : Prop :=
  Unlimited { w with slabs := w.slabs.incrementHeld s }

theorem limitReached_incrementHeld : (sm.incrementHeld s).limitReached = false ↔
    sm.limitReached = false ∧ (sm.info s).heldRefcnt + 1 ≠ 2 ^ 32 := by
  simp [SlabManager.incrementHeld]

theorem limitReached_hold : (sm.hold s).limitReached = false ↔
    sm.limitReached = false ∧ (sm.info s).heldRefcnt + 1 ≠ 2 ^ 32 := by
  unfold SlabManager.hold
  rw [limitReached_incrementHeld]
  split <;> rfl

/-- A free slab is not the one that is about to be held. -/
theorem grabStable_holding (s : Nat) :
    GrabStable (fun w : Called σ => Holding s w) (fun e _ => e ≠ .stuck) := by
  constructor
  · intro _ _ h
    exact h
  · intro _ _ _ _ _
    right
    simp
  · intro w t rest h front held _ unlimited
    have before : (w.slabs.incrementHeld s).limitReached = false := by
      rw [limitReached_incrementHeld]
      by_cases same : t = s
      · refine ⟨(limitReached_incrementHeld.mp unlimited).1, ?_⟩
        rw [← same, held]
        decide
      · have := limitReached_incrementHeld.mp unlimited
        rwa [Called.slabs_tell, SlabManager.info_grab, if_neg (Ne.symm same)] at this
    have right := h before
    have ne : t ≠ s := by
      rintro rfl
      have free : t ∈ (w.slabs.incrementHeld t).freeSlabs := by
        show t ∈ w.slabs.freeSlabs
        rw [front]
        exact List.mem_cons_self
      have none := ((right.sound.partition.mem_free t).mp free).2.1
      simp [SlabManager.incrementHeld, held] at none
    dsimp only [Called.slabs_tell, Called.counter_tell]
    rw [incrementHeld_grab rest ne]
    exact right.grab front

end

/-! ## Every call -/

theorem wp_incrementHeldRefcnt (slabIDs : List Nat) {w : Called σ} (h : Unlimited w) :
    wp (incrementHeldRefcnt handler slabIDs) w (fun _ => Unlimited) (fun e _ => e ≠ .stuck) := by
  induction slabIDs generalizing w with
  | nil => exact h
  | cons s slabIDs ih =>
    have held (known : (w.slabs.info s).heldRefcnt ≠ 0 ∨ (w.slabs.info s).wantedSegs ≠ [])
        (below : (w.slabs.hold s).limitReached = false) :
        Right (w.slabs.hold s) (if (w.slabs.info s).heldRefcnt = 0 then
          w.counter.handleSlabStateChange .wantedToHeld else w.counter) := by
      obtain ⟨unlimited, room⟩ := limitReached_hold.mp below
      have right := h unlimited
      have small := right.sound.small s
      exact right.hold known (by omega)
    simp only [SlabManager.hold] at held
    simp only [incrementHeldRefcnt, SlabManager.getSlabInfo, onSlabs, wp_bind, wp_zoom, wp_get,
      wp_ite, wp_throw, wp_pure, wp_modify]
    split
    · simp
    · split
      · rename_i none
        split
        · simp
        · rename_i wanted
          rw [if_pos none, if_pos none] at held
          refine wp_mono (wp_notify (grabStable_holding s) ?_) ?_ ?_
          · exact held (.inr wanted)
          · intro _ w' holding
            exact ih holding
          · intro _ _
            exact id
      · rename_i some
        rw [if_neg some, if_neg some] at held
        exact ih (held (.inl some))

theorem wp_notifyChange {s : Nat} {change : Option StateChange} {w : Called σ}
    (h : Right w.slabs (told w.counter change)) :
    wp (notifyChange handler s change) w (fun _ w' => Right w'.slabs w'.counter)
      (fun e _ => e ≠ .stuck) := by
  cases change with
  | none => exact h
  | some change =>
    apply wp_mono (wp_notify grabStable_right h)
    · intro _ _
      exact id
    · intro _ _
      exact False.elim

/-- An amount over the count, or of no slab, is an error. -/
theorem wp_decrementHeld {sm : SlabManager} {s amount : Nat} (h : sm.Partition)
    (pos : 0 < amount) : wp (SlabManager.decrementHeldRefcnt s amount) sm
      (fun change sm' => amount ≤ (sm.info s).heldRefcnt ∧ change = sm.unholdChange s amount ∧
        sm' = sm.unhold s amount)
      (fun e sm' => e ≠ .stuck ∧ (sm.info s).heldRefcnt < amount ∧
        sm' = sm.updateInfo s fun slab => { slab with heldRefcnt := 0 }) := by
  by_cases le : amount ≤ (sm.info s).heldRefcnt
  · rw [SlabManager.decrementHeldRefcnt_ok h pos le]
    exact ⟨le, rfl, rfl⟩
  · have lt := Nat.not_le.mp le
    simp only [SlabManager.decrementHeldRefcnt, SlabManager.getSlabInfo, wp_bind, wp_get, wp_ite,
      wp_throw, wp_pure, wp_modify, if_pos lt]
    split
    · rename_i past
      have outside : sm.info s = {} := by
        apply h.outside
        have := (Nat.le_div_iff_mul_le h.slabs_pos).mp past
        rwa [SlabManager.numSlabs, Nat.mul_comm]
      refine ⟨by simp, lt, ?_⟩
      rw [SlabManager.updateInfo, outside, ← outside, Function.update_eq_self]
    · exact ⟨by simp, lt, trivial⟩

theorem wp_decrementHeldRefcnt (slabs : List (Nat × Nat)) {w : Called σ}
    (pos : ∀ slab ∈ slabs, 0 < slab.2) (h : Right w.slabs w.counter) :
    wp (decrementHeldRefcnt handler slabs) w (fun _ w' => Right w'.slabs w'.counter)
      (fun e _ => e ≠ .stuck) := by
  induction slabs generalizing w with
  | nil => exact h
  | cons slab slabs ih =>
    obtain ⟨s, amount⟩ := slab
    rw [List.forall_mem_cons] at pos
    apply wp_bind.mpr
    apply wp_zoom.mpr
    apply wp_mono (wp_decrementHeld h.sound.partition pos.1)
    · rintro change _ ⟨le, rfl, rfl⟩
      apply wp_bind.mpr
      apply wp_mono (wp_notifyChange (h.unhold pos.1 le))
      · intro _ w' right
        exact ih pos.2 right
      · intro _ _
        exact id
    · intro _ _ ended
      exact ended.1

theorem wp_run (call : SlabCall) {w : Called σ} (h : Right w.slabs w.counter)
    (allowed : call.Allowed w.slabs) :
    wp (call.run handler) w (fun _ => Unlimited) (fun e _ => e ≠ .stuck) := by
  cases call with
  | numBuffers n =>
    intro _
    obtain ⟨free, held, wanted⟩ := w.slabs.setNumBuffers_sizes n
    constructor
    · exact h.sound.setNumBuffers n
    · dsimp only
      rw [h.counts, held, wanted, SlabCounter.mk.injEq]
      refine ⟨?_, rfl, rfl⟩
      dsimp only
      omega
  | getFreeSlabs mxcount =>
    apply wp_map.mpr
    apply wp_mono (wp_getFreeSlabs grabStable_right mxcount h)
    · intro _ w' right _
      exact right
    · intro _ _
      exact False.elim
  | incrementHeldRefcnt slabIDs => exact wp_incrementHeldRefcnt slabIDs fun _ => h
  | decrementHeldRefcnt slabs =>
    apply wp_mono (wp_decrementHeldRefcnt slabs allowed h)
    · intro _ w' right _
      exact right
    · intro _ _
      exact id
  | getWantedSegment clientID blockID s =>
    apply wp_map.mpr
    apply wp_zoom.mpr
    by_cases known : (w.slabs.info s).heldRefcnt ≠ 0 ∨ (w.slabs.info s).wantedSegs ≠ []
    · rw [SlabManager.getWantedSegment_ok h.sound.partition known]
      intro _
      exact h.want known
    · rw [not_or, not_not, not_not] at known
      simp only [SlabManager.getWantedSegment, SlabManager.getSlabInfo, wp_bind, wp_get, wp_ite,
        wp_throw, wp_pure, if_pos known]
      split
      · simp
      · simp
  | releaseWantedSegment seg s =>
    apply wp_bind.mpr
    apply wp_zoom.mpr
    rw [SlabManager.releaseWantedSegment_ok h.sound.partition allowed]
    apply wp_mono (wp_notifyChange (h.unwant allowed))
    · intro _ w' right _
      exact right
    · intro _ _
      exact id
  | frontWantedSegment =>
    apply wp_map.mpr
    apply wp_zoom.mpr
    simp only [SlabManager.frontWantedSegment, wp_bind, wp_get]
    split
    · simp
    · split
      · simp
      · intro _
        exact h

theorem right_new {slabsPerBuf numBufs : Nat} {pctNonreservable : ℚ} (user : σ)
    (pos : 0 < slabsPerBuf) :
    Right (Called.new slabsPerBuf numBufs pctNonreservable user).slabs
      (Called.new slabsPerBuf numBufs pctNonreservable user).counter := by
  have empty := SlabManager.sound_empty slabsPerBuf pctNonreservable pos
  obtain ⟨free, held, wanted⟩ :=
    SlabManager.setNumBuffers_sizes { slabsPerBuf, pctNonreservable } numBufs
  have num : (SlabManager.setNumBuffers { slabsPerBuf, pctNonreservable } numBufs).numSlabs =
      slabsPerBuf * numBufs := by
    unfold SlabManager.setNumBuffers
    split
    · rename_i le
      rw [Nat.le_zero.mp le]
      rfl
    · obtain ⟨perBuf, buffers, -⟩ :=
        SlabManager.addBuffers_eq (numBufs - 0) { slabsPerBuf, pctNonreservable }
      show (SlabManager.addBuffer^[numBufs - 0] _).slabsPerBuf *
        (SlabManager.addBuffer^[numBufs - 0] _).numBuffers = _
      rw [perBuf, buffers]
      simp
  constructor
  · exact empty.setNumBuffers numBufs
  · have none : SlabManager.numSlabs { slabsPerBuf, pctNonreservable } = 0 := rfl
    rw [num, none] at free
    simp only [Called.new, SlabManager.new, held, wanted, SlabCounter.mk.injEq]
    simp at free
    simp [free]

end

/-- Between the calls, as long as no count of holders goes past its limit, every
slab is on its list and on no other, every wanted segment in the pool or on one
slab, and the changes told add up to the sizes of the lists. -/
theorem sound_of_run {σ : Type} {handler : SlabHandler σ} {w : Called σ}
    (run : CallRun handler (fun w => w.slabs.limitReached = false) w) :
    w.slabs.Sound ∧ w.slabs.freeSlabs.length + w.slabs.heldSlabs.length +
      w.slabs.wantedSlabs.length = w.slabs.numSlabs ∧
    w.counter = ⟨w.slabs.freeSlabs.length, w.slabs.heldSlabs.length,
      w.slabs.wantedSlabs.length⟩ := by
  have right : Right w.slabs w.counter := by
    induction run with
    | new pos _ => exact right_new _ pos
    | call call _ allowed ran unlimited ih =>
      exact (wp_of_ok ran).mp (wp_run call ih allowed) unlimited
  exact ⟨right.sound, right.sound.partition.sizes, right.counts⟩

/-- A handler that takes a slab for each slab freed. -/
def takesFreed : SlabHandler Unit
  | .released .heldToFree, _, _, _ => .getFreeSlabs () 1 fun _ _ _ => .done ()
  | _, _, _, _ => .done ()

theorem sound_of_run_takesFreed : ∃ w : Called Unit,
    CallRun takesFreed (fun w => w.slabs.limitReached = false) w ∧ w.slabs.heldSlabs = [1] ∧
    w.slabs.Sound ∧ w.slabs.freeSlabs.length + w.slabs.heldSlabs.length +
      w.slabs.wantedSlabs.length = w.slabs.numSlabs ∧
    w.counter = ⟨w.slabs.freeSlabs.length, w.slabs.heldSlabs.length,
      w.slabs.wantedSlabs.length⟩ := by
  have new : CallRun takesFreed (fun w => w.slabs.limitReached = false) (Called.new 2 1 0 ()) :=
    .new (by decide) (by decide)
  have took := CallRun.call (.getFreeSlabs 1) new trivial rfl rfl
  have freed := CallRun.call (.decrementHeldRefcnt [(0, 1)]) took (by simp [SlabCall.Allowed])
    rfl rfl
  exact ⟨_, freed, rfl, sound_of_run freed⟩

theorem wp_incrementHeldRefcnt_replicate {σ : Type} (handler : SlabHandler σ) {s c : Nat} (n : Nat)
    {w : Called σ} (valid : s / w.slabs.slabsPerBuf < w.slabs.numBuffers)
    (count : (w.slabs.info s).heldRefcnt = c) (pos : 0 < c) (small : c < 2 ^ 32)
    (le : c + n ≤ 2 ^ 32) :
    wp (incrementHeldRefcnt handler (List.replicate n s)) w
      (fun _ w' => w'.slabs.heldSlabs = w.slabs.heldSlabs ∧
        (w'.slabs.info s).heldRefcnt = (c + n) % 2 ^ 32) (fun _ _ => False) := by
  induction n generalizing w c with
  | zero => exact ⟨rfl, count.trans (Nat.mod_eq_of_lt small).symm⟩
  | succ n ih =>
    have once : ((w.slabs.incrementHeld s).info s).heldRefcnt = (c + 1) % 2 ^ 32 := by
      simp [SlabManager.incrementHeld, count]
    simp only [List.replicate_succ, incrementHeldRefcnt, SlabManager.getSlabInfo, onSlabs, wp_bind,
      wp_zoom, wp_get, wp_ite, wp_throw, wp_pure, wp_modify, if_neg (Nat.not_le.mpr valid), count,
      if_neg pos.ne']
    rcases Nat.lt_or_ge (c + 1) (2 ^ 32) with more | last
    · rw [Nat.mod_eq_of_lt more] at once
      have rest := ih (w := { w with slabs := w.slabs.incrementHeld s }) valid once
        (Nat.succ_pos c) more (by omega)
      rwa [Nat.add_assoc, Nat.add_comm 1] at rest
    · have none : n = 0 := by omega
      subst none
      exact ⟨rfl, once⟩

/-- A slab with 2^32 holders has a count of 0 and is on the list of those held. -/
theorem not_sound_of_run : ¬ ∀ (handler : SlabHandler Unit) (w : Called Unit),
    CallRun handler (fun _ => True) w →
      w.slabs.Sound ∧ w.slabs.freeSlabs.length + w.slabs.heldSlabs.length +
        w.slabs.wantedSlabs.length = w.slabs.numSlabs ∧
      w.counter = ⟨w.slabs.freeSlabs.length, w.slabs.heldSlabs.length,
        w.slabs.wantedSlabs.length⟩ := by
  intro all
  have new : CallRun takesFreed (fun _ => True) (Called.new 1 1 0 ()) := .new (by decide) (by decide)
  obtain ⟨w, took, valid, heldSlabs, once⟩ : ∃ w, CallRun takesFreed (fun _ => True) w ∧
      0 / w.slabs.slabsPerBuf < w.slabs.numBuffers ∧ w.slabs.heldSlabs = [0] ∧
      (w.slabs.info 0).heldRefcnt = 1 :=
    ⟨_, CallRun.call (.getFreeSlabs 1) new trivial rfl trivial, by decide, rfl, rfl⟩
  obtain ⟨⟨⟩, w', ran, held, count⟩ := ok_of_wp (wp_incrementHeldRefcnt_replicate takesFreed
    (2 ^ 32 - 1) valid once (by decide) (by decide) (by decide))
  generalize List.replicate (2 ^ 32 - 1) 0 = slabIDs at ran
  have wrapped := CallRun.call (.incrementHeldRefcnt slabIDs) took trivial ran trivial
  rw [heldSlabs] at held
  have mem := ((all _ _ wrapped).1.partition.mem_held 0).mp (held ▸ List.mem_singleton_self 0)
  exact mem.2 count

end SlabAct
end Mcsb
