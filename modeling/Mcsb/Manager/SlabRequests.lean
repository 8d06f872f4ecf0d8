import Mcsb.Lib.QueueFamily
import Mcsb.Manager.SlabRequestManager

/-!
# Requests in order

`SlabRequestManager` is a family of queues, one for each nice level. Its records
come from a pool, and each is on one list or in the pool.
-/

namespace Mcsb

/-- A request without the record it is kept in. -/
structure Asked where
  numSlabs : Nat
  id : Nat
  arg : Nat
  deriving DecidableEq, Repr

def SlabRequest.asked (req : SlabRequest) : Asked :=
  { numSlabs := req.numSlabs, id := req.id, arg := req.arg }

namespace SlabRequestManager

/-- A call on the manager of requests. -/
inductive Call where
  | addRequest (level : Int) (numSlabs id arg : Nat)
  | popFrontRequest (level : Int)
  | reset

/-- `PopFrontRequest` of a level in range. There may be nothing to pop. -/
def popped (rm : SlabRequestManager) (level : Nat) : SlabRequestManager :=
  match rm.popFrontRequest level with
  | none => rm
  | some (_, rm') => rm'

/-- The inner loop of `Reset`. -/
def popAll (rm : SlabRequestManager) (level : Nat) : SlabRequestManager :=
  (popped · level)^[(rm.requestLists level).length] rm

def reset (rm : SlabRequestManager) : SlabRequestManager :=
  (List.range (rm.maxLevel + 1)).foldl popAll rm

/-- What fails an assertion does nothing where assertions are compiled out. -/
def call (rm : SlabRequestManager) : Call → SlabRequestManager
  | .addRequest level numSlabs id arg => rm.addRequest level numSlabs id arg
  | .popFrontRequest level =>
    if 0 ≤ level ∧ level ≤ rm.maxLevel then rm.popped level.toNat else rm
  | .reset => rm.reset

/-- The same calls on a family of queues. -/
def callQueues (maxLevel : Nat) (qs : Nat → List Asked) : Call → Nat → List Asked
  | .addRequest level numSlabs id arg =>
    QueueFamily.push qs (if level < 0 ∨ maxLevel < level then maxLevel else level.toNat)
      { numSlabs, id, arg }
  | .popFrontRequest level =>
    if 0 ≤ level ∧ level ≤ maxLevel then QueueFamily.pop qs level.toNat else qs
  | .reset => fun _ => []

def queues (rm : SlabRequestManager) (level : Nat) : List Asked :=
  (rm.requestLists level).map SlabRequest.asked

/-- The records on the lists. -/
def records (rm : SlabRequestManager) : List Nat :=
  (List.range (rm.maxLevel + 1)).flatMap fun level => (rm.requestLists level).map (·.ref)

/-- The lists are the queues, they are counted in 32 bits, and every record is on one of
them or in the pool. -/
structure Refines (top : Nat) (rm : SlabRequestManager) (qs : Nat → List Asked) : Prop where
  maxLevel : rm.maxLevel = top
  queues : rm.queues = qs
  beyond : ∀ level, top < level → rm.requestLists level = []
  counted : rm.numRequests = rm.numWaiting % 2 ^ 32
  accounts : rm.emptyRequests.Accounts rm.records

section
variable {maxLevel level : Nat} {rm : SlabRequestManager} {qs : Nat → List Asked}

theorem safeLevel_of_le (le : level ≤ rm.maxLevel) : rm.safeLevel level = level := by
  unfold safeLevel
  split
  · omega
  · exact Int.toNat_natCast level

theorem popFrontRequest_eq_some {rm' : SlabRequestManager} {req : SlabRequest}
    (popped : rm.popFrontRequest level = some (req, rm')) : ∃ rest,
    rm.requestLists level = req :: rest ∧ rm'.maxLevel = rm.maxLevel ∧
      rm'.requestLists = Function.update rm.requestLists level rest := by
  unfold popFrontRequest at popped
  split at popped
  · cases popped
  · cases popped
    exact ⟨_, by assumption, rfl, rfl⟩

theorem modular_popFrontRequest {rm' : SlabRequestManager} {req : SlabRequest}
    (counted : rm.numRequests = rm.numWaiting % 2 ^ 32) (le : level ≤ rm.maxLevel)
    (popped : rm.popFrontRequest level = some (req, rm')) :
    rm'.numRequests = rm'.numWaiting % 2 ^ 32 := by
  obtain ⟨fewer, less⟩ := numWaiting_popFrontRequest le popped
  rw [less]
  split <;> omega

theorem numWaiting_eq (rm : SlabRequestManager) :
    rm.numWaiting = QueueFamily.total rm.maxLevel rm.queues := by
  rw [numWaiting, QueueFamily.total]
  simp only [queues, List.length_map]

theorem lowestLevelPending_eq (rm : SlabRequestManager) : rm.lowestLevelPending =
    if rm.numRequests = 0 then none else QueueFamily.least rm.maxLevel rm.queues := by
  have some (level : Nat) :
      decide (rm.requestLists level ≠ []) = !(rm.queues level).isEmpty := by
    rw [queues, List.isEmpty_map]
    cases rm.requestLists level <;> rfl
  unfold lowestLevelPending
  rw [QueueFamily.least]
  simp only [some]

theorem Counted.lowestLevelPending_eq (h : rm.Counted) :
    rm.lowestLevelPending = QueueFamily.least rm.maxLevel rm.queues := by
  rw [SlabRequestManager.lowestLevelPending_eq]
  split
  · rename_i none
    symm
    rw [QueueFamily.least_eq_none_iff, ← QueueFamily.total_eq_zero_iff, ← numWaiting_eq, ← h.eq]
    exact none
  · rfl

/-- The records when one list changes. -/
theorem records_update {rm' : SlabRequestManager} (le : level ≤ rm.maxLevel)
    (same : rm'.maxLevel = rm.maxLevel) {list : List SlabRequest}
    (lists : rm'.requestLists = Function.update rm.requestLists level list) :
    (rm'.records ++ (rm.requestLists level).map (·.ref)).Perm
      (rm.records ++ list.map (·.ref)) := by
  have change := Accounts.flatMap_change List.nodup_range
    (List.mem_range.mpr (Nat.lt_succ_of_le le)) (f := fun l => (rm.requestLists l).map (·.ref))
    (g := fun l => (Function.update rm.requestLists level list l).map (·.ref))
    fun l ne => by rw [Function.update_of_ne ne]
  rw [Function.update_self] at change
  rw [records, records, same, lists]
  exact change

theorem map_update (f : SlabRequest → Asked) (lists : Nat → List SlabRequest) (level : Nat)
    (list : List SlabRequest) : (fun l => (Function.update lists level list l).map f) =
      Function.update (fun l => (lists l).map f) level (list.map f) := by
  funext l
  by_cases here : l = level
  · rw [here, Function.update_self, Function.update_self]
  · rw [Function.update_of_ne here, Function.update_of_ne here]

theorem Refines.here (h : Refines maxLevel rm qs) (level : Nat) :
    (rm.requestLists level).map SlabRequest.asked = qs level :=
  congrFun h.queues level

theorem Refines.addRequest (h : Refines maxLevel rm qs) (level : Int) (numSlabs id arg : Nat) :
    Refines maxLevel (rm.addRequest level numSlabs id arg)
      (callQueues maxLevel qs (.addRequest level numSlabs id arg)) := by
  have le := rm.safeLevel_le level
  have safe : rm.safeLevel level =
      if level < 0 ∨ maxLevel < level then maxLevel else level.toNat := by
    rw [safeLevel, h.maxLevel]
  constructor
  case maxLevel => exact h.maxLevel
  case queues =>
    show (fun l => List.map _ (Function.update rm.requestLists _ _ l)) = _
    rw [map_update, List.map_append, callQueues, QueueFamily.push, ← safe, ← h.queues]
    rfl
  case beyond =>
    intro l lt
    show Function.update rm.requestLists _ _ l = []
    rw [Function.update_of_ne (by rw [h.maxLevel] at le; omega)]
    exact h.beyond l lt
  case counted =>
    show (rm.numRequests + 1) % 2 ^ 32 = _
    rw [numWaiting_addRequest, h.counted, Nat.mod_add_mod]
  case accounts =>
    apply h.accounts.take.perm
    have same : (rm.addRequest level numSlabs id arg).maxLevel = rm.maxLevel := rfl
    have change := records_update le same rfl
    have taken : rm.emptyRequests.stocked.free.headD 0 = rm.emptyRequests.take.1 := rfl
    rw [List.perm_iff_count] at change ⊢
    intro ref
    have change := change ref
    simp only [List.map_append, List.count_append, List.map_cons, List.map_nil, List.count_cons,
      List.count_nil, taken] at change ⊢
    omega

theorem Refines.popped (h : Refines maxLevel rm qs) (le : level ≤ maxLevel) :
    Refines maxLevel (rm.popped level) (QueueFamily.pop qs level) := by
  have here := h.here level
  cases list : rm.requestLists level with
  | nil =>
    have still : rm.popped level = rm := by
      simp only [SlabRequestManager.popped, popFrontRequest, list]
    rw [list] at here
    rw [still, QueueFamily.pop, ← here, List.map_nil, List.tail_nil, show [] = qs level from here,
      Function.update_eq_self]
    exact h
  | cons req rest =>
    have front : rm.popFrontRequest level = some (req, { rm with
        requestLists := Function.update rm.requestLists level rest
        numRequests := if rm.numRequests = 0 then 2 ^ 32 - 1 else rm.numRequests - 1
        emptyRequests := rm.emptyRequests.put req.ref }) := by
      rw [popFrontRequest, list]
    have le' : level ≤ rm.maxLevel := h.maxLevel ▸ le
    rw [SlabRequestManager.popped, front]
    constructor
    case maxLevel => exact h.maxLevel
    case queues =>
      show (fun l => List.map _ (Function.update rm.requestLists level rest l)) = _
      rw [map_update, QueueFamily.pop, ← here, list, List.map_cons, List.tail_cons, ← h.queues]
      rfl
    case beyond =>
      intro l lt
      show Function.update rm.requestLists level rest l = []
      rw [Function.update_of_ne (by omega)]
      exact h.beyond l lt
    case counted => exact modular_popFrontRequest h.counted le' front
    case accounts =>
      apply Pool.Accounts.put
      apply h.accounts.perm
      let popped : SlabRequestManager := { rm with
        requestLists := Function.update rm.requestLists level rest
        numRequests := if rm.numRequests = 0 then 2 ^ 32 - 1 else rm.numRequests - 1
        emptyRequests := rm.emptyRequests.put req.ref }
      have lists : popped.requestLists = Function.update rm.requestLists level rest := rfl
      have change := records_update le' (Eq.refl popped.maxLevel) lists
      simp only [popped, list] at change
      rw [List.perm_iff_count] at change ⊢
      intro ref
      have change := change ref
      simp only [List.count_append, List.map_cons, List.count_cons] at change ⊢
      omega

theorem Refines.popAll (h : Refines maxLevel rm qs) (le : level ≤ maxLevel) :
    Refines maxLevel (rm.popAll level) (Function.update qs level []) := by
  unfold SlabRequestManager.popAll
  generalize length : (rm.requestLists level).length = n
  induction n generalizing rm qs with
  | zero =>
    have none : qs level = [] := by
      rw [← h.here, List.length_eq_zero_iff.mp length, List.map_nil]
    rw [← none, Function.update_eq_self]
    exact h
  | succ n ih =>
    have rest : ((rm.popped level).requestLists level).length = n := by
      have shorter := congrArg List.length ((h.popped le).here level)
      simp only [QueueFamily.pop, Function.update_self, List.length_map, List.length_tail,
        ← h.here level] at shorter
      omega
    have later := ih (h.popped le) rest
    rw [QueueFamily.pop, Function.update_idem] at later
    rw [Function.iterate_succ_apply]
    exact later

theorem Refines.reset (h : Refines maxLevel rm qs) :
    Refines maxLevel rm.reset (callQueues maxLevel qs .reset) := by
  have emptied (levels : List Nat) (inRange : ∀ level ∈ levels, level ≤ maxLevel) :
      Refines maxLevel (levels.foldl SlabRequestManager.popAll rm)
        fun level => if level ∈ levels then [] else qs level := by
    induction levels using List.reverseRecOn with
    | nil =>
      simp only [List.not_mem_nil, if_false]
      exact h
    | append_singleton levels last ih =>
      have before := ih fun level mem => inRange level (List.mem_append_left _ mem)
      have after := before.popAll (inRange last (List.mem_append_right _ List.mem_cons_self))
      rw [List.foldl_append, List.foldl_cons, List.foldl_nil]
      convert after using 1
      funext level
      by_cases here : level = last
      · simp [here]
      · simp [here]
  have all := emptied (List.range (maxLevel + 1)) fun level mem =>
    Nat.lt_succ_iff.mp (List.mem_range.mp mem)
  unfold SlabRequestManager.reset
  rw [h.maxLevel]
  convert all using 1
  funext level
  by_cases inRange : level ∈ List.range (maxLevel + 1)
  · rw [if_pos inRange]
    rfl
  · rw [if_neg inRange, ← h.here, h.beyond level (by simpa [Nat.lt_succ_iff] using inRange)]
    rfl

theorem Refines.call (h : Refines maxLevel rm qs) (call : Call) :
    Refines maxLevel (rm.call call) (callQueues maxLevel qs call) := by
  cases call with
  | addRequest level numSlabs id arg => exact h.addRequest level numSlabs id arg
  | popFrontRequest level =>
    rw [SlabRequestManager.call, callQueues, h.maxLevel]
    split
    · rename_i inRange
      exact h.popped (by omega)
    · exact h
  | reset => exact h.reset

theorem refines_new (maxLevel : Nat) : Refines maxLevel { maxLevel } fun _ => [] where
  maxLevel := rfl
  queues := rfl
  beyond _ _ := rfl
  counted := by
    show 0 = _
    simp [numWaiting]
  accounts := by
    show Pool.Accounts _ ((List.range (maxLevel + 1)).flatMap fun _ => [])
    rw [List.flatMap_eq_nil_iff.mpr fun _ _ => rfl]
    exact Pool.accounts_empty.addBlock

/-- After any calls the lists are queues by level, what is on them is counted in 32
bits, the lowest level is the least that has any unless that count is 0, and no record
is lost or used twice. -/
theorem calls_refine (maxLevel : Nat) (calls : List Call) :
    let rm := calls.foldl call { maxLevel }
    let qs := calls.foldl (callQueues maxLevel) fun _ => []
    rm.queues = qs ∧ rm.numRequests = QueueFamily.total maxLevel qs % 2 ^ 32 ∧
    rm.lowestLevelPending = (if QueueFamily.total maxLevel qs % 2 ^ 32 = 0 then none
      else QueueFamily.least maxLevel qs) ∧
    (rm.emptyRequests.free ++ rm.records).Perm (List.range rm.emptyRequests.size) := by
  dsimp only
  have kept : Refines maxLevel (calls.foldl call { maxLevel })
      (calls.foldl (callQueues maxLevel) fun _ => []) := by
    induction calls using List.reverseRecOn with
    | nil => exact refines_new maxLevel
    | append_singleton calls call ih =>
      rw [List.foldl_append, List.foldl_append]
      exact ih.call call
  have counted := kept.counted
  rw [numWaiting_eq, kept.maxLevel, kept.queues] at counted
  refine ⟨kept.queues, counted, ?_, kept.accounts⟩
  rw [lowestLevelPending_eq, counted, kept.maxLevel, kept.queues]

end

end SlabRequestManager
end Mcsb
