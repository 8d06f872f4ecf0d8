import Mcsb.Lib.Pool
import Mcsb.Lib.Accounts

/-!
# Requests for future free slabs

`SlabRequestManager`: a queue of requests for each nice level up to `maxLevel`.
-/

namespace Mcsb

/-- `id` and `arg` are the client's ID and the address of its proxy. -/
structure SlabRequest where
  ref : Nat
  id : Nat
  numSlabs : Nat
  arg : Nat
  deriving DecidableEq, Repr

structure SlabRequestManager where
  maxLevel : Nat := 3
  numRequests : Nat := 0
  requestLists : Nat → List SlabRequest := fun _ => []
  emptyRequests : Pool := Pool.addBlock {}

namespace SlabRequestManager

/-- A level out of range is the nicest one. -/
def safeLevel (rm : SlabRequestManager) (level : Int) : Nat :=
  if level < 0 ∨ (rm.maxLevel : Int) < level then rm.maxLevel else level.toNat

def addRequest (rm : SlabRequestManager) (level : Int) (numSlabs id arg : Nat) :
    SlabRequestManager :=
  let level := rm.safeLevel level
  let (ref, emptyRequests) := rm.emptyRequests.take
  { rm with
    emptyRequests
    requestLists := Function.update rm.requestLists level
      (rm.requestLists level ++ [{ ref, id, numSlabs, arg }])
    numRequests := (rm.numRequests + 1) % 2 ^ 32 }

/-- `none` is -1: there is no request. -/
def lowestLevelPending (rm : SlabRequestManager) : Option Nat :=
  if rm.numRequests = 0 then none
  else (List.range (rm.maxLevel + 1)).find? fun level => rm.requestLists level ≠ []

/-- `FrontRequest` and `PopFrontRequest` of one level. -/
def popFrontRequest (rm : SlabRequestManager) (level : Nat) :
    Option (SlabRequest × SlabRequestManager) :=
  match rm.requestLists level with
  | [] => none
  | req :: rest => some (req, { rm with
      requestLists := Function.update rm.requestLists level rest
      numRequests := if rm.numRequests = 0 then 2 ^ 32 - 1 else rm.numRequests - 1
      emptyRequests := rm.emptyRequests.put req.ref })

/-- How many requests there are on the lists. -/
def numWaiting (rm : SlabRequestManager) : Nat :=
  ((List.range (rm.maxLevel + 1)).map fun level => (rm.requestLists level).length).sum

/-- The requests are counted, in 32 bits. -/
structure Counted (rm : SlabRequestManager) : Prop where
  eq : rm.numRequests = rm.numWaiting
  lt : rm.numRequests < 2 ^ 32

section
variable {rm rm' : SlabRequestManager} {level : Nat}

theorem safeLevel_le (rm : SlabRequestManager) (level : Int) : rm.safeLevel level ≤ rm.maxLevel := by
  unfold safeLevel
  split
  · exact le_rfl
  · omega

/-- One list changes. -/
theorem sum_lengths_update (le : level ≤ rm.maxLevel) (list : List SlabRequest) :
    ((List.range (rm.maxLevel + 1)).map fun l =>
      (Function.update rm.requestLists level list l).length).sum + (rm.requestLists level).length =
    ((List.range (rm.maxLevel + 1)).map fun l => (rm.requestLists l).length).sum + list.length := by
  have change := Accounts.sum_change List.nodup_range (List.mem_range.mpr (Nat.lt_succ_of_le le))
    (f := fun l => (rm.requestLists l).length)
    (g := fun l => (Function.update rm.requestLists level list l).length)
    fun l ne => by rw [Function.update_of_ne ne]
  rw [Function.update_self] at change
  exact change

theorem numWaiting_addRequest (rm : SlabRequestManager) (level : Int) (numSlabs id arg : Nat) :
    (rm.addRequest level numSlabs id arg).numWaiting = rm.numWaiting + 1 := by
  have change := sum_lengths_update (rm.safeLevel_le level) (rm.requestLists (rm.safeLevel level) ++
    [{ ref := rm.emptyRequests.take.1, id, numSlabs, arg }])
  rw [List.length_append, List.length_singleton] at change
  unfold numWaiting addRequest
  dsimp only
  omega

theorem Counted.addRequest (h : rm.Counted) (small : rm.numRequests + 1 ≠ 2 ^ 32) (level : Int)
    (numSlabs id arg : Nat) : (rm.addRequest level numSlabs id arg).Counted := by
  have lt := h.lt
  have more : (rm.addRequest level numSlabs id arg).numRequests = rm.numRequests + 1 :=
    Nat.mod_eq_of_lt (by omega)
  constructor
  · rw [more, numWaiting_addRequest, h.eq]
  · rw [more]
    omega

theorem le_of_lowestLevelPending (lowest : rm.lowestLevelPending = some level) :
    level ≤ rm.maxLevel ∧ rm.requestLists level ≠ [] := by
  unfold lowestLevelPending at lowest
  split at lowest
  · cases lowest
  · have found := List.find?_some lowest
    have mem := List.mem_of_find?_eq_some lowest
    exact ⟨Nat.lt_succ_iff.mp (List.mem_range.mp mem), of_decide_eq_true found⟩

theorem numWaiting_popFrontRequest {req : SlabRequest} (le : level ≤ rm.maxLevel)
    (popped : rm.popFrontRequest level = some (req, rm')) :
    rm'.numWaiting + 1 = rm.numWaiting ∧
      rm'.numRequests = if rm.numRequests = 0 then 2 ^ 32 - 1 else rm.numRequests - 1 := by
  unfold SlabRequestManager.popFrontRequest at popped
  split at popped
  · cases popped
  · rename_i first rest front
    cases popped
    have change := sum_lengths_update le rest
    rw [front, List.length_cons] at change
    refine ⟨?_, rfl⟩
    unfold numWaiting
    dsimp only
    omega

theorem Counted.popFrontRequest (h : rm.Counted) {req : SlabRequest} (le : level ≤ rm.maxLevel)
    (popped : rm.popFrontRequest level = some (req, rm')) :
    rm'.Counted ∧ rm'.numRequests + 1 = rm.numRequests := by
  obtain ⟨fewer, less⟩ := numWaiting_popFrontRequest le popped
  have eq := h.eq
  have lt := h.lt
  rw [if_neg (by omega)] at less
  refine ⟨⟨?_, ?_⟩, ?_⟩ <;> omega

/-- A request is found while there are some. -/
theorem Counted.lowest (h : rm.Counted) (some : rm.numRequests ≠ 0) :
    ∃ level req rm', rm.lowestLevelPending = .some level ∧
      rm.popFrontRequest level = .some (req, rm') := by
  have pending : rm.lowestLevelPending ≠ none := by
    intro none
    unfold lowestLevelPending at none
    rw [if_neg some, List.find?_eq_none] at none
    apply some
    rw [h.eq]
    apply List.sum_eq_zero
    intro n mem
    obtain ⟨level, inRange, rfl⟩ := List.mem_map.mp mem
    have empty := none level inRange
    simpa using empty
  obtain ⟨level, lowest⟩ := Option.ne_none_iff_exists'.mp pending
  obtain ⟨first, rest, front⟩ := List.exists_cons_of_ne_nil (le_of_lowestLevelPending lowest).2
  have popped : ∃ found, rm.popFrontRequest level = .some found := by
    rw [SlabRequestManager.popFrontRequest, front]
    exact ⟨_, rfl⟩
  obtain ⟨⟨req, rm'⟩, popped⟩ := popped
  exact ⟨level, req, rm', lowest, popped⟩

end

end SlabRequestManager
end Mcsb
