import Mcsb.Manager.SlabManager

/-!
# Drop reports and groups

`DropReporter`, one for each client, and `GroupManager`, the counted names of
client groups.
-/

namespace Mcsb
open Effect

structure DropReporter where
  needReport : Bool := false
  throttle : Bool := false
  segsDropped : Nat := 0
  bytesDropped : Nat := 0
  deriving DecidableEq, Repr

namespace DropReporter

/-- The sums are kept in 64 bits. -/
def dropped (r : DropReporter) (segs bytes : Nat) : DropReporter :=
  if segs = 0 ∧ bytes = 0 then r
  else { r with
    needReport := true
    segsDropped := (r.segsDropped + segs) % 2 ^ 64
    bytesDropped := (r.bytesDropped + bytes) % 2 ^ 64 }

def ack (r : DropReporter) : DropReporter := { r with throttle := false }

/-- The report to send now, if one is due: the sums saturate at 32 bits. -/
def getReport (r : DropReporter) : Option (Nat × Nat) × DropReporter :=
  if !r.needReport || r.throttle then (none, r)
  else (some (min r.segsDropped (2 ^ 32 - 1), min r.bytesDropped (2 ^ 32 - 1)),
    { throttle := true })

end DropReporter

/-- `strToGroupID` and `groupIDToStr`, as association lists. -/
structure GroupManager where
  nextNewGroupID : Nat := 1
  strToGroupID : List (String × Int16) := []
  groupIDToStr : List (Int16 × String × Int) := []

namespace GroupManager

def kMaxGroupID : Nat := 9999

/-- The counts are `int`s, which are taken to wrap. -/
def toCount (n : Int) : Int := n.bmod (2 ^ 32)

/-- The loop of `NewGroupStr`, which ends at the first ID not in use. -/
def newGroupStr (groupStr : String) : Nat → EStateM Exc GroupManager Int16
  | 0 => throw .stuck
  | fuel + 1 => do
    let gm ← get
    if kMaxGroupID ≤ gm.strToGroupID.length then return -1
    let newGroupID := Int16.ofNat gm.nextNewGroupID
    let next := gm.nextNewGroupID + 1
    modify fun gm => { gm with nextNewGroupID := if kMaxGroupID < next then 1 else next }
    if (gm.groupIDToStr.lookup newGroupID).isSome then
      newGroupStr groupStr fuel
    else
      modify fun gm => { gm with
        strToGroupID := gm.strToGroupID ++ [(groupStr, newGroupID)]
        groupIDToStr := gm.groupIDToStr ++ [(newGroupID, groupStr, 0)] }
      return newGroupID

def incGroupID (gm : GroupManager) (gid : Int16) : GroupManager :=
  { gm with groupIDToStr := gm.groupIDToStr.map fun (id, str, count) =>
      if id = gid then (id, str, toCount (count + 1)) else (id, str, count) }

/-- `GetGroupID` with its default flags. The empty string is group 0. -/
def getGroupID (groupStr : String) : EStateM Exc GroupManager Int16 := do
  if groupStr = "" then return 0
  match (← get).strToGroupID.lookup groupStr with
  | some gid =>
    modify (·.incGroupID gid)
    return gid
  | none =>
    let gid ← newGroupStr groupStr (kMaxGroupID + 1)
    modify (·.incGroupID gid)
    return gid

/-- A count that reaches zero erases the group from both maps. -/
def decGroupID (gid : Int16) : EStateM Exc GroupManager Unit := do
  match (← get).groupIDToStr.lookup gid with
  | none => return
  | some (str, count) =>
    modify fun gm => { gm with groupIDToStr := gm.groupIDToStr.map fun (id, str, count) =>
      if id = gid then (id, str, toCount (count - 1)) else (id, str, count) }
    let newCount := toCount (count - 1)
    if newCount = 0 then
      modify fun gm => { gm with
        strToGroupID := gm.strToGroupID.filter (·.1 ≠ str)
        groupIDToStr := gm.groupIDToStr.filter (·.1 ≠ gid) }
    else if newCount < 0 then
      throw (.runtimeError "GroupManager count underflow")

end GroupManager
end Mcsb
