import Mcsb.Manager.Reservation
import Mcsb.Lib.Assoc
import Mathlib.Data.List.Perm.Subperm

/-!
# Groups and their members

`GroupManager` counts the members of each group, and the client proxies know
their groups. The two agree as long as no client names its group itself.
-/

namespace Mcsb
open Effect

set_option maxRecDepth 2000
set_option synthInstance.maxSize 10000

namespace GroupManager

theorem toCount_eq {n : Int} (low : -1 ≤ n) (high : n < 2 ^ 31) : toCount n = n :=
  Int.bmod_eq_of_le (by omega) (by omega)

/-- The string of a group, if there is such a group. -/
def str (gm : GroupManager) (g : Int16) : Option String := (gm.groupIDToStr.lookup g).map (·.1)

/-- The count of a group, zero if there is no such group. -/
def count (gm : GroupManager) (g : Int16) : Int := ((gm.groupIDToStr.lookup g).map (·.2)).getD 0

/-- Each group can have one member more. -/
def Roomy (gm : GroupManager) : Prop := ∀ g, 0 < g → 0 ≤ gm.count g ∧ gm.count g + 1 < 2 ^ 31

/-- The two maps are each other's inverse, on IDs from 1 on. -/
structure OK (gm : GroupManager) : Prop where
  inverse : gm.strToGroupID = gm.groupIDToStr.map fun (id, str, _) => (str, id)
  ids : (gm.groupIDToStr.map (·.1)).Nodup
  strs : (gm.strToGroupID.map (·.1)).Nodup
  positive : ∀ entry ∈ gm.groupIDToStr, 0 < entry.1
  next_pos : 1 ≤ gm.nextNewGroupID
  next_le : gm.nextNewGroupID ≤ kMaxGroupID

section
variable {gm : GroupManager} {gid g : Int16} {groupStr : String}

theorem count_of_unknown (unknown : gm.str g = none) : gm.count g = 0 := by
  rw [str, Option.map_eq_none_iff] at unknown
  rw [count, unknown]
  rfl

theorem OK.new : OK {} := ⟨rfl, List.nodup_nil, List.nodup_nil, by simp, le_rfl, by decide⟩

/-- The count of one group is changed. -/
def recount (gm : GroupManager) (gid : Int16) (f : Int → Int) : GroupManager :=
  { gm with groupIDToStr := gm.groupIDToStr.map fun (id, str, count) =>
      if id = gid then (id, str, f count) else (id, str, count) }

theorem groupIDToStr_recount (gm : GroupManager) (gid : Int16) (f : Int → Int) :
    (gm.recount gid f).groupIDToStr =
      gm.groupIDToStr.map fun (id, v) => (id, if id = gid then (v.1, f v.2) else v) := by
  refine List.map_congr_left fun (id, str, count) _ => ?_
  dsimp only
  split <;> rfl

theorem OK.recount (h : gm.OK) (f : Int → Int) : (gm.recount gid f).OK := by
  refine ⟨?_, ?_, h.strs, fun entry mem => ?_, h.next_pos, h.next_le⟩
  · rw [groupIDToStr_recount, List.map_map]
    refine h.inverse.trans (List.map_congr_left fun (id, str, count) _ => ?_)
    simp only [Function.comp]
    split <;> rfl
  · rw [groupIDToStr_recount, List.map_map]
    exact h.ids
  · rw [groupIDToStr_recount] at mem
    obtain ⟨entry, known, rfl⟩ := List.mem_map.mp mem
    exact h.positive entry known

theorem lookup_recount (f : Int → Int) : (gm.recount gid f).groupIDToStr.lookup g =
    (gm.groupIDToStr.lookup g).map fun v => if g = gid then (v.1, f v.2) else v := by
  rw [groupIDToStr_recount]
  exact Assoc.lookup_map_value fun id v => if id = gid then (v.1, f v.2) else v

theorem str_recount (f : Int → Int) : (gm.recount gid f).str g = gm.str g := by
  rw [str, lookup_recount, Option.map_map, str]
  congr 1
  funext v
  simp only [Function.comp]
  split <;> rfl

theorem count_recount (f : Int → Int) (known : gm.str gid ≠ none) :
    (gm.recount gid f).count g = if g = gid then f (gm.count g) else gm.count g := by
  rw [count, lookup_recount, count]
  by_cases here : g = gid
  · subst here
    cases eq : gm.groupIDToStr.lookup g with
    | none => exact absurd (by rw [str, eq]; rfl) known
    | some v => simp
  · cases gm.groupIDToStr.lookup g <;> simp [here]

theorem recount_of_unknown (unknown : gm.str gid = none) (f : Int → Int) :
    gm.recount gid f = gm := by
  rw [str, Option.map_eq_none_iff, List.lookup_eq_none_iff] at unknown
  have same : (gm.recount gid f).groupIDToStr = gm.groupIDToStr := by
    refine (List.map_congr_left fun (id, str, count) mem => ?_).trans (List.map_id _)
    exact if_neg fun same => by simpa [same] using unknown _ mem
  unfold recount at *
  rw [show (gm.groupIDToStr.map _) = gm.groupIDToStr from same]

/-- No group has an ID below 1. -/
theorem OK.str_eq_none (h : gm.OK) (le : gid ≤ 0) : gm.str gid = none := by
  rw [str, Option.map_eq_none_iff]
  cases eq : gm.groupIDToStr.lookup gid with
  | none => rfl
  | some v => exact absurd (h.positive _ (Assoc.mem_of_lookup eq)) (Int16.not_lt.mpr le)

/-- A string that is known is that of its group. -/
theorem OK.str_of_lookup (h : gm.OK) (found : gm.strToGroupID.lookup groupStr = some gid) :
    gm.str gid = some groupStr := by
  have mem := Assoc.mem_of_lookup found
  rw [h.inverse] at mem
  obtain ⟨⟨id, str, count⟩, mem, eq⟩ := List.mem_map.mp mem
  cases eq
  rw [GroupManager.str, Assoc.lookup_of_mem h.ids mem]
  rfl

theorem ofNat_pos {n : Nat} (pos : 1 ≤ n) (le : n ≤ kMaxGroupID) : 0 < Int16.ofNat n := by
  unfold kMaxGroupID at le
  rw [Int16.lt_iff_toInt_lt, Int16.toInt_ofNat_of_lt (by omega)]
  simp only [Int16.toInt_zero]
  omega

/-- The group manager with one more group, without members. -/
def added (gm : GroupManager) (groupStr : String) (gid : Int16) (nextNewGroupID : Nat) :
    GroupManager where
  nextNewGroupID
  strToGroupID := gm.strToGroupID ++ [(groupStr, gid)]
  groupIDToStr := gm.groupIDToStr ++ [(gid, groupStr, 0)]

theorem wp_newGroupStr (h : gm.OK) (fuel : Nat) : wp (newGroupStr groupStr fuel) gm
    (fun gid gm' => ∃ nextNewGroupID, 1 ≤ nextNewGroupID ∧ nextNewGroupID ≤ kMaxGroupID ∧
      (gid = -1 ∧ gm' = { gm with nextNewGroupID } ∨
        0 < gid ∧ gm.str gid = none ∧ gm' = gm.added groupStr gid nextNewGroupID))
    (fun e _ => e = .stuck) := by
  induction fuel generalizing gm with
  | zero => rfl
  | succ fuel ih =>
    simp only [newGroupStr, wp_bind, wp_get, wp_ite, wp_pure, wp_modify]
    split
    · exact ⟨gm.nextNewGroupID, h.next_pos, h.next_le, .inl ⟨trivial, rfl⟩⟩
    · have next : 1 ≤ (if kMaxGroupID < gm.nextNewGroupID + 1 then 1 else gm.nextNewGroupID + 1) ∧
          (if kMaxGroupID < gm.nextNewGroupID + 1 then 1 else gm.nextNewGroupID + 1) ≤
            kMaxGroupID := by
        split
        · exact ⟨le_rfl, by decide⟩
        · exact ⟨Nat.le_add_left _ _, Nat.not_lt.mp ‹_›⟩
      split
      · exact ih ⟨h.inverse, h.ids, h.strs, h.positive, next.1, next.2⟩
      · rename_i unused
        refine ⟨_, next.1, next.2, .inr ⟨ofNat_pos h.next_pos h.next_le, ?_, rfl⟩⟩
        rw [str, Option.map_eq_none_iff]
        cases eq : gm.groupIDToStr.lookup (Int16.ofNat gm.nextNewGroupID) with
        | none => rfl
        | some v => exact absurd (by rw [eq]; rfl) unused

theorem OK.added (h : gm.OK) {next : Nat} (pos : 0 < gid) (unused : gm.str gid = none)
    (unknown : gm.strToGroupID.lookup groupStr = none) (next_pos : 1 ≤ next)
    (next_le : next ≤ kMaxGroupID) : (gm.added groupStr gid next).OK := by
  rw [str, Option.map_eq_none_iff, List.lookup_eq_none_iff] at unused
  rw [List.lookup_eq_none_iff] at unknown
  refine ⟨?_, ?_, ?_, fun entry mem => ?_, next_pos, next_le⟩
  · rw [GroupManager.added, h.inverse, List.map_append]
    rfl
  · rw [GroupManager.added, List.map_append]
    refine List.nodup_append.mpr ⟨h.ids, List.nodup_singleton _, fun id mem id' here same => ?_⟩
    obtain ⟨entry, known, rfl⟩ := List.mem_map.mp mem
    rw [List.map_singleton, List.mem_singleton] at here
    exact absurd (same.trans here).symm (by simpa using unused entry known)
  · rw [GroupManager.added, List.map_append]
    refine List.nodup_append.mpr ⟨h.strs, List.nodup_singleton _, fun s mem s' here same => ?_⟩
    obtain ⟨entry, known, rfl⟩ := List.mem_map.mp mem
    rw [List.map_singleton, List.mem_singleton] at here
    exact absurd (same.trans here).symm (by simpa using unknown entry known)
  · rcases List.mem_append.mp mem with before | new
    · exact h.positive entry before
    · rw [List.mem_singleton.mp new]
      exact pos

theorem lookup_added (groupStr : String) (g : Int16) (unused : gm.str gid = none) (next : Nat) :
    (gm.added groupStr gid next).groupIDToStr.lookup g =
      if g = gid then some (groupStr, 0) else gm.groupIDToStr.lookup g := by
  rw [str, Option.map_eq_none_iff] at unused
  rw [added, List.lookup_append]
  by_cases here : g = gid
  · simp [here, unused]
  · simp [List.lookup_cons, here, beq_eq_false_iff_ne.mpr here]

/-- What joining and leaving groups does to the groups: `g` has one member more. -/
structure Joined (gm gm' : GroupManager) (gid : Int16) : Prop where
  ok : gm'.OK
  count : ∀ g, 0 < g → gm'.count g = gm.count g + if g = gid then 1 else 0
  str : ∀ g s, gm.str g = some s → gm'.str g = some s

theorem Joined.incGroupID (h : gm.OK) (roomy : gm.Roomy) (known : gm.str gid ≠ none) :
    gm.Joined (gm.incGroupID gid) gid := by
  constructor
  · exact h.recount fun n => toCount (n + 1)
  · intro g pos
    obtain ⟨low, high⟩ := roomy g pos
    apply (count_recount (fun n => toCount (n + 1)) known).trans
    rw [toCount_eq (by omega) high]
    split <;> simp
  · exact fun g s eq => (str_recount fun n => toCount (n + 1)).trans eq

theorem wp_getGroupID (h : gm.OK) (roomy : gm.Roomy) : wp (getGroupID groupStr) gm
    (fun gid gm' => gm.Joined gm' gid) (fun e _ => e = .stuck) := by
  simp only [getGroupID, wp_bind, wp_get, wp_ite, wp_pure]
  split
  · refine ⟨h, fun g pos => ?_, fun _ _ => id⟩
    rw [if_neg fun zero => Int16.lt_irrefl (zero ▸ pos), Int.add_zero]
  · split
    · rename_i gid found
      exact .incGroupID h roomy (by rw [h.str_of_lookup found]; exact Option.some_ne_none _)
    · rename_i unknown
      rw [wp_bind]
      refine wp_mono (wp_newGroupStr h _) ?_ (fun _ _ => id)
      rintro gid gm' ⟨next, next_pos, next_le, ⟨rfl, rfl⟩ | ⟨pos, unused, rfl⟩⟩
      · have ok : OK { gm with nextNewGroupID := next } :=
          ⟨h.inverse, h.ids, h.strs, h.positive, next_pos, next_le⟩
        have none : GroupManager.str _ (-1) = none := ok.str_eq_none (by decide)
        have same := recount_of_unknown none fun n => toCount (n + 1)
        refine (?_ : gm.Joined (recount _ (-1) fun n => toCount (n + 1)) (-1))
        rw [same]
        refine ⟨ok, fun g pos => ?_, fun g s => id⟩
        rw [if_neg fun e => absurd (e ▸ pos) (by decide), Int.add_zero]
        rfl
      · have ok := h.added pos unused unknown next_pos next_le
        have lookup (g : Int16) := lookup_added groupStr g unused next
        have counts (g : Int16) : (gm.added groupStr gid next).count g = gm.count g := by
          rw [count, lookup, count]
          split
          · rename_i here
            rw [str, Option.map_eq_none_iff] at unused
            rw [here, unused]
            rfl
          · rfl
        have joined := Joined.incGroupID ok (fun g pos => counts g ▸ roomy g pos)
          (show GroupManager.str _ gid ≠ none by rw [str, lookup]; simp)
        refine ⟨joined.ok, fun g pos => ?_, fun g s eq => joined.str g s ?_⟩
        · rw [joined.count g pos, counts]
        · rw [str, lookup, if_neg fun here => ?_]
          · exact eq
          · rw [← here, eq] at unused
            cases unused

/-- `gid` has one member less, and is gone with the last. -/
structure Left (gm gm' : GroupManager) (gid : Int16) : Prop where
  ok : gm'.OK
  count : ∀ g, 0 < g → gm'.count g + (if g = gid then 1 else 0) = gm.count g
  str : ∀ g s, gm.str g = some s → (g = gid → gm.count g ≠ 1) → gm'.str g = some s

theorem lookup_erased : (gm.groupIDToStr.filter (·.1 ≠ gid)).lookup g =
    if g = gid then none else gm.groupIDToStr.lookup g :=
  Assoc.lookup_filter_ne gm.groupIDToStr gid g

/-- An ID and its string are erased together. -/
theorem OK.erased (h : gm.OK) {count : Int} (mem : (gid, groupStr, count) ∈ gm.groupIDToStr) :
    OK { gm with
      strToGroupID := gm.strToGroupID.filter (·.1 ≠ groupStr)
      groupIDToStr := gm.groupIDToStr.filter (·.1 ≠ gid) } := by
  refine ⟨?_, h.ids.sublist (List.filter_sublist.map _), h.strs.sublist (List.filter_sublist.map _),
    fun entry mem => h.positive entry (List.mem_of_mem_filter mem), h.next_pos, h.next_le⟩
  have strs := h.strs
  rw [h.inverse, List.map_map] at strs
  rw [h.inverse, List.filter_map]
  refine congrArg (List.map _) (List.filter_congr fun entry known => ?_)
  refine decide_eq_decide.mpr (not_congr ⟨fun e => ?_, fun e => ?_⟩)
  · exact congrArg (·.1) (List.inj_on_of_nodup_map strs known mem e)
  · exact congrArg (·.2.1) (List.inj_on_of_nodup_map h.ids known mem e)

/-- What `DecGroupID` leaves of a live group. -/
def released (gm : GroupManager) (gid : Int16) (groupStr : String) (count : Int) : GroupManager :=
  let less := gm.recount gid fun n => toCount (n - 1)
  if count = 1 then
    { less with
      strToGroupID := gm.strToGroupID.filter (·.1 ≠ groupStr)
      groupIDToStr := less.groupIDToStr.filter (·.1 ≠ gid) }
  else less

/-- The string goes with the last member. -/
theorem str_released (n : Int) (g : Int16) :
    (gm.released gid groupStr n).str g = if n = 1 ∧ g = gid then none else gm.str g := by
  unfold released
  by_cases last : n = 1
  · simp only [last, if_true, true_and]
    rw [GroupManager.str, lookup_erased]
    split
    · rfl
    · exact str_recount _
  · rw [if_neg last, if_neg fun both => last both.1]
    exact str_recount _

section
variable {n : Int} (found : gm.groupIDToStr.lookup gid = some (groupStr, n))
include found

theorem str_of_found : gm.str gid = some groupStr := by
  rw [GroupManager.str, found]
  rfl

theorem count_of_found : gm.count gid = n := by
  rw [GroupManager.count, found]
  rfl

theorem decGroupID_eq (pos : 1 ≤ n) (small : n < 2 ^ 31) :
    decGroupID gid gm = .ok () (gm.released gid groupStr n) := by
  have less : toCount (n - 1) = n - 1 := toCount_eq (by omega) (by omega)
  unfold decGroupID released
  simp only [Effect.get_bind_eq, found, less]
  by_cases last : n = 1
  · have zero : n - 1 = 0 := by omega
    simp only [zero, if_true, if_pos last]
    rfl
  · have more : ¬ n - 1 = 0 := by omega
    have enough : ¬ n - 1 < 0 := by omega
    simp only [more, enough, if_false, if_neg last]
    rfl

theorem OK.released (h : gm.OK) : (gm.released gid groupStr n).OK := by
  unfold GroupManager.released
  split
  · have found' : (gm.recount gid fun n => toCount (n - 1)).groupIDToStr.lookup gid =
        some (groupStr, toCount (n - 1)) := by
      rw [lookup_recount, found, Option.map_some, if_pos rfl]
    exact (h.recount _).erased (Assoc.mem_of_lookup found')
  · exact h.recount _

/-- The group has one member less. -/
theorem count_released (pos : 1 ≤ n) (small : n < 2 ^ 31) (g : Int16) :
    (gm.released gid groupStr n).count g = gm.count g - if g = gid then 1 else 0 := by
  have here := count_of_found found
  have known : gm.str gid ≠ none := str_of_found found ▸ Option.some_ne_none groupStr
  have counts : (gm.recount gid fun n => toCount (n - 1)).count g =
      gm.count g - if g = gid then 1 else 0 := by
    rw [count_recount _ known]
    split
    · rename_i same
      rw [same, here]
      exact toCount_eq (by omega) (by omega)
    · exact (Int.sub_zero _).symm
  unfold released
  split
  · rename_i last
    rw [← counts, GroupManager.count, lookup_erased]
    split
    · rename_i same
      rw [counts, if_pos same, same, here, last]
      rfl
    · rfl
  · exact counts

end

theorem wp_decGroupID (h : gm.OK) (roomy : gm.Roomy) (members : 0 < gid → 1 ≤ gm.count gid) :
    wp (decGroupID gid) gm (fun _ gm' => gm.Left gm' gid) (fun _ _ => False) := by
  cases found : gm.groupIDToStr.lookup gid with
  | none =>
    rw [decGroupID, wp_bind, wp_get, found]
    refine ⟨h, fun g pos => ?_, fun _ _ eq _ => eq⟩
    rw [if_neg fun here => ?_, Int.add_zero]
    subst here
    have := members pos
    rw [count, found] at this
    exact absurd this (by decide)
  | some v =>
    obtain ⟨str, n⟩ := v
    have live := h.positive _ (Assoc.mem_of_lookup found)
    have here := count_of_found found
    have members := members live
    have high := (roomy gid live).2
    rw [here] at high members
    have small : n < 2 ^ 31 := by omega
    rw [Effect.wp_of_ok (decGroupID_eq found members small)]
    refine ⟨h.released found, fun g _ => ?_, fun g s eq more => ?_⟩
    · rw [count_released found members small, Int.sub_add_cancel]
    · rw [str_released, if_neg ?_, eq]
      rintro ⟨last, same⟩
      exact more same (same ▸ here.trans last)

theorem str_ne_none (h : gm.count g ≠ 0) : gm.str g ≠ none := mt count_of_unknown h

end
end GroupManager

namespace Event

/-- The event lets no client name its group itself. -/
def KeepsGroups (m : Manager) : Event → Prop
  | .frame c (.groupID id) => id = (m.proxy c).groupID ∨ (m.proxy c).groupID ≤ 0 ∧ id ≤ 0
  | _ => True

instance (m : Manager) : DecidablePred (KeepsGroups m) := fun e => by
  unfold KeepsGroups
  split <;> infer_instance

/-- The event has client `c` deleted, in state `m₁`. -/
def Deletes (m : Manager) (c : Nat) (m₁ : Manager) : Event → Prop
  | .connect .. => False
  | .hangup x => x = c ∧ m₁ = m
  | .frame x f => x = c ∧ ∃ what, f.handle c m = .error (.runtimeError what) m₁

end Event

namespace Manager

/-- What decides who is in which group. -/
abbrev grouping (m : Manager) : GroupManager × List Nat × (Nat → Int16) × Nat :=
  (m.groupManager, m.clients, fun x => (m.proxy x).groupID, m.nextNewClientID)

/-- How many of these clients are in a group. -/
def membersOf (m : Manager) (cs : List Nat) (g : Int16) : Nat :=
  cs.countP fun c => (m.proxy c).groupID = g

/-- How many live clients are in a group. -/
def members (m : Manager) (g : Int16) : Nat := m.membersOf m.clients g

/-- The group manager has counted these clients, whose IDs are in range. -/
structure Grouped (m : Manager) (cs : List Nat) : Prop where
  ok : m.groupManager.OK
  nodup : cs.Nodup
  count : ∀ g, 0 < g → m.groupManager.count g = m.membersOf cs g
  small : ∀ x ∈ cs, x ≤ kMaxClientID
  next_le : m.nextNewClientID ≤ kMaxClientID

/-- A group keeps its string, or it has no member any more. -/
def KeepsStrs (m m' : Manager) : Prop :=
  ∀ g s, m.groupManager.str g = some s →
    m'.groupManager.str g = some s ∨ m'.groupManager.count g = 0

section
variable {m m' : Manager} {c : Nat} {cs : List Nat} {g : Int16}

theorem membersOf_congr (same : ∀ x ∈ cs, (m'.proxy x).groupID = (m.proxy x).groupID) :
    m'.membersOf cs g = m.membersOf cs g :=
  List.countP_congr fun x mem => by rw [same x mem]

theorem membersOf_erase (mem : c ∈ cs) : m.membersOf cs g =
    m.membersOf (cs.erase c) g + if (m.proxy c).groupID = g then 1 else 0 := by
  rw [membersOf, (List.perm_cons_erase mem).countP_eq, List.countP_cons]
  simp only [decide_eq_true_eq, membersOf]

theorem membersOf_setProxy (nodup : cs.Nodup) (mem : c ∈ cs) (p : ClientProxy) :
    (m.setProxy c p).membersOf cs g + (if (m.proxy c).groupID = g then 1 else 0) =
      m.membersOf cs g + if p.groupID = g then 1 else 0 := by
  have others : (m.setProxy c p).membersOf (cs.erase c) g = m.membersOf (cs.erase c) g :=
    membersOf_congr fun x mem => by
      rw [proxy_setProxy_of_ne _ fun here => nodup.not_mem_erase (here ▸ mem)]
  rw [membersOf_erase mem, membersOf_erase mem, others, proxy_setProxy]
  omega

theorem Grouped.congr (h : m.Grouped cs) (same : m'.grouping = m.grouping) : m'.Grouped cs := by
  simp only [grouping, Prod.mk.injEq] at same
  obtain ⟨groups, -, proxies, next⟩ := same
  refine ⟨groups ▸ h.ok, h.nodup, fun g pos => ?_, h.small, next ▸ h.next_le⟩
  rw [groups, h.count g pos, membersOf_congr fun x _ => congrFun proxies x]

/-- There are not so many clients. -/
theorem Grouped.roomy (h : m.Grouped cs) : m.groupManager.Roomy := by
  intro g pos
  have among : cs ⊆ List.range (kMaxClientID + 1) := fun x mem =>
    List.mem_range.mpr (Nat.lt_succ_of_le (h.small x mem))
  have few := (List.subperm_of_subset h.nodup among).length_le
  have members : m.membersOf cs g ≤ cs.length := List.countP_le_length
  rw [List.length_range, kMaxClientID] at few
  rw [h.count g pos]
  omega

theorem Grouped.str_ne_none (h : m.Grouped cs) (mem : c ∈ cs) (pos : 0 < (m.proxy c).groupID) :
    m.groupManager.str (m.proxy c).groupID ≠ none := by
  refine GroupManager.str_ne_none ?_
  rw [h.count _ pos, membersOf_erase mem, if_pos rfl]
  omega

theorem grouping_setProxy {p : ClientProxy} (same : p.groupID = (m.proxy c).groupID) :
    Keeps grouping m (m.setProxy c p) := by
  have proxies := inner_setProxy (·.groupID) same
  exact Prod.ext rfl (Prod.ext rfl (Prod.ext proxies rfl))

instance : Steady (Keeps grouping) where
  inside same _ _ := by
    simp only [settings, Prod.mk.injEq] at same
    simp only [Keeps, grouping, same]
  proxy same := by
    simp only [ClientProxy.settings, Prod.mk.injEq] at same
    exact grouping_setProxy same.2.2.2.2.1

instance : Sending (Keeps grouping) where
  sending _ _ := grouping_setProxy rfl

instance : Reporting (Keeps grouping) where
  reporting _ _ := grouping_setProxy rfl
  dropped _ _ := rfl

instance : Registering (Keeps grouping) where
  registering _ := grouping_setProxy rfl

instance : Wanting (Keeps grouping) where
  wanting _ := grouping_setProxy rfl

instance : Ranking (Keeps grouping) where
  ranking _ := grouping_setProxy rfl

instance : Copying (Keeps grouping) where
  blockInfo _ _ := rfl

instance : Resizing (Keeps grouping) where
  resized _ _ := grouping_setProxy rfl

instance : Growing (Keeps grouping) where
  buffers _ _ _ := rfl
  granted _ _ := grouping_setProxy rfl

/-- Only the frames about groups change who is in which. -/
theorem handle_keeps_grouping {f : Frame} (id : ∀ id, f ≠ .groupID id)
    (str : ∀ str, f ≠ .groupIDStr str) : Moves (Keeps grouping) (f.handle c) := by
  cases f with
  | blockIDs ids => exact inferInstanceAs (Moves _ (handleBlockIDs c ids))
  | slabIDs ids => exact inferInstanceAs (Moves _ (handleSlabIDs c ids))
  | blocksAndInfo segs => exact inferInstanceAs (Moves _ (handleBlocksAndInfo c segs))
  | numSlabs prod cons ok => exact inferInstanceAs (Moves _ (handleNumSlabs c prod cons ok))
  | registration type cid gid msgIDs =>
    exact inferInstanceAs (Moves _ (handleRegistration c type cid gid msgIDs))
  | registrationsWanted new current =>
    exact inferInstanceAs (Moves _ (handleRegistrationsWanted c new current))
  | dropReportAck => exact inferInstanceAs (Moves _ (handleDropReportAck c))
  | prodNiceLevel level =>
    exact inferInstanceAs (Moves (Keeps grouping)
      (modifyProxy c fun p => { p with prodNiceLevel := level.toInt.bmod (2 ^ 8) }))
  | managerEcho bytes => exact inferInstanceAs (Moves _ (sendCtrl c _))
  | sequenceToken token => exact inferInstanceAs (Moves _ (sendCtrl c _))
  | groupID id' => exact absurd rfl (id id')
  | groupIDStr str' => exact absurd rfl (str str')
  | invalid => exact inferInstanceAs (Moves _ (fail _))
  | ignored => exact inferInstanceAs (Moves _ (pure ()))

/-- What an event does when the group manager keeps up with it. -/
structure Regrouped (m m' : Manager) : Prop where
  grouped : m'.Grouped m'.clients
  strs : m.KeepsStrs m'

theorem Regrouped.congr {m₁ : Manager} (h : m.Regrouped m₁) (same : m'.grouping = m₁.grouping) :
    m.Regrouped m' := by
  have split := same
  simp only [grouping, Prod.mk.injEq] at split
  refine ⟨split.2.1 ▸ h.grouped.congr same, fun g s eq => ?_⟩
  rw [split.1]
  exact h.strs g s eq

/-- What a handler does: no group is lost. -/
structure Enrolled (m m' : Manager) : Prop where
  grouped : m'.Grouped m.clients
  clients : m'.clients = m.clients
  strs : ∀ g s, m.groupManager.str g = some s → m'.groupManager.str g = some s

theorem Enrolled.refl (h : m.Grouped m.clients) : m.Enrolled m := ⟨h, rfl, fun _ _ => id⟩

theorem Enrolled.congr {m₁ : Manager} (h : m.Enrolled m₁) (same : m'.grouping = m₁.grouping) :
    m.Enrolled m' := by
  have split := same
  simp only [grouping, Prod.mk.injEq] at split
  exact ⟨h.grouped.congr same, split.2.1.trans h.clients, split.1 ▸ h.strs⟩

theorem Enrolled.regrouped (h : m.Enrolled m') : m.Regrouped m' :=
  ⟨h.clients ▸ h.grouped, fun g s eq => .inl (h.strs g s eq)⟩

theorem Enrolled.then {m₁ : Manager} (h : m.Enrolled m₁) (h' : m₁.Regrouped m') :
    m.Regrouped m' :=
  ⟨h'.grouped, fun g s eq => h'.strs g s (h.strs g s eq)⟩

/-- A client that is in no group joins one. -/
theorem Enrolled.join (h : m.Grouped m.clients) (live : c ∈ m.clients)
    (zero : (m.proxy c).groupID = 0) {gm' : GroupManager} {gid : Int16}
    (joined : m.groupManager.Joined gm' gid) :
    m.Enrolled (Manager.setProxy { m with groupManager := gm' } c
      { m.proxy c with groupID := gid }) := by
  refine ⟨⟨joined.ok, h.nodup, fun g pos => ?_, h.small, h.next_le⟩, rfl, joined.str⟩
  have members := membersOf_setProxy (m := { m with groupManager := gm' }) (g := g) h.nodup live
    { m.proxy c with groupID := gid }
  rw [zero, if_neg fun e => Int16.lt_irrefl (e ▸ pos), Nat.add_zero] at members
  refine (joined.count g pos).trans ?_
  rw [h.count g pos, members]
  by_cases here : g = gid
  · simp [here, membersOf]
  · simp [here, Ne.symm here, membersOf]

theorem wp_handleGroupIDStr (h : m.Grouped m.clients) (live : c ∈ m.clients) (str : String) :
    wp (handleGroupIDStr c str) m (fun _ m' => m.Enrolled m')
      (fun e m' => e = .stuck ∨ m.Enrolled m') := by
  have same := Enrolled.refl h
  simp only [handleGroupIDStr, wp_bind, wp_getProxy, wp_ite, wp_fail]
  split
  · exact .inr same
  · split
    · exact .inr same
    · rename_i zero
      rw [onGroups, wp_zoom]
      refine wp_mono (GroupManager.wp_getGroupID h.ok h.roomy) (fun gid gm' joined => ?_) fun _ _ => .inl
      rw [wp_modifyProxy]
      have now := Enrolled.join h live (not_not.mp zero) joined
      exact wp_mono (Moves.moves (R := Keeps grouping) _) (fun _ _ => now.congr)
        (fun _ _ kept => .inr (now.congr kept))

theorem Grouped.wp_decGroupID (h : m.Grouped cs) (mem : c ∈ cs) :
    wp (GroupManager.decGroupID (m.proxy c).groupID) m.groupManager
      (fun _ gm' => m.groupManager.Left gm' (m.proxy c).groupID) (fun _ _ => False) :=
  GroupManager.wp_decGroupID h.ok h.roomy fun pos => by
    rw [h.count _ pos, membersOf_erase mem, if_pos rfl]
    omega

/-- The client is not counted any more. -/
theorem Grouped.left (h : m.Grouped cs) (mem : c ∈ cs) {gm' : GroupManager}
    (left : m.groupManager.Left gm' (m.proxy c).groupID) :
    Grouped { m with groupManager := gm' } (cs.erase c) := by
  refine ⟨left.ok, h.nodup.erase c, fun g pos => ?_,
    fun x mem => h.small x (List.mem_of_mem_erase mem), h.next_le⟩
  have before := left.count g pos
  rw [h.count g pos, membersOf_erase mem] at before
  refine (?_ : gm'.count g = m.membersOf (cs.erase c) g)
  by_cases here : g = (m.proxy c).groupID
  · rw [if_pos here, if_pos here.symm] at before
    omega
  · rw [if_neg here, if_neg (Ne.symm here)] at before
    omega

theorem KeepsStrs.left {gm' : GroupManager} {gid : Int16} (left : m.groupManager.Left gm' gid)
    (ok : m.groupManager.OK) : m.KeepsStrs { m with groupManager := gm' } := by
  intro g s eq
  by_cases last : g = gid ∧ m.groupManager.count g = 1
  · right
    have pos : 0 < g := by
      by_contra le
      rw [ok.str_eq_none (Int16.not_lt.mp le)] at eq
      cases eq
    have after := left.count g pos
    rw [last.2, if_pos last.1] at after
    exact (by omega : gm'.count g = 0)
  · exact .inl (left.str g s eq fun here one => last ⟨here, one⟩)

theorem wp_giveUpGroup (h : m.Grouped cs) (mem : c ∈ cs) (erased : m.clients = cs.erase c) :
    wp (giveUpGroup c) m (fun _ m' => m.Regrouped m') (fun _ _ => True) := by
  have rest (m₁ : Manager) (p : ClientProxy) (now : m.Regrouped m₁) :
      wp (swallow (deregisterAllMsgIDs c p.groupID (regMessages p.registeredMsgIDs))) m₁
        (fun _ m' => m.Regrouped m') (fun _ _ => True) :=
    wp_mono (Moves.moves (R := Keeps grouping) m₁) (fun _ _ => now.congr) fun _ _ _ => trivial
  rw [giveUpGroup, wp_bind, wp_getProxy]
  dsimp only
  split
  · rw [wp_bind, onGroups, wp_zoom]
    refine wp_mono (h.wp_decGroupID mem) (fun _ gm' left => ?_) (fun _ _ => False.elim)
    have grouped := h.left mem left
    rw [← erased] at grouped
    exact rest _ _ ⟨grouped, .left left h.ok⟩
  · rename_i zero
    refine rest m _ ⟨⟨h.ok, erased ▸ h.nodup.erase c, fun g pos => ?_,
      fun x mem => h.small x (List.mem_of_mem_erase (erased ▸ mem)), h.next_le⟩, fun _ _ => .inl⟩
    rw [h.count g pos, membersOf_erase mem, erased, if_neg fun same => ?_, Nat.add_zero]
    rw [not_not.mp zero] at same
    exact Int16.lt_irrefl (same ▸ pos)

/-- The slabs are given up with the groups as they were. -/
theorem wp_giveUpSlabs (h : m.Grouped m.clients) (c : Nat) :
    wp (giveUpSlabs c) { m with clients := m.clients.erase c }
      (fun _ m' => m'.Grouped m.clients ∧ m'.clients = m.clients.erase c ∧
        m'.groupManager = m.groupManager)
      (fun _ _ => True) :=
  wp_mono (Moves.moves (R := Keeps grouping) _)
    (fun _ _ kept => ⟨Grouped.congr (m := { m with clients := m.clients.erase c })
      ⟨h.ok, h.nodup, h.count, h.small, h.next_le⟩ kept, congrArg (·.2.1) kept, congrArg (·.1) kept⟩)
    (fun _ _ _ => trivial)

theorem wp_deleteClient_regrouped (h : m.Grouped m.clients) (live : c ∈ m.clients) :
    wp (deleteClient c) m (fun _ m' => m.Regrouped m') (fun _ _ => True) := by
  rw [wp_deleteClient, destroyProxy_eq, wp_bind]
  refine wp_mono (wp_giveUpSlabs h c) ?_ (fun _ _ _ => trivial)
  rintro - m₁ ⟨grouped, clients, groups⟩
  refine wp_mono (wp_giveUpGroup grouped live clients) (fun _ _ left => ⟨left.grouped, ?_⟩)
    (fun _ _ => id)
  intro g s eq
  exact left.strs g s (groups ▸ eq)

theorem wp_addConnectedClient_regrouped (h : m.Grouped m.clients) (addr : Nat)
    (accepts : Nat → Bool) :
    wp (addConnectedClient addr accepts) m (fun _ m' => m.Regrouped m') (fun _ _ => True) := by
  refine Gentle.wp_addConnectedClient_numbered (R := Keeps grouping) (Enrolled.refl h).regrouped ?_
  intro c next m' new numbered kept
  have groups : m'.groupManager = m.groupManager := congrArg (·.1) kept
  have clients : m'.clients = m.clients := congrArg (·.2.1) kept
  have proxies (x : Nat) := congrFun (congrArg (·.2.2.1) kept) x
  have kept_next : m'.nextNewClientID = next := congrArg (·.2.2.2) kept
  obtain ⟨c_le, next_le⟩ := numbered h.next_le
  have zero : (m'.proxy c).groupID = 0 :=
    (proxies c).trans (congrArg (·.groupID) (proxy_setProxy ..))
  have others (x : Nat) (mem : x ∈ m.clients) : (m'.proxy x).groupID = (m.proxy x).groupID :=
    (proxies x).trans (congrArg (·.groupID)
      (proxy_setProxy_of_ne _ (ne_of_mem_of_not_mem mem new) _))
  have strs : m.KeepsStrs m' := fun g s eq => .inl (groups ▸ eq)
  refine ⟨⟨⟨?_, ?_, fun g pos => ?_, ?_, kept_next ▸ next_le⟩, strs⟩,
    ⟨⟨?_, ?_, fun g pos => ?_, ?_, kept_next ▸ next_le⟩, strs⟩⟩
  · exact groups ▸ h.ok
  · rw [clients]
    exact (List.perm_orderedInsert _ c m.clients).nodup_iff.mpr (List.nodup_cons.mpr ⟨new, h.nodup⟩)
  · refine (groups ▸ h.count g pos).trans ?_
    have none_new : ¬ (m'.proxy c).groupID = g := fun same => Int16.lt_irrefl (zero ▸ same ▸ pos)
    rw [clients, ← membersOf_congr others, membersOf, membersOf,
      (List.perm_orderedInsert _ c m.clients).countP_eq, List.countP_cons]
    simp [none_new]
  · intro x mem
    rw [clients, (List.perm_orderedInsert _ c m.clients).mem_iff, List.mem_cons] at mem
    rcases mem with rfl | old
    · exact c_le
    · exact h.small x old
  · exact groups ▸ h.ok
  · exact clients ▸ h.nodup
  · rw [groups, h.count g pos, clients, membersOf_congr others]
  · exact clients ▸ h.small

theorem wp_handle_enrolled (h : m.Grouped m.clients) (live : c ∈ m.clients) {f : Frame}
    (keeps : (Event.frame c f).KeepsGroups m) :
    wp (f.handle c) m (fun _ m' => m.Regrouped m')
      (fun e m' => e = .stuck ∨ m.Enrolled m') := by
  by_cases id : ∃ id, f = .groupID id
  · obtain ⟨id, rfl⟩ := id
    refine ⟨⟨h.ok, h.nodup, fun g pos => ?_, h.small, h.next_le⟩, fun _ _ => .inl⟩
    have members := membersOf_setProxy (m := m) (g := g) h.nodup live { m.proxy c with groupID := id }
    refine (h.count g pos).trans (congrArg _ ?_)
    rcases keeps with rfl | ⟨old, new⟩
    · exact (Nat.add_right_cancel members).symm
    · have off {i : Int16} (le : i ≤ 0) : ¬ i = g := fun e => Int16.not_lt.mpr le (e ▸ pos)
      rw [if_neg (off old), if_neg (off new)] at members
      exact members.symm
  · by_cases str : ∃ str, f = .groupIDStr str
    · obtain ⟨str, rfl⟩ := str
      exact wp_mono (wp_handleGroupIDStr h live str) (fun _ _ => Enrolled.regrouped)
        (fun _ _ same => same)
    · have := handle_keeps_grouping (c := c) (fun id' same => id ⟨id', same⟩)
        fun str' same => str ⟨str', same⟩
      exact wp_mono (this.moves m) (fun _ _ kept => ((Enrolled.refl h).congr kept).regrouped)
        fun _ _ kept => .inr ((Enrolled.refl h).congr kept)

theorem wp_run_regrouped {e : Event} (h : m.Grouped m.clients) (enabled : e.Enabled m)
    (keeps : e.KeepsGroups m) : wp e.run m (fun _ m' => m.Regrouped m') (fun _ _ => True) := by
  cases e with
  | connect addr accepts => exact wp_addConnectedClient_regrouped h addr accepts
  | hangup c => exact wp_deleteClient_regrouped h enabled
  | frame c f =>
    refine wp_run_frame.mpr (wp_mono (wp_handle_enrolled h enabled keeps) (fun _ _ => id) ?_)
    rintro e m₁ thrown
    cases e with
    | runtimeError what =>
      have done := thrown.resolve_left nofun
      have live : c ∈ m₁.clients := done.clients ▸ enabled
      exact wp_mono (wp_deleteClient_regrouped (done.clients ▸ done.grouped) live)
        (fun _ _ => done.then) (fun _ _ => id)
    | stuck => trivial

theorem start_grouped {params : Params} (first : start params = some m) :
    m.Grouped m.clients := by
  refine start_eq_some (Q := fun m => m.Grouped m.clients) (E := fun _ _ => True)
    (fun sm _ => ?_) first
  refine wp_mono (Moves.moves (R := Keeps grouping) _) (fun _ m' kept => ?_) (fun _ _ _ => trivial)
  have fresh : Manager.Grouped { params, slabManager := sm } [] :=
    ⟨.new, List.nodup_nil, fun g _ => rfl, fun _ none => (List.not_mem_nil none).elim,
      Nat.zero_le _⟩
  rw [show m'.clients = [] from congrArg (·.2.1) kept]
  exact fresh.congr kept

theorem grouped_of_run {params : Params} {hist : History}
    (run : Run params (fun _ m e => e.KeepsGroups m) hist m) : m.Grouped m.clients := by
  induction run with
  | start first => exact start_grouped first
  | step _ enabled keeps stepped ih =>
    exact (step_eq_some (wp_run_regrouped ih enabled keeps) stepped).grouped

/-- The group manager counts the members of each group, a group with members
keeps its string, and a client that is deleted is still counted. -/
structure GroupsCounted (m : Manager) : Prop where
  counts : ∀ g, 0 < g → m.groupManager.count g = m.members g
  strs : ∀ c ∈ m.clients, 0 < (m.proxy c).groupID → m.groupManager.str (m.proxy c).groupID ≠ none
  stay : ∀ (e : Event) m', e.Enabled m → e.KeepsGroups m → m.step e = some m' →
    ∀ g, 0 < g → 0 < m.members g → 0 < m'.members g →
      m'.groupManager.str g = m.groupManager.str g
  leave : ∀ (e : Event) c m₁ u m₂, e.Enabled m → e.KeepsGroups m → e.Deletes m c m₁ →
    giveUpSlabs c { m₁ with clients := m₁.clients.erase c } = .ok u m₂ →
      ∃ gm, GroupManager.decGroupID (m₂.proxy c).groupID m₂.groupManager = .ok u gm

/-- As long as no client names its group itself, the groups are counted. -/
theorem groups_counted {params : Params} {hist : History}
    (run : Run params (fun _ m e => e.KeepsGroups m) hist m) : m.GroupsCounted := by
  have h := grouped_of_run run
  refine ⟨h.count, fun c live => h.str_ne_none live, ?_, ?_⟩
  · intro e m' enabled keeps stepped g pos old new
    have done := step_eq_some (wp_run_regrouped h enabled keeps) stepped
    have known : m.groupManager.str g ≠ none :=
      GroupManager.str_ne_none (by rw [h.count g pos]; exact Int.natCast_ne_zero.mpr old.ne')
    obtain ⟨s, eq⟩ := Option.ne_none_iff_exists'.mp known
    rcases done.strs g s eq with same | zero
    · rw [same, eq]
    · rw [done.grouped.count g pos] at zero
      exact absurd (Int.natCast_eq_zero.mp zero) new.ne'
  · intro e c m₁ u m₂ enabled keeps deletes gave
    have before : m₁.Grouped m₁.clients ∧ c ∈ m₁.clients := by
      cases e with
      | connect addr accepts => exact deletes.elim
      | hangup x =>
        obtain ⟨rfl, rfl⟩ := deletes
        exact ⟨h, enabled⟩
      | frame x f =>
        obtain ⟨rfl, what, threw⟩ := deletes
        have done := (wp_of_error threw).mp (wp_handle_enrolled h enabled keeps)
        have done := done.resolve_left nofun
        exact ⟨done.clients ▸ done.grouped, done.clients ▸ enabled⟩
    have after := (wp_of_ok gave).mp (wp_giveUpSlabs before.1 c)
    have left := after.1.wp_decGroupID before.2
    unfold wp at left
    split at left
    · exact ⟨_, by assumption⟩
    · exact left.elim

/-- Two clients of one group. -/
def joinOne : List Event :=
  [.connect 1 fun _ => true, .connect 2 fun _ => true,
    .frame 0 (.groupIDStr "a"), .frame 1 (.groupIDStr "a")]

theorem groups_counted_two : ∃ hist m,
    trace fourSlabs (fun _ m e => e.KeepsGroups m) joinOne = some (hist, m) ∧
      m.members 1 = 2 ∧ m.GroupsCounted := by
  have ran : (trace fourSlabs (fun _ m e => e.KeepsGroups m) joinOne).any
      (fun run => run.2.members 1 = 2) = true := by
    decide +kernel
  obtain ⟨⟨hist, m⟩, eq, two⟩ := (Option.any_eq_true _ _).mp ran
  exact ⟨hist, m, eq, of_decide_eq_true two, groups_counted (run_of_trace eq)⟩

/-- The client is in group 5, which does not exist. -/
theorem not_groups_counted : ¬ ∀ params hist m, Run params (fun _ _ _ => True) hist m →
    ∀ g, 0 < g → m.groupManager.count g = m.members g := by
  intro all
  have ran : (trace fourSlabs (fun _ _ _ => True)
      [.connect 1 fun _ => true, .frame 0 (.groupID 5)]).any
      (fun run => ¬ run.2.groupManager.count 5 = run.2.members 5) = true := by
    decide +kernel
  obtain ⟨⟨hist, m⟩, eq, wrong⟩ := (Option.any_eq_true _ _).mp ran
  exact of_decide_eq_true wrong (all _ _ _ (run_of_trace eq) 5 (by decide))

end
end Manager
end Mcsb
