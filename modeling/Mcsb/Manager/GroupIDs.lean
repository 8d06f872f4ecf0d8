import Mcsb.Manager.Groups
import Mathlib.Data.List.Perm.Subperm

/-!
# Group IDs and their counts

Whatever is called, `GroupManager` names each live string by an ID of its own and
counts its increments and decrements, as long as an `int` can (`Called.bijection`).
A free ID is found as long as there is one.
-/

namespace Mcsb
namespace GroupManager
variable {gm : GroupManager} {gid g : Int16} {groupStr : String} {n fuel : Nat}

/-! ## The search for a free ID -/

/-- The cursor wraps. -/
def following (next : Nat) : Nat := if kMaxGroupID < next + 1 then 1 else next + 1

def advance (gm : GroupManager) : GroupManager :=
  { gm with nextNewGroupID := following gm.nextNewGroupID }

/-- What one turn of the loop of `NewGroupStr` does. -/
theorem newGroupStr_succ (gm : GroupManager) (groupStr : String) (fuel : Nat) :
    newGroupStr groupStr (fuel + 1) gm =
      if kMaxGroupID ≤ gm.strToGroupID.length then .ok (-1) gm
      else if (gm.groupIDToStr.lookup (Int16.ofNat gm.nextNewGroupID)).isSome then
        newGroupStr groupStr fuel gm.advance
      else .ok (Int16.ofNat gm.nextNewGroupID)
        (gm.added groupStr (Int16.ofNat gm.nextNewGroupID) (following gm.nextNewGroupID)) := by
  rw [newGroupStr]
  simp only [Effect.get_bind_eq]
  split
  · rfl
  · change (if (gm.groupIDToStr.lookup (Int16.ofNat gm.nextNewGroupID)).isSome then
      newGroupStr groupStr fuel else _ : EStateM Exc GroupManager Int16) gm.advance = _
    cases (gm.groupIDToStr.lookup (Int16.ofNat gm.nextNewGroupID)).isSome with
    | true => rfl
    | false => rfl

/-- How many IDs the cursor passes before it is at `n`. -/
def ahead (next n : Nat) : Nat := if next ≤ n then n - next else n + kMaxGroupID - next

theorem ahead_following {next n : Nat} (pos : 1 ≤ n) (le : n ≤ kMaxGroupID)
    (next_le : next ≤ kMaxGroupID) (other : next ≠ n) :
    ahead (following next) n + 1 = ahead next n := by
  by_cases last : kMaxGroupID < next + 1
  · have wrapped : following next = 1 := if_pos last
    rw [wrapped, ahead, ahead, if_pos pos]
    split <;> omega
  · have moved : following next = next + 1 := if_neg last
    rw [moved, ahead, ahead]
    split <;> split <;> omega

theorem OK.advance (h : gm.OK) : gm.advance.OK := by
  have next_le := h.next_le
  have inside : 1 ≤ following gm.nextNewGroupID ∧ following gm.nextNewGroupID ≤ kMaxGroupID := by
    unfold following kMaxGroupID
    split <;> omega
  exact ⟨h.inverse, h.ids, h.strs, h.positive, inside.1, inside.2⟩

/-- A new ID is one that was not in use. -/
theorem newGroupStr_free (h : gm.OK) (room : gm.strToGroupID.length < kMaxGroupID) (pos : 1 ≤ n)
    (le : n ≤ kMaxGroupID) (free : gm.groupIDToStr.lookup (Int16.ofNat n) = none)
    (enough : ahead gm.nextNewGroupID n < fuel) :
    ∃ k next, 1 ≤ k ∧ k ≤ kMaxGroupID ∧ 1 ≤ next ∧ next ≤ kMaxGroupID ∧
      gm.str (Int16.ofNat k) = none ∧ newGroupStr groupStr fuel gm =
        .ok (Int16.ofNat k) (gm.added groupStr (Int16.ofNat k) next) := by
  induction fuel generalizing gm with
  | zero => exact absurd enough (Nat.not_lt_zero _)
  | succ fuel ih =>
    have ok := h.advance
    rw [newGroupStr_succ, if_neg (Nat.not_le.mpr room)]
    cases used : gm.groupIDToStr.lookup (Int16.ofNat gm.nextNewGroupID) with
    | none =>
      rw [if_neg (by simp)]
      refine ⟨gm.nextNewGroupID, _, h.next_pos, h.next_le, ok.next_pos, ok.next_le, ?_, rfl⟩
      rw [str, used]
      rfl
    | some v =>
      have other : gm.nextNewGroupID ≠ n := by
        rintro rfl
        rw [used] at free
        cases free
      have closer := ahead_following pos le h.next_le other
      rw [if_pos (by simp)]
      exact ih ok room free (Nat.lt_of_succ_lt_succ (closer.trans_lt enough))

/-- All IDs there are. -/
def allIDs : List Int16 := (List.range kMaxGroupID).map fun i => Int16.ofNat (i + 1)

theorem length_allIDs : allIDs.length = kMaxGroupID := by
  rw [allIDs, List.length_map, List.length_range]

theorem toInt_ofNat (le : n ≤ kMaxGroupID) : (Int16.ofNat n).toInt = n := by
  unfold kMaxGroupID at le
  exact Int16.toInt_ofNat_of_lt (by omega)

theorem nodup_allIDs : allIDs.Nodup := by
  apply List.Nodup.map_on _ List.nodup_range
  intro i hi j hj same
  have eq := congrArg Int16.toInt same
  rw [List.mem_range] at hi hj
  rw [toInt_ofNat (Nat.succ_le_of_lt hi), toInt_ofNat (Nat.succ_le_of_lt hj)] at eq
  omega

theorem mem_allIDs : gid ∈ allIDs ↔ ∃ n, 1 ≤ n ∧ n ≤ kMaxGroupID ∧ gid = Int16.ofNat n := by
  unfold allIDs
  simp only [List.mem_map, List.mem_range]
  constructor
  · rintro ⟨i, less, rfl⟩
    exact ⟨i + 1, Nat.le_add_left 1 i, less, rfl⟩
  · rintro ⟨n, pos, le, rfl⟩
    exact ⟨n - 1, by omega, by rw [Nat.sub_add_cancel pos]⟩

/-- All IDs in use are among them. -/
def Ranged (gm : GroupManager) : Prop := gm.groupIDToStr.map (·.1) ⊆ allIDs

theorem OK.length_eq (h : gm.OK) : gm.strToGroupID.length = (gm.groupIDToStr.map (·.1)).length := by
  rw [h.inverse, List.length_map, List.length_map]

theorem length_le (h : gm.OK) (ranged : gm.Ranged) : gm.strToGroupID.length ≤ kMaxGroupID := by
  rw [h.length_eq, ← length_allIDs]
  exact (h.ids.subperm ranged).length_le

theorem exists_free (h : gm.OK) (room : gm.strToGroupID.length < kMaxGroupID) :
    ∃ n, 1 ≤ n ∧ n ≤ kMaxGroupID ∧ gm.groupIDToStr.lookup (Int16.ofNat n) = none := by
  by_contra none
  have all : allIDs ⊆ gm.groupIDToStr.map (·.1) := by
    intro gid mem
    obtain ⟨n, pos, le, rfl⟩ := mem_allIDs.mp mem
    cases used : gm.groupIDToStr.lookup (Int16.ofNat n) with
    | none => exact absurd ⟨n, pos, le, used⟩ none
    | some v => exact List.mem_map.mpr ⟨_, Assoc.mem_of_lookup used, rfl⟩
  have le := (nodup_allIDs.subperm all).length_le
  rw [length_allIDs, ← h.length_eq] at le
  omega

/-- The search ends, with -1 if all IDs are in use. -/
theorem newGroupStr_ends (h : gm.OK) (ranged : gm.Ranged) (enough : kMaxGroupID < fuel) :
    (gm.strToGroupID.length = kMaxGroupID ∧ newGroupStr groupStr fuel gm = .ok (-1) gm) ∨
    gm.strToGroupID.length < kMaxGroupID ∧
      ∃ k next, 1 ≤ k ∧ k ≤ kMaxGroupID ∧ 1 ≤ next ∧ next ≤ kMaxGroupID ∧
        gm.str (Int16.ofNat k) = none ∧ newGroupStr groupStr fuel gm =
          .ok (Int16.ofNat k) (gm.added groupStr (Int16.ofNat k) next) := by
  have le := length_le h ranged
  by_cases room : gm.strToGroupID.length < kMaxGroupID
  · obtain ⟨n, pos, le, free⟩ := exists_free h room
    have near : ahead gm.nextNewGroupID n < fuel := by
      have next_pos := h.next_pos
      unfold ahead
      split <;> omega
    exact .inr ⟨room, newGroupStr_free h room pos le free near⟩
  · obtain ⟨fuel, rfl⟩ := Nat.exists_eq_add_one.mpr (Nat.zero_lt_of_lt enough)
    refine .inl ⟨by omega, ?_⟩
    rw [newGroupStr_succ, if_pos (Nat.not_lt.mp room)]

/-! ## Any sequence of calls -/

/-- A call and what came of it: the ID got, and whether there was one to increment. -/
inductive Call where
  | getGroupID (groupStr : String) (gid : Int16)
  | incGroupID (gid : Int16) (found : Bool)
  | decGroupID (gid : Int16)
  deriving DecidableEq, Repr

/-- The call incremented the count of `g`. -/
def Call.Incs (g : Int16) : Call → Prop
  | getGroupID _ gid => gid = g ∧ 0 < g
  | incGroupID gid found => gid = g ∧ found = true
  | decGroupID _ => False

def Call.Decs (g : Int16) : Call → Prop
  | getGroupID _ _ => False
  | incGroupID _ _ => False
  | decGroupID gid => gid = g

instance (g : Int16) : DecidablePred (Call.Incs g)
  | .getGroupID gid _ => by unfold Call.Incs; infer_instance
  | .incGroupID _ _ => by unfold Call.Incs; infer_instance
  | .decGroupID _ => by unfold Call.Incs; infer_instance

instance (g : Int16) : DecidablePred (Call.Decs g)
  | .getGroupID gid _ => by unfold Call.Decs; infer_instance
  | .incGroupID _ _ => by unfold Call.Decs; infer_instance
  | .decGroupID _ => by unfold Call.Decs; infer_instance

def increments (hist : List Call) (g : Int16) : Nat := hist.countP (Call.Incs g)
def decrements (hist : List Call) (g : Int16) : Nat := hist.countP (Call.Decs g)

/-- The calls so far. Each `DecGroupID` undoes an increment before it. -/
inductive Called : List Call → GroupManager → Prop where
  | new : Called [] {}
  | getGroupID {hist gm groupStr gid gm'} (before : Called hist gm) (nonempty : groupStr ≠ "")
      (ret : GroupManager.getGroupID groupStr gm = .ok gid gm') :
      Called (hist ++ [.getGroupID groupStr gid]) gm'
  | incGroupID {hist gm} (before : Called hist gm) (gid : Int16) :
      Called (hist ++ [.incGroupID gid (gm.str gid).isSome]) (gm.incGroupID gid)
  | decGroupID {hist gm gid gm'} (before : Called hist gm)
      (undoes : decrements hist gid < increments hist gid)
      (ret : GroupManager.decGroupID gid gm = .ok () gm') :
      Called (hist ++ [.decGroupID gid]) gm'

/-- At no time had a group 2^31 increments more than decrements. -/
def Within (hist : List Call) : Prop :=
  ∀ calls, calls <+: hist → ∀ g, increments calls g < decrements calls g + 2 ^ 31

/-- The maps name each other's entries, by IDs in range with counts of at least
one, which are the calls' increments less the decrements. -/
structure Counted (hist : List Call) (gm : GroupManager) : Prop where
  ok : gm.OK
  ranged : gm.Ranged
  count : ∀ g, gm.count g + decrements hist g = increments hist g
  live : ∀ g, gm.str g ≠ none → 1 ≤ gm.count g

section
variable {hist : List Call}

theorem increments_snoc (call : Call) (g : Int16) :
    increments (hist ++ [call]) g = increments hist g + if call.Incs g then 1 else 0 := by
  rw [increments, List.countP_append, List.countP_singleton]
  simp only [decide_eq_true_eq]
  rfl

theorem decrements_snoc (call : Call) (g : Int16) :
    decrements (hist ++ [call]) g = decrements hist g + if call.Decs g then 1 else 0 := by
  rw [decrements, List.countP_append, List.countP_singleton]
  simp only [decide_eq_true_eq]
  rfl

theorem Within.init {call : Call} (within : Within (hist ++ [call])) : Within hist :=
  fun calls before => within calls (before.trans (List.prefix_append hist [call]))

theorem Within.now (within : Within hist) (g : Int16) :
    increments hist g < decrements hist g + 2 ^ 31 :=
  within hist (List.prefix_refl hist) g

/-- So many calls are too few. -/
theorem within_of_length (few : hist.length < 2 ^ 31) : Within hist := by
  intro calls before g
  have counted : increments calls g ≤ calls.length := List.countP_le_length
  have shorter := before.length_le
  omega

theorem Ranged.recount (h : gm.Ranged) (f : Int → Int) : (gm.recount gid f).Ranged := by
  unfold Ranged
  rw [groupIDToStr_recount, List.map_map]
  exact h

theorem Ranged.released (h : gm.Ranged) (gid : Int16) (groupStr : String) (count : Int) :
    (gm.released gid groupStr count).Ranged := by
  unfold GroupManager.released
  split
  · exact List.Subset.trans (List.filter_sublist.map _).subset (h.recount _)
  · exact h.recount _

theorem Counted.new : Counted [] {} where
  ok := .new
  ranged := List.nil_subset _
  count _ := rfl
  live _ known := absurd rfl known

/-- A live group has one member more. -/
theorem Counted.recount (h : Counted hist gm) (known : gm.str gid ≠ none) (call : Call)
    (within : Within (hist ++ [call])) (incs : ∀ g, call.Incs g ↔ g = gid)
    (decs : ∀ g, ¬ call.Decs g) :
    Counted (hist ++ [call]) (gm.recount gid fun n => toCount (n + 1)) := by
  have counts (g : Int16) : (gm.recount gid fun n => toCount (n + 1)).count g =
      gm.count g + if g = gid then 1 else 0 := by
    rw [count_recount _ known]
    split
    · rename_i here
      subst here
      have before := h.count g
      have live := h.live g known
      have small := within.now g
      rw [increments_snoc, decrements_snoc, if_neg (decs g), if_pos ((incs g).mpr rfl)] at small
      exact toCount_eq (by omega) (by omega)
    · rw [Int.add_zero]
  constructor
  case ok => exact h.ok.recount _
  case ranged => exact h.ranged.recount _
  case count =>
    intro g
    have before := h.count g
    rw [counts, increments_snoc, decrements_snoc, if_neg (decs g)]
    simp only [incs]
    split <;> omega
  case live =>
    intro g known'
    rw [str_recount] at known'
    have some := h.live g known'
    rw [counts]
    split <;> omega

/-- The call changes nothing. -/
theorem Counted.same (h : Counted hist gm) (call : Call) (incs : ∀ g, ¬ call.Incs g)
    (decs : ∀ g, ¬ call.Decs g) : Counted (hist ++ [call]) gm where
  ok := h.ok
  ranged := h.ranged
  count g := by
    rw [increments_snoc, decrements_snoc, if_neg (incs g), if_neg (decs g)]
    exact h.count g
  live := h.live

/-- What `GetGroupID` returns: the ID of a live string, none if all are in use, or
one that was not in use. -/
theorem Counted.getGroupID_eq (h : Counted hist gm) (nonempty : groupStr ≠ "") :
    (∃ gid, gm.strToGroupID.lookup groupStr = some gid ∧
      getGroupID groupStr gm = .ok gid (gm.recount gid fun n => toCount (n + 1))) ∨
    gm.strToGroupID.lookup groupStr = none ∧ (gm.strToGroupID.length = kMaxGroupID ∧
      getGroupID groupStr gm = .ok (-1) gm ∨
    gm.strToGroupID.length < kMaxGroupID ∧ ∃ k next, 1 ≤ k ∧ k ≤ kMaxGroupID ∧ 1 ≤ next ∧
      next ≤ kMaxGroupID ∧ gm.str (Int16.ofNat k) = none ∧ getGroupID groupStr gm =
        .ok (Int16.ofNat k) ((gm.added groupStr (Int16.ofNat k) next).recount (Int16.ofNat k)
          fun n => toCount (n + 1))) := by
  unfold getGroupID
  simp only [if_neg nonempty, Effect.get_bind_eq]
  cases found : gm.strToGroupID.lookup groupStr with
  | some gid => exact .inl ⟨gid, rfl, rfl⟩
  | none =>
    refine .inr ⟨rfl, ?_⟩
    rcases @newGroupStr_ends gm groupStr (kMaxGroupID + 1) h.ok h.ranged (Nat.lt_succ_self _) with
      ⟨full, ret⟩ | ⟨room, k, next, pos, le, next_pos, next_le, free, ret⟩
    · refine .inl ⟨full, ?_⟩
      have unknown : gm.str (-1) = none := h.ok.str_eq_none (by decide)
      have same := recount_of_unknown unknown fun n => toCount (n + 1)
      simp only [bind, EStateM.bind, ret]
      exact congrArg (EStateM.Result.ok (-1)) same
    · refine .inr ⟨room, k, next, pos, le, next_pos, next_le, free, ?_⟩
      simp only [bind, EStateM.bind, ret]
      rfl

/-- A new group has one member. -/
theorem Counted.added (h : Counted hist gm) {k next : Nat} (pos : 1 ≤ k) (le : k ≤ kMaxGroupID)
    (next_pos : 1 ≤ next) (next_le : next ≤ kMaxGroupID) (free : gm.str (Int16.ofNat k) = none)
    (unknown : gm.strToGroupID.lookup groupStr = none) :
    Counted (hist ++ [.getGroupID groupStr (Int16.ofNat k)])
      ((gm.added groupStr (Int16.ofNat k) next).recount (Int16.ofNat k)
        fun n => toCount (n + 1)) := by
  have one : toCount (0 + 1) = 1 := by decide
  have id_pos := ofNat_pos pos le
  have lookup (g : Int16) := lookup_added groupStr g free next
  have known : (gm.added groupStr (Int16.ofNat k) next).str (Int16.ofNat k) ≠ none := by
    rw [str, lookup, if_pos rfl]
    exact Option.some_ne_none _
  have counts (g : Int16) : (gm.added groupStr (Int16.ofNat k) next).count g = gm.count g := by
    rw [GroupManager.count, lookup]
    split
    · rename_i here
      rw [here, count_of_unknown free]
      rfl
    · rfl
  constructor
  case ok => exact (h.ok.added id_pos free unknown next_pos next_le).recount _
  case ranged =>
    apply Ranged.recount
    rw [Ranged, GroupManager.added, List.map_append]
    apply List.append_subset.mpr
    constructor
    · exact h.ranged
    · intro gid mem
      rw [List.map_singleton, List.mem_singleton] at mem
      exact mem_allIDs.mpr ⟨k, pos, le, mem⟩
  case count =>
    intro g
    have before := h.count g
    have kept : ¬ (Call.getGroupID groupStr (Int16.ofNat k)).Decs g := id
    rw [count_recount _ known, counts, increments_snoc, decrements_snoc, if_neg kept]
    by_cases here : g = Int16.ofNat k
    · rw [here, count_of_unknown free] at before ⊢
      rw [if_pos rfl, if_pos ⟨rfl, id_pos⟩, one]
      omega
    · rw [if_neg here, if_neg fun incs => here incs.1.symm]
      omega
  case live =>
    intro g live
    rw [str_recount, str, lookup] at live
    rw [count_recount _ known, counts]
    by_cases here : g = Int16.ofNat k
    · rw [if_pos here, here, count_of_unknown free, one]
    · rw [if_neg here] at live ⊢
      exact h.live g live

theorem Counted.decGroupID (h : Counted hist gm) (within : Within hist)
    (undoes : decrements hist gid < increments hist gid) :
    ∃ gm', GroupManager.decGroupID gid gm = .ok () gm' ∧
      Counted (hist ++ [.decGroupID gid]) gm' := by
  have members := h.count gid
  have room := within.now gid
  obtain ⟨⟨str, c⟩, found⟩ : ∃ v, gm.groupIDToStr.lookup gid = some v := by
    cases eq : gm.groupIDToStr.lookup gid with
    | some v => exact ⟨v, rfl⟩
    | none =>
      rw [count_of_unknown (by rw [GroupManager.str, eq]; rfl)] at members
      omega
  have here := count_of_found found
  have pos : 1 ≤ c := by omega
  have small : c < 2 ^ 31 := by omega
  have counts := count_released found pos small
  refine ⟨_, decGroupID_eq found pos small, ?_⟩
  constructor
  case ok => exact h.ok.released found
  case ranged => exact h.ranged.released gid str c
  case count =>
    intro g
    have before := h.count g
    have kept : ¬ (Call.decGroupID gid).Incs g := id
    have undo : (Call.decGroupID gid).Decs g ↔ g = gid := eq_comm
    rw [counts, increments_snoc, decrements_snoc, if_neg kept]
    simp only [undo]
    split <;> omega
  case live =>
    intro g live
    rw [str_released] at live
    split at live
    · exact absurd rfl live
    · rename_i more
      have some := h.live g live
      rw [counts]
      split
      · rename_i same
        rw [same, here] at some ⊢
        have : c ≠ 1 := fun last => more ⟨last, same⟩
        omega
      · omega

theorem Called.counted (run : Called hist gm) (within : Within hist) : Counted hist gm := by
  induction run with
  | new => exact .new
  | getGroupID _ nonempty ret ih =>
    have ih := ih within.init
    rcases ih.getGroupID_eq nonempty with ⟨gid, found, eq⟩ |
      ⟨unknown, ⟨-, eq⟩ | ⟨-, k, next, pos, le, next_pos, next_le, free, eq⟩⟩
    · have known := ih.ok.str_of_lookup found
      have pos : 0 < gid := by
        by_contra low
        rw [ih.ok.str_eq_none (Int16.not_lt.mp low)] at known
        cases known
      cases ret.symm.trans eq
      apply ih.recount (known ▸ Option.some_ne_none _) _ within _ fun g => id
      intro g
      constructor
      · exact fun incs => incs.1.symm
      · rintro rfl
        exact ⟨rfl, pos⟩
    · cases ret.symm.trans eq
      apply ih.same _ _ fun g => id
      rintro g ⟨rfl, pos⟩
      exact absurd pos (by decide)
    · cases ret.symm.trans eq
      exact ih.added pos le next_pos next_le free unknown
  | @incGroupID _ gm _ gid ih =>
    have ih := ih within.init
    cases known : gm.str gid with
    | none =>
      have same : gm.incGroupID gid = gm := recount_of_unknown known fun n => toCount (n + 1)
      rw [same]
      exact ih.same _ (fun g incs => Bool.false_ne_true incs.2) fun g => id
    | some s =>
      rw [known] at within
      apply ih.recount (known ▸ Option.some_ne_none s) _ within _ fun g => id
      exact fun g => ⟨fun incs => incs.1.symm, fun here => ⟨here.symm, rfl⟩⟩
  | decGroupID _ undoes ret ih =>
    obtain ⟨gm', eq, counted⟩ := (ih within.init).decGroupID within.init undoes
    cases ret.symm.trans eq
    exact counted

/-- The two maps are each other's inverse, the counts are the calls', and a new
string gets an ID with no increments left, as long as there is one. -/
structure Bijection (hist : List Call) (gm : GroupManager) : Prop where
  strs : (gm.strToGroupID.map (·.1)).Nodup
  ids : (gm.groupIDToStr.map (·.1)).Nodup
  inverse : ∀ groupStr gid,
    gm.strToGroupID.lookup groupStr = some gid ↔ gm.str gid = some groupStr
  range : ∀ gid, gm.str gid ≠ none → 1 ≤ gid.toInt ∧ gid.toInt ≤ 9999
  count : ∀ gid, gm.str gid ≠ none →
    gm.count gid = increments hist gid - decrements hist gid ∧ 1 ≤ gm.count gid
  reusable : ∀ gid, gm.str gid = none → increments hist gid = decrements hist gid
  live : ∀ groupStr gid, groupStr ≠ "" → gm.strToGroupID.lookup groupStr = some gid →
    ∃ gm', GroupManager.getGroupID groupStr gm = .ok gid gm'
  fresh : ∀ groupStr, groupStr ≠ "" → gm.strToGroupID.lookup groupStr = none →
    ∃ gid gm', GroupManager.getGroupID groupStr gm = .ok gid gm' ∧
      (gid = -1 ↔ gm.strToGroupID.length = 9999) ∧ gm.str gid = none
  undone : ∀ gid, decrements hist gid < increments hist gid →
    ∃ gm', GroupManager.decGroupID gid gm = .ok () gm'
  ends : ∀ groupStr fuel, 9999 < fuel → ∃ gid gm', newGroupStr groupStr fuel gm = .ok gid gm' ∧
    (gid = -1 ↔ gm.strToGroupID.length = 9999)

theorem ofNat_ne_neg_one (le : n ≤ kMaxGroupID) : Int16.ofNat n ≠ -1 := by
  intro same
  have eq := congrArg Int16.toInt same
  rw [toInt_ofNat le] at eq
  have negative : (-1 : Int16).toInt = -1 := rfl
  omega

/-- Group IDs are given out one to one and counted, whatever is called. -/
theorem Called.bijection (run : Called hist gm) (within : Within hist) : Bijection hist gm := by
  have h := run.counted within
  constructor
  case strs => exact h.ok.strs
  case ids => exact h.ok.ids
  case inverse =>
    intro groupStr gid
    constructor
    · exact h.ok.str_of_lookup
    · intro named
      obtain ⟨⟨s, c⟩, found, rfl⟩ := Option.map_eq_some_iff.mp named
      apply Assoc.lookup_of_mem h.ok.strs
      rw [h.ok.inverse]
      exact List.mem_map.mpr ⟨_, Assoc.mem_of_lookup found, rfl⟩
  case range =>
    intro gid known
    cases found : gm.groupIDToStr.lookup gid with
    | none => exact absurd (by rw [str, found]; rfl) known
    | some v =>
      obtain ⟨n, pos, le, rfl⟩ := mem_allIDs.mp
        (h.ranged (List.mem_map.mpr ⟨_, Assoc.mem_of_lookup found, rfl⟩))
      rw [toInt_ofNat le]
      unfold kMaxGroupID at le
      omega
  case count =>
    intro gid known
    have eq := h.count gid
    exact ⟨by omega, h.live gid known⟩
  case reusable =>
    intro gid unknown
    have eq := h.count gid
    rw [count_of_unknown unknown] at eq
    omega
  case live =>
    intro groupStr gid nonempty found
    rcases h.getGroupID_eq nonempty with ⟨gid', found', eq⟩ | ⟨unknown, -⟩
    · cases found.symm.trans found'
      exact ⟨_, eq⟩
    · cases found.symm.trans unknown
  case fresh =>
    intro groupStr nonempty unknown
    rcases h.getGroupID_eq nonempty with ⟨gid', found, -⟩ |
      ⟨-, ⟨full, eq⟩ | ⟨room, k, next, pos, le, -, -, free, eq⟩⟩
    · cases found.symm.trans unknown
    · exact ⟨-1, _, eq, iff_of_true rfl full, h.ok.str_eq_none (by decide)⟩
    · exact ⟨_, _, eq, iff_of_false (ofNat_ne_neg_one le) (Nat.ne_of_lt room), free⟩
  case undone =>
    intro gid undoes
    obtain ⟨gm', eq, -⟩ := h.decGroupID within undoes
    exact ⟨gm', eq⟩
  case ends =>
    intro groupStr fuel enough
    rcases @newGroupStr_ends gm groupStr fuel h.ok h.ranged enough with
      ⟨full, eq⟩ | ⟨room, k, next, -, le, -, -, -, eq⟩
    · exact ⟨-1, _, eq, iff_of_true rfl full⟩
    · exact ⟨_, _, eq, iff_of_false (ofNat_ne_neg_one le) (Nat.ne_of_lt room)⟩

/-- A group of two members, one of which leaves. -/
theorem bijection_shared : Bijection
    ((([] ++ [.getGroupID "sonar" 1]) ++ [.incGroupID 1 true]) ++ [.decGroupID 1])
    { nextNewGroupID := 2, strToGroupID := [("sonar", 1)], groupIDToStr := [(1, "sonar", 1)] } :=
  have got : Called [.getGroupID "sonar" 1]
      { nextNewGroupID := 2, strToGroupID := [("sonar", 1)], groupIDToStr := [(1, "sonar", 1)] } :=
    .getGroupID .new (by decide) rfl
  Called.bijection (.decGroupID (.incGroupID got 1) (by decide) rfl)
    (within_of_length (by decide))

/-- The group "sonar" with so many members. -/
def sonar (count : Int) : GroupManager where
  nextNewGroupID := 2
  strToGroupID := [("sonar", 1)]
  groupIDToStr := [(1, "sonar", count)]

theorem called_sonar (n : Nat) : ∃ hist, Called hist (sonar (toCount (n + 1))) := by
  induction n with
  | zero =>
    have first : GroupManager.getGroupID "sonar" {} = .ok 1 (sonar (toCount (0 + 1))) := rfl
    exact ⟨_, .getGroupID .new (by decide) first⟩
  | succ n ih =>
    obtain ⟨hist, called⟩ := ih
    have again : (sonar (toCount (n + 1))).incGroupID 1 = sonar (toCount ((n + 1 : Nat) + 1)) := by
      have wraps : toCount (toCount (n + 1) + 1) = toCount ((n + 1 : Nat) + 1) := by
        rw [toCount, toCount, toCount, Int.bmod_add_bmod, Nat.cast_succ]
      rw [← wraps]
      rfl
    have next := Called.incGroupID called 1
    rw [again] at next
    exact ⟨_, next⟩

/-- A group with 2^31 members has a negative count. -/
theorem not_bijection : ¬ ∀ hist gm, Called hist gm → Bijection hist gm := by
  intro all
  obtain ⟨hist, called⟩ := called_sonar (2 ^ 31 - 1)
  have count := ((all _ _ called).count 1 (Option.some_ne_none _)).2
  exact absurd count (by decide)

end

end GroupManager
end Mcsb
