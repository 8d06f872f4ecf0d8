import Mcsb.Lib.Assoc
import Mathlib.Order.RelClasses
import Mathlib.Algebra.GroupWithZero.Nat
import Mathlib.Algebra.Order.BigOperators.Group.List

/-!
# Maps kept in the order of their keys

Entries with increasing keys. Every change parts the entries at its key.
-/

/-- A map from keys to values, in the order of the keys. -/
structure SortedMap (α β : Type) [LT α] where
  entries : List (α × β) := []
  sorted : (entries.map (·.1)).Pairwise (· < ·) := by exact .nil
  deriving DecidableEq, Repr

namespace SortedMap

variable {α β : Type} [LT α]

def keys (t : SortedMap α β) : List α := t.entries.map (·.1)

def find [BEq α] (t : SortedMap α β) (k : α) : Option β := t.entries.lookup k

theorem mem_keys [DecidableEq α] {t : SortedMap α β} {k : α} : k ∈ t.keys ↔ t.find k ≠ none := by
  rw [find, ne_eq, List.lookup_eq_none_iff]
  simp [keys]

variable [DecidableLT α]

def below (t : SortedMap α β) (k : α) : List (α × β) := t.entries.filter (·.1 < k)

def above (t : SortedMap α β) (k : α) : List (α × β) := t.entries.filter (k < ·.1)

theorem sorted_below (t : SortedMap α β) (k : α) : ((t.below k).map (·.1)).Pairwise (· < ·) :=
  t.sorted.sublist (List.filter_sublist.map _)

theorem sorted_above (t : SortedMap α β) (k : α) : ((t.above k).map (·.1)).Pairwise (· < ·) :=
  t.sorted.sublist (List.filter_sublist.map _)

theorem lt_of_mem_below {t : SortedMap α β} {k x : α} (h : x ∈ (t.below k).map (·.1)) : x < k := by
  obtain ⟨e, mem, rfl⟩ := List.mem_map.mp h
  exact of_decide_eq_true (List.mem_filter.mp mem).2

theorem lt_of_mem_above {t : SortedMap α β} {k x : α} (h : x ∈ (t.above k).map (·.1)) : k < x := by
  obtain ⟨e, mem, rfl⟩ := List.mem_map.mp h
  exact of_decide_eq_true (List.mem_filter.mp mem).2

theorem lookup_below [DecidableEq α] (t : SortedMap α β) (k x : α) :
    (t.below k).lookup x = if x < k then t.find x else none :=
  Assoc.lookup_filter (· < k) t.entries x

theorem lookup_above [DecidableEq α] (t : SortedMap α β) (k x : α) :
    (t.above k).lookup x = if k < x then t.find x else none :=
  Assoc.lookup_filter (k < ·) t.entries x

variable [IsStrictTotalOrder α (· < ·)]

/-- The map with this value at the key. -/
def put (t : SortedMap α β) (k : α) (v : β) : SortedMap α β where
  entries := t.below k ++ (k, v) :: t.above k
  sorted := by
    rw [List.map_append, List.map_cons, List.pairwise_append, List.pairwise_cons]
    refine ⟨t.sorted_below k, ⟨fun _ => lt_of_mem_above, t.sorted_above k⟩, ?_⟩
    intro a ha b hb
    rcases List.mem_cons.mp hb with rfl | hb
    · exact lt_of_mem_below ha
    · exact trans_of (· < ·) (lt_of_mem_below ha) (lt_of_mem_above hb)

/-- The map without the key. -/
def erase (t : SortedMap α β) (k : α) : SortedMap α β where
  entries := t.below k ++ t.above k
  sorted := by
    rw [List.map_append, List.pairwise_append]
    refine ⟨t.sorted_below k, t.sorted_above k, ?_⟩
    intro a ha b hb
    exact trans_of (· < ·) (lt_of_mem_below ha) (lt_of_mem_above hb)

variable [DecidableEq α] {t : SortedMap α β} {k : α} {v : β}

theorem find_put (t : SortedMap α β) (k x : α) (v : β) :
    (t.put k v).find x = if x = k then some v else t.find x := by
  rw [find, put, List.lookup_append, List.lookup_cons, lookup_below, lookup_above]
  rcases trichotomous_of (· < ·) x k with lt | rfl | lt
  · have ne : x ≠ k := fun e => irrefl_of (· < ·) k (e ▸ lt)
    have not : ¬ k < x := asymm_of (· < ·) lt
    simp [lt, ne, not, beq_eq_false_iff_ne.mpr ne]
  · simp [irrefl_of (· < ·) x]
  · have ne : x ≠ k := fun e => irrefl_of (· < ·) k (e ▸ lt)
    have not : ¬ x < k := asymm_of (· < ·) lt
    simp [lt, ne, not, beq_eq_false_iff_ne.mpr ne]

theorem find_erase (t : SortedMap α β) (k x : α) :
    (t.erase k).find x = if x = k then none else t.find x := by
  rw [find, erase, List.lookup_append, lookup_below, lookup_above]
  rcases trichotomous_of (· < ·) x k with lt | rfl | lt
  · have ne : x ≠ k := fun e => irrefl_of (· < ·) k (e ▸ lt)
    have not : ¬ k < x := asymm_of (· < ·) lt
    simp [lt, ne, not]
  · simp [irrefl_of (· < ·) x]
  · have ne : x ≠ k := fun e => irrefl_of (· < ·) k (e ▸ lt)
    have not : ¬ x < k := asymm_of (· < ·) lt
    simp [lt, ne, not]

/-- An entry found parts the entries. -/
theorem entries_of_find (h : t.find k = some v) : t.entries = t.below k ++ (k, v) :: t.above k := by
  obtain ⟨entries, sorted⟩ := t
  unfold find below above at *
  dsimp only at *
  induction entries with
  | nil => cases h
  | cons e entries ih =>
    obtain ⟨x, w⟩ := e
    rw [List.map_cons, List.pairwise_cons] at sorted
    rw [List.lookup_cons] at h
    by_cases here : k = x
    · subst here
      rw [beq_self_eq_true] at h
      cases h
      have later (e) (mem : e ∈ entries) : k < e.1 := sorted.1 _ (List.mem_map.mpr ⟨e, mem, rfl⟩)
      have none_below : entries.filter (·.1 < k) = [] := by
        rw [List.filter_eq_nil_iff]
        intro e mem
        simpa using asymm_of (· < ·) (later e mem)
      have all_above : entries.filter (k < ·.1) = entries := by
        rw [List.filter_eq_self]
        intro e mem
        simpa using later e mem
      simp [irrefl_of (· < ·) k, none_below, all_above]
    · rw [beq_eq_false_iff_ne.mpr here] at h
      have mem := Assoc.mem_of_lookup h
      have lt : x < k := sorted.1 _ (List.mem_map.mpr ⟨_, mem, rfl⟩)
      have not : ¬ k < x := asymm_of (· < ·) lt
      have rest := ih sorted.2 h
      simp only [List.filter_cons, lt, not, decide_true, decide_false, if_true, List.cons_append]
      exact congrArg ((x, w) :: ·) rest

/-! ## Totals -/

/-- The sum of what the entries weigh. -/
def total (weight : β → Nat) (t : SortedMap α β) : Nat := (t.entries.map (weight ·.2)).sum

theorem total_put (weight : β → Nat) (h : t.find k = some v) (w : β) :
    (t.put k w).total weight + weight v = t.total weight + weight w := by
  have parted := entries_of_find h
  rw [total, total, put]
  conv_rhs => rw [parted]
  simp only [List.map_append, List.map_cons, List.sum_append, List.sum_cons]
  omega

theorem total_erase (weight : β → Nat) (h : t.find k = some v) :
    (t.erase k).total weight + weight v = t.total weight := by
  have parted := entries_of_find h
  rw [total, total, erase]
  conv_rhs => rw [parted]
  simp only [List.map_append, List.map_cons, List.sum_append, List.sum_cons]
  omega

end SortedMap
