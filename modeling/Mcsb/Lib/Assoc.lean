import Mathlib.Data.List.Nodup

/-!
# Association lists with distinct keys

What a lookup finds after an entry is added, changed or removed.
-/

namespace Assoc

variable {α β : Type} [DecidableEq α] {l : List (α × β)} {k : α} {v : β}

theorem mem_of_lookup (h : l.lookup k = some v) : (k, v) ∈ l := by
  obtain ⟨l₁, l₂, rfl, -⟩ := List.lookup_eq_some_iff.mp h
  exact List.mem_append_right _ List.mem_cons_self

/-- A key that is listed has an entry. -/
theorem lookup_of_key (known : k ∈ l.map (·.1)) (default : β) :
    l.lookup k = some ((l.lookup k).getD default) := by
  obtain ⟨entry, mem, rfl⟩ := List.mem_map.mp known
  cases found : l.lookup entry.1 with
  | none => simpa using List.lookup_eq_none_iff.mp found entry mem
  | some v => rfl

theorem lookup_of_mem (keys : (l.map (·.1)).Nodup) (mem : (k, v) ∈ l) : l.lookup k = some v := by
  induction l with
  | nil => cases mem
  | cons entry l ih =>
    obtain ⟨notin, keys⟩ := List.nodup_cons.mp keys
    rcases List.mem_cons.mp mem with here | later
    · subst here
      exact List.lookup_cons_self
    · have ne : k ≠ entry.1 := fun e => notin (List.mem_map.mpr ⟨(k, v), later, e⟩)
      rw [List.lookup_cons, beq_eq_false_iff_ne.mpr ne]
      exact ih keys later

theorem lookup_eq_some_iff (keys : (l.map (·.1)).Nodup) : l.lookup k = some v ↔ (k, v) ∈ l :=
  ⟨mem_of_lookup, lookup_of_mem keys⟩

omit [DecidableEq α] in
theorem lookup_map_value [BEq α] [LawfulBEq α] (f : α → β → β) :
    (l.map fun (k, v) => (k, f k v)).lookup k = (l.lookup k).map (f k) := by
  induction l with
  | nil => rfl
  | cons entry l ih =>
    rw [List.map_cons, List.lookup_cons, List.lookup_cons, ih]
    cases same : k == entry.1 with
    | true => rw [eq_of_beq same]; rfl
    | false => rfl

theorem lookup_filter (p : α → Prop) [DecidablePred p] (l : List (α × β)) (k : α) :
    (l.filter fun entry => decide (p entry.1)).lookup k = if p k then l.lookup k else none := by
  induction l with
  | nil => simp
  | cons entry l ih =>
    by_cases kept : p entry.1
    · rw [List.filter_cons_of_pos (by simp [kept]), List.lookup_cons, List.lookup_cons, ih]
      by_cases here : k = entry.1
      · simp [here, kept]
      · simp [beq_eq_false_iff_ne.mpr here]
    · rw [List.filter_cons_of_neg (by simp [kept]), ih, List.lookup_cons]
      by_cases here : k = entry.1
      · simp [here, kept]
      · simp [beq_eq_false_iff_ne.mpr here]

theorem lookup_filter_ne (l : List (α × β)) (g k : α) :
    (l.filter fun entry => decide (entry.1 ≠ g)).lookup k = if k = g then none else l.lookup k := by
  rw [lookup_filter (· ≠ g) l k]
  exact ite_not ..

/-- One entry and the others. -/
theorem perm_filter_ne (keys : (l.map (·.1)).Nodup) (found : l.lookup k = some v) :
    l.Perm ((k, v) :: l.filter fun entry => decide (entry.1 ≠ k)) := by
  induction l with
  | nil => cases found
  | cons entry l ih =>
    obtain ⟨notin, keys⟩ := List.nodup_cons.mp keys
    by_cases here : k = entry.1
    · subst here
      rw [List.lookup_cons_self, Option.some.injEq] at found
      subst found
      rw [List.filter_cons_of_neg (by simp), List.filter_eq_self.mpr]
      intro other mem
      simp only [decide_eq_true_eq]
      exact fun same => notin (List.mem_map.mpr ⟨other, mem, same⟩)
    · rw [List.lookup_cons, beq_eq_false_iff_ne.mpr here] at found
      rw [List.filter_cons_of_pos (by simp [Ne.symm here])]
      exact ((ih keys found).cons entry).trans (List.Perm.swap ..)

omit [DecidableEq α] in
theorem nodup_keys_filter (p : α × β → Bool) (keys : (l.map (·.1)).Nodup) :
    ((l.filter p).map (·.1)).Nodup :=
  keys.sublist (List.filter_sublist.map _)

theorem nodup_keys_put (v : β) (keys : (l.map (·.1)).Nodup) :
    (((k, v) :: l.filter fun entry => decide (entry.1 ≠ k)).map (·.1)).Nodup := by
  apply List.nodup_cons.mpr
  constructor
  · intro mem
    obtain ⟨entry, kept, same⟩ := List.mem_map.mp mem
    exact (of_decide_eq_true (List.mem_filter.mp kept).2) same
  · exact nodup_keys_filter _ keys

end Assoc
