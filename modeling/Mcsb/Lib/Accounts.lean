import Mathlib.Algebra.BigOperators.Group.List.Basic
import Mathlib.Algebra.GroupWithZero.Nat
import Mathlib.Data.List.Nodup
import Mathlib.Data.List.Perm.Basic

/-!
# Accounts

What a list of distinct holders has in total, when one of them changes, comes
or goes. Totals are compared by adding what left, so that nothing is subtracted.
-/

namespace Accounts

variable {α β : Type} [DecidableEq α] {holders : List α} {c : α}

/-- One holder's share changes. -/
theorem sum_change (nodup : holders.Nodup) (mem : c ∈ holders) {f g : α → Nat}
    (same : ∀ x, x ≠ c → g x = f x) :
    (holders.map g).sum + f c = (holders.map f).sum + g c := by
  induction holders with
  | nil => cases mem
  | cons x xs ih =>
    obtain ⟨notin, nodup⟩ := List.nodup_cons.mp nodup
    simp only [List.map_cons, List.sum_cons]
    by_cases here : x = c
    · subst here
      have rest : xs.map g = xs.map f :=
        List.map_congr_left fun y hy => same y fun e => notin (e ▸ hy)
      rw [rest]
      omega
    · have := ih nodup ((List.mem_cons.mp mem).resolve_left (Ne.symm here))
      rw [same x here]
      omega

omit [DecidableEq α] in
theorem sum_same (notin : c ∉ holders) {f g : α → Nat} (same : ∀ x, x ≠ c → g x = f x) :
    (holders.map g).sum = (holders.map f).sum := by
  rw [List.map_congr_left fun y hy => same y fun e => notin (e ▸ hy)]

theorem sum_erase (mem : c ∈ holders) (f : α → Nat) :
    ((holders.erase c).map f).sum + f c = (holders.map f).sum := by
  have := ((List.perm_cons_erase mem).map f).sum_eq
  simp only [List.map_cons, List.sum_cons] at this
  omega

theorem le_sum (mem : c ∈ holders) (f : α → Nat) : f c ≤ (holders.map f).sum := by
  have := sum_erase mem f
  omega

/-- One holder's things change. -/
theorem flatMap_change (nodup : holders.Nodup) (mem : c ∈ holders) {f g : α → List β}
    (same : ∀ x, x ≠ c → g x = f x) :
    (holders.flatMap g ++ f c).Perm (holders.flatMap f ++ g c) := by
  induction holders with
  | nil => cases mem
  | cons x xs ih =>
    obtain ⟨notin, nodup⟩ := List.nodup_cons.mp nodup
    simp only [List.flatMap_cons, List.append_assoc]
    by_cases here : x = c
    · subst here
      have rest : xs.flatMap g = xs.flatMap f :=
        List.flatMap_congr fun y hy => same y fun e => notin (e ▸ hy)
      rw [rest]
      refine List.perm_append_comm.trans ?_
      rw [List.append_assoc]
      exact List.perm_append_comm_assoc _ _ _
    · rw [same x here]
      exact (ih nodup ((List.mem_cons.mp mem).resolve_left (Ne.symm here))).append_left _

theorem flatMap_erase (mem : c ∈ holders) (f : α → List β) :
    ((holders.erase c).flatMap f ++ f c).Perm (holders.flatMap f) := by
  have := (List.perm_cons_erase mem).flatMap_right f
  rw [List.flatMap_cons] at this
  exact List.perm_append_comm.trans this.symm

omit [DecidableEq α] in
/-- The holders below a number have no more than there is. -/
theorem sum_filter_le (holder : β → Nat) (things : List β) (n : Nat) :
    ((List.range n).map fun s => (things.filter (holder · = s)).length).sum ≤ things.length := by
  have below : ((List.range n).map fun s => (things.filter (holder · = s)).length).sum =
      (things.filter (holder · < n)).length := by
    induction n with
    | zero => simp
    | succ n ih =>
      have split : (things.filter (holder · < n + 1)).length =
          (things.filter (holder · < n)).length + (things.filter (holder · = n)).length := by
        simp only [← List.countP_eq_length_filter]
        clear ih
        induction things with
        | nil => rfl
        | cons x things ih =>
          simp only [List.countP_cons, decide_eq_true_eq]
          split_ifs <;> omega
      rw [List.range_succ, List.map_append, List.sum_append, ih, split]
      simp
  rw [below]
  exact List.length_filter_le _ _

theorem count_cons (c x : α) (l : List α) :
    (c :: l).count x = (if x = c then 1 else 0) + l.count x := by
  rw [List.count_cons, Nat.add_comm]
  simp only [beq_iff_eq, eq_comm (a := c)]

end Accounts
