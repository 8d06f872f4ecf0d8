import Mathlib.Data.List.Nodup
import Mathlib.Logic.Function.Basic

/-!
# Linked lists in a heap

Nodes with a pointer to the next one. `Linked next p l` says that following the
pointers from `p` visits the nodes of `l` and ends.
-/

inductive Linked {α : Type} (next : α → Option α) : Option α → List α → Prop where
  | nil : Linked next none []
  | cons {x : α} {l : List α} (rest : Linked next (next x) l) : Linked next (some x) (x :: l)

namespace Linked
variable {α : Type} {next next' : α → Option α} {p : Option α} {l l' : List α}

theorem unique (h : Linked next p l) (h' : Linked next p l') : l = l' := by
  induction h generalizing l' with
  | nil =>
    cases h'
    rfl
  | cons _ ih =>
    cases h' with
    | cons rest => exact congrArg _ (ih rest)

/-- Pointers elsewhere do not matter. -/
theorem congr (h : Linked next p l) (same : ∀ x ∈ l, next' x = next x) : Linked next' p l := by
  induction h with
  | nil => exact .nil
  | @cons x l rest ih =>
    obtain ⟨head, tail⟩ := List.forall_mem_cons.mp same
    apply cons
    rw [head]
    exact ih tail

theorem ne_nil {x : α} (h : Linked next (some x) l) : l ≠ [] := by
  cases h
  exact List.cons_ne_nil _ _

variable [DecidableEq α]

/-- A node is linked in behind the last. -/
theorem snoc {last new : α} (h : Linked next p (l ++ [last])) (distinct : (l ++ [last]).Nodup)
    (fresh : new ∉ l ++ [last]) (ends : next new = none) :
    Linked (Function.update next last (some new)) p (l ++ [last] ++ [new]) := by
  induction l generalizing p with
  | nil =>
    cases h with
    | cons _ =>
      have other : new ≠ last := by simpa using fresh
      apply cons
      simp only [Function.update_self]
      apply cons
      rw [Function.update_of_ne other, ends]
      exact nil
  | cons x l ih =>
    cases h with
    | cons rest =>
      simp only [List.cons_append, List.nodup_cons, List.mem_cons, not_or] at distinct fresh
      have here : x ≠ last := by
        rintro rfl
        exact distinct.1 (by simp)
      apply cons
      rw [Function.update_of_ne here]
      exact ih rest distinct.2 fresh.2

end Linked
