import Mathlib.Logic.Function.Basic
import Mcsb.Lib.Accounts

/-!
# Families of queues

A queue for each level up to `top`. What is on the least level comes first, and
on one level what came first. Things are dealt out in that order; what is left of
a claim then goes to the end of its queue.
-/

namespace QueueFamily

variable {α σ : Type}

def push (qs : Nat → List α) (level : Nat) (a : α) : Nat → List α :=
  Function.update qs level (qs level ++ [a])

def pop (qs : Nat → List α) (level : Nat) : Nat → List α :=
  Function.update qs level (qs level).tail

def total (top : Nat) (qs : Nat → List α) : Nat :=
  ((List.range (top + 1)).map fun level => (qs level).length).sum

def least (top : Nat) (qs : Nat → List α) : Option Nat :=
  (List.range (top + 1)).find? fun level => !(qs level).isEmpty

/-- What is left of a claim, if anything, joins the queue again. -/
def requeue (qs : Nat → List α) (level : Nat) : Option α → Nat → List α
  | none => qs
  | some a => push qs level a

/-- Each thing goes to the first claim of the least level. -/
def deal (top : Nat) (left : α → Option α) :
    List σ → (Nat → List α) → List (σ × α) × (Nat → List α)
  | [], qs => ([], qs)
  | s :: things, qs =>
    match least top qs with
    | none => ([], qs)
    | some level =>
      match qs level with
      | [] => ([], qs)
      | a :: _ =>
        let (dealt, qs') := deal top left things (requeue (pop qs level) level (left a))
        ((s, a) :: dealt, qs')

section
variable {top level : Nat} {qs : Nat → List α} {left : α → Option α} {a : α} {rest : List α}

theorem least_eq_none_iff : least top qs = none ↔ ∀ level ≤ top, qs level = [] := by
  rw [least, List.find?_eq_none]
  constructor
  · intro none level le
    simpa using none level (List.mem_range.mpr (Nat.lt_succ_of_le le))
  · intro empty level mem
    simp [empty level (Nat.lt_succ_iff.mp (List.mem_range.mp mem))]

theorem least_eq_some_iff : least top qs = some level ↔
    level ≤ top ∧ qs level ≠ [] ∧ ∀ l < level, qs l = [] := by
  rw [least, List.find?_range_eq_some]
  constructor
  · rintro ⟨some, mem, before⟩
    refine ⟨Nat.lt_succ_iff.mp (List.mem_range.mp mem), by simpa using some, fun l lt => ?_⟩
    simpa using before l lt
  · rintro ⟨le, some, before⟩
    refine ⟨by simpa using some, List.mem_range.mpr (Nat.lt_succ_of_le le), fun l lt => ?_⟩
    simp [before l lt]

theorem total_update (le : level ≤ top) (list : List α) :
    total top (Function.update qs level list) + (qs level).length = total top qs + list.length := by
  have change := Accounts.sum_change List.nodup_range (List.mem_range.mpr (Nat.lt_succ_of_le le))
    (f := fun l => (qs l).length) (g := fun l => (Function.update qs level list l).length)
    fun l ne => by rw [Function.update_of_ne ne]
  rw [Function.update_self] at change
  exact change

theorem total_eq_zero_iff : total top qs = 0 ↔ ∀ level ≤ top, qs level = [] := by
  constructor
  · intro none level le
    have change : total top (Function.update qs level []) + _ = total top qs + _ := total_update le []
    simp only [List.length_nil] at change
    exact List.length_eq_zero_iff.mp (by omega)
  · intro empty
    apply List.sum_eq_zero
    intro n mem
    obtain ⟨level, inRange, rfl⟩ := List.mem_map.mp mem
    exact List.length_eq_zero_iff.mpr (empty level (Nat.lt_succ_iff.mp (List.mem_range.mp inRange)))

theorem deal_none (none : least top qs = none) (things : List σ) :
    deal top left things qs = ([], qs) := by
  cases things with
  | nil => rfl
  | cons s things => rw [deal, none]

theorem deal_some (first : least top qs = some level) (front : qs level = a :: rest) (s : σ)
    (things : List σ) : deal top left (s :: things) qs =
      ((s, a) :: (deal top left things (requeue (pop qs level) level (left a))).1,
        (deal top left things (requeue (pop qs level) level (left a))).2) := by
  rw [deal, first]
  dsimp only
  rw [front]

end

end QueueFamily
