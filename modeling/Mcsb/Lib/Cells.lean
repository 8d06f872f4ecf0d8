import Mathlib.Data.List.GetD

/-!
# Memory cells

A memory is a function from addresses. A list is written at an address and read
back, and what is written elsewhere does not matter.
-/

namespace Cells
variable {α : Type} {mem : Nat → α} {dst ptr size n : Nat} {src src' : List α}

def read (mem : Nat → α) (ptr size : Nat) : List α := (List.range size).map fun i => mem (ptr + i)

def write (mem : Nat → α) (dst : Nat) (src : List α) : Nat → α := fun a =>
  if dst ≤ a then src.getD (a - dst) (mem a) else mem a

/-- Two ranges of addresses without a common one. -/
def Apart (ptr size ptr' size' : Nat) : Prop := ptr + size ≤ ptr' ∨ ptr' + size' ≤ ptr

theorem Apart.symm {size' : Nat} (h : Apart ptr size dst size') : Apart dst size' ptr size :=
  Or.symm h

theorem Apart.mono {size' n' : Nat} (h : Apart ptr size dst size') (le : n ≤ size)
    (le' : n' ≤ size') : Apart ptr n dst n' := by
  unfold Apart at h ⊢
  omega

@[simp] theorem length_read : (read mem ptr size).length = size := by
  simp [read]

@[simp] theorem read_zero (mem : Nat → α) (ptr : Nat) : read mem ptr 0 = [] := rfl

theorem take_read (mem : Nat → α) (ptr size n : Nat) :
    (read mem ptr size).take n = read mem ptr (min n size) := by
  simp only [read, ← List.map_take, List.take_range]

@[simp] theorem write_nil (mem : Nat → α) (dst : Nat) : write mem dst [] = mem := by
  funext a
  simp [write]

theorem write_of_lt {a : Nat} (before : a < dst) : write mem dst src a = mem a :=
  if_neg (Nat.not_le.mpr before)

theorem write_of_le {a : Nat} (after : dst + src.length ≤ a) : write mem dst src a = mem a := by
  unfold write
  split
  · exact List.getD_eq_default _ _ (by omega)
  · rfl

/-- One list is written right behind another. -/
theorem write_append (mem : Nat → α) (dst : Nat) (src src' : List α) :
    write mem dst (src ++ src') = write (write mem dst src) (dst + src.length) src' := by
  funext a
  by_cases before : a < dst
  · rw [write_of_lt before, write_of_lt (by omega), write_of_lt before]
  have here : dst ≤ a := Nat.not_lt.mp before
  by_cases first : a < dst + src.length
  · rw [write_of_lt first]
    simp only [write, if_pos here]
    rw [List.getD_append _ _ _ _ (by omega)]
  · have second : dst + src.length ≤ a := Nat.not_lt.mp first
    simp only [write, if_pos here, if_pos second]
    rw [List.getD_append_right _ _ _ _ (by omega), Nat.sub_sub,
      List.getD_eq_default src _ (by omega)]

theorem read_write (mem : Nat → α) (dst : Nat) (src : List α) :
    read (write mem dst src) dst src.length = src := by
  apply List.ext_getElem
  · simp
  · intro i _ here
    simp only [read, write, List.getElem_map, List.getElem_range, Nat.le_add_right, if_true,
      Nat.add_sub_cancel_left]
    exact List.getD_eq_getElem _ _ here

/-- What is written elsewhere is not read. -/
theorem read_write_apart (apart : Apart ptr size dst src.length) :
    read (write mem dst src) ptr size = read mem ptr size := by
  apply List.map_congr_left
  intro i mem_range
  have lt := List.mem_range.mp mem_range
  rcases apart with before | after
  · exact write_of_lt (by omega)
  · exact write_of_le (by omega)

end Cells
