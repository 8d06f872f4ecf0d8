import Mathlib.Data.List.Range
import Mathlib.Data.List.Perm.Basic

/-!
# Pools of records

Records are allocated in blocks of 256 and never freed. Those not in use wait
in a queue; a record is taken from its front and put back at its end.
-/

/-- `free` are the records not in use, `size` is how many were ever allocated.
`peak` is history: the most records in use at once. -/
structure Pool where
  free : List Nat := []
  size : Nat := 0
  peak : Nat := 0
  deriving DecidableEq, Repr

namespace Pool

def kBlock : Nat := 256

def inUse (p : Pool) : Nat := p.size - p.free.length

def addBlock (p : Pool) : Pool :=
  { p with
    free := p.free ++ List.range' p.size kBlock
    size := p.size + kBlock }

/-- The pool with a record at hand: a block is added only when there is none. -/
def stocked (p : Pool) : Pool := if p.free = [] then p.addBlock else p

def take (p : Pool) : Nat × Pool :=
  let p := p.stocked
  (p.free.headD 0, { p with free := p.free.tail, peak := max p.peak (p.inUse + 1) })

def put (p : Pool) (r : Nat) : Pool := { p with free := p.free ++ [r] }

/-- A number of records rounded up to whole blocks. -/
def wholeBlocks (n : Nat) : Nat := (n + (kBlock - 1)) / kBlock * kBlock

/-- Every record ever allocated is free or in use, once. -/
def Accounts (p : Pool) (used : List Nat) : Prop := (p.free ++ used).Perm (List.range p.size)

theorem Accounts.perm {p : Pool} {used used' : List Nat} (h : p.Accounts used)
    (same : used.Perm used') : p.Accounts used' :=
  (same.symm.append_left p.free).trans h

theorem accounts_empty : Accounts {} [] := List.Perm.refl _

theorem range_add (n k : Nat) : List.range (n + k) = List.range n ++ List.range' n k := by
  have := @List.range'_append_1 0 n k
  rw [Nat.zero_add] at this
  rw [List.range_eq_range', List.range_eq_range', this]

theorem Accounts.addBlock {p : Pool} {used : List Nat} (h : p.Accounts used) :
    p.addBlock.Accounts used := by
  unfold Accounts Pool.addBlock
  rw [range_add, List.append_assoc]
  refine List.Perm.trans ?_ (h.append_right _)
  rw [List.append_assoc]
  exact List.perm_append_comm.append_left _

theorem Accounts.stocked {p : Pool} {used : List Nat} (h : p.Accounts used) :
    p.stocked.Accounts used := by
  unfold Pool.stocked
  split
  · exact h.addBlock
  · exact h

theorem stocked_ne_nil (p : Pool) : p.stocked.free ≠ [] := by
  unfold stocked
  split
  · simp [Pool.addBlock, kBlock]
  · assumption

theorem Accounts.take {p : Pool} {used : List Nat} (h : p.Accounts used) :
    p.take.2.Accounts (p.take.1 :: used) := by
  obtain ⟨r, rest, eq⟩ := List.exists_cons_of_ne_nil p.stocked_ne_nil
  have stocked := h.stocked
  unfold Accounts at stocked ⊢
  rw [eq] at stocked
  simp only [Pool.take, eq, List.tail_cons, List.headD_cons]
  exact List.perm_middle.trans stocked

theorem Accounts.put {p : Pool} {used : List Nat} {r : Nat} (h : p.Accounts (r :: used)) :
    (p.put r).Accounts used := by
  unfold Accounts Pool.put at *
  rw [List.append_assoc]
  exact h

theorem Accounts.nodup {p : Pool} {used : List Nat} (h : p.Accounts used) : used.Nodup :=
  (List.nodup_append.mp (h.nodup_iff.mpr List.nodup_range)).2.1

/-! ## How many records are allocated -/

theorem Accounts.inUse {p : Pool} {used : List Nat} (h : p.Accounts used) :
    p.inUse = used.length := by
  have same := h.length_eq
  rw [List.length_append, List.length_range] at same
  unfold Pool.inUse
  omega

theorem inUse_stocked (p : Pool) : p.stocked.inUse = p.inUse := by
  unfold stocked
  split
  · rename_i none
    simp only [inUse, addBlock, none, List.nil_append, List.length_range', List.length_nil]
    omega
  · rfl

theorem peak_take (p : Pool) : p.take.2.peak = max p.peak (p.inUse + 1) := by
  have peak : p.stocked.peak = p.peak := by
    unfold stocked
    split
    · rfl
    · rfl
  show max p.stocked.peak (p.stocked.inUse + 1) = _
  rw [peak, inUse_stocked]

theorem wholeBlocks_le {n n' : Nat} (le : n ≤ n') : wholeBlocks n ≤ wholeBlocks n' :=
  Nat.mul_le_mul_right _ (Nat.div_le_div_right (Nat.add_le_add_right le _))

/-- Whole blocks are allocated, and no more than the most records in use needed. -/
structure Metered (p : Pool) : Prop where
  whole : kBlock ∣ p.size
  size_le : p.size ≤ wholeBlocks p.peak

theorem metered_empty : Metered {} where
  whole := Nat.dvd_zero _
  size_le := Nat.zero_le _

theorem Metered.take {p : Pool} (h : p.Metered) : p.take.2.Metered := by
  have size : p.take.2.size = p.stocked.size := rfl
  by_cases none : p.free = []
  · have stocked : p.stocked = p.addBlock := if_pos none
    have all : p.inUse = p.size := by
      rw [Pool.inUse, none]
      rfl
    constructor
    · rw [size, stocked]
      exact (Nat.dvd_add_self_right).mpr h.whole
    · -- the block is the one that holds the record after the last one
      have one : wholeBlocks (p.size + 1) = p.size + kBlock := by
        obtain ⟨k, eq⟩ := h.whole
        rw [eq, wholeBlocks, kBlock]
        omega
      rw [size, stocked, peak_take, all]
      exact one.symm.le.trans (wholeBlocks_le (Nat.le_max_right _ _))
  · have stocked : p.stocked = p := if_neg none
    constructor
    · rw [size, stocked]
      exact h.whole
    · rw [size, stocked, peak_take]
      exact h.size_le.trans (wholeBlocks_le (Nat.le_max_left _ _))

theorem Metered.put {p : Pool} (h : p.Metered) (r : Nat) : (p.put r).Metered := ⟨h.whole, h.size_le⟩

end Pool
