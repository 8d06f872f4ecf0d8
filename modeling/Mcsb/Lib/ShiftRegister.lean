import Mathlib.Logic.Function.Iterate
import Mathlib.Data.List.Basic

/-!
# Feedback shift registers

A register shifts right by one bit and adds a polynomial when a one falls out.
The register is linear, so `n` input bits can be added one by one or all at
once, and `n` shifts need only be looked up for the `n` low bits.
-/

namespace ShiftRegister
variable {w : Nat} {poly x y d : BitVec w} {n : Nat}

/-- One shift of the register. -/
def shift (poly x : BitVec w) : BitVec w :=
  if x.getLsbD 0 then poly ^^^ (x >>> 1) else x >>> 1

/-- One shift with an input bit. -/
def absorb (poly x : BitVec w) (bit : Bool) : BitVec w :=
  if x.getLsbD 0 ^^ bit then poly ^^^ (x >>> 1) else x >>> 1

/-- The `n` low bits, lowest first. -/
def bits : Nat → BitVec w → List Bool
  | 0, _ => []
  | n + 1, d => d.getLsbD 0 :: bits n (d >>> 1)

/-- No bit above the `n` low ones. -/
def Low (n : Nat) (d : BitVec w) : Prop := ∀ i, n ≤ i → d.getLsbD i = false

/-- None of the `n` low bits. -/
def High (n : Nat) (x : BitVec w) : Prop := ∀ i, i < n → x.getLsbD i = false

theorem Low.zero (low : Low 0 d) : d = 0#w := by
  apply BitVec.eq_of_getLsbD_eq
  intro i _
  rw [low i (Nat.zero_le i), BitVec.getLsbD_zero]

theorem Low.shiftRight (low : Low (n + 1) d) : Low n (d >>> 1) := by
  intro i above
  rw [BitVec.getLsbD_ushiftRight]
  exact low _ (by omega)

theorem bits_append (m : Nat) : bits (m + n) d = bits m d ++ bits n (d >>> m) := by
  induction m generalizing d with
  | zero => rw [Nat.zero_add, BitVec.ushiftRight_zero, bits, List.nil_append]
  | succ m ih =>
    rw [Nat.add_right_comm, bits, ih, bits, List.cons_append, ← BitVec.shiftRight_add, Nat.add_comm 1]

theorem bits_eq_map : bits n d = (List.range n).map d.getLsbD := by
  induction n generalizing d with
  | zero => rfl
  | succ n ih =>
    rw [bits, ih, List.range_succ_eq_map, List.map_cons, List.map_map]
    congr 1
    apply List.map_congr_left
    intro i _
    rw [Function.comp_apply, BitVec.getLsbD_ushiftRight, Nat.add_comm]

theorem shift_xor : shift poly (x ^^^ y) = shift poly x ^^^ shift poly y := by
  have twice : poly ^^^ x >>> 1 ^^^ (poly ^^^ y >>> 1) = x >>> 1 ^^^ y >>> 1 := by
    rw [BitVec.xor_comm poly, BitVec.xor_assoc, ← BitVec.xor_assoc poly, BitVec.xor_self,
      BitVec.zero_xor]
  have second : x >>> 1 ^^^ (poly ^^^ y >>> 1) = poly ^^^ (x >>> 1 ^^^ y >>> 1) := by
    rw [← BitVec.xor_assoc, BitVec.xor_comm _ poly, BitVec.xor_assoc]
  unfold shift
  rw [BitVec.getLsbD_xor, BitVec.ushiftRight_xor_distrib]
  cases x.getLsbD 0 <;> cases y.getLsbD 0 <;>
    simp only [Bool.false_xor, Bool.true_xor, Bool.not_true, Bool.not_false, Bool.false_eq_true,
      if_true, if_false, twice, second, BitVec.xor_assoc]

theorem iterate_xor : (shift poly)^[n] (x ^^^ y) = (shift poly)^[n] x ^^^ (shift poly)^[n] y := by
  induction n generalizing x y with
  | zero => rfl
  | succ n ih => rw [Function.iterate_succ_apply, shift_xor, ih]; rfl

/-- Zeros are only shifted out. -/
theorem iterate_high (high : High n x) : (shift poly)^[n] x = x >>> n := by
  induction n generalizing x with
  | zero => rw [Function.iterate_zero_apply, BitVec.ushiftRight_zero]
  | succ n ih =>
    have even : shift poly x = x >>> 1 := by
      unfold shift
      rw [high 0 (by omega), if_neg Bool.false_ne_true]
    have rest : High n (x >>> 1) := by
      intro i below
      rw [BitVec.getLsbD_ushiftRight]
      exact high _ (by omega)
    rw [Function.iterate_succ_apply, even, ih rest, ← BitVec.shiftRight_add, Nat.add_comm]

/-- Only the low bits need be looked up. -/
theorem iterate_split (high : High n (x ^^^ d)) :
    (shift poly)^[n] x = (shift poly)^[n] d ^^^ (x ^^^ d) >>> n := by
  have parts : x = d ^^^ (x ^^^ d) := by
    rw [BitVec.xor_comm x, ← BitVec.xor_assoc, BitVec.xor_self, BitVec.zero_xor]
  calc (shift poly)^[n] x
    _ = (shift poly)^[n] (d ^^^ (x ^^^ d)) := by rw [← parts]
    _ = (shift poly)^[n] d ^^^ (x ^^^ d) >>> n := by rw [iterate_xor, iterate_high high]

theorem absorb_eq (bit : Bool) (first : d.getLsbD 0 = bit) :
    absorb poly x bit = shift poly (x ^^^ d) ^^^ d >>> 1 := by
  have cancel : x >>> 1 ^^^ d >>> 1 ^^^ d >>> 1 = x >>> 1 := by
    rw [BitVec.xor_assoc, BitVec.xor_self, BitVec.xor_zero]
  unfold absorb shift
  rw [BitVec.getLsbD_xor, first, BitVec.ushiftRight_xor_distrib]
  split
  · rw [BitVec.xor_assoc, cancel]
  · rw [cancel]

/-- Input bits can be added all at once. -/
theorem absorb_bits (low : Low n d) :
    (bits n d).foldl (absorb poly) x = (shift poly)^[n] (x ^^^ d) := by
  induction n generalizing x d with
  | zero =>
    rw [low.zero, BitVec.xor_zero]
    rfl
  | succ n ih =>
    have cancel : shift poly (x ^^^ d) ^^^ d >>> 1 ^^^ d >>> 1 = shift poly (x ^^^ d) := by
      rw [BitVec.xor_assoc, BitVec.xor_self, BitVec.xor_zero]
    rw [bits, List.foldl_cons, absorb_eq _ rfl, ih low.shiftRight, cancel,
      Function.iterate_succ_apply]

end ShiftRegister
