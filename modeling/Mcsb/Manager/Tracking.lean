import Mcsb.Manager.SlabTracker
import Mcsb.Lib.Accounts

/-!
# What a tracker counts

`prodSlabsHeld` and `consSlabsHeld` are the numbers of slabs with their bit set
and with a count. Each call keeps them so, and a call that throws changes
nothing.
-/

namespace Mcsb
open Effect

namespace SlabTracker

/-- The references a client has to a slab. -/
def refs (t : SlabTracker) (s : Nat) : Nat :=
  (if t.prodSlabRefcnt s then 1 else 0) + t.consSlabRefcnt s

/-- The number of slabs below `n` that `p` holds of. -/
def slabCount (n : Nat) (p : Nat → Bool) : Nat :=
  ((List.range n).map fun s => if p s then 1 else 0).sum

/-- The counts of a tracker over `n` slabs are right. -/
structure OK (t : SlabTracker) (n : Nat) : Prop where
  total : t.totalNumSlabs = n
  small : n < 2 ^ 32
  prodHeld : t.prodSlabsHeld = slabCount n t.prodSlabRefcnt
  consHeld : t.consSlabsHeld = slabCount n (t.consSlabRefcnt · ≠ 0)
  consSmall : ∀ s, t.consSlabRefcnt s < 2 ^ 16
  outside : ∀ s, n ≤ s → t.refs s = 0

/-- The consumer counts alone are right. -/
structure ConsOK (t : SlabTracker) (n : Nat) : Prop where
  total : t.totalNumSlabs = n
  small : n < 2 ^ 32
  consHeld : t.consSlabsHeld = slabCount n (t.consSlabRefcnt · ≠ 0)
  consSmall : ∀ s, t.consSlabRefcnt s < 2 ^ 16

theorem OK.consOK {t : SlabTracker} {n : Nat} (h : t.OK n) : t.ConsOK n :=
  ⟨h.total, h.small, h.consHeld, h.consSmall⟩

section
variable {n s : Nat}

theorem slabCount_change (lt : s < n) {p q : Nat → Bool} (same : ∀ x, x ≠ s → q x = p x) :
    slabCount n q + (if p s then 1 else 0) = slabCount n p + (if q s then 1 else 0) :=
  Accounts.sum_change List.nodup_range (List.mem_range.mpr lt)
    (f := fun s => if p s then 1 else 0) (g := fun s => if q s then 1 else 0)
    fun x ne => by rw [same x ne]

theorem slabCount_ne_zero_change (lt : s < n) {f g : Nat → Nat} (same : ∀ x, x ≠ s → g x = f x) :
    slabCount n (g · ≠ 0) + (if f s = 0 then 0 else 1) =
      slabCount n (f · ≠ 0) + if g s = 0 then 0 else 1 := by
  have count := slabCount_change lt (p := (f · ≠ 0)) (q := (g · ≠ 0)) fun x ne => by rw [same x ne]
  by_cases old : f s = 0 <;> by_cases new : g s = 0 <;>
    simpa only [old, new, ne_eq, not_true_eq_false, not_false_eq_true, decide_true, decide_false,
      Bool.false_eq_true, if_true, if_false] using count

theorem slabCount_eq_length (n : Nat) (p : Nat → Bool) :
    slabCount n p = ((List.range n).filter p).length := by
  unfold slabCount
  induction List.range n with
  | nil => rfl
  | cons x xs ih =>
    rw [List.map_cons, List.sum_cons, ih, List.filter_cons]
    split
    · rw [List.length_cons, Nat.add_comm]
    · rw [Nat.zero_add]

theorem slabCount_le (n : Nat) (p : Nat → Bool) : slabCount n p ≤ n := by
  rw [slabCount_eq_length]
  simpa using List.length_filter_le p (List.range n)

theorem slabCount_pos (lt : s < n) {p : Nat → Bool} (holds : p s = true) : 0 < slabCount n p := by
  rw [slabCount_eq_length]
  exact List.length_pos_of_mem (List.mem_filter.mpr ⟨List.mem_range.mpr lt, holds⟩)

variable {t : SlabTracker}

theorem OK.lt_of_refs (h : t.OK n) (pos : t.refs s ≠ 0) : s < n := by
  by_contra ge
  exact pos (h.outside s (Nat.not_lt.mp ge))

theorem ConsOK.consHeld_lt (h : t.ConsOK n) : t.consSlabsHeld < 2 ^ 32 := by
  have := slabCount_le n (t.consSlabRefcnt · ≠ 0)
  have := h.small
  have := h.consHeld
  omega

/-! ## Producer slabs -/

theorem OK.insertProdSlab (h : t.OK n) (lt : s < n) (new : t.prodSlabRefcnt s = false) :
    (t.insertProdSlab s).OK n := by
  have count := slabCount_change lt (p := t.prodSlabRefcnt)
    (q := Function.update t.prodSlabRefcnt s true) fun x ne => Function.update_of_ne ne _ _
  refine ⟨h.total, h.small, ?_, h.consHeld, h.consSmall, fun x ge => ?_⟩
  · have := h.prodHeld
    simp [new] at count
    simp [SlabTracker.insertProdSlab, new]
    omega
  · have := h.outside x ge
    have ne : x ≠ s := by omega
    simpa [refs, SlabTracker.insertProdSlab, ne] using this

theorem OK.eraseProdSlab (h : t.OK n) (held : t.prodSlabRefcnt s = true) :
    (t.eraseProdSlab s).OK n := by
  have lt : s < n := h.lt_of_refs (by simp [refs, held])
  have count := slabCount_change lt (p := t.prodSlabRefcnt)
    (q := Function.update t.prodSlabRefcnt s false) fun x ne => Function.update_of_ne ne _ _
  refine ⟨h.total, h.small, ?_, h.consHeld, h.consSmall, fun x ge => ?_⟩
  · have := h.prodHeld
    simp [held] at count
    simp [SlabTracker.eraseProdSlab]
    omega
  · have := h.outside x ge
    have ne : x ≠ s := by omega
    simpa [refs, SlabTracker.eraseProdSlab, ne] using this

theorem refs_insertProdSlab (new : t.prodSlabRefcnt s = false) (x : Nat) :
    (t.insertProdSlab s).refs x = t.refs x + if x = s then 1 else 0 := by
  by_cases here : x = s
  · subst here
    simp [refs, SlabTracker.insertProdSlab, new, Nat.add_comm]
  · simp [refs, SlabTracker.insertProdSlab, here]

theorem refs_eraseProdSlab (held : t.prodSlabRefcnt s = true) (x : Nat) :
    (t.eraseProdSlab s).refs x + (if x = s then 1 else 0) = t.refs x := by
  by_cases here : x = s
  · subst here
    simp [refs, SlabTracker.eraseProdSlab, held, Nat.add_comm]
  · simp [refs, SlabTracker.eraseProdSlab, here]

theorem prodSlabRefcnt_insertProdSlab (x : Nat) :
    (t.insertProdSlab s).prodSlabRefcnt x = (x == s || t.prodSlabRefcnt x) := by
  by_cases here : x = s
  · simp [SlabTracker.insertProdSlab, here]
  · simp [SlabTracker.insertProdSlab, here]

theorem prodSlabRefcnt_eraseProdSlab (x : Nat) :
    (t.eraseProdSlab s).prodSlabRefcnt x = (x != s && t.prodSlabRefcnt x) := by
  by_cases here : x = s
  · simp [SlabTracker.eraseProdSlab, here]
  · simp [SlabTracker.eraseProdSlab, here]

/-- The tracker after slabs not held yet have been inserted. -/
structure Inserted (t t' : SlabTracker) (n : Nat) (slabIDs : List Nat) : Prop where
  ok : t'.OK n
  refs : ∀ x, t'.refs x = t.refs x + slabIDs.count x
  prod : ∀ x, t'.prodSlabRefcnt x = true ↔ x ∈ slabIDs ∨ t.prodSlabRefcnt x = true
  held : t'.prodSlabsHeld = t.prodSlabsHeld + slabIDs.length
  cons : t'.consSlabRefcnt = t.consSlabRefcnt
  granted : t'.numProdSlabs = t.numProdSlabs ∧ t'.numConsSlabs = t.numConsSlabs

theorem OK.insertProdSlabs {slabIDs : List Nat} (h : t.OK n) (nodup : slabIDs.Nodup)
    (new : ∀ s ∈ slabIDs, s < n ∧ t.prodSlabRefcnt s = false) :
    t.Inserted (slabIDs.foldl SlabTracker.insertProdSlab t) n slabIDs := by
  induction slabIDs generalizing t with
  | nil => exact ⟨h, fun _ => rfl, fun _ => by simp, rfl, rfl, rfl, rfl⟩
  | cons s slabIDs ih =>
    obtain ⟨notin, nodup⟩ := List.nodup_cons.mp nodup
    obtain ⟨lt, first⟩ := new s List.mem_cons_self
    have rest := ih (h.insertProdSlab lt first) nodup fun x mem => by
      obtain ⟨lt, new⟩ := new x (List.mem_cons_of_mem s mem)
      have ne : x ≠ s := fun e => notin (e ▸ mem)
      exact ⟨lt, by simp [prodSlabRefcnt_insertProdSlab, ne, new]⟩
    refine ⟨rest.ok, fun x => ?_, fun x => ?_, ?_, rest.cons, rest.granted⟩
    · rw [List.foldl_cons, rest.refs, refs_insertProdSlab first, List.count_cons]
      by_cases here : x = s
      · simp [here]
        omega
      · have : s ≠ x := Ne.symm here
        simp [here, this]
    · rw [List.foldl_cons, rest.prod, prodSlabRefcnt_insertProdSlab]
      simp
      tauto
    · rw [List.foldl_cons, rest.held]
      simp [SlabTracker.insertProdSlab, first]
      omega

theorem insertProdSlabs_ok {slabIDs : List Nat} (nodup : slabIDs.Nodup)
    (new : ∀ s ∈ slabIDs, t.prodSlabRefcnt s = false) {Q : Unit → SlabTracker → Prop}
    {E : Exc → SlabTracker → Prop} :
    wp (insertProdSlabs slabIDs) t Q E ↔ Q ⟨⟩ (slabIDs.foldl SlabTracker.insertProdSlab t) := by
  have clean : (slabIDs.foldl (fun (s : Bool × SlabTracker) slabID =>
      (s.1 && !s.2.prodSlabRefcnt slabID, s.2.insertProdSlab slabID)) (true, t)).1 = true := by
    clear Q E
    induction slabIDs generalizing t with
    | nil => rfl
    | cons s slabIDs ih =>
      obtain ⟨notin, nodup⟩ := List.nodup_cons.mp nodup
      have first := new s List.mem_cons_self
      rw [List.foldl_cons]
      simp only [first, Bool.not_false, Bool.and_true]
      refine ih nodup fun x mem => ?_
      have ne : x ≠ s := fun e => notin (e ▸ mem)
      simp [prodSlabRefcnt_insertProdSlab, ne, new x (List.mem_cons_of_mem s mem)]
  simp only [insertProdSlabs, wp_bind, wp_get, wp_set, clean]
  rfl

/-- The tracker after slabs it held have been erased. -/
structure Erased (t t' : SlabTracker) (n : Nat) (slabIDs : List Nat) : Prop where
  ok : t'.OK n
  refs : ∀ x, t'.refs x + slabIDs.count x = t.refs x
  prod : ∀ x, t'.prodSlabRefcnt x = true ↔ x ∉ slabIDs ∧ t.prodSlabRefcnt x = true
  held : t'.prodSlabsHeld + slabIDs.length = t.prodSlabsHeld
  cons : t'.consSlabRefcnt = t.consSlabRefcnt
  granted : t'.numProdSlabs = t.numProdSlabs ∧ t'.numConsSlabs = t.numConsSlabs

theorem OK.prodHeld_pos (h : t.OK n) (held : t.prodSlabRefcnt s = true) :
    0 < t.prodSlabsHeld := by
  rw [h.prodHeld]
  exact slabCount_pos (h.lt_of_refs (by simp [refs, held])) held

theorem OK.eraseProdSlabs {slabIDs : List Nat} (h : t.OK n) (nodup : slabIDs.Nodup)
    (all : ∀ s ∈ slabIDs, t.prodSlabRefcnt s = true) :
    t.Erased (slabIDs.foldl SlabTracker.eraseProdSlab t) n slabIDs := by
  induction slabIDs generalizing t with
  | nil => exact ⟨h, fun _ => rfl, fun _ => by simp, rfl, rfl, rfl, rfl⟩
  | cons s slabIDs ih =>
    obtain ⟨notin, nodup⟩ := List.nodup_cons.mp nodup
    have first := all s List.mem_cons_self
    have rest := ih (h.eraseProdSlab first) nodup fun x mem => by
      have ne : x ≠ s := fun e => notin (e ▸ mem)
      simp [prodSlabRefcnt_eraseProdSlab, ne, all x (List.mem_cons_of_mem s mem)]
    refine ⟨rest.ok, fun x => ?_, fun x => ?_, ?_, rest.cons, rest.granted⟩
    · have step := refs_eraseProdSlab first x
      have rest := rest.refs x
      rw [List.foldl_cons, List.count_cons]
      by_cases here : x = s
      · simp only [here, beq_self_eq_true, if_true] at step rest ⊢
        omega
      · have : s ≠ x := Ne.symm here
        simp only [here, this, beq_iff_eq, if_false] at step rest ⊢
        omega
    · rw [List.foldl_cons, rest.prod, prodSlabRefcnt_eraseProdSlab]
      simp
      tauto
    · have held := rest.held
      have pos := h.prodHeld_pos first
      simp only [SlabTracker.eraseProdSlab] at held
      rw [List.foldl_cons, List.length_cons]
      simp only [SlabTracker.eraseProdSlab]
      omega

/-! ## Consumer slabs -/

/-- One consumer count, with the number of slabs held set to match. -/
theorem ConsOK.setCons (h : t.ConsOK n) (lt : s < n) {refcnt consSlabsHeld : Nat}
    (small : refcnt < 2 ^ 16)
    (matches_ : consSlabsHeld + (if t.consSlabRefcnt s = 0 then 0 else 1) =
      t.consSlabsHeld + if refcnt = 0 then 0 else 1) :
    ({ t with
      consSlabRefcnt := Function.update t.consSlabRefcnt s refcnt
      consSlabsHeld } : SlabTracker).ConsOK n := by
  have count := slabCount_ne_zero_change lt (f := t.consSlabRefcnt)
    (g := Function.update t.consSlabRefcnt s refcnt) fun x ne => Function.update_of_ne ne _ _
  refine ⟨h.total, h.small, ?_, fun x => ?_⟩
  · have := h.consHeld
    rw [Function.update_self] at count
    dsimp only at this ⊢
    omega
  · by_cases here : x = s
    · simpa [here] using small
    · simpa [here] using h.consSmall x

theorem ConsOK.incrementCons (h : t.ConsOK n) (lt : s < n)
    (room : t.consSlabRefcnt s + 1 < 2 ^ 16) : (t.incrementCons s).ConsOK n := by
  unfold SlabTracker.incrementCons
  rw [Nat.mod_eq_of_lt room]
  by_cases zero : t.consSlabRefcnt s = 0
  · have fits : t.consSlabsHeld + 1 + (if t.consSlabRefcnt s = 0 then 0 else 1) =
        t.consSlabsHeld + if t.consSlabRefcnt s + 1 = 0 then 0 else 1 := by simp [zero]
    have more := (h.setCons lt room fits).consHeld_lt
    rw [if_pos zero, Nat.mod_eq_of_lt more]
    exact h.setCons lt room fits
  · rw [if_neg zero]
    exact h.setCons lt room (by rw [if_neg zero, if_neg (Nat.succ_ne_zero _)])

theorem OK.incrementCons (h : t.OK n) (lt : s < n) (room : t.consSlabRefcnt s + 1 < 2 ^ 16) :
    (t.incrementCons s).OK n := by
  have cons := h.consOK.incrementCons lt room
  refine ⟨cons.total, cons.small, h.prodHeld, cons.consHeld, cons.consSmall, fun x ge => ?_⟩
  have ne : x ≠ s := by omega
  have := h.outside x ge
  simpa [refs, SlabTracker.incrementCons, ne] using this

theorem refs_incrementCons (room : t.consSlabRefcnt s + 1 < 2 ^ 16) (x : Nat) :
    (t.incrementCons s).refs x = t.refs x + if x = s then 1 else 0 := by
  by_cases here : x = s
  · subst here
    simp only [refs, SlabTracker.incrementCons, Function.update_self, Nat.mod_eq_of_lt room,
      if_true]
    omega
  · simp [refs, SlabTracker.incrementCons, here]

/-- One more and one less, in a counter of `M` values. -/
def up (M x : Nat) : Nat := (x + 1) % M

def down (M x : Nat) : Nat := (x + (M - 1)) % M

theorem up_down {M x : Nat} (lt : x < M) : up M (down M x) = x := by
  unfold up down
  rcases Nat.eq_zero_or_pos x with rfl | pos
  · rw [Nat.zero_add, Nat.mod_eq_of_lt (by omega : M - 1 < M), Nat.sub_add_cancel (by omega),
      Nat.mod_self]
  · rw [show x + (M - 1) = x - 1 + M by omega, Nat.add_mod_right,
      Nat.mod_eq_of_lt (by omega : x - 1 < M), Nat.sub_add_cancel pos, Nat.mod_eq_of_lt lt]

theorem down_up {M x : Nat} (lt : x < M) : down M (up M x) = x := by
  unfold up down
  rcases Nat.lt_or_ge (x + 1) M with more | last
  · rw [Nat.mod_eq_of_lt more, show x + 1 + (M - 1) = x + M by omega, Nat.add_mod_right,
      Nat.mod_eq_of_lt lt]
  · rw [show x + 1 = M by omega, Nat.mod_self, Nat.zero_add,
      Nat.mod_eq_of_lt (by omega : M - 1 < M)]
    omega

theorem down_pos {M x : Nat} (lt : x < M) (pos : 0 < x) : down M x = x - 1 := by
  unfold down
  rw [show x + (M - 1) = x - 1 + M by omega, Nat.add_mod_right, Nat.mod_eq_of_lt (by omega)]

theorem down_lt {M x : Nat} (pos : 0 < M) : down M x < M := Nat.mod_lt _ pos

/-- The tracker with other consumer counts. -/
def withCons (t : SlabTracker) (consSlabRefcnt : Nat → Nat) (consSlabsHeld : Nat) : SlabTracker :=
  { t with consSlabRefcnt, consSlabsHeld }

/-- `incrementCons`, with counts below `M` and fewer than `N` slabs. -/
def inc (M N : Nat) (t : SlabTracker) (s : Nat) : SlabTracker :=
  t.withCons (Function.update t.consSlabRefcnt s (up M (t.consSlabRefcnt s)))
    (if t.consSlabRefcnt s = 0 then up N t.consSlabsHeld else t.consSlabsHeld)

/-- `decrementCons`, without the errors. -/
def dec (M N : Nat) (t : SlabTracker) (s : Nat) : SlabTracker :=
  t.withCons (Function.update t.consSlabRefcnt s (down M (t.consSlabRefcnt s)))
    (if down M (t.consSlabRefcnt s) = 0 then down N t.consSlabsHeld else t.consSlabsHeld)

/-- The counters are in their ranges. -/
structure InRange (M N : Nat) (t : SlabTracker) : Prop where
  refcnt : ∀ s, t.consSlabRefcnt s < M
  held : t.consSlabsHeld < N

section
variable {M N : Nat}

theorem consSlabRefcnt_dec (t : SlabTracker) (s x : Nat) : (dec M N t s).consSlabRefcnt x =
    if x = s then down M (t.consSlabRefcnt s) else t.consSlabRefcnt x :=
  Function.update_apply ..

theorem consSlabsHeld_dec (t : SlabTracker) (s : Nat) : (dec M N t s).consSlabsHeld =
    if down M (t.consSlabRefcnt s) = 0 then down N t.consSlabsHeld else t.consSlabsHeld := rfl

theorem prodSlabRefcnt_dec (t : SlabTracker) (s : Nat) :
    (dec M N t s).prodSlabRefcnt = t.prodSlabRefcnt := rfl

theorem prodSlabsHeld_dec (t : SlabTracker) (s : Nat) :
    (dec M N t s).prodSlabsHeld = t.prodSlabsHeld := rfl

theorem numSlabs_dec (t : SlabTracker) (s : Nat) : (dec M N t s).numProdSlabs = t.numProdSlabs ∧
    (dec M N t s).numConsSlabs = t.numConsSlabs := ⟨rfl, rfl⟩

theorem consSlabRefcnt_inc (t : SlabTracker) (s x : Nat) : (inc M N t s).consSlabRefcnt x =
    if x = s then up M (t.consSlabRefcnt s) else t.consSlabRefcnt x :=
  Function.update_apply ..

theorem consSlabsHeld_inc (t : SlabTracker) (s : Nat) : (inc M N t s).consSlabsHeld =
    if t.consSlabRefcnt s = 0 then up N t.consSlabsHeld else t.consSlabsHeld := rfl

theorem InRange.dec (h : t.InRange M N) (s : Nat) : (dec M N t s).InRange M N := by
  refine ⟨fun x => ?_, ?_⟩
  · rw [consSlabRefcnt_dec]
    split
    · exact down_lt (Nat.zero_lt_of_lt (h.refcnt s))
    · exact h.refcnt x
  · rw [consSlabsHeld_dec]
    split
    · exact down_lt (Nat.zero_lt_of_lt h.held)
    · exact h.held

/-- Trackers that differ in the consumer counts only, if at all. -/
theorem eq_of_cons {t t' : SlabTracker} {f : Nat → Nat} {held : Nat} (eq : t' = t.withCons f held)
    (refcnt : ∀ x, t'.consSlabRefcnt x = t.consSlabRefcnt x)
    (same : t'.consSlabsHeld = t.consSlabsHeld) : t' = t := by
  subst eq
  have := funext refcnt
  unfold withCons at *
  simp_all

theorem inc_dec_self (h : t.InRange M N) (s : Nat) : inc M N (dec M N t s) s = t := by
  refine eq_of_cons rfl (fun x => ?_) ?_
  · rw [consSlabRefcnt_inc, consSlabRefcnt_dec, if_pos rfl, up_down (h.refcnt s),
      consSlabRefcnt_dec]
    split
    · rename_i here
      rw [here]
    · rfl
  · rw [consSlabsHeld_inc, consSlabRefcnt_dec, if_pos rfl, consSlabsHeld_dec]
    split
    · exact up_down h.held
    · rfl

theorem dec_inc_self (h : t.InRange M N) (s : Nat) : dec M N (inc M N t s) s = t := by
  refine eq_of_cons rfl (fun x => ?_) ?_
  · rw [consSlabRefcnt_dec, consSlabRefcnt_inc, if_pos rfl, down_up (h.refcnt s),
      consSlabRefcnt_inc]
    split
    · rename_i here
      rw [here]
    · rfl
  · rw [consSlabsHeld_dec, consSlabRefcnt_inc, if_pos rfl, down_up (h.refcnt s),
      consSlabsHeld_inc]
    split
    · exact down_up h.held
    · rfl

/-- An undo goes past the decrements still to come. -/
theorem inc_dec_comm (h : t.InRange M N) (s s' : Nat) :
    inc M N (dec M N t s') s = dec M N (inc M N t s) s' := by
  by_cases same : s = s'
  · subst same
    rw [inc_dec_self h, dec_inc_self h]
  · have other : s' ≠ s := Ne.symm same
    unfold inc dec withCons
    simp only [Function.update_of_ne same, Function.update_of_ne other, Function.update_comm same]
    split <;> split <;> simp only [up_down h.held, down_up h.held]

theorem inc_foldl_dec (slabIDs : List Nat) (h : t.InRange M N) (s : Nat) :
    inc M N (slabIDs.foldl (dec M N) t) s = slabIDs.foldl (dec M N) (inc M N t s) := by
  induction slabIDs generalizing t with
  | nil => rfl
  | cons s' slabIDs ih => rw [List.foldl_cons, List.foldl_cons, ih (h.dec s'), inc_dec_comm h]

/-- Every decrement is undone. -/
theorem foldl_inc_dec (slabIDs : List Nat) (h : t.InRange M N) :
    slabIDs.foldl (inc M N) (slabIDs.foldl (dec M N) t) = t := by
  induction slabIDs generalizing t with
  | nil => rfl
  | cons s slabIDs ih =>
    rw [List.foldl_cons, List.foldl_cons, inc_foldl_dec slabIDs (h.dec s), inc_dec_self h]
    exact ih h

end

theorem decrementCons_snd (errs : Nat) (t : SlabTracker) (s : Nat) :
    (decrementCons (errs, t) s).2 = dec (2 ^ 16) (2 ^ 32) t s := by
  unfold decrementCons dec withCons down
  dsimp only
  generalize (t.consSlabRefcnt s + (2 ^ 16 - 1)) % 2 ^ 16 = refcnt
  generalize (t.consSlabsHeld + (2 ^ 32 - 1)) % 2 ^ 32 = held
  split <;> rfl

theorem foldl_decrementCons_snd (slabIDs : List Nat) (st : Nat × SlabTracker) :
    (slabIDs.foldl decrementCons st).2 = slabIDs.foldl (dec (2 ^ 16) (2 ^ 32)) st.2 := by
  induction slabIDs generalizing st with
  | nil => rfl
  | cons s slabIDs ih =>
    rw [List.foldl_cons, ih, List.foldl_cons]
    exact congrArg (slabIDs.foldl _) (decrementCons_snd st.1 st.2 s)

theorem ConsOK.inRange (h : t.ConsOK n) : t.InRange (2 ^ 16) (2 ^ 32) :=
  ⟨h.consSmall, h.consHeld_lt⟩

/-- The tracker after consumer counts have been decremented, all above zero. -/
structure Decremented (t t' : SlabTracker) (n : Nat) (slabIDs : List Nat) : Prop where
  ok : t'.ConsOK n
  cons : ∀ x, t'.consSlabRefcnt x + slabIDs.count x = t.consSlabRefcnt x
  prod : t'.prodSlabRefcnt = t.prodSlabRefcnt
  prodHeld : t'.prodSlabsHeld = t.prodSlabsHeld
  granted : t'.numProdSlabs = t.numProdSlabs ∧ t'.numConsSlabs = t.numConsSlabs

theorem Decremented.refs {t' : SlabTracker} {slabIDs : List Nat} (h : t.Decremented t' n slabIDs)
    (x : Nat) : t'.refs x + slabIDs.count x = t.refs x := by
  have := h.cons x
  unfold SlabTracker.refs
  rw [h.prod]
  omega

theorem Decremented.keeps {t' : SlabTracker} {slabIDs : List Nat} (h : t.Decremented t' n slabIDs)
    (before : t.OK n) : t'.OK n := by
  refine ⟨h.ok.total, h.ok.small, ?_, h.ok.consHeld, h.ok.consSmall, fun x ge => ?_⟩
  · rw [h.prodHeld, h.prod]
    exact before.prodHeld
  · have := h.refs x
    have := before.outside x ge
    omega

theorem ConsOK.dec (h : t.ConsOK n) (lt : s < n) (pos : 0 < t.consSlabRefcnt s) :
    (dec (2 ^ 16) (2 ^ 32) t s).ConsOK n := by
  unfold SlabTracker.dec withCons
  rw [down_pos (h.consSmall s) pos]
  have small : t.consSlabRefcnt s - 1 < 2 ^ 16 := (Nat.sub_le _ _).trans_lt (h.consSmall s)
  by_cases last : t.consSlabRefcnt s - 1 = 0
  · have held : 0 < t.consSlabsHeld := by
      rw [h.consHeld]
      exact slabCount_pos lt (by simpa using pos.ne')
    rw [if_pos last, down_pos h.consHeld_lt held]
    exact h.setCons lt small (by rw [if_neg pos.ne', if_pos last]; omega)
  · rw [if_neg last]
    exact h.setCons lt small (by rw [if_neg pos.ne', if_neg last])

theorem errs_decrementCons (errs : Nat) (t : SlabTracker) (s : Nat) :
    (decrementCons (errs, t) s).1 = errs + (if t.consSlabRefcnt s = 0 then 1 else 0) +
      if down (2 ^ 16) (t.consSlabRefcnt s) = 0 ∧ t.consSlabsHeld = 0 then 1 else 0 := by
  unfold decrementCons down
  dsimp only
  generalize (t.consSlabRefcnt s + (2 ^ 16 - 1)) % 2 ^ 16 = refcnt
  generalize (t.consSlabsHeld + (2 ^ 32 - 1)) % 2 ^ 32 = held
  by_cases last : refcnt = 0
  · by_cases zero : t.consSlabRefcnt s = 0 <;> by_cases none : t.consSlabsHeld = 0 <;>
      simp [last, zero, none]
  · by_cases zero : t.consSlabRefcnt s = 0 <;> simp [last, zero]

theorem le_errs_decrementCons (errs : Nat) (t : SlabTracker) (s : Nat) :
    errs ≤ (decrementCons (errs, t) s).1 := by
  rw [errs_decrementCons, Nat.add_assoc]
  exact Nat.le_add_right _ _

theorem errs_decrementCons_pos (h : t.ConsOK n) (lt : s < n) (pos : 0 < t.consSlabRefcnt s)
    (errs : Nat) : (decrementCons (errs, t) s).1 = errs := by
  have held : 0 < t.consSlabsHeld := by
    rw [h.consHeld]
    exact slabCount_pos lt (by simpa using pos.ne')
  rw [errs_decrementCons, if_neg pos.ne', if_neg fun both => held.ne' both.2]
  simp only [Nat.add_zero]

theorem errs_foldl_decrementCons_le (slabIDs : List Nat) (st : Nat × SlabTracker) :
    st.1 ≤ (slabIDs.foldl decrementCons st).1 := by
  induction slabIDs generalizing st with
  | nil => exact le_rfl
  | cons s slabIDs ih =>
    obtain ⟨errs, t⟩ := st
    rw [List.foldl_cons]
    exact le_trans (le_errs_decrementCons errs t s) (ih _)

theorem foldl_decrementCons_ok (slabIDs : List Nat) (h : t.ConsOK n)
    (inside : ∀ s ∈ slabIDs, t.consSlabRefcnt s ≠ 0 → s < n)
    (all : ∀ s, slabIDs.count s ≤ t.consSlabRefcnt s) (errs : Nat) :
    (slabIDs.foldl decrementCons (errs, t)).1 = errs ∧
      t.Decremented (slabIDs.foldl decrementCons (errs, t)).2 n slabIDs := by
  induction slabIDs generalizing t with
  | nil => exact ⟨rfl, h, fun _ => rfl, rfl, rfl, rfl, rfl⟩
  | cons s slabIDs ih =>
    have pos : 0 < t.consSlabRefcnt s := by
      have := all s
      rw [List.count_cons_self] at this
      omega
    have lt : s < n := inside s List.mem_cons_self pos.ne'
    have cons (x : Nat) : (dec (2 ^ 16) (2 ^ 32) t s).consSlabRefcnt x + (if x = s then 1 else 0) =
        t.consSlabRefcnt x := by
      rw [consSlabRefcnt_dec, down_pos (h.consSmall s) pos]
      split
      · rename_i here
        rw [here]
        omega
      · rfl
    have count (x : Nat) : (s :: slabIDs).count x =
        slabIDs.count x + if x = s then 1 else 0 := by
      rw [List.count_cons]
      by_cases here : x = s
      · simp [here]
      · simp [here, Ne.symm here]
    have step : decrementCons (errs, t) s = (errs, dec (2 ^ 16) (2 ^ 32) t s) :=
      Prod.ext (errs_decrementCons_pos h lt pos errs) (decrementCons_snd errs t s)
    obtain ⟨clean, rest⟩ := ih (h.dec lt pos)
      (fun x mem some => inside x (List.mem_cons_of_mem s mem) (by have := cons x; omega))
      fun x => by
        have := all x
        have := cons x
        have := count x
        omega
    rw [List.foldl_cons, step]
    have granted := numSlabs_dec (M := 2 ^ 16) (N := 2 ^ 32) t s
    refine ⟨clean, rest.ok, fun x => ?_, rest.prod.trans (prodSlabRefcnt_dec t s),
      rest.prodHeld.trans (prodSlabsHeld_dec t s), rest.granted.1.trans granted.1,
      rest.granted.2.trans granted.2⟩
    rw [count, ← Nat.add_assoc, rest.cons]
    exact cons x

/-- Without an error every count was large enough. -/
theorem counts_of_no_errs (slabIDs : List Nat) (h : t.ConsOK n)
    (inside : ∀ s ∈ slabIDs, t.consSlabRefcnt s ≠ 0 → s < n) (errs : Nat)
    (clean : (slabIDs.foldl decrementCons (errs, t)).1 = errs) (x : Nat) :
    slabIDs.count x ≤ t.consSlabRefcnt x := by
  induction slabIDs generalizing t with
  | nil => exact Nat.zero_le _
  | cons s slabIDs ih =>
    rw [List.foldl_cons] at clean
    have later := errs_foldl_decrementCons_le slabIDs (decrementCons (errs, t) s)
    have first := errs_decrementCons errs t s
    have pos : 0 < t.consSlabRefcnt s := by
      by_contra zero
      rw [if_pos (Nat.eq_zero_of_not_pos zero)] at first
      rw [clean] at later
      exact absurd (later.trans' (first ▸ Nat.le_add_right _ _)) (Nat.not_succ_le_self errs)
    have lt : s < n := inside s List.mem_cons_self pos.ne'
    have step : decrementCons (errs, t) s = (errs, dec (2 ^ 16) (2 ^ 32) t s) :=
      Prod.ext (errs_decrementCons_pos h lt pos errs) (decrementCons_snd errs t s)
    rw [step] at clean
    have rest := ih (h.dec lt pos) (fun y mem some => inside y (List.mem_cons_of_mem s mem) (by
      intro zero
      rw [consSlabRefcnt_dec, down_pos (h.consSmall s) pos] at some
      split at some
      · rename_i here
        rw [here] at zero
        omega
      · exact some zero)) clean
    rw [consSlabRefcnt_dec, down_pos (h.consSmall s) pos] at rest
    rw [List.count_cons]
    by_cases here : x = s
    · subst here
      simp only [if_true, beq_self_eq_true] at rest ⊢
      omega
    · simp only [here, Ne.symm here, beq_iff_eq, if_false] at rest ⊢
      omega

/-- Either every count is large enough, and is decremented, or one is not and
nothing is done. -/
theorem decrementConsSlabs_cases {slabIDs : List Nat} (h : t.ConsOK n)
    (inside : ∀ s ∈ slabIDs, t.consSlabRefcnt s ≠ 0 → s < n)
    {Q : Unit → SlabTracker → Prop} {E : Exc → SlabTracker → Prop}
    (ok : (∀ s, slabIDs.count s ≤ t.consSlabRefcnt s) → ∀ t', t.Decremented t' n slabIDs →
      Q ⟨⟩ t')
    (err : (∃ s, t.consSlabRefcnt s < slabIDs.count s) → ∀ what, E (.runtimeError what) t) :
    wp (decrementConsSlabs slabIDs) t Q E := by
  have undo := foldl_inc_dec slabIDs h.inRange
  have snd := foldl_decrementCons_snd slabIDs (0, t)
  have fine := fun all => foldl_decrementCons_ok slabIDs h inside all 0
  have clean := fun none x => counts_of_no_errs slabIDs h inside 0 none x
  simp only [decrementConsSlabs, wp_bind, wp_get]
  generalize slabIDs.foldl decrementCons (0, t) = st at snd fine clean ⊢
  obtain ⟨errs, t'⟩ := st
  dsimp only at snd fine clean ⊢
  rw [wp_ite]
  split
  · rename_i zero
    exact ok (clean zero) t' (fine (clean zero)).2
  · rename_i some
    rw [snd]
    simp only [wp_bind, wp_set, wp_throw]
    rw [show slabIDs.foldl incrementCons (slabIDs.foldl (dec (2 ^ 16) (2 ^ 32)) t) = t from undo]
    refine err ?_ _
    by_contra none
    push Not at none
    exact some (fine none).1

theorem wp_takeConsSlab {Q : Bool → SlabTracker → Prop} {E : Exc → SlabTracker → Prop} :
    wp (takeConsSlab s) t Q E ↔
      if t.canTakeCons s then Q true (t.incrementCons s) else Q false t := by
  simp only [takeConsSlab, wp_bind, wp_get, wp_ite, wp_set, wp_pure]

/-! ## Both kinds -/

/-- The slabs held as producer, and as consumer, in order. -/
def prodSlabs (t : SlabTracker) : List Nat := (List.range t.totalNumSlabs).filter t.prodSlabRefcnt

def consSlabs (t : SlabTracker) : List Nat :=
  (List.range t.totalNumSlabs).filter (t.consSlabRefcnt · ≠ 0)

theorem OK.prodSlabs_length (h : t.OK n) : t.prodSlabs.length = t.prodSlabsHeld := by
  rw [h.prodHeld, prodSlabs, h.total, slabCount_eq_length]

theorem ConsOK.consSlabs_length (h : t.ConsOK n) : t.consSlabs.length = t.consSlabsHeld := by
  rw [h.consHeld, consSlabs, h.total, slabCount_eq_length]

theorem OK.mem_prodSlabs (h : t.OK n) : s ∈ t.prodSlabs ↔ t.prodSlabRefcnt s = true := by
  simp only [prodSlabs, List.mem_filter, List.mem_range, h.total, and_iff_right_iff_imp]
  intro held
  exact h.lt_of_refs (by simp [refs, held])

theorem OK.mem_consSlabs (h : t.OK n) : s ∈ t.consSlabs ↔ t.consSlabRefcnt s ≠ 0 := by
  simp only [consSlabs, List.mem_filter, List.mem_range, h.total, decide_eq_true_eq,
    and_iff_right_iff_imp]
  intro held
  exact h.lt_of_refs (by unfold refs; omega)

theorem prodSlabs_nodup (t : SlabTracker) : t.prodSlabs.Nodup := List.nodup_range.filter _

theorem consSlabs_nodup (t : SlabTracker) : t.consSlabs.Nodup := List.nodup_range.filter _

theorem getAndEraseProdSlabs_all (h : t.OK n) {Q : List Nat → SlabTracker → Prop}
    {E : Exc → SlabTracker → Prop}
    (ok : ∀ t', t'.consSlabRefcnt = t.consSlabRefcnt → t'.consSlabsHeld = t.consSlabsHeld →
      t'.totalNumSlabs = t.totalNumSlabs → Q t.prodSlabs t') :
    wp (getAndEraseProdSlabs t.prodSlabsHeld) t Q E := by
  rw [← h.prodSlabs_length]
  simp only [getAndEraseProdSlabs, wp_bind, wp_get, wp_set, wp_pure]
  rw [← prodSlabs, List.take_length]
  exact ok _ rfl rfl rfl

theorem getAndEraseConsSlabs_all (length : t.consSlabs.length = t.consSlabsHeld)
    {Q : List (Nat × Nat) → SlabTracker → Prop} {E : Exc → SlabTracker → Prop}
    (ok : ∀ t', Q (t.consSlabs.map fun s => (s, t.consSlabRefcnt s)) t') :
    wp (getAndEraseConsSlabs t.consSlabsHeld) t Q E := by
  rw [← length]
  simp only [getAndEraseConsSlabs, wp_bind, wp_get, wp_set, wp_pure]
  rw [← consSlabs, List.take_length]
  exact ok _

theorem OK.setTotalNumSlabs_eq (h : t.OK n) {n' : Nat} (le : n ≤ n') :
    t.setTotalNumSlabs n' = { t with totalNumSlabs := n' } := by
  have prod : (fun s => decide (s < min t.totalNumSlabs n') && t.prodSlabRefcnt s) =
      t.prodSlabRefcnt := by
    funext s
    rw [h.total, min_eq_left le]
    by_cases lt : s < n
    · simp [lt]
    · have := h.outside s (Nat.not_lt.mp lt)
      have out : t.prodSlabRefcnt s = false := by
        by_contra held
        simp [refs, held] at this
      simp [out]
  have cons : (fun s => if s < min t.totalNumSlabs n' then t.consSlabRefcnt s else 0) =
      t.consSlabRefcnt := by
    funext s
    rw [h.total, min_eq_left le]
    by_cases lt : s < n
    · simp [lt]
    · have := h.outside s (Nat.not_lt.mp lt)
      unfold refs at this
      simp only [lt, if_false]
      omega
  unfold setTotalNumSlabs
  rw [prod, cons]

theorem slabCount_extend {p : Nat → Bool} {n' : Nat} (le : n ≤ n')
    (outside : ∀ s, n ≤ s → p s = false) : slabCount n' p = slabCount n p := by
  obtain ⟨k, rfl⟩ := Nat.exists_eq_add_of_le le
  induction k with
  | zero => rfl
  | succ k ih =>
    have last := outside (n + k) (Nat.le_add_right n k)
    rw [← ih (Nat.le_add_right n k)]
    simp [slabCount, ← Nat.add_assoc, List.range_succ, last]

/-- More slabs, none of them held. -/
theorem OK.setTotalNumSlabs (h : t.OK n) {n' : Nat} (le : n ≤ n') (small : n' < 2 ^ 32) :
    (t.setTotalNumSlabs n').OK n' := by
  have out (s : Nat) (ge : n ≤ s) : t.prodSlabRefcnt s = false ∧ t.consSlabRefcnt s = 0 := by
    have := h.outside s ge
    unfold refs at this
    refine ⟨?_, by omega⟩
    by_contra held
    simp [held] at this
  rw [h.setTotalNumSlabs_eq le]
  refine ⟨rfl, small, ?_, ?_, h.consSmall, fun s ge => h.outside s (le.trans ge)⟩
  · rw [slabCount_extend le fun s ge => (out s ge).1]
    exact h.prodHeld
  · rw [slabCount_extend le fun s ge => by simp [(out s ge).2]]
    exact h.consHeld

theorem OK.fresh (small : n < 2 ^ 32) : (SlabTracker.setTotalNumSlabs {} n).OK n := by
  have zero : OK {} 0 := ⟨rfl, Nat.two_pow_pos 32, rfl, rfl, fun _ => Nat.two_pow_pos 16,
    fun _ _ => rfl⟩
  exact zero.setTotalNumSlabs (Nat.zero_le n) small

end
end SlabTracker
end Mcsb
