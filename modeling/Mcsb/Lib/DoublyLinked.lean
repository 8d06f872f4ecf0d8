import Mathlib.Data.List.Rotate
import Mathlib.Logic.Function.Basic

/-!
# Doubly linked rings

Nodes in a heap, each with a pointer to the next one and one to the previous
one. A ring can be entered at any of its nodes, so a node is always linked in at
the end of the ring from its successor, and taken out at the front of the ring
from itself.
-/

namespace DoublyLinked
variable {κ : Type}

/-- Forward from `x` are the nodes of `l` and then `y`, and backward the same. -/
def Path (next prev : κ → κ) : κ → List κ → κ → Prop
  | x, [], y => next x = y ∧ prev y = x
  | x, a :: l, y => (next x = a ∧ prev a = x) ∧ Path next prev a l y

/-- The ring from `r` around the nodes of `l`. -/
def Ring (next prev : κ → κ) (r : κ) (l : List κ) : Prop := Path next prev r l r

variable {next prev next' prev' : κ → κ} {x y a r p : κ} {l l₁ l₂ : List κ}

theorem path_append :
    Path next prev x (l₁ ++ a :: l₂) y ↔ Path next prev x l₁ a ∧ Path next prev a l₂ y := by
  induction l₁ generalizing x with
  | nil => rfl
  | cons b l₁ ih => simp only [List.cons_append, Path, ih, and_assoc]

/-- Pointers elsewhere do not matter. -/
theorem Path.congr (h : Path next prev x l y) (forward : ∀ z ∈ x :: l, next' z = next z)
    (backward : ∀ z ∈ l ++ [y], prev' z = prev z) : Path next' prev' x l y := by
  induction l generalizing x with
  | nil =>
    constructor
    · rw [forward x (List.mem_singleton_self x)]
      exact h.1
    · rw [backward y (List.mem_singleton_self y)]
      exact h.2
  | cons b l ih =>
    obtain ⟨here, later⟩ := List.forall_mem_cons.mp forward
    obtain ⟨first, rest⟩ := List.forall_mem_cons.mp backward
    refine ⟨?_, ih h.2 later rest⟩
    rw [here, first]
    exact h.1

theorem Ring.congr (h : Ring next prev r l) (forward : ∀ z ∈ r :: l, next' z = next z)
    (backward : ∀ z ∈ r :: l, prev' z = prev z) : Ring next' prev' r l := by
  apply Path.congr h forward
  intro z mem
  apply backward
  simpa [or_comm] using mem

/-- The nodes say what the pointers are. -/
theorem Path.agree (h : Path next prev x l y) (h' : Path next' prev' x l y) :
    (∀ z ∈ x :: l, next' z = next z) ∧ ∀ z ∈ l ++ [y], prev' z = prev z := by
  induction l generalizing x with
  | nil =>
    simp only [List.nil_append, List.mem_singleton, forall_eq]
    exact ⟨h'.1.trans h.1.symm, h'.2.trans h.2.symm⟩
  | cons a l ih =>
    obtain ⟨forward, backward⟩ := ih h.2 h'.2
    constructor
    · exact List.forall_mem_cons.mpr ⟨h'.1.1.trans h.1.1.symm, forward⟩
    · exact List.forall_mem_cons.mpr ⟨h'.1.2.trans h.1.2.symm, backward⟩

theorem Ring.agree {z : κ} (h : Ring next prev r l) (h' : Ring next' prev' r l) (mem : z ∈ r :: l) :
    next' z = next z ∧ prev' z = prev z := by
  obtain ⟨forward, backward⟩ := Path.agree h h'
  constructor
  · exact forward z mem
  · apply backward
    simpa [or_comm] using mem

/-- A ring can be entered anywhere. -/
theorem ring_rotate : Ring next prev r (l₁ ++ p :: l₂) ↔ Ring next prev p (l₂ ++ r :: l₁) := by
  unfold Ring
  rw [path_append, path_append, and_comm]

theorem Ring.next_nil (h : Ring next prev r []) : next r = r := h.1

theorem Ring.next_cons (h : Ring next prev r (a :: l)) : next r = a := h.1.1

theorem Ring.prev_nil (h : Ring next prev r []) : prev r = r := h.2

theorem Ring.prev_snoc (h : Ring next prev r (l ++ [a])) : prev r = a :=
  (path_append.mp h).2.2

/-- The last node of a ring, or the one it is entered at. -/
theorem Ring.prev_mem (h : Ring next prev r l) : prev r ∈ r :: l := by
  rcases List.eq_nil_or_concat l with rfl | ⟨l, x, rfl⟩
  · rw [h.prev_nil]
    exact List.mem_cons_self
  · rw [List.concat_eq_append] at h ⊢
    rw [h.prev_snoc]
    simp

theorem Ring.next_mem (h : Ring next prev r l) : next r ∈ r :: l := by
  cases l with
  | nil =>
    rw [h.next_nil]
    exact List.mem_cons_self
  | cons a l =>
    rw [h.next_cons]
    simp

/-- The first node, or the one the ring is entered at. -/
def front (r : κ) : List κ → κ
  | [] => r
  | p :: _ => p

theorem Ring.next_root (h : Ring next prev r l) : next r = front r l := by
  cases l with
  | nil => exact h.next_nil
  | cons p l => exact h.next_cons

theorem Ring.next_at (h : Ring next prev r (l₁ ++ a :: l₂)) : next a = front r l₂ := by
  have turned := ring_rotate.mp h
  cases l₂ with
  | nil => exact turned.next_cons
  | cons p l₂ => exact turned.next_cons

theorem Ring.prev_at (h : Ring next prev r (l₁ ++ l₂)) : prev (front r l₂) ∈ r :: (l₁ ++ l₂) := by
  cases l₂ with
  | nil => exact h.prev_mem
  | cons p l₂ =>
    have mem := (ring_rotate.mp h).prev_mem
    simp only [front, List.mem_cons, List.mem_append] at mem ⊢
    tauto

theorem front_mem : front r l₂ ∈ r :: (l₁ ++ l₂) := by
  cases l₂ with
  | nil => exact List.mem_cons_self
  | cons p l₂ => simp [front]

theorem nodup_rotate : (r :: (l₁ ++ p :: l₂)).Nodup ↔ (p :: (l₂ ++ r :: l₁)).Nodup :=
  List.IsRotated.nodup_iff ⟨(r :: l₁).length, by
    rw [← List.cons_append, List.rotate_append_length_eq]
    rfl⟩

variable [DecidableEq κ]

/-- The pointers after `a` is linked in before `p`. -/
def insertNext (next prev : κ → κ) (a p : κ) : κ → κ :=
  Function.update (Function.update next a p) (prev p) a

def insertPrev (prev : κ → κ) (a p : κ) : κ → κ :=
  Function.update (Function.update prev a (prev p)) p a

theorem insertNext_self (other : a ≠ prev p) : insertNext next prev a p a = p := by
  rw [insertNext, Function.update_of_ne other, Function.update_self]

theorem insertNext_prev : insertNext next prev a p (prev p) = a := Function.update_self ..

theorem insertNext_of_ne (new : x ≠ a) (other : x ≠ prev p) :
    insertNext next prev a p x = next x := by
  rw [insertNext, Function.update_of_ne other, Function.update_of_ne new]

theorem insertPrev_self (other : a ≠ p) : insertPrev prev a p a = prev p := by
  rw [insertPrev, Function.update_of_ne other, Function.update_self]

theorem insertPrev_next : insertPrev prev a p p = a := Function.update_self ..

theorem insertPrev_of_ne (new : x ≠ a) (other : x ≠ p) : insertPrev prev a p x = prev x := by
  rw [insertPrev, Function.update_of_ne other, Function.update_of_ne new]

/-- A node is linked in at the end of the ring. -/
theorem Ring.insert (h : Ring next prev p l) (distinct : (p :: l).Nodup) (new : a ∉ p :: l) :
    Ring (insertNext next prev a p) (insertPrev prev a p) p (l ++ [a]) := by
  have ne (z : κ) (mem : z ∈ p :: l) : z ≠ a := fun same => new (same ▸ mem)
  have forth := @insertNext_self κ next prev a p _ (ne _ h.prev_mem).symm
  have back := @insertPrev_self κ prev a p _ (ne p List.mem_cons_self).symm
  have forth' := @insertNext_prev κ next prev a p _
  have back' := @insertPrev_next κ prev a p _
  apply path_append.mpr
  refine ⟨?_, forth, back'⟩
  rcases List.eq_nil_or_concat l with rfl | ⟨l, x, rfl⟩
  · rw [h.prev_nil] at back forth'
    exact ⟨forth', back⟩
  · rw [List.concat_eq_append] at *
    have last := h.prev_snoc
    rw [last] at back forth'
    apply path_append.mpr
    refine ⟨(path_append.mp h).1.congr ?_ ?_, forth', back⟩
    · intro z mem
      apply insertNext_of_ne
      · exact ne z (List.mem_append_left [x] mem)
      · rw [last]
        rintro rfl
        rw [← List.cons_append] at distinct
        exact List.disjoint_of_nodup_append distinct mem (List.mem_singleton_self z)
    · intro z mem
      apply insertPrev_of_ne
      · exact ne z (List.mem_cons_of_mem p mem)
      · rintro rfl
        exact (List.nodup_cons.mp distinct).1 mem

/-- The pointers after `a` is taken out, which then points at itself. -/
def removeNext (next prev : κ → κ) (a : κ) : κ → κ :=
  Function.update (Function.update next (prev a) (next a)) a a

def removePrev (next prev : κ → κ) (a : κ) : κ → κ :=
  Function.update (Function.update prev (next a) (prev a)) a a

theorem removeNext_self : removeNext next prev a a = a := Function.update_self ..

theorem removePrev_self : removePrev next prev a a = a := Function.update_self ..

theorem removeNext_prev (other : prev a ≠ a) : removeNext next prev a (prev a) = next a := by
  rw [removeNext, Function.update_of_ne other, Function.update_self]

theorem removePrev_next (other : next a ≠ a) : removePrev next prev a (next a) = prev a := by
  rw [removePrev, Function.update_of_ne other, Function.update_self]

theorem removeNext_of_ne (here : x ≠ a) (other : x ≠ prev a) :
    removeNext next prev a x = next x := by
  rw [removeNext, Function.update_of_ne here, Function.update_of_ne other]

theorem removePrev_of_ne (here : x ≠ a) (other : x ≠ next a) :
    removePrev next prev a x = prev x := by
  rw [removePrev, Function.update_of_ne here, Function.update_of_ne other]

/-- The node a ring is entered at is taken out. -/
theorem Ring.remove (h : Ring next prev a (y :: l)) (distinct : (a :: y :: l).Nodup) :
    Ring (removeNext next prev a) (removePrev next prev a) y l := by
  obtain ⟨a_notin, rest⟩ := List.nodup_cons.mp distinct
  have ne (z : κ) (mem : z ∈ y :: l) : z ≠ a := fun same => a_notin (same ▸ mem)
  have first := h.next_cons
  have back := @removePrev_next κ next prev a _ (first ▸ ne y List.mem_cons_self)
  rw [first] at back
  rcases List.eq_nil_or_concat l with rfl | ⟨l, x, rfl⟩
  · have last : prev a = y := h.2.2
    have forth := @removeNext_prev κ next prev a _ (last ▸ ne y List.mem_cons_self)
    rw [last] at back forth
    exact ⟨forth.trans first, back⟩
  · rw [List.concat_eq_append] at *
    have last : prev a = x := Ring.prev_snoc (l := y :: l) h
    have forth := @removeNext_prev κ next prev a _ (last ▸ ne x (by simp))
    rw [last] at back forth
    apply path_append.mpr
    refine ⟨(path_append.mp h.2).1.congr ?_ ?_, forth.trans first, back⟩
    · intro z mem
      apply removeNext_of_ne
      · exact ne z (List.mem_append_left [x] mem)
      · rw [last]
        rintro rfl
        rw [← List.cons_append] at rest
        exact List.disjoint_of_nodup_append rest mem (List.mem_singleton_self z)
    · intro z mem
      apply removePrev_of_ne
      · exact ne z (List.mem_cons_of_mem y mem)
      · rw [first]
        rintro rfl
        exact (List.nodup_cons.mp rest).1 mem

/-! ## Anywhere in a ring -/

/-- A node is linked in between. -/
theorem Ring.insert_at (h : Ring next prev r (l₁ ++ l₂)) (distinct : (r :: (l₁ ++ l₂)).Nodup)
    (new : a ∉ r :: (l₁ ++ l₂)) :
    Ring (insertNext next prev a (front r l₂)) (insertPrev prev a (front r l₂)) r
      (l₁ ++ a :: l₂) := by
  cases l₂ with
  | nil =>
    rw [List.append_nil] at h distinct new
    exact h.insert distinct new
  | cons p l₂ =>
    have turned := (ring_rotate.mp h).insert (nodup_rotate.mp distinct) (a := a) (by
      simp only [List.mem_cons, List.mem_append] at new ⊢
      tauto)
    rw [List.append_assoc, List.cons_append] at turned
    have back := ring_rotate.mpr turned
    rwa [List.append_assoc] at back

/-- A node is taken out. -/
theorem Ring.remove_at (h : Ring next prev r (l₁ ++ a :: l₂))
    (distinct : (r :: (l₁ ++ a :: l₂)).Nodup) :
    Ring (removeNext next prev a) (removePrev next prev a) r (l₁ ++ l₂) := by
  have turned := ring_rotate.mp h
  have apart := nodup_rotate.mp distinct
  cases l₂ with
  | nil =>
    rw [List.append_nil]
    exact turned.remove apart
  | cons p l₂ => exact ring_rotate.mpr (turned.remove apart)

/-- What is not in the ring keeps its pointers. -/
theorem Ring.insert_frame (h : Ring next prev r (l₁ ++ l₂)) (other : x ≠ a)
    (outside : x ∉ r :: (l₁ ++ l₂)) :
    insertNext next prev a (front r l₂) x = next x ∧
      insertPrev prev a (front r l₂) x = prev x := by
  constructor
  · exact insertNext_of_ne other fun same => outside (same ▸ h.prev_at)
  · exact insertPrev_of_ne other fun same => outside (same ▸ front_mem)

theorem Ring.remove_frame (h : Ring next prev r (l₁ ++ a :: l₂))
    (outside : x ∉ r :: (l₁ ++ a :: l₂)) :
    removeNext next prev a x = next x ∧ removePrev next prev a x = prev x := by
  have turned := ring_rotate.mp h
  have moved (z : κ) (mem : z ∈ a :: (l₂ ++ r :: l₁)) : z ∈ r :: (l₁ ++ a :: l₂) := by
    simp only [List.mem_cons, List.mem_append] at mem ⊢
    tauto
  have here : x ≠ a := fun same => outside (same ▸ moved a List.mem_cons_self)
  constructor
  · exact removeNext_of_ne here fun same => outside (same ▸ moved _ turned.prev_mem)
  · exact removePrev_of_ne here fun same => outside (same ▸ moved _ turned.next_mem)

end DoublyLinked
