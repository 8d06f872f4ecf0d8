import Mcsb.Manager.Callbacks

/-!
# A decrement that fails

`DecrementHeldRefcnt` takes the amounts one after the other and throws at the
first that is too large. `DecrementHeld` has then set the count to 0 already,
and a slab that was held stays on the list of those held (`partition_iff`).
-/

namespace Mcsb
open Effect

namespace SlabAct

section
variable {σ : Type} (handler : SlabHandler σ)

/-- One turn of the loop. -/
def decrementOne (slab : Nat × Nat) : SlabAct σ Unit := do
  let change ← onSlabs (SlabManager.decrementHeldRefcnt slab.1 slab.2)
  notifyChange handler slab.1 change

theorem decrementHeldRefcnt_cons (slab : Nat × Nat) (slabs : List (Nat × Nat)) :
    decrementHeldRefcnt handler (slab :: slabs) =
      (decrementOne handler slab >>= fun _ => decrementHeldRefcnt handler slabs) := by
  rw [decrementOne, bind_assoc]
  rfl

/-- The slabs taken at each other change, from the changes told in order. -/
def takings : List (Which × Nat) → List (List Nat)
  | [] => []
  | (.freeToHeld, _) :: told => takings told
  | (.wantedToHeld, _) :: told => (told.takeWhile (·.1 = .freeToHeld)).map (·.2) :: takings told
  | (.released _, _) :: told => (told.takeWhile (·.1 = .freeToHeld)).map (·.2) :: takings told

/-- What the handler takes while `DecrementHeldRefcnt` runs, each time it is called. -/
def takenBy (slabs : List (Nat × Nat)) (w : Called σ) : List (List Nat) :=
  match decrementHeldRefcnt handler slabs w with
  | .ok _ w' => takings (w'.told.drop w.told.length)
  | .error _ w' => takings (w'.told.drop w.told.length)

end

/-- The first amount that is too large is for a slab with some holders left. They are
those it had, less the amounts taken, and one for each time the handler has taken it. -/
def Overdraws (heldRefcnt : Nat → Nat) (taken : List (List Nat)) : List (Nat × Nat) → Prop
  | [] => False
  | (slabID, amount) :: slabs =>
    if heldRefcnt slabID < amount then 0 < heldRefcnt slabID
    else
      let left := Function.update heldRefcnt slabID (heldRefcnt slabID - amount)
      if heldRefcnt slabID - amount ≠ 0 then Overdraws left taken slabs
      else Overdraws (fun s => left s + (taken.headD []).count s) taken.tail slabs

section
variable {σ : Type} {handler : SlabHandler σ} {sm : SlabManager} {s amount : Nat}

/-- Setting the count of a slab to 0 leaves it on its list if it was 0. -/
theorem partition_zero_iff (h : sm.Partition) :
    (sm.updateInfo s fun slab => { slab with heldRefcnt := 0 }).Partition ↔
      ¬ 0 < (sm.info s).heldRefcnt := by
  constructor
  · intro after some
    have held : s ∈ sm.heldSlabs := (h.mem_held s).mpr ⟨h.lt_of_held some.ne', some.ne'⟩
    have none := ((after.mem_held s).mp held).2
    simp at none
  · intro none
    have zero : (sm.info s).heldRefcnt = 0 := Nat.eq_zero_of_not_pos none
    have same : { sm.info s with heldRefcnt := 0 } = sm.info s := by rw [← zero]
    rwa [SlabManager.updateInfo, same, Function.update_eq_self]

/-! ## What the handler takes -/

/-- From `w` to `w'` slabs were only taken. -/
structure Takes (w w' : Called σ) (taken : List Nat) : Prop where
  told : w'.told = w.told ++ taken.map fun s => (.freeToHeld, s)
  held : ∀ s, (w'.slabs.info s).heldRefcnt = (w.slabs.info s).heldRefcnt + taken.count s

theorem grabStable_takes (w₀ : Called σ) :
    GrabStable (fun w : Called σ => w.slabs.Partition ∧ ∃ taken, Takes w₀ w taken)
      (fun _ _ => False) := by
  constructor
  · rintro _ _ ⟨part, taken, takes⟩
    exact ⟨part, taken, takes.told, takes.held⟩
  · rintro w s rest ⟨part, -⟩ front
    exact .inl (part.idle front)
  · rintro w s rest ⟨part, taken, takes⟩ front - -
    refine ⟨part.grab front, taken ++ [s], ?_, ?_⟩
    · rw [List.map_append, ← List.append_assoc, ← takes.told]
      rfl
    · intro t
      rw [Called.slabs_tell, SlabManager.info_grab, List.count_append, ← Nat.add_assoc,
        ← takes.held]
      split
      · rename_i here
        rw [here]
        simp
      · rename_i there
        rw [List.count_singleton, beq_eq_false_iff_ne.mpr (Ne.symm there)]
        rfl

/-- The changes that one amount brings about. -/
def changes (change : Option StateChange) (s : Nat) (taken : List Nat) : List (Which × Nat) :=
  match change with
  | none => []
  | some change => (.released change, s) :: taken.map fun s => (.freeToHeld, s)

variable (handler) in
/-- An amount that is not too large is taken, and every slab stays on its list. The
handler, if it is told, may take slabs. -/
theorem wp_decrementOne {w : Called σ} (h : w.slabs.Partition) (pos : 0 < amount)
    (le : amount ≤ (w.slabs.info s).heldRefcnt) :
    wp (decrementOne handler (s, amount)) w
      (fun _ w' => w'.slabs.Partition ∧ ∃ taken,
        w'.told = w.told ++ changes (w.slabs.unholdChange s amount) s taken ∧
        (w.slabs.unholdChange s amount = none → taken = []) ∧
        ∀ t, (w'.slabs.info t).heldRefcnt =
          ((w.slabs.unhold s amount).info t).heldRefcnt + taken.count t)
      (fun _ _ => False) := by
  apply wp_bind.mpr
  apply wp_zoom.mpr
  rw [SlabManager.decrementHeldRefcnt_ok h pos le]
  have after := h.unhold pos le
  cases w.slabs.unholdChange s amount with
  | none => exact ⟨after, [], (List.append_nil _).symm, fun _ => rfl, fun _ => rfl⟩
  | some change =>
    let w₀ := Called.tell { w with slabs := w.slabs.unhold s amount } (.released change) s
    have start : w₀.slabs.Partition ∧ ∃ taken, Takes w₀ w₀ taken :=
      ⟨after, [], (List.append_nil _).symm, fun _ => rfl⟩
    apply wp_mono (wp_notify (grabStable_takes w₀) start)
    · rintro _ w' ⟨part, taken, takes⟩
      refine ⟨part, taken, ?_, nofun, takes.held⟩
      rw [takes.told]
      exact List.append_assoc ..
    · intro _ _
      exact id

/-! ## The turns together -/

/-- The first change told is none of a slab taken. -/
def Begins (told : List (Which × Nat)) : Prop := ∀ change ∈ told.head?, change.1 ≠ .freeToHeld

theorem takings_taken (taken : List Nat) (told : List (Which × Nat)) :
    takings ((taken.map fun s => (Which.freeToHeld, s)) ++ told) = takings told := by
  induction taken with
  | nil => rfl
  | cons t taken ih =>
    rw [List.map_cons, List.cons_append, takings]
    exact ih

theorem takeWhile_taken (taken : List Nat) {told : List (Which × Nat)} (begins : Begins told) :
    (((taken.map fun s => (Which.freeToHeld, s)) ++ told).takeWhile
      (·.1 = .freeToHeld)).map (·.2) = taken := by
  induction taken with
  | nil =>
    cases told with
    | nil => rfl
    | cons first told =>
      have other : ¬ first.1 = .freeToHeld := begins first rfl
      simp [other]
  | cons t taken ih =>
    simp only [List.map_cons, List.cons_append, List.takeWhile_cons, decide_true, if_true]
    rw [ih]

theorem takings_changes {change : StateChange} {taken : List Nat} {told : List (Which × Nat)}
    (begins : Begins told) :
    takings (changes (some change) s taken ++ told) = taken :: takings told := by
  rw [changes, List.cons_append, takings, takeWhile_taken taken begins, takings_taken]

variable (handler) in
theorem wp_decrement_overdraws (slabs : List (Nat × Nat)) {w : Called σ} (h : w.slabs.Partition)
    (pos : ∀ slab ∈ slabs, 0 < slab.2) :
    wp (decrementHeldRefcnt handler slabs) w
      (fun _ w' => ∃ told, w'.told = w.told ++ told ∧ Begins told ∧
        ¬ Overdraws (fun s => (w.slabs.info s).heldRefcnt) (takings told) slabs)
      (fun e w' => e ≠ .stuck ∧ ∃ told, w'.told = w.told ++ told ∧ Begins told ∧
        (w'.slabs.Partition ↔
          ¬ Overdraws (fun s => (w.slabs.info s).heldRefcnt) (takings told) slabs)) := by
  induction slabs generalizing w with
  | nil => exact ⟨[], (List.append_nil _).symm, by simp [Begins], id⟩
  | cons slab slabs ih =>
    obtain ⟨s, amount⟩ := slab
    rw [List.forall_mem_cons] at pos
    rw [decrementHeldRefcnt_cons]
    rcases Nat.lt_or_ge (w.slabs.info s).heldRefcnt amount with more | le
    · simp only [Overdraws, if_pos more]
      apply wp_bind.mpr
      apply wp_bind.mpr
      apply wp_zoom.mpr
      apply wp_mono (wp_decrementHeld h pos.1)
      · rintro _ _ ⟨le, -⟩
        exact absurd more (Nat.not_lt.mpr le)
      · rintro e _ ⟨error, -, rfl⟩
        exact ⟨error, [], (List.append_nil _).symm, by simp [Begins], partition_zero_iff h⟩
    · obtain ⟨⟨⟩, w₁, ran, part, taken, told₁, none, held⟩ :=
        ok_of_wp (wp_decrementOne handler h pos.1 le)
      have later (told : List (Which × Nat)) (begins : Begins told) :
          Begins (changes (w.slabs.unholdChange s amount) s taken ++ told) ∧
          (Overdraws (fun s => (w.slabs.info s).heldRefcnt)
            (takings (changes (w.slabs.unholdChange s amount) s taken ++ told))
            ((s, amount) :: slabs) ↔
          Overdraws (fun s => (w₁.slabs.info s).heldRefcnt) (takings told) slabs) := by
        have counts : (fun t => (w₁.slabs.info t).heldRefcnt) = fun t =>
            Function.update (fun t => (w.slabs.info t).heldRefcnt) s
              ((w.slabs.info s).heldRefcnt - amount) t + taken.count t := by
          funext t
          rw [held, SlabManager.info_unhold, Function.update_apply]
          split <;> rfl
        rw [counts, Overdraws, if_neg (Nat.not_lt.mpr le)]
        by_cases left : (w.slabs.info s).heldRefcnt - amount ≠ 0
        · have still : w.slabs.unholdChange s amount = .none := if_pos left
          rw [if_pos left, still, none still]
          exact ⟨begins, Iff.rfl⟩
        · obtain ⟨change, last⟩ : ∃ change, w.slabs.unholdChange s amount = some change := by
            rw [SlabManager.unholdChange, if_neg left]
            split <;> exact ⟨_, rfl⟩
          rw [if_neg left, last, takings_changes begins]
          exact ⟨by simp [changes, Begins], Iff.rfl⟩
      rw [wp_bind, wp_of_ok ran]
      apply wp_mono (ih part pos.2)
      · rintro _ w' ⟨told, eq, begins, fine⟩
        obtain ⟨begins, iff⟩ := later told begins
        exact ⟨_, by rw [eq, told₁, List.append_assoc], begins, mt iff.mp fine⟩
      · rintro e w' ⟨error, told, eq, begins, same⟩
        obtain ⟨begins, iff⟩ := later told begins
        exact ⟨error, _, by rw [eq, told₁, List.append_assoc], begins, same.trans (not_congr iff).symm⟩

end

/-- Only the slabs of the list matter. -/
theorem overdraws_apart {taken : List (List Nat)} {slabs : List (Nat × Nat)}
    {held held' : Nat → Nat} (apart : ∀ batch ∈ taken, ∀ s ∈ batch, s ∉ slabs.map Prod.fst)
    (same : ∀ s ∈ slabs.map Prod.fst, held s = held' s) :
    Overdraws held taken slabs ↔ Overdraws held' [] slabs := by
  induction slabs generalizing taken held held' with
  | nil => exact Iff.rfl
  | cons slab slabs ih =>
    obtain ⟨s, amount⟩ := slab
    have here : held s = held' s := same s List.mem_cons_self
    have update (t : Nat) (mem : t ∈ slabs.map Prod.fst) :
        Function.update held s (held s - amount) t = Function.update held' s (held' s - amount) t := by
      rw [Function.update_apply, Function.update_apply, here, same t (List.mem_cons_of_mem s mem)]
    have later {batch : List Nat} (mem : batch ∈ taken) (t : Nat) (inside : t ∈ batch) :
        t ∉ slabs.map Prod.fst := fun listed => apart batch mem t inside (List.mem_cons_of_mem s listed)
    simp only [Overdraws, here]
    split
    · exact Iff.rfl
    · split
      · rw [← here]
        exact ih (fun batch mem => later mem) fun t mem => by rw [update t mem, here]
      · apply ih
        · exact fun batch mem => later (List.mem_of_mem_tail mem)
        · intro t mem
          have none : (taken.headD []).count t = 0 := by
            apply List.count_eq_zero.mpr
            cases taken with
            | nil => exact List.not_mem_nil
            | cons batch taken => exact fun inside => later List.mem_cons_self t inside mem
          rw [none, ← here, update t mem, here]
          rfl

/-- When `DecrementHeldRefcnt` throws, every slab is on its list unless the first
amount that is too large is for a slab that has holders left. What a handler takes
does not matter if it is no slab of the list. -/
theorem partition_iff {σ : Type} (handler : SlabHandler σ) (w : Called σ) (slabs : List (Nat × Nat))
    (h : w.slabs.Partition) (pos : ∀ slab ∈ slabs, 0 < slab.2) :
    ((∀ e w', decrementHeldRefcnt handler slabs w = .error e w' → w'.slabs.Partition) ↔
      ¬ Overdraws (fun s => (w.slabs.info s).heldRefcnt) (takenBy handler slabs w) slabs) ∧
    ((∀ taken ∈ takenBy handler slabs w, ∀ s ∈ taken, s ∉ slabs.map Prod.fst) →
      (Overdraws (fun s => (w.slabs.info s).heldRefcnt) (takenBy handler slabs w) slabs ↔
        Overdraws (fun s => (w.slabs.info s).heldRefcnt) [] slabs)) := by
  have spec := wp_decrement_overdraws handler slabs h pos
  constructor
  · unfold takenBy
    cases ran : decrementHeldRefcnt handler slabs w with
    | ok a w' =>
      obtain ⟨told, eq, -, fine⟩ := (wp_of_ok ran).mp spec
      apply iff_of_true
      · intro _ _ threw
        cases threw
      · dsimp only
        rw [eq, List.drop_left]
        exact fine
    | error e w' =>
      obtain ⟨-, told, eq, -, same⟩ := (wp_of_error ran).mp spec
      dsimp only
      rw [eq, List.drop_left, ← same]
      constructor
      · intro always
        exact always e w' rfl
      · intro part _ _ threw
        cases threw
        exact part
  · exact fun apart => overdraws_apart apart fun _ _ => rfl

/-- One slab, which one client holds. -/
def heldOnce : Called Unit :=
  let w := Called.new 1 1 0 ()
  { w with slabs := w.slabs.grab 0 [] }

theorem partition_heldOnce : heldOnce.slabs.Partition :=
  (right_new () Nat.one_pos).sound.partition.grab rfl

/-- Its holder gives it up, the handler takes it, and two more holders are given up. -/
theorem partition_iff_heldOnce :
    takenBy takesFreed [(0, 1), (0, 2)] heldOnce = [[0]] ∧
    Overdraws (fun s => (heldOnce.slabs.info s).heldRefcnt) [[0]] [(0, 1), (0, 2)] ∧
    ¬ ∀ e w', decrementHeldRefcnt takesFreed [(0, 1), (0, 2)] heldOnce = .error e w' →
      w'.slabs.Partition := by
  have took : takenBy takesFreed [(0, 1), (0, 2)] heldOnce = [[0]] := rfl
  have more : Overdraws (fun s => (heldOnce.slabs.info s).heldRefcnt) [[0]] [(0, 1), (0, 2)] := by
    have none : ((Called.new 1 1 0 ()).slabs.info 0).heldRefcnt = 0 := rfl
    simp [Overdraws, heldOnce, SlabManager.info_grab, none]
  have iff := (partition_iff takesFreed heldOnce [(0, 1), (0, 2)] partition_heldOnce
    (by decide)).1
  rw [took] at iff
  exact ⟨took, more, fun always => iff.mp always more⟩

/-- Two holders are given up of one. -/
theorem not_partition_error : ¬ ∀ (handler : SlabHandler Unit) w slabs, w.slabs.Partition →
    (∀ slab ∈ slabs, 0 < slab.2) → ∀ e w', decrementHeldRefcnt handler slabs w = .error e w' →
      w'.slabs.Partition := by
  intro all
  have after := all takesFreed heldOnce [(0, 2)] partition_heldOnce (by simp) _ _ rfl
  exact ((after.mem_held 0).mp (List.mem_singleton_self 0)).2 rfl

end SlabAct
end Mcsb
