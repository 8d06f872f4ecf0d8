import Mcsb.Manager.Tracking

/-!
# What clients can do to a tracker

The lists of slabs that a client may send back, and the runs of takes and
releases on one tracker. Each call is meant to do all of it or nothing, and
the counts to be exact.
-/

namespace Mcsb
open Effect

namespace SlabTracker

section
variable {t t' : SlabTracker} {slabIDs : List Nat}

/-! ## Producer slabs -/

/-- Exactly the listed slabs were given up, each held and listed once. -/
structure ErasedExactly (t t' : SlabTracker) (slabIDs : List Nat) : Prop where
  nodup : slabIDs.Nodup
  held : ∀ s ∈ slabIDs, t.prodSlabRefcnt s = true
  bits : ∀ s, t'.prodSlabRefcnt s = true ↔ s ∉ slabIDs ∧ t.prodSlabRefcnt s = true
  counted : t'.prodSlabsHeld = slabCount t'.totalNumSlabs t'.prodSlabRefcnt
  others : ∃ prodSlabRefcnt prodSlabsHeld, t' = { t with prodSlabRefcnt, prodSlabsHeld }

/-- The call erases exactly the list, or throws and does nothing. -/
def ErasesAllOrNothing (t : SlabTracker) (slabIDs : List Nat) : Prop :=
  wp (eraseProdSlabs slabIDs) t (fun _ t' => t.ErasedExactly t' slabIDs) (fun _ t' => t' = t)

/-- The list is refused: it is too long, or names a slab that is not held. -/
def Refused (t : SlabTracker) (slabIDs : List Nat) : Prop :=
  t.prodSlabsHeld < slabIDs.length ∨ ∃ s ∈ slabIDs, t.prodSlabRefcnt s = false

instance (t : SlabTracker) (slabIDs : List Nat) : Decidable (t.Refused slabIDs) :=
  inferInstanceAs (Decidable (_ ∨ _))

theorem wp_eraseProdSlabs {Q : Unit → SlabTracker → Prop} {E : Exc → SlabTracker → Prop}
    (refused : t.Refused slabIDs → ∀ what, E (.runtimeError what) t)
    (erased : ¬ t.Refused slabIDs → Q ⟨⟩ (slabIDs.foldl eraseProdSlab t)) :
    wp (eraseProdSlabs slabIDs) t Q E := by
  simp only [eraseProdSlabs, wp_bind, wp_get, wp_ite, wp_throw, wp_set]
  split
  · rename_i long
    exact refused (.inl long) _
  · rename_i short
    split
    · rename_i missing
      apply refused
      obtain ⟨s, mem, free⟩ := List.any_eq_true.mp missing
      exact .inr ⟨s, mem, by simpa using free⟩
    · rename_i all
      apply erased
      rintro (long | ⟨s, mem, free⟩)
      · exact short long
      · exact all (List.any_eq_true.mpr ⟨s, mem, by simp [free]⟩)

theorem prodSlabRefcnt_foldl_erase (t : SlabTracker) (slabIDs : List Nat) (s : Nat) :
    (slabIDs.foldl eraseProdSlab t).prodSlabRefcnt s = true ↔
      s ∉ slabIDs ∧ t.prodSlabRefcnt s = true := by
  induction slabIDs generalizing t with
  | nil => simp
  | cons x slabIDs ih =>
    rw [List.foldl_cons, ih, prodSlabRefcnt_eraseProdSlab]
    simp
    tauto

theorem prodSlabsHeld_foldl_erase (t : SlabTracker) (slabIDs : List Nat) :
    (slabIDs.foldl eraseProdSlab t).prodSlabsHeld = t.prodSlabsHeld - slabIDs.length := by
  induction slabIDs generalizing t with
  | nil => rfl
  | cons s slabIDs ih =>
    rw [List.foldl_cons, ih, List.length_cons, Nat.add_comm, ← Nat.sub_sub]
    rfl

theorem foldl_erase_eq (t : SlabTracker) (slabIDs : List Nat) :
    ∃ prodSlabRefcnt prodSlabsHeld,
      slabIDs.foldl eraseProdSlab t = { t with prodSlabRefcnt, prodSlabsHeld } := by
  induction slabIDs generalizing t with
  | nil => exact ⟨_, _, rfl⟩
  | cons s slabIDs ih =>
    obtain ⟨bits, held, eq⟩ := ih (t.eraseProdSlab s)
    exact ⟨bits, held, eq⟩

/-- Each slab that goes takes one off the count. -/
theorem slabCount_erase {n : Nat} {p q : Nat → Bool} (nodup : slabIDs.Nodup)
    (inside : ∀ s ∈ slabIDs, s < n) (held : ∀ s ∈ slabIDs, p s = true)
    (bits : ∀ s, q s = true ↔ s ∉ slabIDs ∧ p s = true) :
    slabCount n q + slabIDs.length = slabCount n p := by
  induction slabIDs generalizing q with
  | nil =>
    have same : q = p := by
      funext s
      apply Bool.eq_iff_iff.mpr
      simpa using bits s
    rw [same]
    rfl
  | cons s slabIDs ih =>
    obtain ⟨notin, nodup⟩ := List.nodup_cons.mp nodup
    have here : s ∈ s :: slabIDs := List.mem_cons_self
    have gone : q s = false := by
      apply Bool.eq_false_iff.mpr
      intro kept
      exact ((bits s).mp kept).1 here
    have rest := ih (q := Function.update q s true) nodup
      (fun x mem => inside x (List.mem_cons_of_mem s mem))
      (fun x mem => held x (List.mem_cons_of_mem s mem)) fun x => by
        by_cases same : x = s
        · subst same
          simp [notin, held x here]
        · simp [bits x, same]
    have one := slabCount_change (inside s here) (p := q) (q := Function.update q s true)
      fun x ne => Function.update_of_ne ne _ _
    rw [gone, Function.update_self] at one
    simp only [Bool.false_eq_true, if_false, if_true] at one
    rw [List.length_cons]
    omega

theorem erasedExactly (counted : t.prodSlabsHeld = slabCount t.totalNumSlabs t.prodSlabRefcnt)
    (inside : ∀ s ∈ slabIDs, s < t.totalNumSlabs) (nodup : slabIDs.Nodup)
    (held : ∀ s ∈ slabIDs, t.prodSlabRefcnt s = true) :
    t.ErasedExactly (slabIDs.foldl eraseProdSlab t) slabIDs := by
  have bits := prodSlabRefcnt_foldl_erase t slabIDs
  have others := foldl_erase_eq t slabIDs
  have total : (slabIDs.foldl eraseProdSlab t).totalNumSlabs = t.totalNumSlabs := by
    obtain ⟨_, _, eq⟩ := others
    rw [eq]
  have count := slabCount_erase nodup inside held bits
  constructor
  case counted =>
    rw [prodSlabsHeld_foldl_erase, total]
    omega
  all_goals assumption

/-- The call is all-or-nothing exactly for the lists without repetitions and
those it refuses. -/
theorem erasesAllOrNothing_iff
    (counted : t.prodSlabsHeld = slabCount t.totalNumSlabs t.prodSlabRefcnt)
    (inside : ∀ s ∈ slabIDs, s < t.totalNumSlabs) :
    t.ErasesAllOrNothing slabIDs ↔ slabIDs.Nodup ∨ t.Refused slabIDs := by
  constructor
  · intro lawful
    by_contra neither
    rw [not_or] at neither
    have erased : wp (eraseProdSlabs slabIDs) t
        (fun _ t' => t' = slabIDs.foldl eraseProdSlab t) (fun _ _ => False) := by
      apply wp_eraseProdSlabs
      · intro refused
        exact absurd refused neither.2
      · intro _
        rfl
    apply of_wp (wp_mono (wp_and lawful erased) _ _)
    · intro _ _ ⟨exactly, _⟩
      exact neither.1 exactly.nodup
    · intro _ _ ⟨_, never⟩
      exact never
  · intro fine
    apply wp_eraseProdSlabs
    · intro _ _
      rfl
    · intro accepted
      apply erasedExactly counted inside
      · exact fine.resolve_right accepted
      · intro s mem
        by_contra free
        exact accepted (.inr ⟨s, mem, Bool.eq_false_iff.mpr free⟩)

/-- Two of three slabs held. -/
def holdsTwo : SlabTracker :=
  { totalNumSlabs := 3, numProdSlabs := 2, prodSlabsHeld := 2, prodSlabRefcnt := (· < 2) }

theorem erasesAllOrNothing_iff_holdsTwo :
    holdsTwo.ErasesAllOrNothing [1, 0] ↔ [1, 0].Nodup ∨ holdsTwo.Refused [1, 0] :=
  erasesAllOrNothing_iff (by decide) (by decide)

/-- One slab named twice counts for both, and the other is still held. -/
theorem not_erasesAllOrNothing : ¬ holdsTwo.ErasesAllOrNothing [0, 0] := by
  intro lawful
  have exactly : holdsTwo.ErasedExactly ([0, 0].foldl eraseProdSlab holdsTwo) [0, 0] := lawful
  exact absurd exactly.nodup (by decide)

/-! ## Consumer slabs -/

/-- The counts after a release, and what the slabs held are then. -/
structure ReleasedExactly (t t' : SlabTracker) (slabIDs : List Nat) : Prop where
  enough : ∀ s, slabIDs.count s ≤ t.consSlabRefcnt s
  counts : ∀ s, t'.consSlabRefcnt s = t.consSlabRefcnt s - slabIDs.count s
  counted : t'.consSlabsHeld = slabCount t'.totalNumSlabs (t'.consSlabRefcnt · ≠ 0)

/-- The call releases exactly the list, or throws and does nothing. It throws
just when some slab is listed more often than it is held. -/
def ReleasesAllOrNothing (t : SlabTracker) (slabIDs : List Nat) : Prop :=
  wp (decrementConsSlabs slabIDs) t (fun _ t' => t.ReleasedExactly t' slabIDs)
    (fun _ t' => (∃ s, t.consSlabRefcnt s < slabIDs.count s) ∧ t' = t)

/-- However often the counts wrap before the error is found, the undo brings
them all back. -/
theorem releasesAllOrNothing (ok : t.ConsOK t.totalNumSlabs)
    (inside : ∀ s ∈ slabIDs, s < t.totalNumSlabs) : t.ReleasesAllOrNothing slabIDs := by
  apply decrementConsSlabs_cases ok
  · intro s mem _
    exact inside s mem
  · intro enough t' after
    constructor
    · exact enough
    · intro s
      have := after.cons s
      omega
    · rw [after.ok.total]
      exact after.ok.consHeld
  · intro tooMany _
    exact ⟨tooMany, rfl⟩

/-- One slab of two held, with three segments. -/
def holdsThree : SlabTracker :=
  { totalNumSlabs := 2, numConsSlabs := 1, consSlabsHeld := 1
    consSlabRefcnt := fun s => if s = 0 then 3 else 0 }

theorem holdsThree_ok : holdsThree.ConsOK holdsThree.totalNumSlabs := by
  constructor
  · rfl
  · decide
  · decide
  · intro s
    by_cases here : s = 0
    · rw [here]
      decide
    · simp [holdsThree, here]

theorem releasesAllOrNothing_holdsThree : holdsThree.ReleasesAllOrNothing [0, 1, 0] :=
  releasesAllOrNothing holdsThree_ok (by decide)

end

/-! ## Takes and releases -/

/-- A call of a run on one tracker. -/
inductive ConsCall where
  | take (slabID : Nat)
  | release (slabIDs : List Nat)
  deriving DecidableEq, Repr

/-- A tracker, with the successful takes and the releases of each slab so far. -/
structure Tallied where
  tracker : SlabTracker
  takes : Nat → Nat := fun _ => 0
  releases : Nat → Nat := fun _ => 0

namespace Tallied

/-- The segments of a slab outstanding. -/
def outstanding (st : Tallied) (s : Nat) : Nat := st.takes s - st.releases s

/-- A new client's tracker of `n` slabs, with `numConsSlabs` granted. -/
def fresh (n numConsSlabs : Nat) : Tallied where
  tracker := { SlabTracker.setTotalNumSlabs {} n with numConsSlabs }

/-- A release that throws is not part of a run. -/
def step (st : Tallied) : ConsCall → Option Tallied
  | .take s =>
    match takeConsSlab s st.tracker with
    | .ok true tracker =>
      some { st with tracker, takes := Function.update st.takes s (st.takes s + 1) }
    | .ok false tracker => some { st with tracker }
    | .error _ _ => none
  | .release slabIDs =>
    match decrementConsSlabs slabIDs st.tracker with
    | .ok _ tracker =>
      some { st with tracker, releases := fun s => st.releases s + slabIDs.count s }
    | .error _ _ => none

/-- The counts are the takes less the releases, the slabs held are those with
segments outstanding, as many as granted at most, and they are what is given up
in the end. -/
structure Exact (st : Tallied) : Prop where
  counts : ∀ s, st.tracker.consSlabRefcnt s + st.releases s = st.takes s
  held : st.tracker.consSlabsHeld =
    slabCount st.tracker.totalNumSlabs (fun s => st.releases s < st.takes s)
  bounded : st.tracker.consSlabsHeld ≤ st.tracker.numConsSlabs
  erased : ∀ mxcount, st.tracker.consSlabsHeld ≤ mxcount →
    wp (getAndEraseConsSlabs mxcount) st.tracker
      (fun out _ => out = ((List.range st.tracker.totalNumSlabs).filter
        fun s => st.releases s < st.takes s).map fun s => (s, st.outstanding s))
      (fun _ _ => False)

end Tallied

/-- The slabs of a call are within the tracker. -/
def ConsCall.Inside (n : Nat) : ConsCall → Prop
  | .take s => s < n
  | .release slabIDs => ∀ s ∈ slabIDs, s < n

/-- The call takes no slab that has as many segments outstanding as 16 bits count. -/
def ConsCall.Counts (st : Tallied) : ConsCall → Prop
  | .take s => st.outstanding s < 2 ^ 16 - 1
  | .release _ => True

/-- The runs of takes and successful releases on a tracker of `n` slabs, with
the states that were called in, the latest first. -/
inductive ConsRun (n numConsSlabs : Nat) : List (Tallied × ConsCall) → Tallied → Prop where
  | start : ConsRun n numConsSlabs [] (.fresh n numConsSlabs)
  | step {hist st call st'} : ConsRun n numConsSlabs hist st → call.Inside n →
      st.step call = some st' → ConsRun n numConsSlabs ((st, call) :: hist) st'

namespace Tallied
variable {st st' : Tallied} {n numConsSlabs : Nat}

theorem Exact.consOK (h : st.Exact) (total : st.tracker.totalNumSlabs = n) (small : n < 2 ^ 32)
    (consSmall : ∀ s, st.tracker.consSlabRefcnt s < 2 ^ 16) : st.tracker.ConsOK n := by
  constructor
  · exact total
  · exact small
  · rw [h.held, total]
    congr 1
    funext s
    have := h.counts s
    apply decide_eq_decide.mpr
    omega
  · exact consSmall

/-- A tracker with the right counts is exact, if no slab is over the grant. -/
theorem exact_of_consOK (ok : st.tracker.ConsOK n)
    (counts : ∀ s, st.tracker.consSlabRefcnt s + st.releases s = st.takes s)
    (bounded : st.tracker.consSlabsHeld ≤ st.tracker.numConsSlabs) : st.Exact := by
  have outstanding : (fun s => decide (st.releases s < st.takes s)) =
      fun s => decide (st.tracker.consSlabRefcnt s ≠ 0) := by
    funext s
    have := counts s
    apply decide_eq_decide.mpr
    omega
  have each (s : Nat) : st.outstanding s = st.tracker.consSlabRefcnt s := by
    have := counts s
    unfold Tallied.outstanding
    omega
  constructor
  case held =>
    rw [outstanding, ok.total]
    exact ok.consHeld
  case erased =>
    intro mxcount enough
    have all : st.tracker.consSlabs.take mxcount = st.tracker.consSlabs := by
      apply List.take_of_length_le
      rw [ok.consSlabs_length]
      exact enough
    simp only [getAndEraseConsSlabs, wp_bind, wp_get, wp_set, wp_pure, outstanding]
    rw [← consSlabs, all]
    apply List.map_congr_left
    intro s _
    rw [each]
  all_goals assumption

/-- Fewer slabs satisfy less. -/
theorem slabCount_mono {p q : Nat → Bool} (le : ∀ s, p s = true → q s = true) :
    slabCount n p ≤ slabCount n q := by
  rw [slabCount_eq_length, slabCount_eq_length]
  apply List.Sublist.length_le
  exact List.monotone_filter_right _ le

/-- A slab that can be taken is counted, unless its count wraps. -/
theorem Exact.take {s : Nat} (h : st.Exact) (ok : st.tracker.ConsOK n) (lt : s < n)
    (can : st.tracker.canTakeCons s = true) (counts : (ConsCall.take s).Counts st) :
    Exact { st with
      tracker := st.tracker.incrementCons s
      takes := Function.update st.takes s (st.takes s + 1) } ∧
    (st.tracker.incrementCons s).ConsOK n := by
  have same := h.counts s
  have room : st.tracker.consSlabRefcnt s + 1 < 2 ^ 16 := by
    have counts : st.outstanding s < 2 ^ 16 - 1 := counts
    unfold Tallied.outstanding at counts
    omega
  have ok' := ok.incrementCons lt room
  constructor
  · apply exact_of_consOK ok'
    · intro x
      by_cases here : x = s
      · subst here
        simp only [incrementCons, Function.update_self, Nat.mod_eq_of_lt room]
        omega
      · simp only [incrementCons, Function.update_of_ne here]
        exact h.counts x
    · simp only [incrementCons]
      have bounded := h.bounded
      split
      · rename_i none
        have free : st.tracker.consSlabsHeld < st.tracker.numConsSlabs := by
          simpa [canTakeCons, none] using can
        exact (Nat.mod_le _ _).trans free
      · exact bounded
  · exact ok'

theorem not_exact_take {s : Nat} (h : st.Exact) (ok : st.tracker.ConsOK n)
    (wraps : ¬ (ConsCall.take s).Counts st) :
    ¬ Exact { st with
      tracker := st.tracker.incrementCons s
      takes := Function.update st.takes s (st.takes s + 1) } := by
  intro exact
  have before := h.counts s
  have after := exact.counts s
  have small := ok.consSmall s
  have wraps : ¬ st.outstanding s < 2 ^ 16 - 1 := wraps
  unfold Tallied.outstanding at wraps
  have zero : (st.tracker.consSlabRefcnt s + 1) % 2 ^ 16 = 0 := by
    have last : st.tracker.consSlabRefcnt s + 1 = 2 ^ 16 := by omega
    rw [last, Nat.mod_self]
  simp only [incrementCons, Function.update_self, zero] at after
  omega

theorem Exact.release {slabIDs : List Nat} {t' : SlabTracker} (h : st.Exact)
    (ok : st.tracker.ConsOK n) (after : st.tracker.Decremented t' n slabIDs) :
    Exact { st with tracker := t', releases := fun s => st.releases s + slabIDs.count s } := by
  apply exact_of_consOK after.ok
  · intro s
    have := after.cons s
    have := h.counts s
    dsimp only
    omega
  · have fewer : t'.consSlabsHeld ≤ st.tracker.consSlabsHeld := by
      rw [after.ok.consHeld, ok.consHeld]
      apply slabCount_mono
      intro s
      have := after.cons s
      simp only [decide_eq_true_eq]
      omega
    calc t'.consSlabsHeld ≤ st.tracker.consSlabsHeld := fewer
      _ ≤ st.tracker.numConsSlabs := h.bounded
      _ = t'.numConsSlabs := after.granted.2.symm

/-- From an exact state, a call leads to an exact one unless it takes a slab
whose count is at its limit. -/
theorem Exact.step {call : ConsCall} (h : st.Exact) (ok : st.tracker.ConsOK n)
    (inside : call.Inside n) (stepped : st.step call = some st') :
    (st'.Exact ↔ call.Counts st) ∧ (call.Counts st → st'.tracker.ConsOK n) := by
  cases call with
  | take s =>
    have took : ∀ b t', takeConsSlab s st.tracker = .ok b t' →
        if st.tracker.canTakeCons s then b = true ∧ t' = st.tracker.incrementCons s
        else b = false ∧ t' = st.tracker := by
      intro b t' eq
      apply (wp_of_ok (E := fun _ _ => False) eq).mp
      rw [wp_takeConsSlab]
      split
      · exact ⟨rfl, rfl⟩
      · exact ⟨rfl, rfl⟩
    simp only [Tallied.step] at stepped
    split at stepped
    · rename_i tracker eq
      cases stepped
      have took := took _ _ eq
      split at took
      · rename_i can
        obtain ⟨-, rfl⟩ := took
        constructor
        · constructor
          · intro exact
            by_contra wraps
            exact not_exact_take h ok wraps exact
          · intro counts
            exact (h.take ok inside can counts).1
        · intro counts
          exact (h.take ok inside can counts).2
      · cases took.1
    · rename_i tracker eq
      cases stepped
      have took := took _ _ eq
      split at took
      · cases took.1
      · rename_i cannot
        obtain ⟨-, rfl⟩ := took
        have none : st.tracker.consSlabRefcnt s = 0 := by
          simp only [canTakeCons, Bool.or_eq_true, decide_eq_true_eq, not_or, not_not] at cannot
          exact cannot.2
        have counts : (ConsCall.take s).Counts st := by
          have := h.counts s
          show st.outstanding s < 2 ^ 16 - 1
          unfold Tallied.outstanding
          omega
        exact ⟨iff_of_true h counts, fun _ => ok⟩
    · cases stepped
  | release slabIDs =>
    have released : ∀ u t', decrementConsSlabs slabIDs st.tracker = .ok u t' →
        st.tracker.Decremented t' n slabIDs := by
      intro u t' eq
      apply (wp_of_ok (E := fun _ _ => True) eq).mp
      apply decrementConsSlabs_cases ok
      · intro s mem _
        exact inside s mem
      · intro _ t' after
        exact after
      · intro _ _
        trivial
    simp only [Tallied.step] at stepped
    split at stepped
    · rename_i u tracker eq
      cases stepped
      have after := released _ _ eq
      exact ⟨iff_of_true (h.release ok after) trivial, fun _ => after.ok⟩
    · cases stepped

end Tallied

variable {n numConsSlabs : Nat} {hist : List (Tallied × ConsCall)} {st : Tallied}

theorem ConsRun.exact (small : n < 2 ^ 32) (run : ConsRun n numConsSlabs hist st)
    (counts : ∀ past ∈ hist, past.2.Counts past.1) : st.Exact ∧ st.tracker.ConsOK n := by
  induction run with
  | start =>
    have ok : (Tallied.fresh n numConsSlabs).tracker.ConsOK n := by
      have fresh := (OK.fresh small).consOK
      exact ⟨fresh.total, fresh.small, fresh.consHeld, fresh.consSmall⟩
    constructor
    · apply Tallied.exact_of_consOK ok
      · intro s
        simp [Tallied.fresh, setTotalNumSlabs]
      · exact Nat.zero_le _
    · exact ok
  | step _ inside stepped ih =>
    obtain ⟨exact, ok⟩ := ih fun past mem => counts past (List.mem_cons_of_mem _ mem)
    have step := exact.step ok inside stepped
    have fine := counts _ List.mem_cons_self
    exact ⟨step.1.mpr fine, step.2 fine⟩

/-- Every state of a run is exact just when no slab was taken with 2^16 - 1
segments outstanding. -/
theorem consRun_exact_iff (small : n < 2 ^ 32) (run : ConsRun n numConsSlabs hist st) :
    ((∀ past ∈ hist, past.1.Exact) ∧ st.Exact) ↔ ∀ past ∈ hist, past.2.Counts past.1 := by
  constructor
  · rintro ⟨before, now⟩
    induction run with
    | start => simp
    | step run inside stepped ih =>
      have exact := before _ List.mem_cons_self
      have earlier := ih (fun past mem => before past (List.mem_cons_of_mem _ mem)) exact
      have ok := (run.exact small earlier).2
      intro past mem
      cases mem with
      | head => exact (exact.step ok inside stepped).1.mp now
      | tail _ mem => exact earlier past mem
  · intro counts
    constructor
    · induction run with
      | start => simp
      | step run _ _ ih =>
        have earlier := fun past mem => counts past (List.mem_cons_of_mem _ mem)
        intro past mem
        cases mem with
        | head => exact (run.exact small earlier).1
        | tail _ mem => exact ih earlier past mem
    · exact (run.exact small counts).1

/-- The first take of the only slab. -/
theorem consRun_takesOnce : ConsRun 1 1 [(.fresh 1 1, .take 0)]
    { tracker := (Tallied.fresh 1 1).tracker.incrementCons 0
      takes := Function.update (fun _ => 0) 0 1 } := by
  apply ConsRun.step .start
  · exact Nat.one_pos
  · rfl

theorem consRun_exact_iff_takesOnce :
    ((∀ past ∈ [(Tallied.fresh 1 1, ConsCall.take 0)], past.1.Exact) ∧
      Tallied.Exact { tracker := (Tallied.fresh 1 1).tracker.incrementCons 0
                      takes := Function.update (fun _ => 0) 0 1 }) ↔
      ∀ past ∈ [(Tallied.fresh 1 1, ConsCall.take 0)], past.2.Counts past.1 :=
  consRun_exact_iff (by decide) consRun_takesOnce

/-- The same slab is taken over and over: after 2^16 takes its count is zero. -/
theorem not_consRun_exact : ¬ ∀ n numConsSlabs hist st, n < 2 ^ 32 →
    ConsRun n numConsSlabs hist st → st.Exact := by
  intro all
  have many (k : Nat) : ∃ hist st, ConsRun 1 1 hist st ∧ st.takes 0 = k + 1 ∧
      st.releases 0 = 0 ∧ st.tracker.consSlabRefcnt 0 < 2 ^ 16 := by
    induction k with
    | zero => exact ⟨_, _, consRun_takesOnce, rfl, rfl, by decide⟩
    | succ k ih =>
      obtain ⟨hist, st, run, takes, releases, -⟩ := ih
      have counts := (all 1 1 hist st (by decide) run).counts 0
      have can : st.tracker.canTakeCons 0 = true := by
        have some : st.tracker.consSlabRefcnt 0 ≠ 0 := by omega
        simp [canTakeCons, some]
      have took : takeConsSlab 0 st.tracker = .ok true (st.tracker.incrementCons 0) := by
        change (if st.tracker.canTakeCons 0 = true then _ else _ : EStateM Exc SlabTracker Bool)
          st.tracker = _
        rw [if_pos can]
        rfl
      have stepped : st.step (.take 0) = some { st with
          tracker := st.tracker.incrementCons 0
          takes := Function.update st.takes 0 (st.takes 0 + 1) } := by
        simp only [Tallied.step, took]
      have inside : (ConsCall.take 0).Inside 1 := Nat.one_pos
      refine ⟨_, _, run.step inside stepped, ?_, releases, ?_⟩
      · simp only [Function.update_self, takes]
      · simp only [incrementCons, Function.update_self]
        exact Nat.mod_lt _ (by decide)
  obtain ⟨hist, st, run, takes, releases, small⟩ := many (2 ^ 16 - 1)
  have counts := (all 1 1 hist st (by decide) run).counts 0
  omega

end SlabTracker
end Mcsb
