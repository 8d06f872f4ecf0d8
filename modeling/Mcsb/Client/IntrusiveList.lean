import Mcsb.Lib.DoublyLinked

/-!
# Intrusive lists

`IntrusiveList` links objects by hooks they carry, one for each tag. Whatever is
done to the lists, they are the lists of a mathematician.
-/

namespace Mcsb
open DoublyLinked

/-- The hooks: one in each list, and one for each tag in each object. -/
inductive Hook (τ ρ α : Type) where
  | root (tag : τ) (list : ρ)
  | node (tag : τ) (t : α)
  deriving DecidableEq, Repr

/-- The tag of a hook. -/
def Hook.tag {τ ρ α : Type} : Hook τ ρ α → τ
  | root tag _ => tag
  | node tag _ => tag

variable {τ ρ α : Type} [DecidableEq τ] [DecidableEq ρ] [DecidableEq α]

/-- All hooks and sizes. Hooks are constructed detached, lists empty. -/
structure Hooks (τ ρ α : Type) where
  next : Hook τ ρ α → Hook τ ρ α := id
  prev : Hook τ ρ α → Hook τ ρ α := id
  size : τ → ρ → Nat := fun _ _ => 0

/-- What belongs to one list of one tag is changed. -/
def put {β : Type} (f : τ → ρ → β) (tag : τ) (list : ρ) (b : β) : τ → ρ → β :=
  Function.update f tag (Function.update (f tag) list b)

namespace Hooks

/-- `IntrusiveListHook::insert`, which asserts that the hook is detached. -/
def insert (m : Hooks τ ρ α) (this node : Hook τ ρ α) : Option (Hooks τ ρ α) :=
  if m.next this = this then
    let m := { m with next := Function.update m.next this node }
    let m := { m with prev := Function.update m.prev this (m.prev node) }
    let m := { m with next := Function.update m.next (m.prev this) this }
    let m := { m with prev := Function.update m.prev node this }
    some m
  else none

def insertAfter (m : Hooks τ ρ α) (this node : Hook τ ρ α) : Option (Hooks τ ρ α) :=
  m.insert this (m.next node)

/-- `IntrusiveListHook::remove`, which asserts that the hook is in some list. -/
def remove (m : Hooks τ ρ α) (this : Hook τ ρ α) : Option (Hooks τ ρ α) :=
  if m.next this ≠ this then
    let m := { m with prev := Function.update m.prev (m.next this) (m.prev this) }
    let m := { m with next := Function.update m.next (m.prev this) (m.next this) }
    let m := { m with next := Function.update m.next this this }
    let m := { m with prev := Function.update m.prev this this }
    some m
  else none

def resize (m : Hooks τ ρ α) (tag : τ) (list : ρ) (f : Nat → Nat) : Hooks τ ρ α :=
  { m with size := put m.size tag list (f (m.size tag list)) }

end Hooks

/-! ## The lists -/

namespace IntrusiveList

section
variable (m : Hooks τ ρ α) (tag : τ) (list : ρ)

def pushFront (t : α) : Option (Hooks τ ρ α) := do
  let m ← m.insertAfter (.node tag t) (.root tag list)
  return m.resize tag list (· + 1)

def pushBack (t : α) : Option (Hooks τ ρ α) := do
  let m ← m.insert (.node tag t) (.root tag list)
  return m.resize tag list (· + 1)

def popFront : Option (Hooks τ ρ α) := do
  let m ← m.remove (m.next (.root tag list))
  return m.resize tag list (· - 1)

def popBack : Option (Hooks τ ρ α) := do
  let m ← m.remove (m.prev (.root tag list))
  return m.resize tag list (· - 1)

/-- Before iterator `p`. -/
def insert (p : Hook τ ρ α) (t : α) : Option (Hooks τ ρ α × Hook τ ρ α) := do
  let m ← m.insert (.node tag t) p
  return (m.resize tag list (· + 1), .node tag t)

def erase (p : Hook τ ρ α) : Option (Hooks τ ρ α × Hook τ ρ α) := do
  let next := m.next p
  let m ← m.remove p
  return (m.resize tag list (· - 1), next)

/-- The loop of `erase` for two iterators. -/
def eraseRange (last : Hook τ ρ α) : Nat → Hooks τ ρ α → Hook τ ρ α →
    Option (Hooks τ ρ α × Hook τ ρ α)
  | fuel, m, f =>
    if f = last then some (m, f)
    else match fuel with
      | 0 => none
      | fuel + 1 => do
        let (m, f) ← erase m tag list f
        eraseRange last fuel m f

/-- The loop of `remove`, for what `operator==` says. -/
def remove (same : α → Bool) : Nat → Hooks τ ρ α → Hook τ ρ α → Option (Hooks τ ρ α)
  | fuel, m, it =>
    if it = .root tag list then some m
    else match fuel, it with
      | fuel + 1, .node _ t =>
        if same t then do
          let (m, it) ← erase m tag list it
          remove same fuel m it
        else remove same fuel m (m.next it)
      | _, _ => none

end

/-- A call, on any list of any tag. -/
inductive Call (τ ρ α : Type) where
  | pushFront (tag : τ) (list : ρ) (t : α)
  | pushBack (tag : τ) (list : ρ) (t : α)
  | popFront (tag : τ) (list : ρ)
  | popBack (tag : τ) (list : ρ)
  | insert (tag : τ) (list : ρ) (p : Hook τ ρ α) (t : α)
  | erase (tag : τ) (list : ρ) (p : Hook τ ρ α)
  | eraseRange (tag : τ) (list : ρ) (f l : Hook τ ρ α)
  | eraseNode (tag : τ) (list : ρ) (t : α)
  | remove (tag : τ) (list : ρ) (same : α → Bool)

/-- The tag of the list. -/
def Call.tag : Call τ ρ α → τ
  | .pushFront tag _ _ => tag
  | .pushBack tag _ _ => tag
  | .popFront tag _ => tag
  | .popBack tag _ => tag
  | .insert tag _ _ _ => tag
  | .erase tag _ _ => tag
  | .eraseRange tag _ _ _ => tag
  | .eraseNode tag _ _ => tag
  | .remove tag _ _ => tag

/-- What is returned, if it is an iterator. -/
def Call.run (fuel : Nat) (m : Hooks τ ρ α) :
    Call τ ρ α → Option (Hooks τ ρ α × Option (Hook τ ρ α))
  | .pushFront tag list t => do return (← IntrusiveList.pushFront m tag list t, none)
  | .pushBack tag list t => do return (← IntrusiveList.pushBack m tag list t, none)
  | .popFront tag list => do return (← IntrusiveList.popFront m tag list, none)
  | .popBack tag list => do return (← IntrusiveList.popBack m tag list, none)
  | .insert tag list p t => do
    let (m, it) ← IntrusiveList.insert m tag list p t
    return (m, some it)
  | .erase tag list p => do
    let (m, it) ← IntrusiveList.erase m tag list p
    return (m, some it)
  | .eraseRange tag list f l => do
    let (m, it) ← IntrusiveList.eraseRange tag list l fuel m f
    return (m, some it)
  | .eraseNode tag list t => do
    let (m, it) ← IntrusiveList.erase m tag list (.node tag t)
    return (m, some it)
  | .remove tag list same => do
    return (← IntrusiveList.remove tag list same fuel m (m.next (.root tag list)), none)

/-- One call after the other. -/
def runs (fuel : Nat) (m : Hooks τ ρ α) :
    List (Call τ ρ α) → Option (Hooks τ ρ α × List (Option (Hook τ ρ α)))
  | [] => some (m, [])
  | call :: calls => do
    let (m, it) ← call.run fuel m
    let (m, its) ← runs fuel m calls
    return (m, it :: its)

/-! ## The lists of a mathematician -/

abbrev Lists (τ ρ α : Type) := τ → ρ → List α

/-- The iterator to the first of the last elements of a list. -/
def first (tag : τ) (list : ρ) (rest : List α) : Hook τ ρ α :=
  front (.root tag list) (rest.map (.node tag))

/-- The same calls on lists. An object put in is in no list of the tag, one taken
out is in the list, and iterators are where they have to be. -/
inductive Step : Lists τ ρ α → Call τ ρ α → Lists τ ρ α → Option (Hook τ ρ α) → Prop where
  | pushFront {S tag list t} (fresh : ∀ list, t ∉ S tag list) :
      Step S (.pushFront tag list t) (put S tag list (t :: S tag list)) none
  | pushBack {S tag list t} (fresh : ∀ list, t ∉ S tag list) :
      Step S (.pushBack tag list t) (put S tag list (S tag list ++ [t])) none
  | popFront {S tag list t rest} (eq : S tag list = t :: rest) :
      Step S (.popFront tag list) (put S tag list rest) none
  | popBack {S tag list front t} (eq : S tag list = front ++ [t]) :
      Step S (.popBack tag list) (put S tag list front) none
  | insert {S tag list front rest t} (eq : S tag list = front ++ rest)
      (fresh : ∀ list, t ∉ S tag list) :
      Step S (.insert tag list (first tag list rest) t) (put S tag list (front ++ t :: rest))
        (some (first tag list (t :: rest)))
  | erase {S tag list front t rest} (eq : S tag list = front ++ t :: rest) :
      Step S (.erase tag list (first tag list (t :: rest))) (put S tag list (front ++ rest))
        (some (first tag list rest))
  | eraseRange {S tag list front range rest} (eq : S tag list = front ++ (range ++ rest)) :
      Step S (.eraseRange tag list (first tag list (range ++ rest)) (first tag list rest))
        (put S tag list (front ++ rest)) (some (first tag list rest))
  | eraseNode {S tag list front t rest} (eq : S tag list = front ++ t :: rest) :
      Step S (.eraseNode tag list t) (put S tag list (front ++ rest)) (some (first tag list rest))
  | remove {S tag list same} :
      Step S (.remove tag list same) (put S tag list ((S tag list).filter fun t => !same t)) none

inductive Steps :
    Lists τ ρ α → List (Call τ ρ α) → Lists τ ρ α → List (Option (Hook τ ρ α)) → Prop where
  | nil {S} : Steps S [] S []
  | cons {S S' S'' call calls it its} (head : Step S call S' it) (tail : Steps S' calls S'' its) :
      Steps S (call :: calls) S'' (it :: its)

/-- The hooks link the objects of each list, in both directions; all other objects
are detached. -/
structure Represents (m : Hooks τ ρ α) (S : Lists τ ρ α) : Prop where
  ring : ∀ tag list, Ring m.next m.prev (.root tag list) ((S tag list).map (.node tag))
  nodup : ∀ tag list, (S tag list).Nodup
  apart : ∀ tag list list' t, t ∈ S tag list → t ∈ S tag list' → list = list'
  detached : ∀ tag t, (∀ list, t ∉ S tag list) →
    m.next (.node tag t) = .node tag t ∧ m.prev (.node tag t) = .node tag t
  size : ∀ tag list, m.size tag list = (S tag list).length

omit [DecidableEq τ] [DecidableEq ρ] [DecidableEq α] in
theorem Represents.new : Represents ({} : Hooks τ ρ α) fun _ _ => [] where
  ring _ _ := ⟨rfl, rfl⟩
  nodup _ _ := List.nodup_nil
  apart _ _ _ _ mem := absurd mem List.not_mem_nil
  detached _ _ _ := ⟨rfl, rfl⟩
  size _ _ := rfl

section
variable {m : Hooks τ ρ α} {S : Lists τ ρ α} {tag : τ} {list : ρ} {t : α} {xs ys : List α}

theorem put_here {β : Type} (f : τ → ρ → β) (b : β) : put f tag list b tag list = b := by
  rw [put, Function.update_self, Function.update_self]

theorem put_elsewhere {β : Type} {f : τ → ρ → β} {b : β} {tag' : τ} {list' : ρ}
    (other : ¬ (tag' = tag ∧ list' = list)) : put f tag list b tag' list' = f tag' list' := by
  unfold put
  by_cases same : tag' = tag
  · subst same
    rw [Function.update_self, Function.update_of_ne fun here => other ⟨rfl, here⟩]
  · rw [Function.update_of_ne same]

omit [DecidableEq τ] [DecidableEq ρ] [DecidableEq α] in
theorem node_mem {z : Hook τ ρ α} :
    z ∈ .root tag list :: xs.map (.node tag) ↔
      z = .root tag list ∨ ∃ t ∈ xs, z = .node tag t := by
  simp only [List.mem_cons, List.mem_map, eq_comm]

omit [DecidableEq τ] [DecidableEq ρ] [DecidableEq α] in
theorem nodup_nodes (nodup : xs.Nodup) :
    ((.root tag list : Hook τ ρ α) :: xs.map (.node tag)).Nodup := by
  apply List.nodup_cons.mpr
  constructor
  · intro mem
    obtain ⟨_, -, eq⟩ := List.mem_map.mp mem
    cases eq
  · apply nodup.map
    intro a b eq
    cases eq
    rfl

/-- One list is changed, by hooks of its own. -/
theorem Represents.replace (h : Represents m S) {next prev : Hook τ ρ α → Hook τ ρ α}
    {f : Nat → Nat} (ring : Ring next prev (.root tag list) (xs.map (.node tag)))
    (nodup : xs.Nodup) (others : ∀ t ∈ xs, ∀ list', list' ≠ list → t ∉ S tag list')
    (frame : ∀ z, z ∉ .root tag list :: (S tag list).map (.node tag) → z ∉ xs.map (.node tag) →
      next z = m.next z ∧ prev z = m.prev z)
    (freed : ∀ t ∈ S tag list, t ∉ xs →
      next (.node tag t) = .node tag t ∧ prev (.node tag t) = .node tag t)
    (size : f (S tag list).length = xs.length) :
    Represents ({ m with next, prev }.resize tag list f) (put S tag list xs) := by
  constructor
  case ring =>
    intro tag' list'
    by_cases same : tag' = tag ∧ list' = list
    · obtain ⟨rfl, rfl⟩ := same
      rw [put_here]
      exact ring
    rw [put_elsewhere same]
    have kept : ∀ z ∈ .root tag' list' :: (S tag' list').map (.node tag'),
        next z = m.next z ∧ prev z = m.prev z := by
      intro z mem
      apply frame
      · intro here
        rcases node_mem.mp mem with rfl | ⟨t, listed, rfl⟩
        · rcases node_mem.mp here with eq | ⟨_, -, eq⟩
          · cases eq
            exact same ⟨rfl, rfl⟩
          · cases eq
        · rcases node_mem.mp here with eq | ⟨t', listed', eq⟩
          · cases eq
          · cases eq
            exact same ⟨rfl, h.apart _ _ _ _ listed listed'⟩
      · intro here
        obtain ⟨t', listed', eq⟩ := List.mem_map.mp here
        rcases node_mem.mp mem with rfl | ⟨t, listed, rfl⟩
        · cases eq
        · cases eq
          exact others t' listed' list' (fun eq => same ⟨rfl, eq⟩) listed
    exact (h.ring tag' list').congr (fun z mem => (kept z mem).1) fun z mem => (kept z mem).2
  case nodup =>
    intro tag' list'
    by_cases same : tag' = tag ∧ list' = list
    · obtain ⟨rfl, rfl⟩ := same
      rw [put_here]
      exact nodup
    · rw [put_elsewhere same]
      exact h.nodup tag' list'
  case apart =>
    intro tag' l₁ l₂ t mem₁ mem₂
    by_cases first : tag' = tag ∧ l₁ = list
    · obtain ⟨rfl, rfl⟩ := first
      rw [put_here] at mem₁
      by_contra other
      rw [put_elsewhere fun same => other same.2.symm] at mem₂
      exact others t mem₁ l₂ (Ne.symm other) mem₂
    rw [put_elsewhere first] at mem₁
    by_cases second : tag' = tag ∧ l₂ = list
    · obtain ⟨rfl, rfl⟩ := second
      rw [put_here] at mem₂
      exact absurd mem₁ (others t mem₂ l₁ fun same => first ⟨rfl, same⟩)
    · rw [put_elsewhere second] at mem₂
      exact h.apart tag' l₁ l₂ t mem₁ mem₂
  case detached =>
    intro tag' t none
    by_cases same : tag' = tag
    · subst same
      have unlisted := none list
      rw [put_here] at unlisted
      by_cases before : t ∈ S tag' list
      · exact freed t before unlisted
      have never (list' : ρ) : t ∉ S tag' list' := by
        by_cases here : list' = list
        · rw [here]
          exact before
        · have unlisted := none list'
          rw [put_elsewhere fun same => here same.2] at unlisted
          exact unlisted
      obtain ⟨forward, backward⟩ :=
        frame (.node tag' t) (by simp [before]) (by simp [unlisted])
      change next _ = _ ∧ prev _ = _
      rw [forward, backward]
      exact h.detached tag' t never
    · have never (list' : ρ) : t ∉ S tag' list' := by
        have unlisted := none list'
        rw [put_elsewhere fun here => same here.1] at unlisted
        exact unlisted
      obtain ⟨forward, backward⟩ :=
        frame (.node tag' t) (by simp [Ne.symm same]) (by simp [Ne.symm same])
      change next _ = _ ∧ prev _ = _
      rw [forward, backward]
      exact h.detached tag' t never
  case size =>
    intro tag' list'
    by_cases same : tag' = tag ∧ list' = list
    · obtain ⟨rfl, rfl⟩ := same
      rw [put_here, ← size, ← h.size]
      exact put_here m.size _
    · rw [put_elsewhere same, ← h.size]
      exact put_elsewhere same

theorem insert_eq {this node : Hook τ ρ α} (detached : m.next this = this) :
    m.insert this node = some { m with
      next := insertNext m.next m.prev this node, prev := insertPrev m.prev this node } := by
  simp only [Hooks.insert, if_pos detached, Function.update_self]
  rfl

theorem remove_eq {this : Hook τ ρ α} (attached : m.next this ≠ this) :
    m.remove this = some { m with
      next := removeNext m.next m.prev this, prev := removePrev m.next m.prev this } := by
  simp only [Hooks.remove, if_pos attached, Function.update_of_ne attached.symm]
  rfl

omit [DecidableEq τ] [DecidableEq ρ] [DecidableEq α] in
/-- The ring of a list in two parts. -/
theorem Represents.parts (h : Represents m S) (eq : S tag list = xs ++ ys) :
    Ring m.next m.prev (.root tag list) (xs.map (.node tag) ++ ys.map (.node tag)) ∧
      ((.root tag list : Hook τ ρ α) :: (xs.map (.node tag) ++ ys.map (.node tag))).Nodup := by
  rw [← List.map_append, ← eq]
  exact ⟨h.ring tag list, nodup_nodes (h.nodup tag list)⟩

/-- An object is put in somewhere in a list. -/
theorem Represents.insert (h : Represents m S) (eq : S tag list = xs ++ ys)
    (fresh : ∀ list, t ∉ S tag list) :
    ∃ m', m.insert (.node tag t) (first tag list ys) = some m' ∧
      Represents (m'.resize tag list (· + 1)) (put S tag list (xs ++ t :: ys)) := by
  obtain ⟨ring, distinct⟩ := h.parts eq
  have nodup := h.nodup tag list
  have absent := fresh list
  rw [eq] at nodup absent
  have new : Hook.node tag t ∉ .root tag list :: (xs.map (.node tag) ++ ys.map (.node tag)) := by
    rw [← List.map_append, node_mem]
    rintro (eq | ⟨t', mem, eq⟩)
    · cases eq
    · cases eq
      exact absent mem
  refine ⟨_, insert_eq (h.detached tag t fresh).1, h.replace ?_ ?_ ?_ ?_ ?_ ?_⟩
  case refine_1 =>
    rw [List.map_append, List.map_cons]
    exact ring.insert_at distinct new
  case refine_2 => exact List.nodup_middle.mpr (List.nodup_cons.mpr ⟨absent, nodup⟩)
  case refine_3 =>
    intro t' mem list' other mem'
    rcases List.mem_append.mp mem with before | after
    · exact other (h.apart tag list' list t' mem' (eq ▸ List.mem_append_left ys before))
    · rcases List.mem_cons.mp after with rfl | after
      · exact fresh list' mem'
      · exact other (h.apart tag list' list t' mem' (eq ▸ List.mem_append_right xs after))
  case refine_4 =>
    intro z outside unlisted
    rw [eq, List.map_append] at outside
    apply ring.insert_frame _ outside
    rintro rfl
    exact unlisted (List.mem_map.mpr ⟨t, by simp, rfl⟩)
  case refine_5 =>
    intro t' mem unlisted
    rw [eq] at mem
    simp only [List.mem_append, List.mem_cons] at mem unlisted
    tauto
  case refine_6 => simp only [eq, List.length_append, List.length_cons, Nat.add_assoc]

/-- An object is taken out of a list. -/
theorem Represents.remove (h : Represents m S) (eq : S tag list = xs ++ t :: ys) :
    ∃ m', m.next (.node tag t) = first tag list ys ∧ m.remove (.node tag t) = some m' ∧
      Represents (m'.resize tag list (· - 1)) (put S tag list (xs ++ ys)) := by
  obtain ⟨ring, distinct⟩ := h.parts eq
  have nodup := h.nodup tag list
  rw [eq] at nodup
  rw [List.map_cons] at ring distinct
  have next : m.next (.node tag t) = first tag list ys := ring.next_at
  have attached : m.next (.node tag t) ≠ .node tag t := by
    rw [next]
    intro same
    have apart := (List.nodup_cons.mp (nodup_rotate.mp distinct)).1
    apply apart
    rw [← same]
    cases ys with
    | nil => simp [first, front]
    | cons t' ys => simp [first, front]
  refine ⟨_, next, remove_eq attached, h.replace ?_ ?_ ?_ ?_ ?_ ?_⟩
  case refine_1 =>
    rw [List.map_append]
    exact ring.remove_at distinct
  case refine_2 => exact nodup.sublist (List.Sublist.append_left (List.sublist_cons_self t ys) xs)
  case refine_3 =>
    intro t' mem list' other mem'
    apply other (h.apart tag list' list t' mem' _)
    rw [eq]
    exact List.Sublist.subset (List.Sublist.append_left (List.sublist_cons_self t ys) xs) mem
  case refine_4 =>
    intro z outside _
    rw [eq, List.map_append] at outside
    exact ring.remove_frame outside
  case refine_5 =>
    intro t' mem unlisted
    have same : t' = t := by
      rw [eq] at mem
      simp only [List.mem_append, List.mem_cons] at mem unlisted
      tauto
    rw [same]
    exact ⟨removeNext_self, removePrev_self⟩
  case refine_6 => simp only [eq, List.length_append, List.length_cons]; omega

theorem put_self {β : Type} (f : τ → ρ → β) (tag : τ) (list : ρ) :
    put f tag list (f tag list) = f := by
  rw [put, Function.update_eq_self, Function.update_eq_self]

theorem put_put {β : Type} (f : τ → ρ → β) (b b' : β) :
    put (put f tag list b) tag list b' = put f tag list b' := by
  unfold put
  rw [Function.update_self, Function.update_idem, Function.update_idem]

omit [DecidableEq α] in
theorem Represents.same (h : Represents m S) (eq : S tag list = xs) :
    Represents m (put S tag list xs) := by
  rw [← eq, put_self]
  exact h

/-! ## Each call -/

theorem Represents.erase (h : Represents m S) (eq : S tag list = xs ++ t :: ys) :
    ∃ m', erase m tag list (.node tag t) = some (m', first tag list ys) ∧
      Represents m' (put S tag list (xs ++ ys)) := by
  obtain ⟨m', next, ret, rep⟩ := h.remove eq
  refine ⟨_, ?_, rep⟩
  simp only [IntrusiveList.erase, ret, next, Option.bind_eq_bind, Option.bind_some, Option.pure_def]

theorem Represents.eraseRange {range rest : List α} (h : Represents m S)
    (eq : S tag list = xs ++ (range ++ rest)) :
    ∃ m', (∀ fuel, range.length ≤ fuel →
        eraseRange tag list (first tag list rest) fuel m (first tag list (range ++ rest)) =
          some (m', first tag list rest)) ∧
      Represents m' (put S tag list (xs ++ rest)) := by
  induction range generalizing m S with
  | nil =>
    refine ⟨m, fun fuel _ => ?_, h.same eq⟩
    unfold IntrusiveList.eraseRange
    exact if_pos rfl
  | cons t range ih =>
    obtain ⟨m₁, ret, rep⟩ := h.erase eq
    obtain ⟨m', rets, rep'⟩ := ih rep (put_here _ _)
    have other : first tag list (t :: range ++ rest) ≠ first tag list rest := by
      have nodup := h.nodup tag list
      rw [eq] at nodup
      have apart := (List.nodup_cons.mp (nodup.sublist (List.sublist_append_right _ _))).1
      cases rest with
      | nil =>
        intro same
        cases same
      | cons t' rest =>
        rintro ⟨⟩
        exact apart (List.mem_append_right _ List.mem_cons_self)
    refine ⟨m', fun fuel enough => ?_, by rw [put_put] at rep'; exact rep'⟩
    obtain ⟨fuel, rfl⟩ := Nat.exists_eq_add_one.mpr (Nat.zero_lt_of_lt enough)
    rw [IntrusiveList.eraseRange, if_neg other]
    have here : first tag list (t :: range ++ rest) = .node tag t := rfl
    simp only [here, ret, Option.bind_eq_bind, Option.bind_some]
    exact rets fuel (Nat.le_of_succ_le_succ enough)

theorem Represents.removeValue {done rest : List α} (same : α → Bool) (h : Represents m S)
    (eq : S tag list = done ++ rest) :
    ∃ m', (∀ fuel, rest.length ≤ fuel →
        IntrusiveList.remove tag list same fuel m (first tag list rest) = some m') ∧
      Represents m' (put S tag list (done ++ rest.filter fun t => !same t)) := by
  induction rest generalizing m S done with
  | nil =>
    refine ⟨m, fun fuel _ => ?_, h.same eq⟩
    unfold IntrusiveList.remove
    exact if_pos rfl
  | cons t rest ih =>
    have here : first tag list (t :: rest) = .node tag t := rfl
    have more : (Hook.node tag t : Hook τ ρ α) ≠ .root tag list := by
      intro same
      cases same
    cases equal : same t with
    | true =>
      obtain ⟨m₁, ret, rep⟩ := h.erase eq
      obtain ⟨m', rets, rep'⟩ := ih rep (put_here _ _)
      refine ⟨m', fun fuel enough => ?_, ?_⟩
      · obtain ⟨fuel, rfl⟩ := Nat.exists_eq_add_one.mpr (Nat.zero_lt_of_lt enough)
        simp only [here, IntrusiveList.remove, more, if_false, equal, if_true, ret,
          Option.bind_eq_bind, Option.bind_some]
        exact rets fuel (Nat.le_of_succ_le_succ enough)
      · rw [put_put] at rep'
        rw [List.filter_cons_of_neg (by simp [equal])]
        exact rep'
    | false =>
      have next : m.next (.node tag t) = first tag list rest := (h.parts eq).1.next_at
      obtain ⟨m', rets, rep'⟩ := @ih _ _ (done ++ [t]) h (by rw [eq, List.append_assoc]; rfl)
      refine ⟨m', fun fuel enough => ?_, ?_⟩
      · obtain ⟨fuel, rfl⟩ := Nat.exists_eq_add_one.mpr (Nat.zero_lt_of_lt enough)
        simp only [here, IntrusiveList.remove, more, if_false, equal, next, Bool.false_eq_true]
        exact rets fuel (Nat.le_of_succ_le_succ enough)
      · rw [List.filter_cons_of_pos (by simp [equal])]
        rw [List.append_assoc] at rep'
        exact rep'

theorem Step.simulated {S' : Lists τ ρ α} {call : Call τ ρ α} {it : Option (Hook τ ρ α)}
    (step : Step S call S' it) (h : Represents m S) :
    ∃ m' n, (∀ fuel, n ≤ fuel → call.run fuel m = some (m', it)) ∧ Represents m' S' := by
  cases step with
  | @pushFront tag list t fresh =>
    obtain ⟨m', ret, rep⟩ := h.insert (List.nil_append _).symm fresh
    refine ⟨_, 0, fun fuel _ => ?_, rep⟩
    have front : m.next (.root tag list) = first tag list (S tag list) := (h.ring tag list).next_root
    simp only [Call.run, IntrusiveList.pushFront, Hooks.insertAfter, front, ret, Option.bind_eq_bind,
      Option.bind_some, Option.pure_def]
  | @pushBack tag list t fresh =>
    obtain ⟨m', ret, rep⟩ := h.insert (List.append_nil _).symm fresh
    refine ⟨_, 0, fun fuel _ => ?_, rep⟩
    have root : first tag list [] = (.root tag list : Hook τ ρ α) := rfl
    rw [root] at ret
    simp only [Call.run, IntrusiveList.pushBack, ret, Option.bind_eq_bind, Option.bind_some,
      Option.pure_def]
  | @popFront tag list t rest eq =>
    have start : S tag list = [] ++ t :: rest := eq
    obtain ⟨m', -, ret, rep⟩ := h.remove start
    refine ⟨_, 0, fun fuel _ => ?_, rep⟩
    have front : m.next (.root tag list) = .node tag t := by
      have ring := h.ring tag list
      rw [eq] at ring
      exact ring.next_cons
    simp only [Call.run, IntrusiveList.popFront, front, ret, Option.bind_eq_bind, Option.bind_some,
      Option.pure_def]
  | @popBack tag list front t eq =>
    obtain ⟨m', -, ret, rep⟩ := h.remove eq
    rw [List.append_nil] at rep
    refine ⟨_, 0, fun fuel _ => ?_, rep⟩
    have back : m.prev (.root tag list) = .node tag t := by
      have ring := h.ring tag list
      rw [eq, List.map_append] at ring
      exact ring.prev_snoc
    simp only [Call.run, IntrusiveList.popBack, back, ret, Option.bind_eq_bind, Option.bind_some,
      Option.pure_def]
  | insert eq fresh =>
    obtain ⟨m', ret, rep⟩ := h.insert eq fresh
    refine ⟨_, 0, fun fuel _ => ?_, rep⟩
    simp only [Call.run, IntrusiveList.insert, ret, Option.bind_eq_bind, Option.bind_some,
      Option.pure_def]
    rfl
  | @erase tag list front t rest eq =>
    obtain ⟨m', ret, rep⟩ := h.erase eq
    refine ⟨_, 0, fun fuel _ => ?_, rep⟩
    have here : first tag list (t :: rest) = .node tag t := rfl
    simp only [Call.run, here, ret, Option.bind_eq_bind, Option.bind_some, Option.pure_def]
  | @eraseRange tag list front range rest eq =>
    obtain ⟨m', rets, rep⟩ := h.eraseRange eq
    refine ⟨m', range.length, fun fuel enough => ?_, rep⟩
    simp only [Call.run, rets fuel enough, Option.bind_eq_bind, Option.bind_some, Option.pure_def]
  | eraseNode eq =>
    obtain ⟨m', ret, rep⟩ := h.erase eq
    refine ⟨_, 0, fun fuel _ => ?_, rep⟩
    simp only [Call.run, ret, Option.bind_eq_bind, Option.bind_some, Option.pure_def]
  | @remove tag list same =>
    obtain ⟨m', rets, rep⟩ := h.removeValue same (List.nil_append _).symm
    refine ⟨m', (S tag list).length, fun fuel enough => ?_, rep⟩
    have front : m.next (.root tag list) = first tag list (S tag list) := (h.ring tag list).next_root
    simp only [Call.run, front, rets fuel enough, Option.bind_eq_bind, Option.bind_some,
      Option.pure_def]

theorem Steps.simulated {S' : Lists τ ρ α} {calls : List (Call τ ρ α)}
    {its : List (Option (Hook τ ρ α))} (steps : Steps S calls S' its) (h : Represents m S) :
    ∃ m' n, (∀ fuel, n ≤ fuel → runs fuel m calls = some (m', its)) ∧ Represents m' S' := by
  induction steps generalizing m with
  | nil => exact ⟨m, 0, fun _ _ => rfl, h⟩
  | cons step _ ih =>
    obtain ⟨m₁, n₁, ret, rep⟩ := step.simulated h
    obtain ⟨m₂, n₂, rets, rep'⟩ := ih rep
    refine ⟨m₂, max n₁ n₂, fun fuel enough => ?_, rep'⟩
    simp only [runs, ret fuel (by omega), rets fuel (by omega), Option.bind_eq_bind,
      Option.bind_some, Option.pure_def]

omit [DecidableEq α] in
/-- Lists of other tags keep their objects. -/
theorem Step.other {S' : Lists τ ρ α} {call : Call τ ρ α} {it : Option (Hook τ ρ α)}
    (step : Step S call S' it) (other : call.tag ≠ tag) : S' tag = S tag := by
  cases step with
  | pushFront => exact Function.update_of_ne other.symm ..
  | pushBack => exact Function.update_of_ne other.symm ..
  | popFront => exact Function.update_of_ne other.symm ..
  | popBack => exact Function.update_of_ne other.symm ..
  | insert => exact Function.update_of_ne other.symm ..
  | erase => exact Function.update_of_ne other.symm ..
  | eraseRange => exact Function.update_of_ne other.symm ..
  | eraseNode => exact Function.update_of_ne other.symm ..
  | remove => exact Function.update_of_ne other.symm ..

omit [DecidableEq α] in
theorem Steps.other {S' : Lists τ ρ α} {calls : List (Call τ ρ α)}
    {its : List (Option (Hook τ ρ α))} (steps : Steps S calls S' its)
    (other : ∀ call ∈ calls, call.tag ≠ tag) : S' tag = S tag := by
  induction steps with
  | nil => rfl
  | cons step _ ih =>
    obtain ⟨head, tail⟩ := List.forall_mem_cons.mp other
    exact (ih tail).trans (step.other head)

omit [DecidableEq τ] [DecidableEq ρ] [DecidableEq α] in
/-- The same lists have the same hooks. -/
theorem Represents.agree {m' : Hooks τ ρ α} {S' : Lists τ ρ α} (h : Represents m S)
    (h' : Represents m' S') (same : S' tag = S tag) (z : Hook τ ρ α) (of : z.tag = tag) :
    m'.next z = m.next z ∧ m'.prev z = m.prev z := by
  have listed (list : ρ) (mem : z ∈ .root tag list :: (S tag list).map (.node tag)) :
      m'.next z = m.next z ∧ m'.prev z = m.prev z := by
    have ring := h'.ring tag list
    rw [same] at ring
    exact (h.ring tag list).agree ring mem
  cases z with
  | root tag' list =>
    obtain rfl : tag' = tag := of
    exact listed list List.mem_cons_self
  | node tag' t =>
    obtain rfl : tag' = tag := of
    by_cases linked : ∃ list, t ∈ S tag' list
    · obtain ⟨list, mem⟩ := linked
      exact listed list (node_mem.mpr (.inr ⟨t, mem, rfl⟩))
    · have free := not_exists.mp linked
      obtain ⟨next, prev⟩ := h.detached tag' t free
      obtain ⟨next', prev'⟩ := h'.detached tag' t (same.symm ▸ free)
      exact ⟨next'.trans next.symm, prev'.trans prev.symm⟩

/-- Whatever is done to lists, the hooks are those of the lists the same calls give,
and so are the iterators returned. Hooks of tags that are not used do not change. -/
theorem refines {S' : Lists τ ρ α} {calls : List (Call τ ρ α)} {its : List (Option (Hook τ ρ α))}
    (steps : Steps S calls S' its) (h : Represents m S) :
    ∃ m' n, (∀ fuel, n ≤ fuel → runs fuel m calls = some (m', its)) ∧ Represents m' S' ∧
      ∀ tag, (∀ call ∈ calls, call.tag ≠ tag) → S' tag = S tag ∧
        ∀ z : Hook τ ρ α, z.tag = tag → m'.next z = m.next z ∧ m'.prev z = m.prev z := by
  obtain ⟨m', n, rets, rep⟩ := steps.simulated h
  refine ⟨m', n, rets, rep, fun tag other => ?_⟩
  have same := steps.other other
  exact ⟨same, h.agree rep same⟩

/-- Two objects are put into a list and the first is erased. -/
theorem refines_two :
    ∃ (m' : Hooks Bool Unit Nat) (n : Nat), (∀ fuel, n ≤ fuel → runs fuel {}
        [.pushBack true () 7, .pushBack true () 8, .erase true () (.node true 7)] =
          some (m', [none, none, some (.node true 8)])) ∧
      Represents m' (put (put (put (fun _ _ => []) true () [7]) true () [7, 8]) true () [8]) ∧
      ∀ tag, (∀ call ∈ [Call.pushBack true () 7, .pushBack true () 8, .erase true () (.node true 7)],
          call.tag ≠ tag) →
        put (put (put (fun _ _ => []) true () [7]) true () [7, 8]) true () [8] tag = (fun _ => []) ∧
        ∀ z : Hook Bool Unit Nat, z.tag = tag → m'.next z = z ∧ m'.prev z = z := by
  have first : Step (fun _ _ => []) (.pushBack true () 7) (put (fun _ _ => []) true () [7])
      (none : Option (Hook Bool Unit Nat)) := .pushBack fun _ => List.not_mem_nil
  have second : Step (put (fun _ _ => []) true () [7]) (.pushBack true () 8)
      (put (put (fun _ _ => []) true () [7]) true () [7, 8])
      (none : Option (Hook Bool Unit Nat)) := .pushBack fun list => by cases list; decide
  have third : Step (put (put (fun _ _ => []) true () [7]) true () [7, 8])
      (.erase true () (.node true 7))
      (put (put (put (fun _ _ => []) true () [7]) true () [7, 8]) true () [8])
      (some (.node true 8 : Hook Bool Unit Nat)) := @Step.erase _ _ _ _ _ _ _ _ [] 7 [8] rfl
  exact refines (.cons first (.cons second (.cons third .nil))) .new

end

end IntrusiveList
end Mcsb
