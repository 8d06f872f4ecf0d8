import Mathlib.Logic.Basic
import Mathlib.Order.Defs.Unbundled
import Mathlib.Tactic.TypeStar

/-!
# Programs with state and exceptions

`EStateM` keeps the state that a throwing call leaves behind, as a language
with exceptions and mutable objects does. Two ways to reason about such a
program: `wp`, what holds after it on each way out, and `Moves R`, that it only
ever moves the state along a preorder `R`. For `Moves`, instance search goes
through the program.
-/

namespace Effect

variable {ε σ α β : Type}

/-- Started in `s`, the call ends normally with `Q` or throws with `E`. -/
def wp (x : EStateM ε σ α) (s : σ) (Q : α → σ → Prop) (E : ε → σ → Prop) : Prop :=
  match x s with
  | .ok a s' => Q a s'
  | .error e s' => E e s'

section
variable {x : EStateM ε σ α} {s : σ} {Q Q' : α → σ → Prop} {E E' : ε → σ → Prop}

theorem wp_mono (h : wp x s Q E) (hQ : ∀ a s', Q a s' → Q' a s') (hE : ∀ e s', E e s' → E' e s') :
    wp x s Q' E' := by
  unfold wp at *
  split
  · exact hQ _ _ (by simp_all)
  · exact hE _ _ (by simp_all)

theorem wp_and (h : wp x s Q E) (h' : wp x s Q' E') :
    wp x s (fun a s' => Q a s' ∧ Q' a s') (fun e s' => E e s' ∧ E' e s') := by
  unfold wp at *
  split <;> rename_i eq <;> simp only [eq] at h h' <;> exact ⟨h, h'⟩

theorem wp_trivial : wp x s (fun _ _ => True) (fun _ _ => True) := by
  unfold wp
  split <;> trivial

/-- What holds on every way out and is not about the state holds. -/
theorem of_wp {p : Prop} (h : wp x s (fun _ _ => p) (fun _ _ => p)) : p := by
  unfold wp at h
  split at h
  · exact h
  · exact h

/-- A call that throws in no way returns. -/
theorem ok_of_wp (h : wp x s Q fun _ _ => False) : ∃ a s', x s = .ok a s' ∧ Q a s' := by
  unfold wp at h
  split at h
  · exact ⟨_, _, by assumption, h⟩
  · exact h.elim

theorem get_bind_eq (f : σ → EStateM ε σ β) (s : σ) : (get >>= f) s = f s s := rfl

theorem wp_of_ok {a : α} {s' : σ} (eq : x s = .ok a s') : wp x s Q E ↔ Q a s' := by
  simp only [wp, eq]

theorem wp_of_error {e : ε} {s' : σ} (eq : x s = .error e s') : wp x s Q E ↔ E e s' := by
  simp only [wp, eq]

@[simp] theorem wp_pure {a : α} : wp (pure a : EStateM ε σ α) s Q E ↔ Q a s := Iff.rfl

@[simp] theorem wp_throw {e : ε} : wp (throw e : EStateM ε σ α) s Q E ↔ E e s := Iff.rfl

@[simp] theorem wp_bind {f : α → EStateM ε σ β} {Q : β → σ → Prop} :
    wp (x >>= f) s Q E ↔ wp x s (fun a s' => wp (f a) s' Q E) E := by
  simp only [wp, bind, EStateM.bind]
  cases x s <;> rfl

@[simp] theorem wp_map {f : α → β} {Q : β → σ → Prop} :
    wp (f <$> x) s Q E ↔ wp x s (fun a s' => Q (f a) s') E := by
  simp only [wp, Functor.map, EStateM.map]
  cases x s <;> rfl

@[simp] theorem wp_get {Q : σ → σ → Prop} : wp (get : EStateM ε σ σ) s Q E ↔ Q s s := Iff.rfl

@[simp] theorem wp_set {t : σ} {Q : PUnit → σ → Prop} :
    wp (set t : EStateM ε σ PUnit) s Q E ↔ Q ⟨⟩ t := Iff.rfl

@[simp] theorem wp_modify {f : σ → σ} {Q : PUnit → σ → Prop} :
    wp (modify f : EStateM ε σ PUnit) s Q E ↔ Q ⟨⟩ (f s) := Iff.rfl

@[simp] theorem wp_modifyGet {f : σ → α × σ} :
    wp (modifyGet f : EStateM ε σ α) s Q E ↔ Q (f s).1 (f s).2 := Iff.rfl

@[simp] theorem wp_ite {p : Prop} [Decidable p] {y : EStateM ε σ α} :
    wp (if p then x else y) s Q E ↔ if p then wp x s Q E else wp y s Q E := by
  split <;> rfl

end

/-- A call that sees only a part of the state, as a method of a member object. -/
def zoom {τ : Type} (view : σ → τ) (put : τ → σ → σ) (x : EStateM ε τ α) : EStateM ε σ α := fun s =>
  match x (view s) with
  | .ok a t => .ok a (put t s)
  | .error e t => .error e (put t s)

@[simp] theorem wp_zoom {τ : Type} {view : σ → τ} {put : τ → σ → σ} {x : EStateM ε τ α} {s : σ}
    {Q : α → σ → Prop} {E : ε → σ → Prop} :
    wp (zoom view put x) s Q E ↔
      wp x (view s) (fun a t => Q a (put t s)) (fun e t => E e (put t s)) := by
  simp only [wp, zoom]
  cases x (view s) <;> rfl

/-- Every way out of the call leaves a state that `R` relates to the first. The
instances follow the shape of the program. -/
class Moves (R : σ → σ → Prop) (x : EStateM ε σ α) : Prop where
  moves : ∀ s, wp x s (fun _ s' => R s s') (fun _ s' => R s s')

namespace Moves
variable {R : σ → σ → Prop} {x : EStateM ε σ α}

theorem mono {R' : σ → σ → Prop} (h : Moves R x) (le : ∀ s s', R s s' → R' s s') : Moves R' x :=
  ⟨fun s => wp_mono (h.moves s) (fun _ _ => le _ _) (fun _ _ => le _ _)⟩

theorem modify {f : σ → σ} (h : ∀ s, R s (f s)) : Moves R (modify f : EStateM ε σ PUnit) := ⟨h⟩

/-- A call that starts by looking at the state. -/
theorem get_bind {f : σ → EStateM ε σ β} (h : ∀ s, wp (f s) s (fun _ s' => R s s')
    (fun _ s' => R s s')) : Moves R (get >>= f) := ⟨fun s => wp_bind.mpr (h s)⟩

instance ite {p : Prop} [Decidable p] {y : EStateM ε σ α} [hx : Moves R x] [hy : Moves R y] :
    Moves R (if p then x else y) := by
  split
  · exact hx
  · exact hy

instance map {f : α → β} [hx : Moves R x] : Moves R (f <$> x) := ⟨fun s => wp_map.mpr (hx.moves s)⟩

variable [IsPreorder σ R]

instance pure {a : α} : Moves R (pure a : EStateM ε σ α) := ⟨fun s => refl_of R s⟩

instance throw {e : ε} : Moves R (throw e : EStateM ε σ α) := ⟨fun s => refl_of R s⟩

instance get : Moves R (get : EStateM ε σ σ) := ⟨fun s => refl_of R s⟩

/-- After a first part that moves along `R`, the rest may start from there. -/
theorem wp_trans {s s₀ : σ} (first : R s₀ s) [hx : Moves R x] :
    wp x s (fun _ s' => R s₀ s') (fun _ s' => R s₀ s') :=
  wp_mono (hx.moves s) (fun _ _ => trans_of R first) (fun _ _ => trans_of R first)

instance bind {f : α → EStateM ε σ β} [hx : Moves R x] [hf : ∀ a, Moves R (f a)] :
    Moves R (x >>= f) :=
  ⟨fun s => wp_bind.mpr (wp_mono (hx.moves s) (fun _ _ first => wp_trans first) (fun _ _ => id))⟩

theorem bind_of {f : α → EStateM ε σ β} (hx : Moves R x) (hf : ∀ a, Moves R (f a)) :
    Moves R (x >>= f) := inferInstance

end Moves

/-! ## What a call does not touch -/

/-- The two are the same by computation. -/
class Same {τ : Type} (a b : τ) : Prop where
  eq : a = b

instance {τ : Type} (a : τ) : Same a a := ⟨rfl⟩

/-- Nothing that `view` shows has changed. -/
def Keeps {τ : Type} (view : σ → τ) (s s' : σ) : Prop := view s' = view s

instance {τ : Type} (view : σ → τ) : IsPreorder σ (Keeps view) where
  refl _ := rfl
  trans _ _ _ h h' := h'.trans h

instance {τ : Type} (view : σ → τ) (f : σ → σ) [h : ∀ s, Same (view (f s)) (view s)] :
    Moves (Keeps view) (modify f : EStateM ε σ PUnit) := .modify fun s => (h s).eq

/-- What `P` says goes on holding. -/
def Stays (P : σ → Prop) (s s' : σ) : Prop := P s → P s'

instance (P : σ → Prop) : IsPreorder σ (Stays P) where
  refl _ := id
  trans _ _ _ h h' := h' ∘ h

theorem Moves.stays {P : σ → Prop} {x : EStateM ε σ α}
    (h : ∀ s, P s → wp x s (fun _ => P) (fun _ => P)) : Moves (Stays P) x := ⟨fun s => by
  unfold Stays wp at *
  split
  · rename_i eq
    exact fun holds => by simpa only [eq] using h s holds
  · rename_i eq
    exact fun holds => by simpa only [eq] using h s holds⟩

theorem Moves.wp_stays {P : σ → Prop} {x : EStateM ε σ α} [hx : Moves (Stays P) x] {s : σ}
    (holds : P s) : wp x s (fun _ => P) (fun _ => P) :=
  wp_mono (hx.moves s) (fun _ _ stays => stays holds) (fun _ _ stays => stays holds)

/-- A first part that kept `P`, and a rest that goes on keeping it. -/
theorem Moves.wp_bind_stays {P : σ → Prop} {x : EStateM ε σ α} {f : α → EStateM ε σ β} {s : σ}
    [∀ a, Moves (Stays P) (f a)] (h : wp x s (fun _ => P) (fun _ => P)) :
    wp (x >>= f) s (fun _ => P) (fun _ => P) :=
  wp_bind.mpr (wp_mono h (fun _ _ => Moves.wp_stays) (fun _ _ => id))

end Effect
