import Mathlib.Data.List.Nodup

/-!
# Logs of changes to a table

A table of keys with values is known from a log: lists of values are added to a
key or removed from it. A log is legal if it only removes what is there.
-/

namespace ChangeLog

variable {K V : Type} [DecidableEq K] [DecidableEq V]

inductive Note (K V : Type) where
  | add (k : K) (vs : List V)
  | remove (k : K) (vs : List V)
  deriving DecidableEq, Repr

namespace Note

def apply (t : List (K × V)) : Note K V → List (K × V)
  | add k vs => t ++ vs.map (k, ·)
  | remove k vs => t.filter fun p => ¬ (p.1 = k ∧ p.2 ∈ vs)

def Legal (t : List (K × V)) : Note K V → Prop
  | add _ _ => True
  | remove k vs => ∀ v ∈ vs, (k, v) ∈ t

instance (t : List (K × V)) : DecidablePred (Legal t)
  | add _ _ => inferInstanceAs (Decidable True)
  | remove k vs => inferInstanceAs (Decidable (∀ v ∈ vs, (k, v) ∈ t))

end Note

/-- The table after a log. -/
def replay (t : List (K × V)) (log : List (Note K V)) : List (K × V) := log.foldl Note.apply t

def Legal : List (K × V) → List (Note K V) → Prop
  | _, [] => True
  | t, n :: log => n.Legal t ∧ Legal (n.apply t) log

instance : ∀ (t : List (K × V)) (log : List (Note K V)), Decidable (Legal t log)
  | _, [] => inferInstanceAs (Decidable True)
  | t, n :: log =>
    have := instDecidableLegal (n.apply t) log
    inferInstanceAs (Decidable (n.Legal t ∧ Legal (n.apply t) log))

variable {t : List (K × V)} {k : K} {p : K × V}

theorem replay_append (log log' : List (Note K V)) :
    replay t (log ++ log') = replay (replay t log) log' := List.foldl_append

theorem legal_append {log log' : List (Note K V)} :
    Legal t (log ++ log') ↔ Legal t log ∧ Legal (replay t log) log' := by
  induction log generalizing t with
  | nil => simp [Legal, replay]
  | cons n log ih =>
    rw [List.cons_append, Legal, ih, Legal, and_assoc]
    rfl

theorem mem_replay_adds (chunks : List (List V)) : p ∈ replay t (chunks.map (Note.add k)) ↔
    p ∈ t ∨ p.1 = k ∧ p.2 ∈ chunks.flatten := by
  induction chunks generalizing t with
  | nil => simp [replay]
  | cons vs chunks ih =>
    rw [List.map_cons, replay, List.foldl_cons, ← replay, ih]
    obtain ⟨k', v⟩ := p
    simp only [Note.apply, List.mem_append, List.mem_map, Prod.mk.injEq, List.flatten_cons]
    constructor
    · rintro ((before | ⟨v, mem, rfl, rfl⟩) | ⟨rfl, mem⟩)
      · exact .inl before
      · exact .inr ⟨rfl, .inl mem⟩
      · exact .inr ⟨rfl, .inr mem⟩
    · rintro (before | ⟨rfl, mem | mem⟩)
      · exact .inl (.inl before)
      · exact .inl (.inr ⟨v, mem, rfl, rfl⟩)
      · exact .inr ⟨rfl, mem⟩

theorem legal_adds (chunks : List (List V)) : Legal t (chunks.map (Note.add k)) := by
  induction chunks generalizing t with
  | nil => trivial
  | cons vs chunks ih => exact ⟨trivial, ih⟩

theorem mem_replay_removes (chunks : List (List V)) :
    p ∈ replay t (chunks.map (Note.remove k)) ↔ p ∈ t ∧ ¬ (p.1 = k ∧ p.2 ∈ chunks.flatten) := by
  induction chunks generalizing t with
  | nil => simp [replay]
  | cons vs chunks ih =>
    rw [List.map_cons, replay, List.foldl_cons, ← replay, ih, Note.apply, List.mem_filter,
      decide_eq_true_eq, and_assoc, List.flatten_cons, List.mem_append, and_or_left, not_or]

/-- Values that are there are removed one after the other. -/
theorem legal_removes {chunks : List (List V)} (nodup : chunks.flatten.Nodup)
    (there : ∀ v ∈ chunks.flatten, (k, v) ∈ t) : Legal t (chunks.map (Note.remove k)) := by
  induction chunks generalizing t with
  | nil => trivial
  | cons vs chunks ih =>
    rw [List.flatten_cons] at nodup there
    obtain ⟨-, later, apart⟩ := List.nodup_append.mp nodup
    refine ⟨fun v mem => there v (List.mem_append_left _ mem), ih later fun v mem => ?_⟩
    refine List.mem_filter.mpr ⟨there v (List.mem_append_right _ mem), decide_eq_true ?_⟩
    exact fun gone => apart v gone.2 v mem rfl

end ChangeLog
