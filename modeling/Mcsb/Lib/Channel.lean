import Mathlib.Data.List.Infix

/-!
# FIFO channels

What was sent through a channel is what was handled at its other end and then
what is in flight.
-/

structure Channel (α : Type) where
  handled : List α := []
  inFlight : List α := []

namespace Channel
variable {α : Type} {c : Channel α} {a : α} {rest : List α}

def sent (c : Channel α) : List α := c.handled ++ c.inFlight

def send (c : Channel α) (a : α) : Channel α := { c with inFlight := c.inFlight ++ [a] }

/-- `a` at the head is handled, and `rest` remains. -/
def handle (c : Channel α) (a : α) (rest : List α) : Channel α where
  handled := c.handled ++ [a]
  inFlight := rest

theorem handled_initial (c : Channel α) : c.handled <+: c.sent := List.prefix_append ..

@[simp] theorem sent_send (c : Channel α) (a : α) : (c.send a).sent = c.sent ++ [a] :=
  (List.append_assoc ..).symm

@[simp] theorem handled_send (c : Channel α) (a : α) : (c.send a).handled = c.handled := rfl

theorem sent_handle (head : c.inFlight = a :: rest) : (c.handle a rest).sent = c.sent := by
  rw [sent, sent, head, handle, List.append_assoc]
  rfl

/-- What was sent before something that is not in flight was handled. -/
theorem handled_of_not_mem {before after : List α} (split : c.sent = before ++ a :: after)
    (arrived : a ∉ c.inFlight) : before ++ [a] <+: c.handled := by
  rcases List.append_eq_append_iff.mp split with ⟨between, -, flying⟩ | ⟨between, handled, eq⟩
  · exact absurd (by simp [flying]) arrived
  · cases between with
    | nil =>
      rw [List.nil_append] at eq
      rw [← eq] at arrived
      exact absurd List.mem_cons_self arrived
    | cons first between =>
      cases eq
      exact ⟨between, by simp [handled]⟩

end Channel
