import Mathlib.Data.List.Basic

/-!
# Scanners that can be fed piece by piece

A scanner looks at the head of its input and what follows, and drops the head,
emits it with some of what follows, or waits for more input. As long as more
input does not change a verdict once given, it does not matter when it comes.
-/

inductive Verdict where
  | wait
  | drop
  /-- The head and this many items after it. -/
  | emit (k : Nat)
  deriving DecidableEq, Repr

structure Scanner (α : Type) where
  verdict : α → List α → Verdict
  inside : ∀ {x xs k}, verdict x xs = .emit k → k ≤ xs.length
  stable : ∀ {x xs}, verdict x xs ≠ .wait → ∀ ys, verdict x (xs ++ ys) = verdict x xs

/-- What a scan comes to, with the input it still waits on. -/
@[ext]
structure Scan (α : Type) where
  emitted : List (List α)
  dropped : List α
  waiting : List α

namespace Scan
variable {α : Type}

/-- One scan after the other, which took over its input. -/
def andThen (a b : Scan α) : Scan α := ⟨a.emitted ++ b.emitted, a.dropped ++ b.dropped, b.waiting⟩

theorem andThen_assoc (a b c : Scan α) : (a.andThen b).andThen c = a.andThen (b.andThen c) := by
  simp only [andThen, List.append_assoc]

end Scan

namespace Scanner
variable {α : Type} (s : Scanner α)

/-- All of the input at once. -/
def scan : List α → Scan α
  | [] => ⟨[], [], []⟩
  | x :: xs =>
    match s.verdict x xs with
    | .wait => ⟨[], [], x :: xs⟩
    | .drop => Scan.andThen ⟨[], [x], []⟩ (scan xs)
    | .emit k => Scan.andThen ⟨[x :: xs.take k], [], []⟩ (scan (xs.drop k))
termination_by input => input.length
decreasing_by
  · exact Nat.lt_succ_self _
  · simp only [List.length_drop, List.length_cons]
    omega

/-- The first emitted, what was dropped before it, and the input left. -/
def next : List α → Option (List α) × List α × List α
  | [] => (none, [], [])
  | x :: xs =>
    match s.verdict x xs with
    | .wait => (none, [], x :: xs)
    | .drop => ((next xs).1, x :: (next xs).2.1, (next xs).2.2)
    | .emit k => (some (x :: xs.take k), [], xs.drop k)

variable {s} {x : α} {xs : List α}

theorem scan_nil : s.scan [] = ⟨[], [], []⟩ := by
  unfold scan
  rfl

theorem scan_wait (h : s.verdict x xs = .wait) : s.scan (x :: xs) = ⟨[], [], x :: xs⟩ := by
  unfold scan
  simp only [h]

theorem scan_drop (h : s.verdict x xs = .drop) :
    s.scan (x :: xs) = Scan.andThen ⟨[], [x], []⟩ (s.scan xs) := by
  conv => lhs; unfold scan
  simp only [h]

theorem scan_emit {k : Nat} (h : s.verdict x xs = .emit k) :
    s.scan (x :: xs) = Scan.andThen ⟨[x :: xs.take k], [], []⟩ (s.scan (xs.drop k)) := by
  conv => lhs; unfold scan
  simp only [h]

theorem next_wait (h : s.verdict x xs = .wait) : s.next (x :: xs) = (none, [], x :: xs) := by
  simp only [next, h]

theorem next_drop (h : s.verdict x xs = .drop) :
    s.next (x :: xs) = ((s.next xs).1, x :: (s.next xs).2.1, (s.next xs).2.2) := by
  simp only [next, h]

theorem next_emit {k : Nat} (h : s.verdict x xs = .emit k) :
    s.next (x :: xs) = (some (x :: xs.take k), [], xs.drop k) := by
  simp only [next, h]

/-- Input that comes later is scanned with what the scan waited on. -/
theorem scan_append (xs ys : List α) :
    s.scan (xs ++ ys) = (s.scan xs).andThen (s.scan ((s.scan xs).waiting ++ ys)) := by
  induction h : xs.length using Nat.strongRecOn generalizing xs with
  | ind n ih =>
    cases xs with
    | nil => simp [scan_nil, Scan.andThen]
    | cons x xs =>
      simp only [List.length_cons] at h
      cases verdict : s.verdict x xs with
      | wait => simp [scan_wait verdict, Scan.andThen]
      | drop =>
        have later := (s.stable (by simp [verdict]) ys).trans verdict
        have rest := ih xs.length (by omega) xs rfl
        simp only [List.cons_append, scan_drop later, scan_drop verdict, rest,
          Scan.andThen_assoc]
        rfl
      | emit k =>
        have later := (s.stable (by simp [verdict]) ys).trans verdict
        have inside := s.inside verdict
        have rest := ih (xs.drop k).length (by simp; omega) (xs.drop k) rfl
        simp only [List.cons_append, scan_emit later, scan_emit verdict,
          List.take_append_of_le_length inside, List.drop_append_of_le_length inside, rest,
          Scan.andThen_assoc]
        rfl

/-- A scan can be done one emission at a time. -/
theorem scan_next (xs : List α) :
    s.scan xs = Scan.andThen ⟨(s.next xs).1.toList, (s.next xs).2.1, []⟩
      (s.scan (s.next xs).2.2) := by
  induction xs with
  | nil => simp [next, scan_nil, Scan.andThen]
  | cons x xs ih =>
    cases verdict : s.verdict x xs with
    | wait => simp [next_wait verdict, scan_wait verdict, Scan.andThen]
    | drop =>
      simp only [scan_drop verdict, next_drop verdict]
      conv => lhs; rw [ih]
      rfl
    | emit k => simp [next_emit verdict, scan_emit verdict]

/-- Where nothing is emitted, the input left waits. -/
theorem scan_left (s : Scanner α) (xs : List α) (none : (s.next xs).1 = none) :
    s.scan (s.next xs).2.2 = ⟨[], [], (s.next xs).2.2⟩ := by
  induction xs with
  | nil => exact scan_nil
  | cons x xs ih =>
    cases verdict : s.verdict x xs with
    | wait => simpa only [next_wait verdict] using scan_wait verdict
    | drop =>
      simp only [next_drop verdict] at none ⊢
      exact ih none
    | emit k => simp [next_emit verdict] at none

theorem next_eq_none {s : Scanner α} {xs : List α} (none : (s.scan xs).emitted = []) :
    (s.next xs).1 = .none := by
  rw [scan_next] at none
  exact Option.toList_eq_nil_iff.mp (List.append_eq_nil_iff.mp none).1

/-- The scanner for things of which it looks at one part only. -/
def comap {β : Type} (f : β → α) (s : Scanner α) : Scanner β where
  verdict x xs := s.verdict (f x) (xs.map f)
  inside emits := by simpa only [List.length_map] using s.inside emits
  stable decided more := by simpa only [List.map_append] using s.stable decided (more.map f)

theorem next_map {β : Type} (f : β → α) (s : Scanner α) (xs : List β) :
    s.next (xs.map f) = (((s.comap f).next xs).1.map (·.map f), ((s.comap f).next xs).2.1.map f,
      ((s.comap f).next xs).2.2.map f) := by
  induction xs with
  | nil => rfl
  | cons x xs ih =>
    cases verdict : (s.comap f).verdict x xs with
    | wait => simp only [List.map_cons, next_wait verdict, next_wait (show s.verdict _ _ = _ from verdict),
        Option.map_none, List.map_nil]
    | drop => simp only [List.map_cons, next_drop verdict, next_drop (show s.verdict _ _ = _ from verdict), ih]
    | emit k => simp only [List.map_cons, next_emit verdict, next_emit (show s.verdict _ _ = _ from verdict),
        Option.map_some, List.map_cons, List.map_take, List.map_drop, List.map_nil]

/-! ## What comes before each emission -/

variable (s)

/-- What is emitted, each with what is dropped on the way to it, after `dropped`. -/
def arrivals (dropped : List α) : List α → List (List α × List α)
  | [] => []
  | x :: xs =>
    match s.verdict x xs with
    | .wait => []
    | .drop => arrivals (dropped ++ [x]) xs
    | .emit k => (dropped, x :: xs.take k) :: arrivals [] (xs.drop k)
termination_by input => input.length
decreasing_by
  · exact Nat.lt_succ_self _
  · simp only [List.length_drop, List.length_cons]
    omega

variable {s}

theorem arrivals_none {xs : List α} (none : (s.next xs).1 = none) (dropped : List α) :
    s.arrivals dropped xs = [] := by
  induction xs generalizing dropped with
  | nil =>
    unfold arrivals
    rfl
  | cons x xs ih =>
    unfold arrivals
    cases verdict : s.verdict x xs with
    | wait => rfl
    | drop =>
      rw [next_drop verdict] at none
      exact ih none _
    | emit k => simp [next_emit verdict] at none

theorem arrivals_some {xs found : List α} (some : (s.next xs).1 = some found) (dropped : List α) :
    s.arrivals dropped xs = (dropped ++ (s.next xs).2.1, found) :: s.arrivals [] (s.next xs).2.2 := by
  induction xs generalizing dropped with
  | nil => cases some
  | cons x xs ih =>
    conv => lhs; unfold arrivals
    cases verdict : s.verdict x xs with
    | wait => simp [next_wait verdict] at some
    | drop =>
      simp only [next_drop verdict] at some ⊢
      rw [ih some, List.append_assoc]
      rfl
    | emit k =>
      simp only [next_emit verdict, Option.some.injEq] at some ⊢
      rw [some, List.append_nil]

/-! ## Scanning what has come so far -/

variable (s)

/-- With `emitted` and `dropped` so far, scanning `buffer` to the end comes to
the same as scanning the whole stream. -/
def Resumes (stream : List α) (emitted : List (List α)) (dropped buffer : List α) : Prop :=
  s.scan stream = Scan.andThen ⟨emitted, dropped, []⟩ (s.scan buffer)

variable {s} {stream dropped buffer : List α} {emitted : List (List α)}

theorem resumes_start : s.Resumes [] [] [] [] := rfl

theorem Resumes.feed (h : s.Resumes stream emitted dropped buffer) (more : List α) :
    s.Resumes (stream ++ more) emitted dropped (buffer ++ more) := by
  unfold Resumes at h ⊢
  simp only [scan_append stream more, scan_append buffer more, h, Scan.andThen_assoc]
  rfl

theorem Resumes.next (h : s.Resumes stream emitted dropped buffer) :
    s.Resumes stream (emitted ++ (s.next buffer).1.toList) (dropped ++ (s.next buffer).2.1)
      (s.next buffer).2.2 := by
  unfold Resumes at h ⊢
  rw [h, scan_next buffer, ← Scan.andThen_assoc]
  rfl

/-- Once nothing more is emitted, all is as in one scan. -/
theorem Resumes.finished (h : s.Resumes stream emitted dropped buffer)
    (waits : s.scan buffer = ⟨[], [], buffer⟩) : s.scan stream = ⟨emitted, dropped, buffer⟩ := by
  simp only [h.trans (congrArg _ waits), Scan.andThen, List.append_nil]

end Scanner
