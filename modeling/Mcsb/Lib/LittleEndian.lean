import Mathlib.Data.List.Basic
import Mathlib.Tactic.Ring

/-!
# Little-endian byte strings

Fixed-width little-endian integers, records built from them, and arrays of
fixed-size records. Nothing here knows what the bytes are for.
-/

namespace LittleEndian

/-- The `k` low bytes of `n`, lowest first. -/
def write : Nat → Nat → List UInt8
  | 0, _ => []
  | k + 1, n => UInt8.ofNat n :: write k (n / 256)

/-- The number a byte string denotes. -/
def read : List UInt8 → Nat
  | [] => 0
  | b :: bs => b.toNat + 256 * read bs

@[simp] theorem length_write (k n : Nat) : (write k n).length = k := by
  induction k generalizing n with
  | zero => rfl
  | succ k ih => simp [write, ih]

theorem read_write (k n : Nat) : read (write k n) = n % 256 ^ k := by
  induction k generalizing n with
  | zero => simp [write, read, Nat.mod_one]
  | succ k ih =>
    have hb : (UInt8.ofNat n).toNat = n % 256 := by simp [UInt8.toNat_ofNat']
    rw [write, read, ih, hb, Nat.pow_succ', Nat.mod_mul]

theorem read_lt (bs : List UInt8) : read bs < 256 ^ bs.length := by
  induction bs with
  | nil => simp [read]
  | cons b bs ih =>
    have hb := b.toNat_lt
    simp only [read, List.length_cons, Nat.pow_succ']
    omega

theorem write_read (bs : List UInt8) : write bs.length (read bs) = bs := by
  induction bs with
  | nil => rfl
  | cons b bs ih =>
    have hb := b.toNat_lt
    have low : UInt8.ofNat (b.toNat + 256 * read bs) = b := by
      apply UInt8.toNat_inj.mp
      rw [UInt8.toNat_ofNat']
      omega
    have high : (b.toNat + 256 * read bs) / 256 = read bs := by omega
    simp only [List.length_cons, read, write, low, high, ih]

/-- A 32-bit word in memory. -/
def word32 (w : UInt32) : List UInt8 := write 4 w.toNat

/-- The 32-bit word at the front of memory. -/
def get32 (mem : List UInt8) : UInt32 := UInt32.ofNat (read (mem.take 4))

def word16 (w : UInt16) : List UInt8 := write 2 w.toNat

def get16 (mem : List UInt8) : UInt16 := UInt16.ofNat (read (mem.take 2))

def word64 (w : UInt64) : List UInt8 := write 8 w.toNat

def get64 (mem : List UInt8) : UInt64 := UInt64.ofNat (read (mem.take 8))

@[simp] theorem length_word32 (w : UInt32) : (word32 w).length = 4 := length_write _ _

@[simp] theorem length_word16 (w : UInt16) : (word16 w).length = 2 := length_write _ _

@[simp] theorem length_word64 (w : UInt64) : (word64 w).length = 8 := length_write _ _

@[simp] theorem drop_word32 (w : UInt32) (rest : List UInt8) (n : Nat) :
    (word32 w ++ rest).drop (n + 4) = rest.drop n := by
  rw [Nat.add_comm, ← length_word32 w, List.drop_length_add_append]

@[simp] theorem drop_word16 (w : UInt16) (rest : List UInt8) (n : Nat) :
    (word16 w ++ rest).drop (n + 2) = rest.drop n := by
  rw [Nat.add_comm, ← length_word16 w, List.drop_length_add_append]

@[simp] theorem get32_word32 (w : UInt32) (rest : List UInt8) : get32 (word32 w ++ rest) = w := by
  have hw := w.toNat_lt
  rw [get32, List.take_left' (length_word32 w), word32, read_write,
    Nat.mod_eq_of_lt (by simpa using hw), UInt32.ofNat_toNat]

@[simp] theorem get16_word16 (w : UInt16) (rest : List UInt8) : get16 (word16 w ++ rest) = w := by
  have hw := w.toNat_lt
  rw [get16, List.take_left' (length_word16 w), word16, read_write,
    Nat.mod_eq_of_lt (by simpa using hw), UInt16.ofNat_toNat]

@[simp] theorem get64_word64 (w : UInt64) (rest : List UInt8) : get64 (word64 w ++ rest) = w := by
  have hw := w.toNat_lt
  rw [get64, List.take_left' (length_word64 w), word64, read_write,
    Nat.mod_eq_of_lt (by simpa using hw), UInt64.ofNat_toNat]

/-- Any four bytes are the word they denote. -/
theorem word32_get32 {mem : List UInt8} (h : 4 ≤ mem.length) : word32 (get32 mem) = mem.take 4 := by
  have hl : (mem.take 4).length = 4 := by simp [h]
  have hr := read_lt (mem.take 4)
  rw [hl] at hr
  have hn : (get32 mem).toNat = read (mem.take 4) := by
    rw [get32, UInt32.toNat_ofNat', Nat.mod_eq_of_lt (by simpa using hr)]
  have := write_read (mem.take 4)
  rwa [hl, ← hn] at this

section
variable {α : Type}

/-- An array of records in memory, one after the other. -/
def array (enc : α → List UInt8) (xs : List α) : List UInt8 := xs.flatMap enc

/-- The first `n` records of `size` bytes each in memory. -/
def getArray (size : Nat) (dec : List UInt8 → α) : Nat → List UInt8 → List α
  | 0, _ => []
  | n + 1, mem => dec mem :: getArray size dec n (mem.drop size)

@[simp] theorem array_nil (enc : α → List UInt8) : array enc [] = [] := rfl

@[simp] theorem array_cons (enc : α → List UInt8) (x : α) (xs : List α) :
    array enc (x :: xs) = enc x ++ array enc xs := by simp [array]

@[simp] theorem array_append (enc : α → List UInt8) (xs ys : List α) :
    array enc (xs ++ ys) = array enc xs ++ array enc ys := by simp [array]

theorem length_array {enc : α → List UInt8} {size : Nat} (hs : ∀ x, (enc x).length = size)
    (xs : List α) : (array enc xs).length = size * xs.length := by
  induction xs with
  | nil => rfl
  | cons x xs ih =>
    simp only [array_cons, List.length_append, List.length_cons, hs, ih]
    ring

/-- What was written as an array is read back whole, whatever follows it. -/
theorem getArray_array {enc : α → List UInt8} {dec : List UInt8 → α} {size : Nat}
    (hs : ∀ x, (enc x).length = size) (hd : ∀ x rest, dec (enc x ++ rest) = x)
    (xs : List α) (rest : List UInt8) :
    getArray size dec xs.length (array enc xs ++ rest) = xs := by
  induction xs with
  | nil => rfl
  | cons x xs ih =>
    rw [List.length_cons, getArray, array_cons, List.append_assoc, hd,
      List.drop_left' (hs x), ih]

end

end LittleEndian
