import Mcsb.Manager.Events

/-!
# The buffers a client has mapped

`ShmClient`, and what it makes of the name strings in its channel. How many
buffers there are it reads in the header of the first when it handles a string,
and reads again when it has mapped them. A client that the manager has got ahead
of in between fails an assertion.
-/

namespace Mcsb

/-- `numBuffers` is the length of `headerVec`. -/
structure ShmClient where
  nameFormat : List UInt8 := []
  numBuffers : Nat := 0
  deriving DecidableEq, Repr

namespace ShmClient

/-- `available` is what the first header shows, and `again` what it shows when all
that was available is mapped. `none` is a throw or a failed assertion. -/
def mapBuffers (shm : ShmClient) (available again : Nat) : Option ShmClient :=
  if shm.numBuffers = 0 then some shm
  else if shm.numBuffers = available then some shm -- no change
  else if available < shm.numBuffers then none
  else if available ≠ again then none
  else some { shm with numBuffers := available }

/-- `ShmClient::Initialize`. The first buffer has to be there, and not mapped yet. -/
def initializeBuffers (shm : ShmClient) (available again : Nat) : Option ShmClient :=
  if available = 0 ∨ shm.numBuffers ≠ 0 then none
  else mapBuffers { shm with numBuffers := 1 } available again

/-- `ShmClient::NameFormat(nameFmt)`. -/
def setNameFormat (shm : ShmClient) (nameFmt : List UInt8) (available again : Nat) :
    Option ShmClient :=
  if shm.nameFormat ≠ [] then
    if shm.nameFormat = nameFmt then some shm else none
  else initializeBuffers { shm with nameFormat := nameFmt } available again

/-- `ClientImpl::HandleCtrlString`, as far as it is about the buffers. `reads` are
what the first header shows each time it is read. -/
def handleCtrlString (shm : ShmClient) (which : UInt32) (str : List UInt8) (reads : Nat → Nat) :
    Option ShmClient :=
  if which = kCtrlString_ShmName then
    (shm.setNameFormat str (reads 0) (reads 1)).bind (·.mapBuffers (reads 2) (reads 3))
  else some shm

/-- No other message maps anything. -/
def take (shm : ShmClient) (reads : Nat → Nat) : Sent → Option ShmClient
  | .ctrl (.ctrlString which str) => shm.handleCtrlString which str reads
  | _ => some shm

/-- The messages of a channel in order. `reads i` are what the header shows while
message `i` is handled, and `i` the number of the first. -/
def takeAll (reads : Nat → Nat → Nat) (i : Nat) (shm : ShmClient) : List Sent → Option ShmClient
  | [] => some shm
  | sent :: rest => (shm.take (reads i) sent).bind fun shm => takeAll reads (i + 1) shm rest

/-- The one control string that a manager sends. -/
abbrev shmName (fmt : List UInt8) : Sent := .ctrl (.ctrlString kCtrlString_ShmName fmt)

/-- What the header shows never gets less. -/
structure Grows (reads : Nat → Nat → Nat) : Prop where
  within : ∀ i, Monotone (reads i)
  next : ∀ i k, reads i k ≤ reads (i + 1) 0

/-- It stays the same as long as a name string is handled. -/
def Undisturbed (fmt : List UInt8) (reads : Nat → Nat → Nat) (i : Nat) (out : List Sent) : Prop :=
  ∀ j, out[j]? = some (shmName fmt) → ∀ k, reads (i + j) k = reads (i + j) 0

/-- Nothing is mapped yet, or at most `n` buffers of this name. -/
def UpTo (fmt : List UInt8) (n : Nat) (shm : ShmClient) : Prop :=
  shm = {} ∨ shm.nameFormat = fmt ∧ 0 < shm.numBuffers ∧ shm.numBuffers ≤ n

section
variable {fmt : List UInt8} {n available again i : Nat} {shm shm' : ShmClient} {reads : Nat → Nat → Nat}

theorem Grows.pos (grows : Grows reads) (pos : 0 < reads 0 0) (i : Nat) : 0 < reads i 0 := by
  induction i with
  | zero => exact pos
  | succ i ih => exact ih.trans_le (grows.next i 0)

/-- A client that gets through it has mapped what was available. -/
theorem mapBuffers_some (some : 0 < shm.numBuffers)
    (maps : shm.mapBuffers available again = .some shm') :
    shm.numBuffers ≤ available ∧ shm' = { shm with numBuffers := available } := by
  rw [mapBuffers, if_neg some.ne'] at maps
  split at maps
  · rename_i same
    cases maps
    exact ⟨same.le, by rw [← same]⟩
  split at maps
  · cases maps
  rename_i enough
  split at maps
  · cases maps
  · cases maps
    exact ⟨Nat.not_lt.mp enough, rfl⟩

theorem mapBuffers_eq (some : 0 < shm.numBuffers) (enough : shm.numBuffers ≤ available) :
    shm.mapBuffers available available = .some { shm with numBuffers := available } := by
  rw [mapBuffers, if_neg some.ne']
  split
  · rename_i same
    rw [← same]
  · rw [if_neg (Nat.not_lt.mpr enough), if_neg (not_not.mpr rfl)]

/-- All is mapped that was there at the last look. -/
theorem take_shmName (named : fmt ≠ []) (h : shm.UpTo fmt (reads i 0))
    (took : shm.take (reads i) (shmName fmt) = .some shm') :
    shm' = { nameFormat := fmt, numBuffers := reads i 2 } := by
  change handleCtrlString shm kCtrlString_ShmName fmt (reads i) = _ at took
  rw [handleCtrlString, if_pos rfl, setNameFormat] at took
  obtain ⟨shm₁, first, second⟩ := Option.bind_eq_some_iff.mp took
  rcases h with rfl | ⟨rfl, some, few⟩
  · rw [if_neg (by simp), initializeBuffers] at first
    split at first
    · cases first
    · rename_i there
      simp only [not_or] at there
      obtain ⟨-, rfl⟩ := mapBuffers_some Nat.one_pos first
      exact (mapBuffers_some (Nat.pos_of_ne_zero there.1) second).2
  · rw [if_pos named, if_pos rfl] at first
    cases first
    exact (mapBuffers_some some second).2

theorem take_shmName_steady (named : fmt ≠ []) (pos : 0 < reads i 0)
    (h : shm.UpTo fmt (reads i 0)) (steady : ∀ k, reads i k = reads i 0) :
    shm.take (reads i) (shmName fmt) = .some { nameFormat := fmt, numBuffers := reads i 0 } := by
  show handleCtrlString shm kCtrlString_ShmName fmt (reads i) = _
  rw [handleCtrlString, if_pos rfl, setNameFormat, steady 1, steady 2, steady 3]
  rcases h with rfl | ⟨rfl, some, few⟩
  · have first : ¬ (reads i 0 = 0 ∨ (0 : Nat) ≠ 0) := by simp [pos.ne']
    rw [if_neg (by simp), initializeBuffers, if_neg first, mapBuffers_eq Nat.one_pos pos]
    exact mapBuffers_eq pos le_rfl
  · rw [if_pos named, if_pos rfl]
    exact mapBuffers_eq some few

/-- A message that is no name string leaves the buffers alone. -/
theorem take_other {sent : Sent} (other : sent ≠ shmName fmt)
    (name : ∀ which str, sent = .ctrl (.ctrlString which str) →
      Sent.ctrl (.ctrlString which str) = shmName fmt) :
    shm.take (reads i) sent = some shm := by
  cases sent with
  | blockIDs ids => rfl
  | slabIDs ids => rfl
  | ctrl call =>
    cases call with
    | ctrlString which str => exact absurd (name which str rfl) other
    | _ => rfl

theorem UpTo.next (grows : Grows reads) (h : shm.UpTo fmt (reads i 0)) :
    shm.UpTo fmt (reads (i + 1) 0) :=
  h.imp id fun kept => ⟨kept.1, kept.2.1, kept.2.2.trans (grows.next i 0)⟩

theorem UpTo.named (grows : Grows reads) (pos : 0 < reads 0 0) (i k : Nat) :
    UpTo fmt (reads (i + 1) 0) { nameFormat := fmt, numBuffers := reads i k } :=
  .inr ⟨rfl, (grows.pos pos i).trans_le (grows.within i (Nat.zero_le k)), grows.next i k⟩

end

section
variable {fmt : List UInt8} (named : fmt ≠ []) {reads : Nat → Nat → Nat} (grows : Grows reads)
  (pos : 0 < reads 0 0)
include named grows pos

/-- With every string naming the same buffers, a client that gets through its
messages has mapped all that the header showed when it came to any of the strings. -/
theorem takeAll_maps {out : List Sent}
    (names : ∀ which str, .ctrl (.ctrlString which str) ∈ out →
      Sent.ctrl (.ctrlString which str) = shmName fmt)
    (i : Nat) {shm shm' : ShmClient} (h : shm.UpTo fmt (reads i 0))
    (took : takeAll reads i shm out = some shm') : shm.numBuffers ≤ shm'.numBuffers ∧
      ∀ j, out[j]? = some (shmName fmt) → reads (i + j) 0 ≤ shm'.numBuffers := by
  induction out generalizing i shm with
  | nil =>
    cases took
    exact ⟨le_rfl, by simp⟩
  | cons sent rest ih =>
    have later := fun which str mem => names which str (List.mem_cons_of_mem sent mem)
    obtain ⟨shm₁, first, took⟩ := Option.bind_eq_some_iff.mp took
    by_cases isName : sent = shmName fmt
    · subst isName
      have mapped := take_shmName named h first
      subst mapped
      obtain ⟨more, maps⟩ := ih later (i + 1) (UpTo.named grows pos i 2) took
      have here : reads i 0 ≤ shm'.numBuffers := (grows.within i (Nat.zero_le 2)).trans more
      constructor
      · rcases h with rfl | ⟨-, -, few⟩
        · exact Nat.zero_le _
        · exact few.trans here
      · intro j at_
        cases j with
        | zero => exact here
        | succ j =>
          have := maps j at_
          rwa [Nat.add_right_comm] at this
    · have passed : shm.take (reads i) sent = some shm :=
        take_other isName fun which str eq => names which str (eq ▸ List.mem_cons_self)
      rw [passed] at first
      cases first
      obtain ⟨more, maps⟩ := ih later (i + 1) (h.next grows) took
      refine ⟨more, ?_⟩
      intro j at_
      cases j with
      | zero => exact absurd (Option.some.inj at_) isName
      | succ j =>
        have := maps j at_
        rwa [Nat.add_right_comm] at this

/-- It gets through them if the header is steady whenever it maps. -/
theorem takeAll_isSome {out : List Sent}
    (names : ∀ which str, .ctrl (.ctrlString which str) ∈ out →
      Sent.ctrl (.ctrlString which str) = shmName fmt)
    (i : Nat) {shm : ShmClient} (h : shm.UpTo fmt (reads i 0)) (steady : Undisturbed fmt reads i out) :
    (takeAll reads i shm out).isSome := by
  induction out generalizing i shm with
  | nil => rfl
  | cons sent rest ih =>
    have later := fun which str mem => names which str (List.mem_cons_of_mem sent mem)
    have rest : Undisturbed fmt reads (i + 1) rest := by
      intro j at_ k
      rw [Nat.add_right_comm]
      exact steady (j + 1) at_ k
    by_cases isName : sent = shmName fmt
    · subst isName
      rw [takeAll, take_shmName_steady named (grows.pos pos i) h (steady 0 rfl)]
      exact ih later (i + 1) (UpTo.named grows pos i 0) rest
    · have passed : shm.take (reads i) sent = some shm :=
        take_other isName fun which str eq => names which str (eq ▸ List.mem_cons_self)
      rw [takeAll, passed]
      exact ih later (i + 1) (h.next grows) rest

end

end ShmClient
end Mcsb
