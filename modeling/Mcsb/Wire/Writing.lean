import Mcsb.Wire.Framing
import Mcsb.Wire.SendBlocks

/-!
# Writing to a socket that takes a part

`SendBlockIDs` and `SendCtrlMsg` against any behaviour of `send` and `sendmsg`.
Both lose bytes for some short writes; `sendBlockIDs_whole_iff` and
`sendCtrlMsg_whole_iff` say for which.
-/

namespace Mcsb
open LittleEndian

namespace Socket

def IOV_MAX : Nat := 1024

/-- What one call of `send` or `sendmsg` comes to. `retry` is what
`HandleSendWouldBlock` answers. -/
inductive WriteResult where
  | interrupted
  | wouldBlock (retry : Bool)
  | failed
  | sent (n : Nat)
  deriving DecidableEq, Repr

/-- How a sending call ends. It is `waiting` where the results given end before
it does, and `pastEnd` where it reads an iovec past the last one. -/
inductive Outcome where
  | returned (totalSent : Nat)
  | threw
  | waiting
  | pastEnd
  deriving DecidableEq, Repr

/-- The loop of `SendBlockIDs`, with the bytes that the socket took. -/
def sendLoop (pay : List UInt8) (len totalSent : Nat) (results : List WriteResult) :
    List UInt8 × Outcome :=
  if len ≤ totalSent then ([], .returned totalSent)
  else
    match results with
    | [] => ([], .waiting)
    | .interrupted :: rest => sendLoop pay len totalSent rest
    | .wouldBlock true :: rest => sendLoop pay len totalSent rest
    | .wouldBlock false :: _ => ([], .threw)
    | .failed :: _ => ([], .threw)
    | .sent n :: rest =>
      let (out, outcome) := sendLoop (pay.drop n) (len - n) (totalSent + n) rest
      (pay.take n ++ out, outcome)

/-- `SocketEndpoint::SendBlockIDs`. The length is an `unsigned`. -/
def sendBlockIDs (sendFailed : Bool) (blockIDs : List UInt32) (results : List WriteResult) :
    List UInt8 × Outcome :=
  if sendFailed then ([], .threw)
  else sendLoop (array word32 blockIDs) (4 * blockIDs.length % 2 ^ 32) 0 results

def sendSlabIDs (sendFailed : Bool) (slabIDs : List UInt32) (results : List WriteResult) :
    List UInt8 × Outcome :=
  sendBlockIDs sendFailed (slabIDs.map (· ||| kSlabMask)) results

/-- Advance the iovec by `sent`, an `int` whose difference from an `iov_len` is
taken in 64 bits, unsigned. `none` is running off the end. -/
def advance : List (List UInt8) → Int → Option (List (List UInt8))
  | [], _ => none
  | piece :: iov, sent =>
    if (sent - piece.length) % 2 ^ 64 ≠ 0 then advance iov ((sent - piece.length).bmod (2 ^ 32))
    else if 0 < sent then some (piece.drop sent.toNat :: iov)
    else some (piece :: iov)

/-- The loop of `SendCtrlMsg`, from `msg_iov` on. -/
def sendmsgLoop (totalLen totalSent : Nat) (iov : List (List UInt8))
    (results : List WriteResult) : List UInt8 × Outcome :=
  if totalLen ≤ totalSent then ([], .returned totalSent)
  else
    match results with
    | [] => ([], .waiting)
    | .interrupted :: rest => sendmsgLoop totalLen totalSent iov rest
    | .wouldBlock true :: rest => sendmsgLoop totalLen totalSent iov rest
    | .wouldBlock false :: _ => ([], .threw)
    | .failed :: _ => ([], .threw)
    | .sent n :: rest =>
      let took := iov.flatten.take n
      if totalSent + n = totalLen then (took, .returned (totalSent + n))
      else
        match advance iov n with
        | none => (took, .pastEnd)
        | some iov =>
          let (out, outcome) := sendmsgLoop totalLen (totalSent + n) iov rest
          (took ++ out, outcome)

/-- The header that `SendCtrlMsg` prepends. -/
def headerBytes (msgID : UInt16) (length : Nat) : List UInt8 :=
  word32 kToken ++ (word16 msgID ++ word16 (UInt16.ofNat length))

/-- `SocketEndpoint::SendCtrlMsg`. It stops at the last piece that has an iovec. -/
def sendCtrlMsg (sendFailed : Bool) (msgID : UInt16) (pieces : List (List UInt8))
    (results : List WriteResult) : List UInt8 × Outcome :=
  if sendFailed then ([], .threw)
  else
    let pieces := pieces.take (IOV_MAX - 1)
    let totalLen := pieces.flatten.length
    if kMaxPayloadSize < totalLen then ([], .threw)
    else
      sendmsgLoop (totalLen + sizeofCtrlMsgHdr) 0 (headerBytes msgID totalLen :: pieces) results

/-- No call takes nothing, or more than the `len` bytes that are left, or more
than the kernel does at once. -/
def Takes (len : Nat) : List WriteResult → Prop
  | [] => True
  | .sent n :: rest => 0 < n ∧ n ≤ len ∧ n < 2 ^ 31 ∧ Takes (len - n) rest
  | .interrupted :: rest => Takes len rest
  | .wouldBlock _ :: rest => Takes len rest
  | .failed :: rest => Takes len rest

/-- The call is repeated after this. -/
def WriteResult.goesOn : WriteResult → Bool
  | .interrupted => true
  | .wouldBlock retry => retry
  | .failed => false
  | .sent _ => true

def WriteResult.bytes : WriteResult → Nat
  | .sent n => n
  | _ => 0

def taken (results : List WriteResult) : Nat := (results.map WriteResult.bytes).sum

/-- If the call returns, the socket took these bytes and it returned their number. -/
def WritesWhole (result : List UInt8 × Outcome) (bytes : List UInt8) : Prop :=
  ∀ n, result.2 = .returned n → result.1 = bytes ∧ n = bytes.length

/-- The first of the results that the calls come to without a failure. -/
def Early (pre results : List WriteResult) : Prop :=
  pre <+: results ∧ ∀ result ∈ pre, result.goesOn = true

/-- After some write at least half of the length was taken, and not all bytes. -/
def StopsShort (total : Nat) (results : List WriteResult) : Prop :=
  ∃ pre, Early pre results ∧ total % 2 ^ 32 ≤ 2 * taken pre ∧ taken pre < total

/-- The bytes end where a piece ends, or before the first. -/
def AtEnd (iov : List (List UInt8)) (n : Nat) : Prop :=
  ∃ front, front <+: iov ∧ front.flatten.length = n

/-- A write ends inside the header or a piece. -/
def CutsInside (iov : List (List UInt8)) (results : List WriteResult) : Prop :=
  ∃ pre, Early pre results ∧ taken pre < iov.flatten.length ∧ ¬ AtEnd iov (taken pre)

/-- The calls take `len` bytes in all, and none fails before. -/
def AllTaken (len : Nat) (results : List WriteResult) : Prop :=
  ∃ pre, Early pre results ∧ taken pre = len

section
variable {results rest pre : List WriteResult} {result : WriteResult}

@[simp] theorem taken_nil : taken [] = 0 := rfl

@[simp] theorem taken_cons : taken (result :: rest) = result.bytes + taken rest := rfl

theorem early_nil (results : List WriteResult) : Early [] results :=
  ⟨List.nil_prefix, fun _ mem => nomatch mem⟩

/-- An early part is empty, or has the first result if that goes on. -/
theorem early_cons : Early pre (result :: rest) ↔
    pre = [] ∨ result.goesOn = true ∧ ∃ later, pre = result :: later ∧ Early later rest := by
  constructor
  · rintro ⟨front, fine⟩
    rcases List.prefix_cons_iff.mp front with none | ⟨later, rfl, more⟩
    · exact .inl none
    · rw [List.forall_mem_cons] at fine
      exact .inr ⟨fine.1, later, rfl, more, fine.2⟩
  · rintro (rfl | ⟨goesOn, later, rfl, front, fine⟩)
    · exact early_nil _
    · constructor
      · exact List.prefix_cons_iff.mpr (.inr ⟨later, rfl, front⟩)
      · rw [List.forall_mem_cons]
        exact ⟨goesOn, fine⟩

theorem early_of_nil (early : Early pre []) : pre = [] := List.prefix_nil.mp early.1

theorem Takes.le {len : Nat} (takes : Takes len results) (early : Early pre results) :
    taken pre ≤ len := by
  induction results generalizing len pre with
  | nil =>
    rw [early_of_nil early]
    exact Nat.zero_le _
  | cons result rest ih =>
    rcases early_cons.mp early with rfl | ⟨-, later, rfl, more⟩
    · exact Nat.zero_le _
    · rw [taken_cons]
      cases result with
      | sent n =>
        obtain ⟨-, le, -, takes⟩ := takes
        have := ih takes more
        simp only [WriteResult.bytes]
        omega
      | interrupted => exact (Nat.zero_add _).trans_le (ih takes more)
      | wouldBlock retry => exact (Nat.zero_add _).trans_le (ih takes more)
      | failed => exact (Nat.zero_add _).trans_le (ih takes more)

theorem Early.sent {n : Nat} {later : List WriteResult} (early : Early later rest) :
    Early (.sent n :: later) (.sent n :: rest) :=
  early_cons.mpr (.inr ⟨rfl, later, rfl, early⟩)

theorem Early.more {later : List WriteResult} (goesOn : result.goesOn = true)
    (early : Early later rest) : Early (result :: later) (result :: rest) :=
  early_cons.mpr (.inr ⟨goesOn, later, rfl, early⟩)

/-! ## IDs -/

/-- A loop that returns has sent what the first results took, and that is at
least as much as it still counts as left. -/
theorem sendLoop_returned {pay out : List UInt8} {len totalSent n : Nat}
    (ran : sendLoop pay len totalSent results = (out, .returned n)) :
    ∃ pre, Early pre results ∧ n = totalSent + taken pre ∧ len ≤ totalSent + 2 * taken pre ∧
      out = pay.take (taken pre) := by
  induction results generalizing pay len totalSent out with
  | nil =>
    unfold sendLoop at ran
    split at ran
    · rename_i enough
      cases ran
      exact ⟨[], early_nil _, rfl, enough, rfl⟩
    · cases ran
  | cons result rest ih =>
    unfold sendLoop at ran
    split at ran
    · rename_i enough
      cases ran
      exact ⟨[], early_nil _, rfl, enough, rfl⟩
    · have again (goesOn : result.goesOn = true) (none : result.bytes = 0)
          (ran : sendLoop pay len totalSent rest = (out, .returned n)) :
          ∃ pre, Early pre (result :: rest) ∧ n = totalSent + taken pre ∧
            len ≤ totalSent + 2 * taken pre ∧ out = pay.take (taken pre) := by
        obtain ⟨pre, early, all, enough, bytes⟩ := ih ran
        refine ⟨result :: pre, early.more goesOn, ?_⟩
        rw [taken_cons, none, Nat.zero_add]
        exact ⟨all, enough, bytes⟩
      cases result with
      | interrupted => exact again rfl rfl ran
      | wouldBlock retry =>
        cases retry with
        | true => exact again rfl rfl ran
        | false => cases ran
      | failed => cases ran
      | sent k =>
        dsimp only at ran
        cases more : sendLoop (pay.drop k) (len - k) (totalSent + k) rest with
        | mk out' outcome =>
          rw [more] at ran
          cases ran
          obtain ⟨pre, early, all, enough, bytes⟩ := ih more
          refine ⟨.sent k :: pre, early.sent, ?_, ?_, ?_⟩
          · rw [all, taken_cons, Nat.add_assoc]
            rfl
          · rw [taken_cons, WriteResult.bytes]
            omega
          · rw [bytes, taken_cons, List.take_add]
            rfl

/-- Once at least as much was sent as it counts as left, the loop returns. -/
theorem sendLoop_returns (pay : List UInt8) {len totalSent : Nat} (early : Early pre results)
    (enough : len ≤ totalSent + 2 * taken pre) :
    ∃ n out, sendLoop pay len totalSent results = (out, .returned n) ∧
      n ≤ totalSent + taken pre := by
  induction results generalizing pay len totalSent pre with
  | nil =>
    cases early_of_nil early
    have enough : len ≤ totalSent := enough
    unfold sendLoop
    rw [if_pos enough]
    exact ⟨totalSent, [], rfl, le_rfl⟩
  | cons result rest ih =>
    unfold sendLoop
    split
    · exact ⟨totalSent, [], rfl, Nat.le_add_right _ _⟩
    · rename_i less
      rcases early_cons.mp early with rfl | ⟨goesOn, later, rfl, more⟩
      · exact absurd enough less
      · rw [taken_cons] at enough ⊢
        cases result with
        | interrupted =>
          simp only [WriteResult.bytes, Nat.zero_add] at enough ⊢
          exact ih pay more enough
        | wouldBlock retry =>
          cases retry with
          | true =>
            simp only [WriteResult.bytes, Nat.zero_add] at enough ⊢
            exact ih pay more enough
          | false => cases goesOn
        | failed => cases goesOn
        | sent k =>
          rw [WriteResult.bytes] at enough ⊢
          have left : len - k ≤ totalSent + k + 2 * taken later := by omega
          obtain ⟨n, out, ran, le⟩ := ih (pay.drop k) more left
          refine ⟨n, pay.take k ++ out, ?_, by omega⟩
          dsimp only
          rw [ran]

theorem sendLoop_whole_iff (pay : List UInt8)
    (takes : Takes (pay.length % 2 ^ 32) results) :
    WritesWhole (sendLoop pay (pay.length % 2 ^ 32) 0 results) pay ↔
      ¬ StopsShort pay.length results := by
  constructor
  · rintro whole ⟨pre, early, enough, less⟩
    have left : pay.length % 2 ^ 32 ≤ 0 + 2 * taken pre := (Nat.zero_add _).symm ▸ enough
    obtain ⟨n, out, ran, le⟩ := sendLoop_returns pay early left
    rw [ran] at whole
    have := (whole n rfl).2
    omega
  · intro never n returned
    cases ran : sendLoop pay (pay.length % 2 ^ 32) 0 results with
    | mk out outcome =>
      rw [ran] at returned
      have returned : outcome = .returned n := returned
      rw [returned] at ran
      obtain ⟨pre, early, all, enough, bytes⟩ := sendLoop_returned ran
      have within := takes.le early
      have wraps := Nat.mod_le pay.length (2 ^ 32)
      have most : pay.length ≤ taken pre := by
        by_contra less
        exact never ⟨pre, early, by omega, by omega⟩
      have exactly : taken pre = pay.length := by omega
      constructor
      · rw [bytes, exactly, List.take_length]
      · omega

/-- Where one call takes everything, `SendBlockIDs` is what it is to the framing. -/
theorem sendBlockIDs_atOnce (blockIDs : List UInt32) (small : 4 * blockIDs.length < 2 ^ 32) :
    sendBlockIDs false blockIDs [.sent (4 * blockIDs.length)] =
      (Mcsb.sendBlockIDs blockIDs, .returned (4 * blockIDs.length)) := by
  have length : (array word32 blockIDs).length = 4 * blockIDs.length :=
    length_array length_word32 _
  rw [sendBlockIDs, if_neg Bool.false_ne_true, Nat.mod_eq_of_lt small]
  unfold sendLoop
  split
  · rename_i none
    have none : blockIDs = [] := by
      apply List.length_eq_zero_iff.mp
      omega
    rw [none]
    rfl
  · dsimp only
    rw [Nat.sub_self, sendLoop, if_pos (Nat.zero_le _), List.append_nil, Nat.zero_add, ← length,
      List.take_length]
    rfl

/-- `SendBlockIDs` and `SendSlabIDs` write every ID unless a write brings the
bytes taken to half of the length or more, and not to all of it. -/
theorem sendBlockIDs_whole_iff (sendFailed : Bool) (ids : List UInt32)
    (results : List WriteResult) (takes : Takes (4 * ids.length % 2 ^ 32) results) :
    (WritesWhole (sendBlockIDs sendFailed ids results) (array word32 ids) ↔
      sendFailed = true ∨ ¬ StopsShort (4 * ids.length) results) ∧
    (WritesWhole (sendSlabIDs sendFailed ids results)
        (array word32 (ids.map (· ||| kSlabMask))) ↔
      sendFailed = true ∨ ¬ StopsShort (4 * ids.length) results) := by
  have both (ids' : List UInt32) (same : ids'.length = ids.length) :
      WritesWhole (sendBlockIDs sendFailed ids' results) (array word32 ids') ↔
        sendFailed = true ∨ ¬ StopsShort (4 * ids.length) results := by
    have length : (array word32 ids').length = 4 * ids.length := by
      rw [length_array length_word32, same]
    have whole := sendLoop_whole_iff (array word32 ids') (length ▸ takes)
    rw [length] at whole
    cases sendFailed with
    | true =>
      apply iff_of_true
      · intro n returned
        cases returned
      · exact .inl rfl
    | false =>
      rw [sendBlockIDs, same]
      simpa using whole
  constructor
  · exact both ids rfl
  · exact both _ (List.length_map _)

theorem sendBlockIDs_whole_iff_two :
    (WritesWhole (sendBlockIDs false [7, 8] [.sent 3, .sent 5]) (array word32 [7, 8]) ↔
      false = true ∨ ¬ StopsShort (4 * [(7 : UInt32), 8].length) [.sent 3, .sent 5]) ∧
    (WritesWhole (sendSlabIDs false [7, 8] [.sent 3, .sent 5])
        (array word32 ([7, 8].map (· ||| kSlabMask))) ↔
      false = true ∨ ¬ StopsShort (4 * [(7 : UInt32), 8].length) [.sent 3, .sent 5]) :=
  sendBlockIDs_whole_iff false [7, 8] [.sent 3, .sent 5] ⟨by decide, by decide, by decide,
    by decide, by decide, by decide, trivial⟩

/-- After half of two IDs the loop is over. -/
theorem not_sendBlockIDs_whole :
    ¬ WritesWhole (sendBlockIDs false [7, 8] [.sent 4, .sent 4]) (array word32 [7, 8]) := by
  intro whole
  have half : sendBlockIDs false [7, 8] [.sent 4, .sent 4] = ([7, 0, 0, 0], .returned 4) := by
    decide
  rw [half] at whole
  exact absurd (whole 4 rfl).2 (by decide)

/-! ## Control messages -/

/-- Below zero there is no way out of the loop but off the end. -/
theorem advance_neg (iov : List (List UInt8)) {sent : Int} (neg : sent < 0)
    (small : (iov.flatten.length : Int) - sent < 2 ^ 31) : advance iov sent = none := by
  induction iov generalizing sent with
  | nil => rfl
  | cons piece iov ih =>
    rw [List.flatten_cons, List.length_append] at small
    have differs : (sent - piece.length) % 2 ^ 64 ≠ 0 := by omega
    have same : (sent - piece.length : Int).bmod (2 ^ 32) = sent - piece.length := by
      apply Int.bmod_eq_of_le <;> omega
    rw [advance, if_pos differs, same]
    apply ih <;> omega

/-- The loop stops where a piece ends, and runs off the end from inside one. -/
theorem advance_cases (iov : List (List UInt8)) {n : Nat} (pos : 0 < n)
    (small : iov.flatten.length < 2 ^ 30) (le : n ≤ iov.flatten.length) :
    (∃ front rest, iov = front ++ rest ∧ front.flatten.length = n ∧
      advance iov n = some ([] :: rest)) ∨ ¬ AtEnd iov n ∧ advance iov n = none := by
  induction iov generalizing n with
  | nil => exact absurd le (Nat.not_le.mpr pos)
  | cons piece iov ih =>
    rw [List.flatten_cons, List.length_append] at small le
    rcases Nat.lt_trichotomy n piece.length with inside | here | beyond
    · right
      constructor
      · rintro ⟨front, pre, length⟩
        rcases List.prefix_cons_iff.mp pre with rfl | ⟨later, rfl, -⟩
        · exact pos.ne length
        · rw [List.flatten_cons, List.length_append] at length
          omega
      · have differs : ((n : Int) - piece.length) % 2 ^ 64 ≠ 0 := by omega
        have same : ((n : Int) - piece.length).bmod (2 ^ 32) = n - piece.length := by
          apply Int.bmod_eq_of_le <;> omega
        rw [advance, if_pos differs, same]
        apply advance_neg <;> omega
    · left
      refine ⟨[piece], iov, rfl, by simp [here], ?_⟩
      have same : ¬ ((n : Int) - piece.length) % 2 ^ 64 ≠ 0 := by omega
      have some : (0 : Int) < n := by omega
      rw [advance, if_neg same, if_pos some, Int.toNat_natCast, here, List.drop_length]
    · have differs : ((n : Int) - piece.length) % 2 ^ 64 ≠ 0 := by omega
      have same : ((n : Int) - piece.length).bmod (2 ^ 32) = (n - piece.length : Nat) := by
        rw [Nat.cast_sub beyond.le]
        apply Int.bmod_eq_of_le <;> omega
      rw [advance, if_pos differs, same]
      have left : 0 < n - piece.length := by omega
      rcases ih left (by omega) (by omega) with ⟨front, rest, eq, length, stops⟩ | ⟨inside, none⟩
      · left
        refine ⟨piece :: front, rest, by rw [eq, List.cons_append], ?_, stops⟩
        rw [List.flatten_cons, List.length_append, length]
        omega
      · right
        constructor
        · rintro ⟨front, pre, length⟩
          rcases List.prefix_cons_iff.mp pre with rfl | ⟨later, rfl, more⟩
          · exact pos.ne length
          · rw [List.flatten_cons, List.length_append] at length
            exact inside ⟨later, more, by omega⟩
        · exact none

theorem atEnd_zero (iov : List (List UInt8)) : AtEnd iov 0 := ⟨[], List.nil_prefix, rfl⟩

/-- Where the pieces end does not change when whole ones have gone. -/
theorem atEnd_add {front rest : List (List UInt8)} (n : Nat) :
    AtEnd (front ++ rest) (front.flatten.length + n) ↔ AtEnd ([] :: rest) n := by
  constructor
  · rintro ⟨pre, isPrefix, length⟩
    rcases List.prefix_or_prefix_of_prefix isPrefix (List.prefix_append front rest) with
      shorter | longer
    · obtain ⟨more, rfl⟩ := shorter
      rw [List.flatten_append, List.length_append] at length
      have none : n = 0 := by omega
      rw [none]
      exact atEnd_zero _
    · obtain ⟨later, rfl⟩ := longer
      have more := (List.prefix_append_right_inj front).mp isPrefix
      rw [List.flatten_append, List.length_append] at length
      refine ⟨[] :: later, List.cons_prefix_cons.mpr ⟨rfl, more⟩, ?_⟩
      exact Nat.add_left_cancel length
  · rintro ⟨pre, isPrefix, rfl⟩
    rcases List.prefix_cons_iff.mp isPrefix with rfl | ⟨later, rfl, more⟩
    · exact ⟨front, List.prefix_append front rest, rfl⟩
    · refine ⟨front ++ later, (List.prefix_append_right_inj front).mpr more, ?_⟩
      rw [List.flatten_append, List.length_append]
      rfl

section
variable (rest) (P : Nat → Prop)

/-- Where one more result leads. -/
theorem early_sent (k : Nat) :
    (∃ pre, Early pre (.sent k :: rest) ∧ P (taken pre)) ↔
      P 0 ∨ ∃ pre, Early pre rest ∧ P (k + taken pre) := by
  constructor
  · rintro ⟨pre, early, holds⟩
    rcases early_cons.mp early with rfl | ⟨-, later, rfl, more⟩
    · exact .inl holds
    · exact .inr ⟨later, more, holds⟩
  · rintro (holds | ⟨later, more, holds⟩)
    · exact ⟨[], early_nil _, holds⟩
    · exact ⟨.sent k :: later, more.sent, holds⟩

theorem early_again (goesOn : result.goesOn = true) (none : result.bytes = 0) :
    (∃ pre, Early pre (result :: rest) ∧ P (taken pre)) ↔
      ∃ pre, Early pre rest ∧ P (taken pre) := by
  constructor
  · rintro ⟨pre, early, holds⟩
    rcases early_cons.mp early with rfl | ⟨-, later, rfl, more⟩
    · exact ⟨[], early_nil _, holds⟩
    · rw [taken_cons, none, Nat.zero_add] at holds
      exact ⟨later, more, holds⟩
  · rintro ⟨later, more, holds⟩
    refine ⟨result :: later, more.more goesOn, ?_⟩
    rw [taken_cons, none, Nat.zero_add]
    exact holds

theorem early_stop (stops : result.goesOn = false) :
    (∃ pre, Early pre (result :: rest) ∧ P (taken pre)) ↔ P 0 := by
  constructor
  · rintro ⟨pre, early, holds⟩
    rcases early_cons.mp early with rfl | ⟨goesOn, -⟩
    · exact holds
    · rw [stops] at goesOn
      cases goesOn
  · intro holds
    exact ⟨[], early_nil _, holds⟩

end

/-- What the loop comes to on these results, with `all` bytes to send. -/
structure LoopSpec (iov : List (List UInt8)) (all : Nat) (results : List WriteResult)
    (ran : List UInt8 × Outcome) : Prop where
  past : ran.2 ≠ .pastEnd ↔ ¬ CutsInside iov results
  whole : ∀ n, ran.2 = .returned n → ran.1 = iov.flatten ∧ n = all ∧
    ∃ pre, Early pre results ∧ taken pre = iov.flatten.length
  returns : ran.2 ≠ .pastEnd → (∃ pre, Early pre results ∧ taken pre = iov.flatten.length) →
    ∃ n, ran.2 = .returned n

theorem LoopSpec.again {iov : List (List UInt8)} {all : Nat} {ran : List UInt8 × Outcome}
    (goesOn : result.goesOn = true) (none : result.bytes = 0) (h : LoopSpec iov all rest ran) :
    LoopSpec iov all (result :: rest) ran := by
  have cuts := early_again rest (fun n => n < iov.flatten.length ∧ ¬ AtEnd iov n) goesOn none
  have done := early_again rest (· = iov.flatten.length) goesOn none
  constructor
  · rw [CutsInside, cuts]
    exact h.past
  · rw [done]
    exact h.whole
  · rw [done]
    exact h.returns

theorem LoopSpec.stop {iov : List (List UInt8)} {all : Nat} (some : 0 < iov.flatten.length)
    (stops : result.goesOn = false) : LoopSpec iov all (result :: rest) ([], .threw) := by
  have cuts := early_stop rest (fun n => n < iov.flatten.length ∧ ¬ AtEnd iov n) stops
  have done := early_stop rest (· = iov.flatten.length) stops
  constructor
  · rw [CutsInside, cuts]
    exact iff_of_true (by simp) fun inside => inside.2 (atEnd_zero iov)
  · intro n returned
    cases returned
  · rw [done]
    intro _ none
    exact absurd none some.ne

theorem sendmsgLoop_spec (iov : List (List UInt8)) (totalSent : Nat)
    (small : iov.flatten.length < 2 ^ 30) (some : 0 < iov.flatten.length)
    (takes : Takes iov.flatten.length results) :
    LoopSpec iov (totalSent + iov.flatten.length) results
      (sendmsgLoop (totalSent + iov.flatten.length) totalSent iov results) := by
  induction results generalizing iov totalSent with
  | nil =>
    have more : ¬ totalSent + iov.flatten.length ≤ totalSent := by omega
    rw [sendmsgLoop, if_neg more]
    constructor
    · apply iff_of_true
      · simp
      · rintro ⟨pre, early, -, inside⟩
        rw [early_of_nil early] at inside
        exact inside (atEnd_zero iov)
    · intro n returned
      cases returned
    · rintro - ⟨pre, early, whole⟩
      rw [early_of_nil early] at whole
      exact absurd whole some.ne
  | cons result rest ih =>
    have more : ¬ totalSent + iov.flatten.length ≤ totalSent := by omega
    unfold sendmsgLoop
    rw [if_neg more]
    cases result with
    | interrupted => exact (ih iov totalSent small some takes).again rfl rfl
    | wouldBlock retry =>
      cases retry with
      | true => exact (ih iov totalSent small some takes).again rfl rfl
      | false => exact .stop some rfl
    | failed => exact .stop some rfl
    | sent k =>
      obtain ⟨pos, le, -, takes⟩ := takes
      have cuts := early_sent rest (fun n => n < iov.flatten.length ∧ ¬ AtEnd iov n) k
      have done := early_sent rest (· = iov.flatten.length) k
      by_cases all : k = iov.flatten.length
      · have whole : ∃ pre, Early pre (.sent k :: rest) ∧ taken pre = iov.flatten.length :=
          ⟨[.sent k], (early_nil rest).sent, by simp [WriteResult.bytes, all]⟩
        dsimp only
        rw [if_pos (congrArg (totalSent + ·) all)]
        constructor
        · rw [CutsInside, cuts]
          apply iff_of_true
          · simp
          · rintro (⟨-, inside⟩ | ⟨pre, -, less, -⟩)
            · exact inside (atEnd_zero iov)
            · omega
        · intro n returned
          cases returned
          exact ⟨by rw [all, List.take_length], by rw [all], whole⟩
        · intro _ _
          exact ⟨_, rfl⟩
      · have less : k < iov.flatten.length := by omega
        dsimp only
        rw [if_neg fun same => all (Nat.add_left_cancel same)]
        rcases advance_cases iov pos small le with ⟨front, rest', rfl, length, stops⟩ | ⟨inside, none⟩
        · rw [stops]
          dsimp only
          have left : ([] :: rest').flatten = (front ++ rest').flatten.drop k := by
            rw [List.flatten_append, List.drop_left' length]
            rfl
          have count : ([] :: rest').flatten.length = (front ++ rest').flatten.length - k := by
            rw [left, List.length_drop]
          have total : totalSent + (front ++ rest').flatten.length =
              totalSent + k + ([] :: rest').flatten.length := by omega
          rw [total]
          have next := ih ([] :: rest') (totalSent + k) (by omega) (by omega)
            (count ▸ takes)
          generalize sendmsgLoop _ _ _ rest = ran at next ⊢
          obtain ⟨out, outcome⟩ := ran
          have moved (x : Nat) : k + x < (front ++ rest').flatten.length ∧
              ¬ AtEnd (front ++ rest') (k + x) ↔
              x < ([] :: rest').flatten.length ∧ ¬ AtEnd ([] :: rest') x := by
            rw [← length, atEnd_add, length]
            apply and_congr_left
            intro _
            omega
          have doneLater (x : Nat) : k + x = (front ++ rest').flatten.length ↔
              x = ([] :: rest').flatten.length := by omega
          constructor
          · rw [CutsInside, cuts]
            simp only [moved]
            rw [or_iff_right fun now => now.2 (atEnd_zero _)]
            exact next.past
          · rw [done]
            simp only [doneLater]
            intro n returned
            obtain ⟨bytes, eq, pre⟩ := next.whole n returned
            refine ⟨?_, eq, .inr pre⟩
            have bytes : out = ([] :: rest').flatten := bytes
            rw [bytes, left, List.take_append_drop]
          · rw [done]
            simp only [doneLater]
            rw [or_iff_right some.ne]
            exact next.returns
        · rw [none]
          constructor
          · rw [CutsInside, cuts]
            apply iff_of_false
            · simp
            · exact not_not.mpr (.inr ⟨[], early_nil _, less, inside⟩)
          · intro n returned
            cases returned
          · intro never
            exact absurd rfl never

@[simp] theorem length_headerBytes (msgID : UInt16) (length : Nat) :
    (headerBytes msgID length).length = sizeofCtrlMsgHdr := by
  simp [headerBytes, sizeofCtrlMsgHdr]

theorem bytes_eq (msgID : UInt16) (payload : List UInt8) :
    (CtrlMsg.mk msgID payload).bytes = headerBytes msgID payload.length ++ payload := by
  simp only [CtrlMsg.bytes, headerBytes, List.append_assoc]

/-- Where one call takes everything, the frame is that of `SendBlocksAndInfo`. -/
theorem sendCtrlMsg_atOnce {msgID : UInt16} {pieces : List (List UInt8)} {msg : CtrlMsg}
    (few : pieces.length < IOV_MAX) (frame : Mcsb.sendCtrlMsg msgID pieces = .ok msg) :
    sendCtrlMsg false msgID pieces [.sent msg.bytes.length] =
      (msg.bytes, .returned msg.bytes.length) := by
  rw [Mcsb.sendCtrlMsg] at frame
  split at frame
  · cases frame
  · rename_i fits
    cases frame
    have every : pieces.take (IOV_MAX - 1) = pieces := List.take_of_length_le (by omega)
    rw [sendCtrlMsg, if_neg Bool.false_ne_true, every]
    dsimp only
    rw [if_neg fits, bytes_eq]
    unfold sendmsgLoop
    rw [if_neg (by simp [sizeofCtrlMsgHdr])]
    dsimp only
    rw [if_pos (by simp [Nat.add_comm]), List.flatten_cons, List.take_length, Nat.zero_add]

/-- `SendCtrlMsg` writes the whole frame and stays within the iovecs unless a
write ends inside the header or a piece, or it takes all there are iovecs for
and there are bytes after. -/
theorem sendCtrlMsg_whole_iff (sendFailed : Bool) (msgID : UInt16) (pieces : List (List UInt8))
    (results : List WriteResult) (small : pieces.flatten.length ≤ kMaxPayloadSize)
    (takes : Takes (sizeofCtrlMsgHdr + (pieces.take (IOV_MAX - 1)).flatten.length) results) :
    ((sendCtrlMsg sendFailed msgID pieces results).2 ≠ .pastEnd ∧
      WritesWhole (sendCtrlMsg sendFailed msgID pieces results)
        (CtrlMsg.mk msgID pieces.flatten).bytes) ↔
    sendFailed = true ∨
      ¬ CutsInside (headerBytes msgID (pieces.take (IOV_MAX - 1)).flatten.length ::
        pieces.take (IOV_MAX - 1)) results ∧
      (AllTaken (sizeofCtrlMsgHdr + (pieces.take (IOV_MAX - 1)).flatten.length) results →
        (pieces.drop (IOV_MAX - 1)).flatten = []) := by
  cases sendFailed with
  | true =>
    apply iff_of_true
    · constructor
      · simp [sendCtrlMsg]
      · intro n returned
        cases returned
    · exact .inl rfl
  | false =>
    rw [or_iff_right Bool.false_ne_true]
    have split : pieces.flatten =
        (pieces.take (IOV_MAX - 1)).flatten ++ (pieces.drop (IOV_MAX - 1)).flatten := by
      rw [← List.flatten_append, List.take_append_drop]
    rw [sendCtrlMsg, if_neg Bool.false_ne_true]
    generalize pieces.take (IOV_MAX - 1) = sent at split takes ⊢
    generalize pieces.drop (IOV_MAX - 1) = left at split ⊢
    rw [split, List.length_append] at small
    have fits : ¬ kMaxPayloadSize < sent.flatten.length := by omega
    have length : (headerBytes msgID sent.flatten.length :: sent).flatten.length =
        sizeofCtrlMsgHdr + sent.flatten.length := by
      rw [List.flatten_cons, List.length_append, length_headerBytes]
    dsimp only
    rw [if_neg fits, Nat.add_comm sent.flatten.length]
    rw [kMaxPayloadSize] at small
    have header : sizeofCtrlMsgHdr = 8 := rfl
    have spec := sendmsgLoop_spec (headerBytes msgID sent.flatten.length :: sent) 0
      (by omega) (by omega) (length ▸ takes)
    rw [Nat.zero_add, length] at spec
    generalize sendmsgLoop _ _ _ results = ran at spec ⊢
    rw [spec.past]
    apply and_congr_right
    intro never
    constructor
    · intro whole all
      obtain ⟨n, returned⟩ := spec.returns (spec.past.mpr never) (length.symm ▸ all)
      have count := (spec.whole n returned).2.1
      have frame := (whole n returned).2
      rw [CtrlMsg.length_bytes, split, List.length_append] at frame
      apply List.length_eq_zero_iff.mp
      omega
    · intro none n returned
      obtain ⟨bytes, count, all⟩ := spec.whole n returned
      rw [bytes_eq, split, none (length ▸ all), List.append_nil]
      constructor
      · rw [bytes, List.flatten_cons]
      · rw [count, List.length_append, length_headerBytes]

theorem sendCtrlMsg_whole_iff_onePiece :
    ((sendCtrlMsg false 1 [[5, 6]] [.sent 8, .interrupted, .sent 2]).2 ≠ .pastEnd ∧
      WritesWhole (sendCtrlMsg false 1 [[5, 6]] [.sent 8, .interrupted, .sent 2])
        (CtrlMsg.mk 1 [[(5 : UInt8), 6]].flatten).bytes) ↔
    false = true ∨
      ¬ CutsInside (headerBytes 1 ([[(5 : UInt8), 6]].take (IOV_MAX - 1)).flatten.length ::
        [[(5 : UInt8), 6]].take (IOV_MAX - 1)) [.sent 8, .interrupted, .sent 2] ∧
      (AllTaken (sizeofCtrlMsgHdr + ([[(5 : UInt8), 6]].take (IOV_MAX - 1)).flatten.length)
          [.sent 8, .interrupted, .sent 2] →
        ([[(5 : UInt8), 6]].drop (IOV_MAX - 1)).flatten = []) :=
  sendCtrlMsg_whole_iff false 1 [[5, 6]] [.sent 8, .interrupted, .sent 2] (by decide)
    ⟨by decide, by decide, by decide, by decide, by decide, by decide, trivial⟩

/-- Four bytes of the header taken, the loop looks for the rest past the end. -/
theorem not_sendCtrlMsg_whole :
    ¬ ((sendCtrlMsg false 1 [[5, 6]] [.sent 4, .sent 6]).2 ≠ .pastEnd ∧
      WritesWhole (sendCtrlMsg false 1 [[5, 6]] [.sent 4, .sent 6])
        (CtrlMsg.mk 1 [[(5 : UInt8), 6]].flatten).bytes) := by
  intro whole
  have past : (sendCtrlMsg false 1 [[5, 6]] [.sent 4, .sent 6]).2 = .pastEnd := by decide
  exact whole.1 past

end

end Socket
end Mcsb
