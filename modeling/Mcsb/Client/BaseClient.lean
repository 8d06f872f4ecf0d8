import Mcsb.Lib.SortedMap
import Mcsb.Wire.Protocol
import Mathlib.Data.List.Sort

/-!
# Registrations of a client

`BaseClient` counts how often each message ID is registered and tells the
manager of the first and the last time. `Client` keeps the handlers, and
registers for a message ID with each.
-/

namespace Mcsb

instance UInt32.strictTotalOrder : IsStrictTotalOrder UInt32 (· < ·) where
  irrefl a := UInt32.lt_irrefl a
  trans _ _ _ := UInt32.lt_trans
  trichotomous _ _ h h' := UInt32.le_antisymm (UInt32.not_lt.mp h') (UInt32.not_lt.mp h)

/-- `BaseClient::MsgIdMap`. -/
abbrev MsgIdMap := SortedMap UInt32 UInt32

/-- The calls of `SendRegistration` on the `ClientImpl`. -/
abbrev Sends := List (RegType × List UInt32)

/-- A call is made only if there is something to tell. -/
def tell (type : RegType) (msgIDs : List UInt32) : Sends :=
  if msgIDs = [] then [] else [(type, msgIDs)]

namespace BaseClient

/-- The loop of `RegisterMsgIDs`: the IDs that were not registered yet. -/
def registerLoop : List UInt32 → MsgIdMap → List UInt32 × MsgIdMap
  | [], t => ([], t)
  | msgID :: msgIDs, t =>
    match t.find msgID with
    | none =>
      let (regIDs, t) := registerLoop msgIDs (t.put msgID 1)
      (msgID :: regIDs, t)
    | some cnt => registerLoop msgIDs (t.put msgID (cnt + 1))

def registerMsgIDs (msgIDs : List UInt32) (t : MsgIdMap) : Sends × MsgIdMap :=
  let (regIDs, t) := registerLoop msgIDs t
  (tell .registerList regIDs, t)

/-- The loop of `DeregisterMsgIDs`: the IDs that are not registered any more. -/
def deregisterLoop : List UInt32 → MsgIdMap → List UInt32 × MsgIdMap
  | [], t => ([], t)
  | msgID :: msgIDs, t =>
    match t.find msgID with
    | none => deregisterLoop msgIDs t
    | some cnt =>
      if cnt - 1 = 0 then
        let (deregIDs, t) := deregisterLoop msgIDs (t.erase msgID)
        (msgID :: deregIDs, t)
      else
        deregisterLoop msgIDs (t.put msgID (cnt - 1))

def deregisterMsgIDs (msgIDs : List UInt32) (t : MsgIdMap) : Sends × MsgIdMap :=
  let (deregIDs, t) := deregisterLoop msgIDs t
  (tell .deregisterList deregIDs, t)

def kMaxCount : Nat := 64

/-- The loop of `DeregisterAllMsgIDs`. -/
def deregisterAllLoop : Nat → MsgIdMap → Option (Sends × MsgIdMap)
  | fuel, t =>
    if t.entries = [] then some ([], t)
    else match fuel with
      | 0 => none
      | fuel + 1 =>
        let (sends, t) := deregisterMsgIDs (t.keys.take kMaxCount) t
        (deregisterAllLoop fuel t).map fun (later, t) => (sends ++ later, t)

/-- How often a message ID with this count has to be deregistered. A count of 0
comes around. -/
def turns (cnt : UInt32) : Nat := (cnt - 1).toNat + 1

/-- Each turn of the loop deregisters an ID once. -/
def deregisterAllMsgIDs (t : MsgIdMap) : Option (Sends × MsgIdMap) :=
  deregisterAllLoop (t.total turns) t

end BaseClient

namespace MsgIdMap

/-- The count of a message ID, 0 for one that is not in the map. -/
def count (t : MsgIdMap) (msgID : UInt32) : UInt32 := (t.find msgID).getD 0

/-- Every ID in the map has a positive count. -/
def Positive (t : MsgIdMap) : Prop := ∀ msgID, t.find msgID ≠ some 0

/-- Registering these brings no count past its 32 bits. -/
def Fits (t : MsgIdMap) (msgIDs : List UInt32) : Prop :=
  ∀ msgID ∈ msgIDs, (t.count msgID).toNat + msgIDs.count msgID < 2 ^ 32

instance (t : MsgIdMap) (msgIDs : List UInt32) : Decidable (t.Fits msgIDs) :=
  List.decidableBAll _ msgIDs

variable {t : MsgIdMap} {msgID x : UInt32} {cnt : UInt32}

theorem count_put (t : MsgIdMap) (msgID x cnt : UInt32) :
    count (t.put msgID cnt) x = if x = msgID then cnt else t.count x := by
  rw [count, SortedMap.find_put]
  split <;> rfl

theorem count_erase (t : MsgIdMap) (msgID x : UInt32) :
    count (t.erase msgID) x = if x = msgID then 0 else t.count x := by
  rw [count, SortedMap.find_erase]
  split <;> rfl

theorem Positive.put (h : t.Positive) (ne : cnt ≠ 0) : Positive (t.put msgID cnt) := by
  intro x
  rw [SortedMap.find_put]
  split
  · intro eq
    exact ne (Option.some.inj eq)
  · exact h x

theorem Positive.erase (h : t.Positive) : Positive (t.erase msgID) := by
  intro x
  rw [SortedMap.find_erase]
  split
  · exact nofun
  · exact h x

theorem Positive.mem_keys_iff (h : t.Positive) : msgID ∈ t.keys ↔ 0 < t.count msgID := by
  rw [SortedMap.mem_keys, count]
  cases found : t.find msgID with
  | none => simp
  | some cnt =>
    have ne : cnt ≠ 0 := fun zero => h msgID (by rw [found, zero])
    simp [UInt32.pos_iff_ne_zero.mpr ne]

end MsgIdMap

namespace BaseClient
open MsgIdMap

variable {t : MsgIdMap} {msgID : UInt32} {msgIDs : List UInt32}

/-! ## Counts -/

/-- As long as no count wraps, registering adds the occurrences to the counts. -/
theorem registerLoop_counts (h : t.Positive) (fits : t.Fits msgIDs) :
    Positive (registerLoop msgIDs t).2 ∧
      ∀ x, (count (registerLoop msgIDs t).2 x).toNat = (t.count x).toNat + msgIDs.count x := by
  induction msgIDs generalizing t with
  | nil => exact ⟨h, fun x => rfl⟩
  | cons msgID msgIDs ih =>
    -- one more for `msgID`, whether it was in the map or not
    have once : ∀ next : UInt32, next.toNat = (t.count msgID).toNat + 1 →
        Positive (registerLoop msgIDs (t.put msgID next)).2 ∧
        ∀ x, (count (registerLoop msgIDs (t.put msgID next)).2 x).toNat =
          (t.count x).toNat + (msgID :: msgIDs).count x := by
      intro next eq
      have counts (x : UInt32) : (count (t.put msgID next) x).toNat + msgIDs.count x =
          (t.count x).toNat + (msgID :: msgIDs).count x := by
        rw [count_put, List.count_cons]
        by_cases here : x = msgID
        · subst here
          simp only [if_true, beq_self_eq_true]
          omega
        · simp [here, Ne.symm here]
      have ne : next ≠ 0 := by
        rintro rfl
        simp at eq
      have fits' : Fits (t.put msgID next) msgIDs := by
        intro x mem
        rw [counts]
        exact fits x (List.mem_cons_of_mem msgID mem)
      obtain ⟨positive, added⟩ := ih (h.put ne) fits'
      exact ⟨positive, fun x => (added x).trans (counts x)⟩
    have room := fits msgID List.mem_cons_self
    rw [List.count_cons_self] at room
    unfold registerLoop
    cases found : t.find msgID with
    | none =>
      apply once
      rw [count, found]
      rfl
    | some cnt =>
      apply once
      have here : t.count msgID = cnt := by rw [count, found]; rfl
      rw [here] at room ⊢
      rw [UInt32.toNat_add]
      apply Nat.mod_eq_of_lt
      exact lt_of_le_of_lt (Nat.add_le_add_left (Nat.le_add_left ..) _) room

theorem deregisterLoop_positive (msgIDs : List UInt32) (h : t.Positive) :
    Positive (deregisterLoop msgIDs t).2 := by
  induction msgIDs generalizing t with
  | nil => exact h
  | cons msgID msgIDs ih =>
    unfold deregisterLoop
    split
    · exact ih h
    · split
      · exact ih h.erase
      · rename_i more
        exact ih (h.put more)

/-- Deregistering an ID once. -/
theorem count_deregisterLoop (known : 0 < t.count msgID) (x : UInt32) :
    (count (deregisterLoop [msgID] t).2 x).toNat + (if x = msgID then 1 else 0) =
      (t.count x).toNat := by
  unfold deregisterLoop
  cases found : t.find msgID with
  | none =>
    rw [count, found] at known
    exact absurd known (by decide)
  | some cnt =>
    have here : t.count msgID = cnt := by rw [count, found]; rfl
    have pos : 0 < cnt := here ▸ known
    have lower : (cnt - 1).toNat + 1 = cnt.toNat := by
      rw [UInt32.toNat_sub_of_le _ _ (UInt32.lt_iff_toNat_lt.mp pos)]
      have := UInt32.lt_iff_toNat_lt.mp pos
      simp at this ⊢
      omega
    dsimp only
    split
    · rename_i last
      rw [last] at lower
      by_cases same : x = msgID
      · subst same
        simp only [deregisterLoop, count_erase, if_true, here]
        exact lower
      · simp [deregisterLoop, count_erase, same]
    · by_cases same : x = msgID
      · subst same
        simp only [deregisterLoop, count_put, if_true, here]
        exact lower
      · simp [deregisterLoop, count_put, same]

/-! ## Deregistering all -/

theorem turns_pred {cnt : UInt32} (more : cnt - 1 ≠ 0) : turns (cnt - 1) < turns cnt := by
  have pos := UInt32.pos_iff_ne_zero.mpr more
  have one : 1 ≤ cnt - 1 := UInt32.le_iff_toNat_le.mpr (UInt32.lt_iff_toNat_lt.mp pos)
  unfold turns
  rw [UInt32.toNat_sub_of_le _ _ one]
  have := UInt32.lt_iff_toNat_lt.mp pos
  simp at this ⊢
  omega

theorem total_deregisterLoop_le (msgIDs : List UInt32) (t : MsgIdMap) :
    (deregisterLoop msgIDs t).2.total turns ≤ t.total turns := by
  induction msgIDs generalizing t with
  | nil => exact le_rfl
  | cons msgID msgIDs ih =>
    unfold deregisterLoop
    cases found : t.find msgID with
    | none => exact ih t
    | some cnt =>
      dsimp only
      split
      · have := SortedMap.total_erase turns found
        exact (ih _).trans (by omega)
      · rename_i more
        have := SortedMap.total_put turns found (cnt - 1)
        have := turns_pred more
        exact (ih _).trans (by omega)

theorem total_deregisterLoop_lt (known : t.find msgID ≠ none) (msgIDs : List UInt32) :
    (deregisterLoop (msgID :: msgIDs) t).2.total turns < t.total turns := by
  unfold deregisterLoop
  cases found : t.find msgID with
  | none => exact absurd found known
  | some cnt =>
    dsimp only
    split
    · have := SortedMap.total_erase turns found
      have : 0 < turns cnt := Nat.succ_pos _
      exact (total_deregisterLoop_le _ _).trans_lt (by omega)
    · rename_i more
      have := SortedMap.total_put turns found (cnt - 1)
      have := turns_pred more
      exact (total_deregisterLoop_le _ _).trans_lt (by omega)

theorem deregisterAllLoop_returns {fuel : Nat} (enough : t.total turns ≤ fuel) :
    ∃ sends, deregisterAllLoop fuel t = some (sends, {}) := by
  induction fuel using Nat.strong_induction_on generalizing t with
  | _ fuel ih =>
    unfold deregisterAllLoop
    by_cases empty : t.entries = []
    · obtain ⟨entries, sorted⟩ := t
      cases empty
      exact ⟨[], rfl⟩
    · rw [if_neg empty]
      obtain ⟨⟨msgID, cnt⟩, rest, eq⟩ := List.exists_cons_of_ne_nil empty
      have keys : t.keys.take kMaxCount = msgID :: (rest.map (·.1)).take 63 := by
        rw [SortedMap.keys, eq]
        rfl
      have known : t.find msgID ≠ none := by
        rw [← SortedMap.mem_keys, SortedMap.keys, eq]
        exact List.mem_cons_self
      have fewer := total_deregisterLoop_lt known ((rest.map (·.1)).take 63)
      rw [← keys] at fewer
      cases fuel with
      | zero => omega
      | succ fuel =>
        obtain ⟨later, rest⟩ := ih fuel (Nat.lt_succ_self fuel)
          (t := (deregisterLoop (t.keys.take kMaxCount) t).2) (by omega)
        refine ⟨tell .deregisterList (deregisterLoop (t.keys.take kMaxCount) t).1 ++ later, ?_⟩
        simp only [deregisterMsgIDs, rest, Option.map_some]

/-- Whatever the counts are, the loop ends with the map empty. -/
theorem deregisterAllMsgIDs_returns (t : MsgIdMap) :
    ∃ sends, deregisterAllMsgIDs t = some (sends, {}) :=
  deregisterAllLoop_returns le_rfl

end BaseClient

/-- An entry of `messageHandlers`: the ID, the function and its argument. -/
structure Handler where
  msgID : UInt32
  mhf : Nat
  arg : Nat
  deriving DecidableEq, Repr

/-- `messageHandlers` is a multimap: equal IDs stand in the order of insertion. -/
structure Client where
  registeredMsgIDs : MsgIdMap := {}
  messageHandlers : List Handler := []
  deriving DecidableEq, Repr

namespace Client

/-- A call on the base class. -/
def onBase (client : Client) : Sends × MsgIdMap → Sends × Client
  | (sends, registeredMsgIDs) => (sends, { client with registeredMsgIDs })

def registerForMsgID (msgID : UInt32) (mhf arg : Nat) (client : Client) : Sends × Client :=
  let messageHandlers := client.messageHandlers.orderedInsert (·.msgID < ·.msgID) ⟨msgID, mhf, arg⟩
  { client with messageHandlers }.onBase
    (BaseClient.registerMsgIDs [msgID] client.registeredMsgIDs)

/-- `DeregisterForMsgID`, with `argsEqual` for the comparison of the arguments. -/
def deregisterForMsgID (msgID : UInt32) (mhf : Nat) (argsEqual : Nat → Bool) (client : Client) :
    Sends × Client :=
  let same (h : Handler) : Bool := h.msgID = msgID && h.mhf = mhf && argsEqual h.arg
  if client.messageHandlers.any same then
    { client with messageHandlers := client.messageHandlers.eraseP same }.onBase
      (BaseClient.deregisterMsgIDs [msgID] client.registeredMsgIDs)
  else
    ([], client)

/-- The loop of `DeregisterForAllMsgs`. -/
def deregisterForAllLoop : Nat → Client → Option (Sends × Client)
  | fuel, client =>
    match client.messageHandlers with
    | [] => some ([], client)
    | first :: _ =>
      match fuel with
      | 0 => none
      | fuel + 1 =>
        let (sends, client) := client.deregisterForMsgID first.msgID first.mhf (· = first.arg)
        (deregisterForAllLoop fuel client).map fun (later, client) => (sends ++ later, client)

/-- Each turn erases the first handler. -/
def deregisterForAllMsgs (client : Client) : Option (Sends × Client) :=
  deregisterForAllLoop client.messageHandlers.length client

/-- The calls that change the registrations: those of the base class, and the
callback API. -/
inductive Call where
  | registerMsgIDs (msgIDs : List UInt32)
  | deregisterMsgIDs (msgIDs : List UInt32)
  | deregisterAllMsgIDs
  | registerForMsgID (msgID : UInt32) (mhf arg : Nat)
  | deregisterForMsgID (msgID : UInt32) (mhf : Nat) (argsEqual : Nat → Bool)
  | deregisterForAllMsgs

/-- The call brings no count past its 32 bits. -/
def Fits (client : Client) : Call → Prop
  | .registerMsgIDs msgIDs => client.registeredMsgIDs.Fits msgIDs
  | .registerForMsgID msgID _ _ => client.registeredMsgIDs.Fits [msgID]
  | _ => True

instance (client : Client) : DecidablePred client.Fits
  | .registerMsgIDs msgIDs => inferInstanceAs (Decidable (client.registeredMsgIDs.Fits msgIDs))
  | .registerForMsgID msgID _ _ => inferInstanceAs (Decidable (client.registeredMsgIDs.Fits [msgID]))
  | .deregisterMsgIDs _ => inferInstanceAs (Decidable True)
  | .deregisterAllMsgIDs => inferInstanceAs (Decidable True)
  | .deregisterForMsgID _ _ _ => inferInstanceAs (Decidable True)
  | .deregisterForAllMsgs => inferInstanceAs (Decidable True)

/-- The call is one of the callback API. -/
def Call.IsCallback : Call → Prop
  | .registerMsgIDs _ => False
  | .deregisterMsgIDs _ => False
  | .deregisterAllMsgIDs => False
  | _ => True

instance : DecidablePred Call.IsCallback
  | .registerMsgIDs _ => inferInstanceAs (Decidable False)
  | .deregisterMsgIDs _ => inferInstanceAs (Decidable False)
  | .deregisterAllMsgIDs => inferInstanceAs (Decidable False)
  | .registerForMsgID _ _ _ => inferInstanceAs (Decidable True)
  | .deregisterForMsgID _ _ _ => inferInstanceAs (Decidable True)
  | .deregisterForAllMsgs => inferInstanceAs (Decidable True)

/-- What is told to the manager, if the call returns. -/
def call (client : Client) : Call → Option (Sends × Client)
  | .registerMsgIDs msgIDs =>
    some (client.onBase (BaseClient.registerMsgIDs msgIDs client.registeredMsgIDs))
  | .deregisterMsgIDs msgIDs =>
    some (client.onBase (BaseClient.deregisterMsgIDs msgIDs client.registeredMsgIDs))
  | .deregisterAllMsgIDs =>
    (BaseClient.deregisterAllMsgIDs client.registeredMsgIDs).map client.onBase
  | .registerForMsgID msgID mhf arg => some (client.registerForMsgID msgID mhf arg)
  | .deregisterForMsgID msgID mhf argsEqual =>
    some (client.deregisterForMsgID msgID mhf argsEqual)
  | .deregisterForAllMsgs => client.deregisterForAllMsgs

/-! ## The callback API -/

/-- Every ID is registered as often as it has handlers. -/
structure Matched (client : Client) : Prop where
  positive : client.registeredMsgIDs.Positive
  counts : ∀ x, (client.registeredMsgIDs.count x).toNat =
    client.messageHandlers.countP (·.msgID = x)

variable {client client' : Client} {msgID : UInt32} {sends : Sends}

theorem Matched.registerForMsgID (h : client.Matched) (mhf arg : Nat)
    (fits : client.registeredMsgIDs.Fits [msgID]) :
    (client.registerForMsgID msgID mhf arg).2.Matched := by
  obtain ⟨positive, counts⟩ := BaseClient.registerLoop_counts h.positive fits
  refine ⟨positive, fun x => (counts x).trans ?_⟩
  have inserted := List.perm_orderedInsert (·.msgID < ·.msgID) ⟨msgID, mhf, arg⟩
    client.messageHandlers
  rw [h.counts x]
  refine Eq.trans ?_ (inserted.countP_eq _).symm
  simp [List.countP_cons, List.count_cons]

theorem countP_eraseP {α : Type} {p q : α → Bool} {l : List α} (any : l.any p = true) :
    ∃ a, p a = true ∧ (l.eraseP p).countP q + (if q a = true then 1 else 0) = l.countP q := by
  obtain ⟨a, mem, holds⟩ := List.any_eq_true.mp any
  obtain ⟨b, l₁, l₂, -, here, eq, erased⟩ := List.exists_of_eraseP mem holds
  refine ⟨b, here, ?_⟩
  rw [erased, eq, List.countP_append, List.countP_append, List.countP_cons]
  omega

theorem Matched.deregisterForMsgID (h : client.Matched) (msgID : UInt32) (mhf : Nat)
    (argsEqual : Nat → Bool) :
    (client.deregisterForMsgID msgID mhf argsEqual).2.Matched := by
  unfold Client.deregisterForMsgID
  dsimp only
  split
  · rename_i found
    refine ⟨BaseClient.deregisterLoop_positive [msgID] h.positive, fun x => ?_⟩
    obtain ⟨b, same, erased⟩ := countP_eraseP (q := fun b : Handler => b.msgID = x) found
    have here : b.msgID = msgID := by
      simp only [Bool.and_eq_true, decide_eq_true_eq] at same
      exact same.1.1
    obtain ⟨b', same', erased'⟩ := countP_eraseP (q := fun b : Handler => b.msgID = msgID) found
    have here' : b'.msgID = msgID := by
      simp only [Bool.and_eq_true, decide_eq_true_eq] at same'
      exact same'.1.1
    have known : 0 < client.registeredMsgIDs.count msgID := by
      rw [UInt32.lt_iff_toNat_lt, h.counts msgID, ← erased']
      simp [here']
    have counted := BaseClient.count_deregisterLoop known x
    rw [h.counts x, ← erased] at counted
    simp only [here, decide_eq_true_eq, eq_comm (a := msgID)] at counted
    exact Nat.add_right_cancel counted
  · exact h

theorem deregisterForAllLoop_nil (nil : client.messageHandlers = []) (fuel : Nat) :
    client.deregisterForAllLoop fuel = some ([], client) := by
  unfold deregisterForAllLoop
  rw [nil]

theorem deregisterForAllLoop_cons {first : Handler} {rest : List Handler}
    (cons : client.messageHandlers = first :: rest) (fuel : Nat) :
    client.deregisterForAllLoop (fuel + 1) =
      ((client.deregisterForMsgID first.msgID first.mhf (· = first.arg)).2.deregisterForAllLoop
        fuel).map fun (later, last) =>
          ((client.deregisterForMsgID first.msgID first.mhf (· = first.arg)).1 ++ later, last) := by
  conv_lhs => unfold deregisterForAllLoop
  rw [cons]

/-- What holds of no turn and goes on over a turn holds of the loop. -/
theorem deregisterForAllLoop_rec {R : Client → Sends → Client → Prop} (nil : ∀ c, R c [] c)
    (cons : ∀ c msgID mhf argsEqual later c',
      R (c.deregisterForMsgID msgID mhf argsEqual).2 later c' →
        R c ((c.deregisterForMsgID msgID mhf argsEqual).1 ++ later) c') {fuel : Nat}
    (returns : client.deregisterForAllLoop fuel = some (sends, client')) :
    R client sends client' := by
  induction fuel generalizing client sends client' with
  | zero =>
    cases eq : client.messageHandlers with
    | nil =>
      rw [deregisterForAllLoop_nil eq] at returns
      cases returns
      exact nil client
    | cons first rest =>
      unfold deregisterForAllLoop at returns
      rw [eq] at returns
      cases returns
  | succ fuel ih =>
    cases eq : client.messageHandlers with
    | nil =>
      rw [deregisterForAllLoop_nil eq] at returns
      cases returns
      exact nil client
    | cons first rest =>
      rw [deregisterForAllLoop_cons eq] at returns
      obtain ⟨⟨later, last⟩, rest, eq⟩ := Option.map_eq_some_iff.mp returns
      cases eq
      exact cons _ _ _ _ _ _ (ih rest)

theorem positive_deregisterForMsgID (h : client.registeredMsgIDs.Positive) (msgID : UInt32)
    (mhf : Nat) (argsEqual : Nat → Bool) :
    (client.deregisterForMsgID msgID mhf argsEqual).2.registeredMsgIDs.Positive := by
  unfold deregisterForMsgID
  dsimp only
  split
  · exact BaseClient.deregisterLoop_positive [msgID] h
  · exact h

/-- Counts stay positive over every call. -/
theorem positive_call {call : Call} (returns : client.call call = some (sends, client'))
    (h : client.registeredMsgIDs.Positive) (fits : client.Fits call) :
    client'.registeredMsgIDs.Positive := by
  cases call with
  | registerMsgIDs msgIDs =>
    cases returns
    exact (BaseClient.registerLoop_counts h fits).1
  | deregisterMsgIDs msgIDs =>
    cases returns
    exact BaseClient.deregisterLoop_positive msgIDs h
  | deregisterAllMsgIDs =>
    obtain ⟨⟨sends, t⟩, loop, eq⟩ := Option.map_eq_some_iff.mp returns
    cases eq
    obtain ⟨_, empties⟩ := BaseClient.deregisterAllMsgIDs_returns client.registeredMsgIDs
    cases loop.symm.trans empties
    exact nofun
  | registerForMsgID msgID mhf arg =>
    cases returns
    exact (BaseClient.registerLoop_counts h fits).1
  | deregisterForMsgID msgID mhf argsEqual =>
    have positive := positive_deregisterForMsgID h msgID mhf argsEqual
    rwa [Option.some.inj returns] at positive
  | deregisterForAllMsgs =>
    refine deregisterForAllLoop_rec (R := fun c _ c' => c.registeredMsgIDs.Positive →
      c'.registeredMsgIDs.Positive) (fun _ => id) ?_ returns h
    intro c msgID mhf argsEqual later c' ih before
    exact ih (positive_deregisterForMsgID before msgID mhf argsEqual)

/-- Counts and handlers stay matched over every call of the callback API. -/
theorem Matched.call {call : Call} (h : client.Matched)
    (returns : client.call call = some (sends, client')) (fits : client.Fits call)
    (callback : call.IsCallback) : client'.Matched := by
  cases call with
  | registerMsgIDs msgIDs => exact callback.elim
  | deregisterMsgIDs msgIDs => exact callback.elim
  | deregisterAllMsgIDs => exact callback.elim
  | registerForMsgID msgID mhf arg =>
    cases returns
    exact h.registerForMsgID mhf arg fits
  | deregisterForMsgID msgID mhf argsEqual =>
    have matched := h.deregisterForMsgID msgID mhf argsEqual
    rwa [Option.some.inj returns] at matched
  | deregisterForAllMsgs =>
    refine deregisterForAllLoop_rec (R := fun c _ c' => c.Matched → c'.Matched) (fun _ => id) ?_
      returns h
    intro c msgID mhf argsEqual later c' ih before
    exact ih (before.deregisterForMsgID msgID mhf argsEqual)

/-- Each turn erases the first handler, so that none is left. -/
theorem deregisterForAllMsgs_returns (client : Client) :
    ∃ sends client', client.deregisterForAllMsgs = some (sends, client') ∧
      client'.messageHandlers = [] := by
  unfold deregisterForAllMsgs
  generalize len : client.messageHandlers.length = fuel
  induction fuel generalizing client with
  | zero =>
    have nil := List.length_eq_zero_iff.mp len
    exact ⟨[], client, deregisterForAllLoop_nil nil 0, nil⟩
  | succ fuel ih =>
    obtain ⟨first, rest, eq⟩ := List.exists_cons_of_length_eq_add_one len
    have erases : (client.deregisterForMsgID first.msgID first.mhf
        (· = first.arg)).2.messageHandlers = rest := by
      simp [deregisterForMsgID, onBase, eq]
    rw [eq, List.length_cons] at len
    obtain ⟨later, last, returns, nil⟩ := ih
      (client.deregisterForMsgID first.msgID first.mhf (· = first.arg)).2 (by rw [erases]; omega)
    rw [deregisterForAllLoop_cons eq, returns]
    exact ⟨_, last, rfl, nil⟩

end Client
end Mcsb
