import Mcsb.Lib.Channel

/-!
# Sequence tokens

A client numbers its tokens in 32 bits, and the manager echoes them. So the client
knows how many are under way, and `Flush` waits until there are none.
-/

namespace Mcsb

/-- A frame is a token or something else. -/
inductive TokenFrame (α : Type) where
  | sequenceToken (token : UInt32)
  | other (frame : α)

def TokenFrame.token? {α : Type} : TokenFrame α → Option UInt32
  | sequenceToken token => some token
  | other _ => none

/-- A `ClientImpl` and its proxy in the manager, with the channels between them. -/
structure Connection (α β : Type) where
  sequenceTokenSent : UInt32 := 0
  sequenceTokenRcvd : UInt32 := 0
  toManager : Channel (TokenFrame α) := {}
  toClient : Channel (TokenFrame β) := {}

namespace Connection
variable {α β : Type}

/-- `ClientImpl::SendSequenceToken` -/
def sendSequenceToken (c : Connection α β) : Connection α β :=
  let token := c.sequenceTokenSent + 1
  { c with
    sequenceTokenSent := token
    toManager := c.toManager.send (.sequenceToken token) }

/-- `ClientImpl::HandleSequenceToken`, and the handlers of other frames. -/
def clientHandle (c : Connection α β) : TokenFrame β → Connection α β
  | .sequenceToken token => { c with sequenceTokenRcvd := token }
  | .other _ => c

/-- `ClientProxy::HandleSequenceToken` echoes the token. -/
def managerHandle (c : Connection α β) : TokenFrame α → Connection α β
  | .sequenceToken token => { c with toClient := c.toClient.send (.sequenceToken token) }
  | .other _ => c

/-- `ClientImpl::PendingSequenceTokens`, in 32 bits. -/
def pendingSequenceTokens (c : Connection α β) : UInt32 :=
  if c.sequenceTokenSent ≥ c.sequenceTokenRcvd then c.sequenceTokenSent - c.sequenceTokenRcvd
  else 0xffffffff - c.sequenceTokenRcvd + c.sequenceTokenSent + 1

/-- What either side does next. Both send other frames whenever they like, also
from their handlers. -/
inductive Step : Connection α β → Connection α β → Prop where
  | sendSequenceToken (c : Connection α β) : Step c c.sendSequenceToken
  | clientSends (c : Connection α β) (frame : α) :
      Step c { c with toManager := c.toManager.send (.other frame) }
  | managerSends (c : Connection α β) (frame : β) :
      Step c { c with toClient := c.toClient.send (.other frame) }
  | managerHandles (c : Connection α β) {frame : TokenFrame α} {rest : List (TokenFrame α)}
      (head : c.toManager.inFlight = frame :: rest) :
      Step c ({ c with toManager := c.toManager.handle frame rest }.managerHandle frame)
  | clientHandles (c : Connection α β) {frame : TokenFrame β} {rest : List (TokenFrame β)}
      (head : c.toClient.inFlight = frame :: rest) :
      Step c ({ c with toClient := c.toClient.handle frame rest }.clientHandle frame)

inductive Steps : Connection α β → Connection α β → Prop where
  | refl (c : Connection α β) : Steps c c
  | snoc {c c' c'' : Connection α β} (steps : Steps c c') (step : Step c' c'') : Steps c c''

/-- The loop of `BaseClient::Flush`. `Poll` handles what has come, while the manager
goes on. -/
inductive FlushLoop : Connection α β → Connection α β → Prop where
  | done {c : Connection α β} (none : c.pendingSequenceTokens = 0) : FlushLoop c c
  | poll {c c' c'' : Connection α β} (some : c.pendingSequenceTokens ≠ 0) (poll : Steps c c')
      (loop : FlushLoop c' c'') : FlushLoop c c''

/-- `BaseClient::Flush`, called in `c`, returns 0 in `c'`. -/
def Flush (c c' : Connection α β) : Prop :=
  ∃ sent, Steps c.sendSequenceToken sent ∧ FlushLoop sent c'

/-- The tokens among frames. -/
def tokens (frames : List (TokenFrame α)) : List UInt32 := frames.filterMap TokenFrame.token?

/-- How many tokens were sent and have not been received back. -/
def outstanding (c : Connection α β) : Nat :=
  (tokens c.toManager.sent).length - (tokens c.toClient.handled).length

/-- The manager handles the token in `echo`, after all frames sent before it. The
client has handled those that the manager has sent by then, and the echo. -/
structure Barrier (c echo c' : Connection α β) (token : UInt32) : Prop where
  before : Steps c.sendSequenceToken echo
  handled : echo.toManager.handled = c.toManager.sent
  next : echo.toManager.inFlight.head? = some (.sequenceToken token)
  after : Steps echo c'
  arrived : echo.toClient.sent ++ [.sequenceToken token] <+: c'.toClient.handled

/-! ## Counting -/

/-- The first `n` tokens. -/
def numbers (n : Nat) : List UInt32 := (List.range n).map fun k => UInt32.ofNat (k + 1)

/-- What holds of the tokens between any two steps. -/
structure Counted (c : Connection α β) : Prop where
  numbered : tokens c.toManager.sent = numbers (tokens c.toManager.sent).length
  sent : c.sequenceTokenSent = UInt32.ofNat (tokens c.toManager.sent).length
  echoed : tokens c.toClient.sent = tokens c.toManager.handled
  rcvd : c.sequenceTokenRcvd = UInt32.ofNat (tokens c.toClient.handled).length

variable {c c' c'' : Connection α β}

theorem tokens_append (l l' : List (TokenFrame α)) : tokens (l ++ l') = tokens l ++ tokens l' :=
  List.filterMap_append ..

theorem numbers_succ (n : Nat) : numbers (n + 1) = numbers n ++ [UInt32.ofNat (n + 1)] := by
  simp only [numbers, List.range_succ, List.map_append, List.map_cons, List.map_nil]

theorem prefix_numbers {l : List UInt32} {n : Nat} (h : l <+: numbers n) :
    l = numbers l.length := by
  have short : l.length ≤ n := by
    have le := h.length_le
    simpa only [numbers, List.length_map, List.length_range] using le
  rw [List.prefix_iff_eq_take] at h
  rw [h]
  simp [numbers, ← List.map_take, List.take_range, short]

theorem tokens_initial {l l' : List (TokenFrame α)} (h : l <+: l') : tokens l <+: tokens l' :=
  h.filterMap _

theorem Counted.echo_le (h : Counted c) :
    tokens c.toClient.handled <+: tokens c.toManager.sent := by
  have first := tokens_initial c.toClient.handled_initial
  rw [h.echoed] at first
  exact first.trans (tokens_initial c.toManager.handled_initial)

theorem Step.counted (step : Step c c') (h : Counted c) : Counted c' := by
  cases step with
  | sendSequenceToken =>
    have token : c.sequenceTokenSent + 1 = UInt32.ofNat ((tokens c.toManager.sent).length + 1) := by
      rw [h.sent, UInt32.ofNat_add]
      rfl
    have sent : tokens c.sendSequenceToken.toManager.sent =
        tokens c.toManager.sent ++ [c.sequenceTokenSent + 1] := by
      simp only [Connection.sendSequenceToken, Channel.sent_send, tokens_append]
      rfl
    have length : (tokens c.sendSequenceToken.toManager.sent).length =
        (tokens c.toManager.sent).length + 1 := by
      rw [sent, List.length_append, List.length_singleton]
    constructor
    case numbered =>
      rw [length, numbers_succ, ← h.numbered, ← token]
      exact sent
    case sent =>
      rw [length]
      exact token
    case echoed => exact h.echoed
    case rcvd => exact h.rcvd
  | clientSends frame =>
    have sent : tokens (c.toManager.send (.other frame)).sent = tokens c.toManager.sent := by
      rw [Channel.sent_send, tokens_append]
      exact List.append_nil _
    constructor
    case numbered =>
      dsimp only
      rw [sent]
      exact h.numbered
    case sent =>
      dsimp only
      rw [sent]
      exact h.sent
    case echoed => exact h.echoed
    case rcvd => exact h.rcvd
  | managerSends frame =>
    have sent : tokens (c.toClient.send (.other frame)).sent = tokens c.toClient.sent := by
      rw [Channel.sent_send, tokens_append]
      exact List.append_nil _
    constructor
    case numbered => exact h.numbered
    case sent => exact h.sent
    case echoed => exact sent.trans h.echoed
    case rcvd => exact h.rcvd
  | @managerHandles frame rest head =>
    have sent := Channel.sent_handle head
    have handled : tokens (c.toManager.handle frame rest).handled =
        tokens c.toManager.handled ++ tokens [frame] := tokens_append ..
    cases frame with
    | sequenceToken token =>
      constructor
      case numbered =>
        simp only [managerHandle, sent]
        exact h.numbered
      case sent =>
        simp only [managerHandle, sent]
        exact h.sent
      case echoed =>
        simp only [managerHandle, Channel.sent_send, tokens_append, h.echoed, handled]
        rfl
      case rcvd => exact h.rcvd
    | other frame =>
      constructor
      case numbered =>
        simp only [managerHandle, sent]
        exact h.numbered
      case sent =>
        simp only [managerHandle, sent]
        exact h.sent
      case echoed =>
        simp only [managerHandle, h.echoed, handled]
        exact (List.append_nil _).symm
      case rcvd => exact h.rcvd
  | @clientHandles frame rest head =>
    have sent := Channel.sent_handle head
    have handled : tokens (c.toClient.handle frame rest).handled =
        tokens c.toClient.handled ++ tokens [frame] := tokens_append ..
    have arrived : tokens (c.toClient.handle frame rest).handled <+: tokens c.toManager.sent := by
      have first := tokens_initial (c.toClient.handle frame rest).handled_initial
      rw [sent, h.echoed] at first
      exact first.trans (tokens_initial c.toManager.handled_initial)
    cases frame with
    | sequenceToken token =>
      constructor
      case numbered => exact h.numbered
      case sent => exact h.sent
      case echoed =>
        simp only [clientHandle, sent]
        exact h.echoed
      case rcvd =>
        rw [h.numbered] at arrived
        have value := prefix_numbers arrived
        have length : (tokens (c.toClient.handle (.sequenceToken token) rest).handled).length =
            (tokens c.toClient.handled).length + 1 := by
          rw [handled, List.length_append]
          rfl
        rw [length, numbers_succ, handled] at value
        have last := (List.append_inj' value rfl).2
        simp only [clientHandle, length]
        exact List.singleton_inj.mp last
    | other frame =>
      constructor
      case numbered => exact h.numbered
      case sent => exact h.sent
      case echoed =>
        simp only [clientHandle, sent]
        exact h.echoed
      case rcvd =>
        simp only [clientHandle, handled]
        rw [h.rcvd]
        congr 2
        exact (List.append_nil _).symm

theorem Steps.counted (steps : Steps c c') (h : Counted c) : Counted c' := by
  induction steps with
  | refl => exact h
  | snoc _ step ih => exact step.counted ih

theorem counted_start : Counted ({} : Connection α β) := ⟨rfl, rfl, rfl, rfl⟩

/-- Both branches are the difference. -/
theorem pendingSequenceTokens_eq (c : Connection α β) :
    c.pendingSequenceTokens = c.sequenceTokenSent - c.sequenceTokenRcvd := by
  unfold pendingSequenceTokens
  split
  · rfl
  · grind

theorem Counted.pending (h : Counted c) (few : c.outstanding < 4294967296) :
    c.pendingSequenceTokens.toNat = c.outstanding := by
  have le := h.echo_le.length_le
  obtain ⟨k, eq⟩ := Nat.exists_eq_add_of_le le
  have count : c.outstanding = k := by
    unfold outstanding
    omega
  rw [pendingSequenceTokens_eq, h.sent, h.rcvd, eq, UInt32.ofNat_add, count]
  rw [count] at few
  have rest : UInt32.ofNat (tokens c.toClient.handled).length + UInt32.ofNat k -
      UInt32.ofNat (tokens c.toClient.handled).length = UInt32.ofNat k := by
    grind
  rw [rest]
  exact UInt32.toNat_ofNat_of_lt few

/-! ## The barrier -/

theorem Step.sent_grows (step : Step c c') :
    c.toManager.sent <+: c'.toManager.sent ∧ c.toClient.sent <+: c'.toClient.sent := by
  cases step with
  | sendSequenceToken =>
    simp only [Connection.sendSequenceToken, Channel.sent_send]
    exact ⟨List.prefix_append .., List.prefix_refl _⟩
  | clientSends =>
    simp only [Channel.sent_send]
    exact ⟨List.prefix_append .., List.prefix_refl _⟩
  | managerSends =>
    simp only [Channel.sent_send]
    exact ⟨List.prefix_refl _, List.prefix_append ..⟩
  | @managerHandles frame rest head =>
    have sent := Channel.sent_handle head
    cases frame with
    | sequenceToken token =>
      simp only [managerHandle, sent, Channel.sent_send]
      exact ⟨List.prefix_refl _, List.prefix_append ..⟩
    | other frame =>
      simp only [managerHandle, sent]
      exact ⟨List.prefix_refl _, List.prefix_refl _⟩
  | @clientHandles frame rest head =>
    have sent := Channel.sent_handle head
    cases frame with
    | sequenceToken token =>
      simp only [clientHandle, sent]
      exact ⟨List.prefix_refl _, List.prefix_refl _⟩
    | other frame =>
      simp only [clientHandle, sent]
      exact ⟨List.prefix_refl _, List.prefix_refl _⟩

theorem Steps.sent_grows (steps : Steps c c') :
    c.toManager.sent <+: c'.toManager.sent ∧ c.toClient.sent <+: c'.toClient.sent := by
  induction steps with
  | refl => exact ⟨List.prefix_refl _, List.prefix_refl _⟩
  | snoc _ step ih =>
    obtain ⟨up, down⟩ := step.sent_grows
    exact ⟨ih.1.trans up, ih.2.trans down⟩

theorem Steps.trans (steps : Steps c c') (steps' : Steps c' c'') : Steps c c'' := by
  induction steps' with
  | refl => exact steps
  | snoc _ step ih => exact .snoc ih step

/-- The manager has not come to the token yet, or it has echoed it. -/
theorem Steps.echoes (steps : Steps c.sendSequenceToken c') :
    c'.toManager.handled.length ≤ c.toManager.sent.length ∨
    ∃ echo, Steps c.sendSequenceToken echo ∧ echo.toManager.handled = c.toManager.sent ∧
      echo.toManager.inFlight.head? = some (.sequenceToken (c.sequenceTokenSent + 1)) ∧
      Steps echo c' ∧
      echo.toClient.sent ++ [.sequenceToken (c.sequenceTokenSent + 1)] <+: c'.toClient.sent := by
  generalize start : c.sendSequenceToken = c₁ at steps
  induction steps with
  | refl =>
    left
    rw [← start]
    exact c.toManager.handled_initial.length_le
  | @snoc c₂ c' steps step ih =>
    rcases ih with before | ⟨echo, first, handled, next, later, sent⟩
    · have same (eq : c'.toManager.handled = c₂.toManager.handled) :
          c'.toManager.handled.length ≤ c.toManager.sent.length := eq ▸ before
      cases step with
      | sendSequenceToken => exact .inl (same rfl)
      | clientSends => exact .inl (same rfl)
      | managerSends => exact .inl (same rfl)
      | @clientHandles frame rest head => cases frame <;> exact .inl (same rfl)
      | @managerHandles frame rest head =>
        by_cases last : c₂.toManager.handled.length = c.toManager.sent.length
        · right
          have sent : c.toManager.sent ++ [.sequenceToken (c.sequenceTokenSent + 1)] <+:
              c₂.toManager.handled ++ frame :: rest := by
            have grown := steps.sent_grows.1
            have at_head : c₂.toManager.sent = c₂.toManager.handled ++ frame :: rest := by
              rw [Channel.sent, head]
            rw [← start, Connection.sendSequenceToken, Channel.sent_send, at_head] at grown
            exact grown
          obtain ⟨more, eq⟩ := sent
          rw [List.append_assoc] at eq
          obtain ⟨handled, next⟩ := List.append_inj eq last.symm
          cases next
          have handles := Steps.snoc (.refl c₂) (.managerHandles c₂ head)
          refine ⟨c₂, steps, handled.symm, by rw [head]; rfl, handles, ?_⟩
          simp only [managerHandle, Channel.sent_send]
          exact List.prefix_refl _
        · left
          have handled : ({ c₂ with toManager := c₂.toManager.handle frame rest }.managerHandle
              frame).toManager.handled = c₂.toManager.handled ++ [frame] := by
            cases frame <;> rfl
          rw [handled, List.length_append, List.length_singleton]
          omega
    · exact .inr ⟨echo, first, handled, next, .snoc later step, sent.trans step.sent_grows.2⟩

theorem FlushLoop.returns (loop : FlushLoop c c') :
    Steps c c' ∧ c'.pendingSequenceTokens = 0 := by
  induction loop with
  | done none => exact ⟨.refl _, none⟩
  | poll _ poll _ ih => exact ⟨poll.trans ih.1, ih.2⟩

/-- Without outstanding tokens none is in either channel. -/
theorem Counted.returned (h : Counted c) (none : c.outstanding = 0) :
    tokens c.toManager.handled = tokens c.toManager.sent ∧ tokens c.toClient.inFlight = [] := by
  have le := h.echo_le.length_le
  have handled := (tokens_initial c.toManager.handled_initial).length_le
  have length := congrArg List.length h.echoed
  simp only [outstanding] at none
  have split : tokens c.toClient.sent = tokens c.toClient.handled ++ tokens c.toClient.inFlight :=
    tokens_append ..
  have total := congrArg List.length split
  rw [List.length_append] at total
  constructor
  · exact (tokens_initial c.toManager.handled_initial).eq_of_length (by omega)
  · exact List.length_eq_zero_iff.mp (by omega)

theorem Counted.flush (h : Counted c) (flush : Flush c c') (few : c'.outstanding < 4294967296) :
    ∃ echo, Barrier c echo c' (c.sequenceTokenSent + 1) := by
  obtain ⟨sent, first, loop⟩ := flush
  obtain ⟨later, none⟩ := loop.returns
  have steps := first.trans later
  have counted := steps.counted ((Step.sendSequenceToken c).counted h)
  have zero : c'.outstanding = 0 := by
    rw [← counted.pending few, none]
    rfl
  obtain ⟨all, arrived⟩ := counted.returned zero
  rcases steps.echoes with before | ⟨echo, first, handled, next, later, split⟩
  · -- the token would be outstanding
    exfalso
    have sent := steps.sent_grows.1
    rw [Connection.sendSequenceToken, Channel.sent_send] at sent
    have old : c'.toManager.handled <+: c.toManager.sent :=
      List.prefix_of_prefix_length_le c'.toManager.handled_initial
        ((List.prefix_append ..).trans sent) before
    have fewer := (tokens_initial old).length_le
    have more := (tokens_initial sent).length_le
    rw [tokens_append, List.length_append] at more
    rw [all] at fewer
    have one : (tokens [(.sequenceToken (c.sequenceTokenSent + 1) : TokenFrame α)]).length = 1 :=
      rfl
    omega
  · refine ⟨echo, first, handled, next, later, ?_⟩
    obtain ⟨more, eq⟩ := split
    rw [List.append_assoc] at eq
    apply Channel.handled_of_not_mem eq.symm
    intro flying
    have listed : c.sequenceTokenSent + 1 ∈ tokens c'.toClient.inFlight :=
      List.mem_filterMap.mpr ⟨_, flying, rfl⟩
    rw [arrived] at listed
    cases listed

/-- The tokens pending are those outstanding, also when both counters have wrapped,
and when `Flush` has returned 0 everything sent before its token and before the echo
was handled. -/
theorem tokens_counted (steps : Steps {} c) :
    (c.outstanding < 4294967296 → c.pendingSequenceTokens.toNat = c.outstanding) ∧
    ∀ c', Flush c c' → c'.outstanding < 4294967296 →
      ∃ echo, Barrier c echo c' (c.sequenceTokenSent + 1) := by
  have counted := steps.counted counted_start
  exact ⟨counted.pending, fun _ flush few => counted.flush flush few⟩

theorem tokens_counted_twice :
    ({} : Connection Unit Unit).sendSequenceToken.pendingSequenceTokens.toNat = 1 ∧
    ∃ c' echo, Barrier ({} : Connection Unit Unit).sendSequenceToken echo c' 2 := by
  have counted := tokens_counted (.snoc (.refl ({} : Connection Unit Unit)) (.sendSequenceToken {}))
  have second := Steps.refl ({} : Connection Unit Unit).sendSequenceToken.sendSequenceToken
  have echoed := (second.snoc (.managerHandles _ rfl)).snoc (.managerHandles _ rfl)
  have received := (echoed.snoc (.clientHandles _ rfl)).snoc (.clientHandles _ rfl)
  exact ⟨counted.1 (by decide), _, counted.2 _ ⟨_, received, .done (by decide)⟩ (by decide)⟩

end Connection
end Mcsb
