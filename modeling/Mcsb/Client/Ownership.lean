import Mcsb.Client.SendDescriptors

/-!
# The owners of chains

What each call on `SendMessageDescriptor`s does with the chain of each of them: who
has it afterwards, and whether it was released.
-/

namespace Mcsb.SendDescriptors

/-- The chain that the descriptor at an address refers to. -/
def chainAt (s : SendDescriptors) (this : Nat) : Option (Nat × Nat) := (s.desc this).chain

/-- The chain of `desc` goes to `this`. -/
def Moved (s : SendDescriptors) (desc this : Nat) (s' : SendDescriptors) : Prop :=
  s'.chainAt = Function.update (Function.update s.chainAt desc none) this (s.chainAt desc)

/-- A chain that `this` had is released. -/
def Sent (s : SendDescriptors) (this : Nat) (s' : SendDescriptors) : Prop :=
  s'.released = s.released ++ (s.chainAt this).toList

/-- The same if its client is connected. -/
def Freed (s : SendDescriptors) (this : Nat) (s' : SendDescriptors) : Prop :=
  (∀ chain, s.chainAt this = some chain → (s.clients chain.1).sendFailed = false) → s.Sent this s'

/-- What a call does with the chains of descriptors. `s'` is the state after it. -/
def Disposes (s s' : SendDescriptors) : Call → Prop
  | .getSendMessageDescriptor _ this _ _ _ => s'.released = s.released ∧
      s'.got = s.got ++ (s'.chainAt this).toList ∧ ∀ other ≠ this, s'.chainAt other = s.chainAt other
  | .copy this desc => s.Moved desc this s' ∧ s'.released = s.released
  | .copyRef this desc => s.Moved desc this s' ∧ s'.released = s.released
  | .assign this desc => s.Moved desc this s' ∧
      if this = desc then s'.released = s.released else s.Freed this s'
  | .assignRef this desc => s.Moved desc this s' ∧
      if this = desc then s'.released = s.released else s.Freed this s'
  | .release this => s'.chainAt = Function.update s.chainAt this none ∧
      s'.raws = s.desc this :: s.raws ∧ s'.released = s.released
  | .reset this => s'.chainAt = Function.update s.chainAt this none ∧ s.Freed this s'
  | .resetRaw this raw => s'.chainAt = Function.update s.chainAt this raw.chain ∧
      s'.raws = s.raws.erase raw ∧ s.Freed this s'
  | .sendMessage this _ _ => s'.chainAt = Function.update s.chainAt this none ∧ s.Sent this s'
  | .baseSendMessage cimpl this _ _ =>
    if (s.desc this).cimpl = some cimpl then
      s'.chainAt = Function.update s.chainAt this none ∧ s.Sent this s'
    else s' = s
  | .destroy this => s'.chainAt = Function.update s.chainAt this none ∧ this ∉ s'.addresses ∧
      s.Freed this s'
  | _ => s'.chainAt = s.chainAt ∧ s'.released = s.released

variable {fit : Prop} {s s' : SendDescriptors} {cimpl this : Nat} {d : SendMessageDescriptor}

theorem desc_setDesc (s : SendDescriptors) (this : Nat) (d : SendMessageDescriptor) (other : Nat) :
    (s.setDesc this d).desc other = if other = this then d else s.desc other := by
  unfold desc setDesc
  by_cases here : other = this
  · rw [here, List.lookup_cons_self, if_pos rfl]
    rfl
  · rw [List.lookup_cons, beq_eq_false_iff_ne.mpr here, if_neg here]
    dsimp only
    rw [Assoc.lookup_filter_ne, if_neg here]

theorem chainAt_setDesc (s : SendDescriptors) (this : Nat) (d : SendMessageDescriptor) :
    (s.setDesc this d).chainAt = Function.update s.chainAt this d.chain := by
  funext other
  rw [Function.update_apply, chainAt, desc_setDesc]
  split <;> rfl

theorem chainAt_congr (descs : s'.descs = s.descs) : s'.chainAt = s.chainAt := by
  funext this
  simp only [chainAt, desc, descs]

theorem chainAt_new (new : this ∉ s.addresses) : s.chainAt this = none := by
  have absent : s.descs.lookup this = none := by
    cases found : s.descs.lookup this with
    | none => rfl
    | some d => exact absurd (List.mem_map.mpr ⟨_, Assoc.mem_of_lookup found, rfl⟩) new
  simp only [chainAt, desc, absent]
  rfl

theorem chainAt_release (s : SendDescriptors) (this : Nat) :
    (s.release this).2.chainAt = Function.update s.chainAt this none := by
  simp only [SendDescriptors.release, chainAt_setDesc, chain_null]

/-- What goes to a client that is connected is released. -/
theorem released_releaseSeg (ret : s.releaseSeg d = some s') : s'.descs = s.descs ∧
    s'.raws = s.raws ∧ ((∀ chain, d.chain = some chain → (s.clients chain.1).sendFailed = false) →
      s'.released = s.released ++ d.chain.toList) := by
  obtain ⟨seg, cimpl⟩ := d
  cases seg with
  | none =>
    cases ret
    refine ⟨rfl, rfl, fun _ => ?_⟩
    rw [chain_null]
    exact (List.append_nil _).symm
  | some seg =>
    cases cimpl with
    | none =>
      cases ret
      exact ⟨rfl, rfl, fun _ => (List.append_nil _).symm⟩
    | some cimpl =>
      simp only [releaseSeg] at ret
      cases failed : (s.clients cimpl).sendFailed with
      | true =>
        rw [failed, if_pos rfl] at ret
        cases ret
        refine ⟨rfl, rfl, fun up => ?_⟩
        have up := up (cimpl, seg) rfl
        rw [failed] at up
        cases up
      | false =>
        rw [failed, if_neg Bool.false_ne_true] at ret
        obtain ⟨c, -, rfl⟩ := Option.map_eq_some_iff.mp ret
        exact ⟨rfl, rfl, fun _ => rfl⟩

theorem released_sendSeg {msgID len : UInt32} (ret : s.sendSeg msgID d len = some s') :
    s'.descs = s.descs ∧ s'.released = s.released ++ d.chain.toList := by
  obtain ⟨seg, cimpl⟩ := d
  cases seg with
  | none =>
    cases ret
    rw [chain_null]
    exact ⟨rfl, (List.append_nil _).symm⟩
  | some seg =>
    cases cimpl with
    | none =>
      cases ret
      exact ⟨rfl, (List.append_nil _).symm⟩
    | some cimpl =>
      obtain ⟨c, -, rfl⟩ := Option.map_eq_some_iff.mp ret
      exact ⟨rfl, rfl⟩

/-- `Reset` puts the chain of `d` in the place of the one it finds. -/
theorem chainAt_reset (ret : s.reset this d = some s') :
    s'.chainAt = Function.update s.chainAt this d.chain ∧ s'.raws = s.raws ∧ s.Freed this s' := by
  obtain ⟨s₁, released, rfl⟩ := Option.map_eq_some_iff.mp ret
  obtain ⟨descs, raws, freed⟩ := released_releaseSeg released
  refine ⟨?_, raws, freed⟩
  rw [chainAt_setDesc, chainAt_congr descs]

theorem chainAt_send {msgID len : UInt32}
    (ret : (s.release this).2.sendSeg msgID (s.release this).1 len = some s') :
    s'.chainAt = Function.update s.chainAt this none ∧ s.Sent this s' := by
  obtain ⟨descs, released⟩ := released_sendSeg ret
  rw [chainAt_congr descs]
  exact ⟨chainAt_release s this, released⟩

theorem chainAt_copy (s : SendDescriptors) (this desc : Nat) : s.Moved desc this (s.copy this desc) := by
  unfold Moved SendDescriptors.copy
  dsimp only
  rw [chainAt_setDesc, chainAt_release]
  rfl

/-- A descriptor assigned to itself keeps its chain, and another is freed of its own. -/
theorem chainAt_assign {desc : Nat} (ret : s.assign this desc = some s') : s.Moved desc this s' ∧
    if this = desc then s'.released = s.released else s.Freed this s' := by
  have reset : (s.release desc).2.reset this (s.release desc).1 = some s' := ret
  obtain ⟨chains, -, freed⟩ := chainAt_reset reset
  constructor
  · unfold Moved
    rw [chains, chainAt_release]
    rfl
  · unfold Freed Sent at freed ⊢
    rw [chainAt_release] at freed
    split
    · rename_i same
      rw [same, Function.update_self, Option.toList_none, List.append_nil] at freed
      exact freed fun chain none => by cases none
    · rename_i other
      rw [Function.update_of_ne other] at freed
      exact freed

theorem chainAt_destroy (ret : s.destroy this = some s') :
    s'.chainAt = Function.update s.chainAt this none ∧ this ∉ s'.addresses ∧ s.Freed this s' := by
  obtain ⟨s₁, reset, rfl⟩ := Option.map_eq_some_iff.mp ret
  obtain ⟨chains, -, freed⟩ := chainAt_reset reset
  refine ⟨?_, ?_, freed⟩
  · funext other
    have filtered : SendDescriptors.chainAt { s₁ with descs := s₁.descs.filter (·.1 ≠ this) } other =
        if other = this then none else s₁.chainAt other := by
      simp only [chainAt, desc, Assoc.lookup_filter_ne]
      split <;> rfl
    rw [filtered, chains, Function.update_apply, Function.update_apply]
    split <;> rfl
  · intro mem
    obtain ⟨entry, kept, same⟩ := List.mem_map.mp mem
    have other := (List.mem_filter.mp kept).2
    simp only [ne_eq, decide_eq_true_eq] at other
    exact other same

theorem chainAt_getSendMessageDescriptor {len : UInt32} {contiguous poll : Bool}
    (new : this ∉ s.addresses)
    (ret : s.getSendMessageDescriptor cimpl this len contiguous poll = some s') :
    s'.released = s.released ∧ s'.got = s.got ++ (s'.chainAt this).toList ∧
      ∀ other ≠ this, s'.chainAt other = s.chainAt other := by
  obtain ⟨⟨turn, c⟩, -, rfl⟩ := Option.map_eq_some_iff.mp ret
  have absent : (s.setClient cimpl c).chainAt this = none := chainAt_new new
  have cons (d : SendMessageDescriptor) (other : Nat) (ne : other ≠ this) :
      (((this, d) :: s.descs).lookup other).getD {} = s.desc other := by
    rw [List.lookup_cons, beq_eq_false_iff_ne.mpr ne]
    rfl
  cases turn with
  | again => exact ⟨rfl, by simp only [absent, Option.toList_none, List.append_nil]; rfl, fun _ _ => rfl⟩
  | polls => exact ⟨rfl, by simp only [absent, Option.toList_none, List.append_nil]; rfl, fun _ _ => rfl⟩
  | throws =>
    refine ⟨rfl, ?_, fun other ne => congrArg SendMessageDescriptor.chain (cons {} other ne)⟩
    simp [chainAt, desc, SendMessageDescriptor.chain, setClient]
  | returns seg =>
    refine ⟨rfl, ?_, fun other ne => congrArg SendMessageDescriptor.chain (cons _ other ne)⟩
    cases seg <;> simp [chainAt, desc, SendMessageDescriptor.chain, setClient]

/-- Every call does with the chains what it is for. -/
theorem disposes {call : Call} (legal : s.Legal call) (called : s.call call = some s') :
    s.Disposes s' call := by
  cases call with
  | addFreeSlabs cimpl slabs =>
    obtain ⟨mgr, -, rfl⟩ := Option.map_eq_some_iff.mp called
    exact ⟨rfl, rfl⟩
  | maxWorkingSlabs cimpl maxSlabs =>
    cases called
    exact ⟨rfl, rfl⟩
  | flushWorkingSlabs cimpl =>
    cases called
    exact ⟨rfl, rfl⟩
  | sendRetiredSlabs cimpl =>
    cases called
    exact ⟨rfl, rfl⟩
  | construct this =>
    cases called
    refine ⟨?_, rfl⟩
    funext other
    by_cases here : other = this
    · rw [here, chainAt_new legal]
      simp [chainAt, desc, SendMessageDescriptor.chain]
    · simp only [chainAt, desc, List.lookup_cons, beq_eq_false_iff_ne.mpr here]
  | getSendMessageDescriptor cimpl this len contiguous poll =>
    exact chainAt_getSendMessageDescriptor legal called
  | copy this desc =>
    cases called
    exact ⟨chainAt_copy s this desc, rfl⟩
  | assign this desc => exact chainAt_assign called
  | copyRef this desc =>
    cases called
    exact ⟨chainAt_copy s this desc, rfl⟩
  | assignRef this desc => exact chainAt_assign called
  | release this =>
    cases called
    exact ⟨chainAt_release s this, rfl, rfl⟩
  | reset this =>
    obtain ⟨chains, -, freed⟩ := chainAt_reset called
    exact ⟨chains, freed⟩
  | resetRaw this raw => exact chainAt_reset called
  | sendMessage this msgID len =>
    simp only [SendDescriptors.call, SendDescriptors.sendMessage] at called
    split at called
    · exact chainAt_send called
    · rename_i unissued
      cases called
      have null : s.chainAt this = none := by
        simp only [chainAt, SendMessageDescriptor.chain, not_not.mp unissued]
        cases (s.desc this).seg <;> rfl
      refine ⟨?_, ?_⟩
      · rw [← null, Function.update_eq_self]
      · rw [Sent, null]
        exact (List.append_nil _).symm
  | baseSendMessage cimpl this msgID len =>
    simp only [SendDescriptors.call, SendDescriptors.baseSendMessage] at called
    simp only [Disposes]
    split at called
    · rename_i mismatch
      cases called
      rw [if_neg (Ne.symm mismatch)]
    · rename_i issued
      rw [if_pos (not_not.mp issued).symm]
      exact chainAt_send called
  | destroy this => exact chainAt_destroy called
  | close cimpl =>
    cases called
    exact ⟨rfl, rfl⟩

/-- Whatever is done with the descriptors, each chain has one owner and is released
once. A call frees the descriptors it is meant to free, and if the block IDs fit
every legal call has a defined result. -/
theorem Run.owned_once (run : Run fit s) : OwnedOnce s ∧
    (∀ call s', s.Legal call → s.call call = some s' → s.Disposes s' call) ∧
    (s.closed = [] → ∀ call, s.Legal call → (fit → s.Fits call) → fit → (s.call call).isSome) :=
  ⟨run.sound.ownedOnce, fun _ _ => disposes, fun _ _ legal fits => (run.sound.call legal fits).2⟩

/-- A client with a producer slab of two blocks. -/
def onePage : SendClient where
  params := SendHistory.pages
  clientID := 1
  numProdSlabs := 1
  takes := fun _ => true

/-- A descriptor is got, assigned to itself, sent and destroyed. -/
theorem owned_once_sent : ∃ s s' : SendDescriptors,
    s.got = [(0, 0)] ∧ s.released = [] ∧ s.owned = [(0, 0)] ∧ OwnedOnce s ∧
    s'.got = [(0, 0)] ∧ s'.released = [(0, 0)] ∧ s'.addresses = [] ∧ OwnedOnce s' := by
  have start : Run True _ := .start (fun _ => onePage) fun _ => ⟨rfl, rfl, by decide⟩
  have added : Run True _ := .step start rfl (.addFreeSlabs 0 [(0, 0)])
    (by simp [Legal, ClientSendManager.held, onePage])
    (fun _ => by simp [Fits, SendCall.Fits, SendHistory.pages, onePage]) rfl
  have got : Run True _ := .step added rfl (.getSendMessageDescriptor 0 7 10 true true)
    List.not_mem_nil (fun _ => trivial) rfl
  have assigned : Run True _ := .step got rfl (.assign 7 7)
    ⟨List.mem_singleton_self 7, List.mem_singleton_self 7⟩ (fun _ => trivial) rfl
  have sent : Run True _ := .step assigned rfl (.sendMessage 7 3 10)
    (List.mem_singleton_self 7) (fun _ => trivial) rfl
  have gone : Run True _ := .step sent rfl (.destroy 7)
    (List.mem_singleton_self 7) (fun _ => trivial) rfl
  exact ⟨_, _, rfl, rfl, rfl, got.owned_once.1, rfl, rfl, rfl, gone.owned_once.1⟩

end Mcsb.SendDescriptors
