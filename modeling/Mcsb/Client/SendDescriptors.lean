import Mcsb.Client.SendClient
import Mcsb.Lib.Assoc

/-!
# Send descriptors

`SendMessageDescriptor`s are moved, reset, sent and destroyed as a program likes.
Each chain of segments has one owner, and is released once.
-/

namespace Mcsb

/-- A descriptor with its pointers, and also a `SendMessageDescriptorRef`. -/
structure SendMessageDescriptor where
  seg : Option Nat := none
  cimpl : Option Nat := none
  deriving DecidableEq, Repr

/-- The chain owned, if any: the client and the first segment. -/
def SendMessageDescriptor.chain (desc : SendMessageDescriptor) : Option (Nat × Nat) :=
  match desc.seg, desc.cimpl with
  | some seg, some cimpl => some (cimpl, seg)
  | _, _ => none

/-- Clients, descriptors at their addresses, and the segments that a program has
taken out of descriptors. `BaseClient::Close` has deleted the clients `closed`.
Chains have been `got` from `GetMessageDescriptor`, and `ReleaseMessageDescriptor`
was called for those `released`. -/
structure SendDescriptors where
  clients : Nat → SendClient
  closed : List Nat := []
  descs : List (Nat × SendMessageDescriptor) := []
  raws : List SendMessageDescriptor := []
  got : List (Nat × Nat) := []
  released : List (Nat × Nat) := []

namespace SendDescriptors

def desc (s : SendDescriptors) (this : Nat) : SendMessageDescriptor :=
  (s.descs.lookup this).getD {}

def setDesc (s : SendDescriptors) (this : Nat) (desc : SendMessageDescriptor) : SendDescriptors :=
  { s with descs := (this, desc) :: s.descs.filter (·.1 ≠ this) }

def setClient (s : SendDescriptors) (cimpl : Nat) (c : SendClient) : SendDescriptors :=
  { s with clients := Function.update s.clients cimpl c }

/-- `SendMessageDescriptor::Release`, with the client that stays in the descriptor. -/
def release (s : SendDescriptors) (this : Nat) : SendMessageDescriptor × SendDescriptors :=
  (s.desc this, s.setDesc this { s.desc this with seg := none })

/-- What `Reset` does with the segment it finds. -/
def releaseSeg (s : SendDescriptors) (desc : SendMessageDescriptor) : Option SendDescriptors :=
  match desc.seg, desc.cimpl with
  | some seg, some cimpl =>
    if (s.clients cimpl).sendFailed then some s
    else ((s.clients cimpl).releaseSendMsgDesc seg).map fun c =>
      { s.setClient cimpl c with released := s.released ++ [(cimpl, seg)] }
  | _, _ => some s

/-- `SendMessageDescriptor::Reset(s, c)` -/
def reset (s : SendDescriptors) (this : Nat) (desc : SendMessageDescriptor) :
    Option SendDescriptors :=
  (s.releaseSeg (s.desc this)).map fun s => s.setDesc this desc

/-- `SendMessageDescriptor(SendMessageDescriptor& desc)` -/
def copy (s : SendDescriptors) (this desc : Nat) : SendDescriptors :=
  let (taken, s) := s.release desc
  s.setDesc this taken

/-- `operator=(SendMessageDescriptor& desc)`. `desc` may be `this`. -/
def assign (s : SendDescriptors) (this desc : Nat) : Option SendDescriptors :=
  let (taken, s) := s.release desc
  s.reset this taken

/-- `operator SendMessageDescriptorRef` -/
def toRef (s : SendDescriptors) (desc : Nat) : SendMessageDescriptor × SendDescriptors :=
  s.release desc

/-- `SendMessageDescriptor(SendMessageDescriptorRef ref)` of a converted descriptor -/
def copyRef (s : SendDescriptors) (this desc : Nat) : SendDescriptors :=
  let (ref, s) := s.toRef desc
  s.setDesc this ref

/-- `operator=(SendMessageDescriptorRef ref)` of a converted descriptor -/
def assignRef (s : SendDescriptors) (this desc : Nat) : Option SendDescriptors :=
  let (ref, s) := s.toRef desc
  s.reset this ref

/-- `ClientImpl::SendMessage`. Its exceptions are caught by both callers. -/
def sendSeg (s : SendDescriptors) (msgID : UInt32) (desc : SendMessageDescriptor) (len : UInt32) :
    Option SendDescriptors :=
  match desc.seg, desc.cimpl with
  | some seg, some cimpl => ((s.clients cimpl).sendMessage msgID seg len).map fun c =>
    { s.setClient cimpl c with released := s.released ++ [(cimpl, seg)] }
  | _, _ => some s -- null descriptor passed to SendMessage

/-- `SendMessageDescriptor::SendMessage` -/
def sendMessage (s : SendDescriptors) (this : Nat) (msgID len : UInt32) : Option SendDescriptors :=
  if (s.desc this).cimpl ≠ none then
    let (taken, s) := s.release this
    s.sendSeg msgID taken len
  else some s

/-- `BaseClient::SendMessage(msgID, desc, len)` with client `cimpl` -/
def baseSendMessage (s : SendDescriptors) (cimpl this : Nat) (msgID len : UInt32) :
    Option SendDescriptors :=
  if some cimpl ≠ (s.desc this).cimpl then some s -- SendMessageDescriptor ClientImpl mismatch
  else
    let (taken, s) := s.release this
    s.sendSeg msgID taken len

/-- `this = GetSendMessageDescriptor(len, contiguous, poll)` for a new descriptor. When
it polls, there is no descriptor until it is called again: what the poll handles are
calls of their own. -/
def getSendMessageDescriptor (s : SendDescriptors) (cimpl this : Nat) (len : UInt32)
    (contiguous poll : Bool) : Option SendDescriptors :=
  ((s.clients cimpl).getSendMsgDesc len contiguous poll).map fun (turn, c) =>
    let s := s.setClient cimpl c
    match turn with
    | .returns seg =>
      { s with
        descs := (this, ⟨seg, some cimpl⟩) :: s.descs
        got := s.got ++ seg.toList.map fun seg => (cimpl, seg) }
    | .throws => { s with closed := cimpl :: s.closed, descs := (this, {}) :: s.descs }
    | _ => s

/-- `~SendMessageDescriptor` -/
def destroy (s : SendDescriptors) (this : Nat) : Option SendDescriptors :=
  (s.reset this {}).map fun s => { s with descs := s.descs.filter (·.1 ≠ this) }

/-- What a program does with its descriptors, and what its clients do meanwhile. -/
inductive Call where
  | addFreeSlabs (cimpl : Nat) (slabs : List (UInt32 × Nat))
  | maxWorkingSlabs (cimpl maxSlabs : Nat)
  | flushWorkingSlabs (cimpl : Nat)
  | sendRetiredSlabs (cimpl : Nat)
  | construct (this : Nat)
  | getSendMessageDescriptor (cimpl this : Nat) (len : UInt32) (contiguous poll : Bool)
  | copy (this desc : Nat)
  | assign (this desc : Nat)
  | copyRef (this desc : Nat)
  | assignRef (this desc : Nat)
  | release (this : Nat)
  | reset (this : Nat)
  | resetRaw (this : Nat) (raw : SendMessageDescriptor)
  | sendMessage (this : Nat) (msgID len : UInt32)
  | baseSendMessage (cimpl this : Nat) (msgID len : UInt32)
  | destroy (this : Nat)
  | close (cimpl : Nat)

/-- `none` is a call without a defined result. -/
def call (s : SendDescriptors) : Call → Option SendDescriptors
  | .addFreeSlabs cimpl slabs => ((s.clients cimpl).mgr.addFreeSlabs slabs).map fun mgr =>
      s.setClient cimpl { s.clients cimpl with mgr }
  | .maxWorkingSlabs cimpl maxSlabs =>
    let c := s.clients cimpl
    some (s.setClient cimpl { c with mgr := c.mgr.setMaxWorkingSlabs maxSlabs })
  | .flushWorkingSlabs cimpl =>
    let c := s.clients cimpl
    some (s.setClient cimpl { c with mgr := c.mgr.flushWorkingSlabs })
  | .sendRetiredSlabs cimpl => some (s.setClient cimpl (s.clients cimpl).sendRetiredSlabs.2)
  | .construct this => some { s with descs := (this, {}) :: s.descs }
  | .getSendMessageDescriptor cimpl this len contiguous poll =>
    s.getSendMessageDescriptor cimpl this len contiguous poll
  | .copy this desc => some (s.copy this desc)
  | .assign this desc => s.assign this desc
  | .copyRef this desc => some (s.copyRef this desc)
  | .assignRef this desc => s.assignRef this desc
  | .release this =>
    let (raw, s) := s.release this
    some { s with raws := raw :: s.raws }
  | .reset this => s.reset this {}
  | .resetRaw this raw => { s with raws := s.raws.erase raw }.reset this raw
  | .sendMessage this msgID len => s.sendMessage this msgID len
  | .baseSendMessage cimpl this msgID len => s.baseSendMessage cimpl this msgID len
  | .destroy this => s.destroy this
  | .close cimpl => some { s with closed := cimpl :: s.closed }

def addresses (s : SendDescriptors) : List Nat := s.descs.map (·.1)

/-- A descriptor is constructed where there is none and used until it is
destroyed. A segment taken out is put back once, with its client. -/
def Legal (s : SendDescriptors) : Call → Prop
  | .addFreeSlabs cimpl slabs => (slabs.map fun slab => slab.1.toNat).Nodup ∧
      ∀ slab ∈ slabs, slab.1.toNat ∉ (s.clients cimpl).mgr.held
  | .maxWorkingSlabs _ _ => True
  | .flushWorkingSlabs _ => True
  | .sendRetiredSlabs _ => True
  | .construct this => this ∉ s.addresses
  | .getSendMessageDescriptor _ this _ _ _ => this ∉ s.addresses
  | .copy this desc => this ∉ s.addresses ∧ desc ∈ s.addresses
  | .assign this desc => this ∈ s.addresses ∧ desc ∈ s.addresses
  | .copyRef this desc => this ∉ s.addresses ∧ desc ∈ s.addresses
  | .assignRef this desc => this ∈ s.addresses ∧ desc ∈ s.addresses
  | .release this => this ∈ s.addresses
  | .reset this => this ∈ s.addresses
  | .resetRaw this raw => this ∈ s.addresses ∧ raw ∈ s.raws
  | .sendMessage this _ _ => this ∈ s.addresses
  | .baseSendMessage _ this _ _ => this ∈ s.addresses
  | .destroy this => this ∈ s.addresses
  | .close _ => True

/-- The block IDs of slabs added have 32 bits. -/
def Fits (s : SendDescriptors) : Call → Prop
  | .addFreeSlabs cimpl slabs => SendCall.Fits (s.clients cimpl).params (.addFreeSlabs slabs)
  | _ => True

/-- `Connect` has waited for `MaxSendMessageSize`, and no slabs have come yet. -/
structure Connects (c : SendClient) : Prop where
  mgr : c.mgr = {}
  sendFailed : c.sendFailed = false
  size : c.maxSendMessageSize ≠ 0

/-- The programs with clients that have just connected, until one is closed. -/
inductive Run (fit : Prop) : SendDescriptors → Prop where
  | start (clients : Nat → SendClient) (connects : ∀ cimpl, Connects (clients cimpl)) :
      Run fit { clients }
  | step {s s' : SendDescriptors} (run : Run fit s) (opened : s.closed = []) (call : Call)
      (legal : s.Legal call) (fits : fit → s.Fits call) (next : s.call call = some s') : Run fit s'

/-- The chains that descriptors refer to, and the segments taken out of them. -/
def owned (s : SendDescriptors) : List (Nat × Nat) :=
  (s.descs.map (·.2)).filterMap SendMessageDescriptor.chain ++
    s.raws.filterMap SendMessageDescriptor.chain

/-- The first segments of the chains of a client. -/
def segsOf (cimpl : Nat) (chains : List (Nat × Nat)) : List Nat :=
  (chains.filter (·.1 = cimpl)).map (·.2)

/-- Each chain has one owner and is not released more often than it was got. If its
client is connected it is released each time but for the owner it has now, and the
segments that the client has given out are those of the chains that have owners. -/
structure OwnedOnce (s : SendDescriptors) : Prop where
  single : s.owned.Nodup
  bounded : ∀ chain, s.released.count chain + s.owned.count chain ≤ s.got.count chain
  once : ∀ chain : Nat × Nat, (s.clients chain.1).sendFailed = false →
    s.released.count chain + s.owned.count chain = s.got.count chain
  busy : ∀ cimpl, (s.clients cimpl).sendFailed = false →
    ∃ live, live.Perm (segsOf cimpl s.owned) ∧ ClientSendManager.Owns (s.clients cimpl).mgr live []

/-! ## Chains and their owners -/

variable {fit : Prop} {s s' : SendDescriptors} {chains chains' : List (Nat × Nat)}
  {cimpl seg this : Nat} {c : SendClient} {d : SendMessageDescriptor}

theorem segsOf_self : segsOf cimpl ((cimpl, seg) :: chains) = seg :: segsOf cimpl chains := by
  simp [segsOf]

theorem segsOf_other {other : Nat} (ne : cimpl ≠ other) :
    segsOf other ((cimpl, seg) :: chains) = segsOf other chains := by
  simp [segsOf, ne]

theorem segsOf_perm (cimpl : Nat) (same : chains.Perm chains') :
    (segsOf cimpl chains).Perm (segsOf cimpl chains') :=
  (same.filter _).map _

/-- `chains` are the chains owned, some of them by temporaries. A client that is not
connected may have lost some. -/
structure Keeps (fit : Prop) (s : SendDescriptors) (chains : List (Nat × Nat)) : Prop where
  sized : ∀ cimpl, (s.clients cimpl).params.Sized
  sound : ∀ cimpl, ∃ live lost,
    ClientSendManager.Sound fit (s.clients cimpl).params (s.clients cimpl).mgr live [] ∧
      live.Perm (segsOf cimpl chains ++ lost) ∧ ((s.clients cimpl).sendFailed = false → lost = [])
  bounded : ∀ chain, s.released.count chain + chains.count chain ≤ s.got.count chain
  once : ∀ chain : Nat × Nat, (s.clients chain.1).sendFailed = false →
    s.released.count chain + chains.count chain = s.got.count chain

theorem Keeps.perm (h : Keeps fit s chains) (same : chains.Perm chains') :
    Keeps fit s chains' := by
  constructor
  case sized => exact h.sized
  case sound =>
    intro cimpl
    obtain ⟨live, lost, sound, perm, none⟩ := h.sound cimpl
    exact ⟨live, lost, sound, perm.trans ((segsOf_perm cimpl same).append_right lost), none⟩
  case bounded =>
    intro chain
    rw [same.symm.count_eq]
    exact h.bounded chain
  case once =>
    intro chain up
    rw [same.symm.count_eq]
    exact h.once chain up

/-- Where descriptors are does not matter. -/
theorem Keeps.moved (h : Keeps fit s chains) (clients : s'.clients = s.clients)
    (got : s'.got = s.got) (released : s'.released = s.released) : Keeps fit s' chains := by
  constructor
  case sized =>
    rw [clients]
    exact h.sized
  case sound =>
    rw [clients]
    exact h.sound
  case bounded =>
    rw [got, released]
    exact h.bounded
  case once =>
    rw [clients, got, released]
    exact h.once

theorem Keeps.setClient (h : Keeps fit s chains) (sends : SendClient.Sends fit (s.clients cimpl) c) :
    Keeps fit (s.setClient cimpl c) chains := by
  have client (cimpl' : Nat) : (s.setClient cimpl c).clients cimpl' =
      if cimpl' = cimpl then c else s.clients cimpl' := Function.update_apply ..
  constructor
  case sized =>
    intro cimpl'
    rw [client]
    split
    · rw [sends.params]
      exact h.sized cimpl
    · exact h.sized cimpl'
  case sound =>
    intro cimpl'
    obtain ⟨live, lost, sound, perm, none⟩ := h.sound cimpl'
    rw [client]
    by_cases here : cimpl' = cimpl
    · subst here
      rw [if_pos rfl, sends.params]
      exact ⟨live, lost, sends.sound live sound, perm, fun up => none (sends.failed up)⟩
    · rw [if_neg here]
      exact ⟨live, lost, sound, perm, none⟩
  case bounded => exact h.bounded
  case once =>
    intro chain up
    apply h.once
    rw [client] at up
    by_cases here : chain.1 = cimpl
    · rw [if_pos here] at up
      rw [here]
      exact sends.failed up
    · rw [if_neg here] at up
      exact up

/-- A chain is released by its owner. -/
theorem Keeps.release (h : Keeps fit s ((cimpl, seg) :: chains))
    (drops : SendClient.Drops fit (s.clients cimpl) seg c) :
    Keeps fit { s.setClient cimpl c with released := s.released ++ [(cimpl, seg)] } chains := by
  have client (cimpl' : Nat) : (s.setClient cimpl c).clients cimpl' =
      if cimpl' = cimpl then c else s.clients cimpl' := Function.update_apply ..
  have count (chain : Nat × Nat) : (s.released ++ [(cimpl, seg)]).count chain +
      chains.count chain = s.released.count chain + ((cimpl, seg) :: chains).count chain := by
    simp only [List.count_append, List.count_cons, List.count_nil]
    omega
  constructor
  case sized =>
    intro cimpl'
    rw [client]
    split
    · rw [drops.params]
      exact h.sized cimpl
    · exact h.sized cimpl'
  case sound =>
    intro cimpl'
    obtain ⟨live, lost, sound, perm, none⟩ := h.sound cimpl'
    rw [client]
    by_cases here : cimpl' = cimpl
    · subst here
      rw [segsOf_self, List.cons_append] at perm
      have mem : seg ∈ live := perm.mem_iff.mpr List.mem_cons_self
      rw [if_pos rfl, drops.params]
      refine ⟨live.erase seg, lost, drops.sound live mem sound, ?_, fun up => none (drops.failed up)⟩
      exact (List.perm_cons_erase mem).symm.trans perm |>.cons_inv
    · rw [if_neg here]
      rw [segsOf_other (Ne.symm here)] at perm
      exact ⟨live, lost, sound, perm, none⟩
  case bounded =>
    intro chain
    rw [count]
    exact h.bounded chain
  case once =>
    intro chain up
    rw [count]
    apply h.once
    rw [client] at up
    by_cases here : chain.1 = cimpl
    · rw [if_pos here] at up
      rw [here]
      exact drops.failed up
    · rw [if_neg here] at up
      exact up

/-- A chain is lost with the connection. -/
theorem Keeps.lose (h : Keeps fit s ((cimpl, seg) :: chains))
    (failed : (s.clients cimpl).sendFailed = true) : Keeps fit s chains := by
  constructor
  case sized => exact h.sized
  case sound =>
    intro cimpl'
    obtain ⟨live, lost, sound, perm, none⟩ := h.sound cimpl'
    by_cases here : cimpl' = cimpl
    · subst here
      rw [segsOf_self, List.cons_append] at perm
      refine ⟨live, seg :: lost, sound, perm.trans List.perm_middle.symm, fun up => ?_⟩
      rw [failed] at up
      cases up
    · rw [segsOf_other (Ne.symm here)] at perm
      exact ⟨live, lost, sound, perm, none⟩
  case bounded =>
    intro chain
    have bounded := h.bounded chain
    rw [List.count_cons] at bounded
    omega
  case once =>
    intro chain up
    have other : (cimpl, seg) ≠ chain := by
      rintro rfl
      rw [failed] at up
      cases up
    have once := h.once chain up
    rw [List.count_cons_of_ne other] at once
    exact once

theorem Keeps.got (h : Keeps fit s chains) (params : c.params = (s.clients cimpl).params)
    (sound : ∀ live, ClientSendManager.Sound fit c.params (s.clients cimpl).mgr live [] →
      ClientSendManager.Sound fit c.params c.mgr (live ++ [seg]) [])
    (failed : c.sendFailed = false → (s.clients cimpl).sendFailed = false) :
    Keeps fit { s.setClient cimpl c with got := s.got ++ [(cimpl, seg)] }
      ((cimpl, seg) :: chains) := by
  have client (cimpl' : Nat) : (s.setClient cimpl c).clients cimpl' =
      if cimpl' = cimpl then c else s.clients cimpl' := Function.update_apply ..
  have count (chain : Nat × Nat) : (s.got ++ [(cimpl, seg)]).count chain + chains.count chain =
      s.got.count chain + ((cimpl, seg) :: chains).count chain := by
    simp only [List.count_append, List.count_cons, List.count_nil]
    omega
  constructor
  case sized =>
    intro cimpl'
    rw [client]
    split
    · rw [params]
      exact h.sized cimpl
    · exact h.sized cimpl'
  case sound =>
    intro cimpl'
    obtain ⟨live, lost, before, perm, none⟩ := h.sound cimpl'
    rw [client]
    by_cases here : cimpl' = cimpl
    · subst here
      rw [← params] at before
      rw [if_pos rfl, segsOf_self]
      exact ⟨live ++ [seg], lost, sound live before,
        (List.perm_append_singleton seg live).trans (perm.cons seg), fun up => none (failed up)⟩
    · rw [if_neg here, segsOf_other (Ne.symm here)]
      exact ⟨live, lost, before, perm, none⟩
  case bounded =>
    intro chain
    have count := count chain
    have bounded := h.bounded chain
    dsimp only [SendDescriptors.setClient] at count ⊢
    omega
  case once =>
    intro chain up
    have before : (s.clients chain.1).sendFailed = false := by
      rw [client] at up
      by_cases here : chain.1 = cimpl
      · rw [if_pos here] at up
        rw [here]
        exact failed up
      · rw [if_neg here] at up
        exact up
    have count := count chain
    have once := h.once chain before
    dsimp only [SendDescriptors.setClient] at count ⊢
    omega

/-! ## Descriptors -/

/-- The chains of the other descriptors and of the segments taken out. -/
def others (s : SendDescriptors) (this : Nat) : List (Nat × Nat) :=
  ((s.descs.filter (·.1 ≠ this)).map (·.2)).filterMap SendMessageDescriptor.chain ++
    s.raws.filterMap SendMessageDescriptor.chain

theorem chains_cons (d : SendMessageDescriptor) (l : List SendMessageDescriptor) :
    (d :: l).filterMap SendMessageDescriptor.chain =
      d.chain.toList ++ l.filterMap SendMessageDescriptor.chain := by
  rw [List.filterMap_cons]
  cases d.chain <;> rfl

theorem lookup_desc (known : this ∈ s.addresses) : s.descs.lookup this = some (s.desc this) :=
  Assoc.lookup_of_key known {}

theorem owned_perm (distinct : s.addresses.Nodup) (known : this ∈ s.addresses) :
    s.owned.Perm ((s.desc this).chain.toList ++ s.others this) := by
  have split := List.Perm.map Prod.snd (Assoc.perm_filter_ne distinct (lookup_desc known))
  have chains := split.filterMap SendMessageDescriptor.chain
  rw [List.map_cons, chains_cons] at chains
  unfold owned others
  rw [← List.append_assoc]
  exact chains.append_right _

theorem owned_setDesc : (s.setDesc this d).owned = d.chain.toList ++ s.others this := by
  simp only [owned, setDesc, List.map_cons, chains_cons, others, List.append_assoc]

theorem others_setDesc : (s.setDesc this d).others this = s.others this := by
  have still : (s.setDesc this d).descs.filter (·.1 ≠ this) = s.descs.filter (·.1 ≠ this) := by
    unfold setDesc
    rw [List.filter_cons_of_neg (by simp), List.filter_filter]
    simp only [Bool.and_self]
  simp only [others, still]
  rfl

theorem addresses_setDesc (distinct : s.addresses.Nodup) :
    (s.setDesc this d).addresses.Nodup := Assoc.nodup_keys_put d distinct

theorem mem_setDesc {other : Nat} (known : other ∈ s.addresses) :
    other ∈ (s.setDesc this d).addresses := by
  obtain ⟨entry, mem, rfl⟩ := List.mem_map.mp known
  by_cases here : entry.1 = this
  · rw [here]
    exact List.mem_cons_self
  · exact List.mem_cons_of_mem _ (List.mem_map.mpr ⟨entry, by simp [mem, here], rfl⟩)

/-- What holds between any two calls. -/
structure Sound (fit : Prop) (s : SendDescriptors) : Prop where
  distinct : s.addresses.Nodup
  keeps : Keeps fit s s.owned

/-- The same within a call that has taken the chain of `d` out of its descriptor. -/
structure Taken (fit : Prop) (s : SendDescriptors) (d : SendMessageDescriptor) : Prop where
  distinct : s.addresses.Nodup
  keeps : Keeps fit s (d.chain.toList ++ s.owned)

theorem Sound.taken (h : Sound fit s) (null : d.chain = none) : Taken fit s d := by
  refine ⟨h.distinct, ?_⟩
  rw [null]
  exact h.keeps

theorem Taken.sound (h : Taken fit s d) (null : d.chain = none) : Sound fit s := by
  have keeps := h.keeps
  rw [null] at keeps
  exact ⟨h.distinct, keeps⟩

theorem chain_null (cimpl : Option Nat) : SendMessageDescriptor.chain ⟨none, cimpl⟩ = none := by
  cases cimpl <;> rfl

theorem Sound.release (h : Sound fit s) (known : this ∈ s.addresses) :
    Taken fit (s.release this).2 (s.release this).1 := by
  constructor
  case distinct => exact addresses_setDesc h.distinct
  case keeps =>
    simp only [SendDescriptors.release, owned_setDesc, chain_null, Option.toList_none,
      List.nil_append]
    exact (h.keeps.perm (owned_perm h.distinct known)).moved rfl rfl rfl

/-- The chain is put into a descriptor that has none. -/
theorem Taken.setDesc (h : Taken fit s d) (empty : s.owned.Perm (s.others this)) :
    Sound fit (s.setDesc this d) := by
  refine ⟨addresses_setDesc h.distinct, ?_⟩
  rw [owned_setDesc]
  exact (h.keeps.perm (empty.append_left _)).moved rfl rfl rfl

theorem others_new (new : this ∉ s.addresses) : s.owned = s.others this := by
  have all : s.descs.filter (·.1 ≠ this) = s.descs := by
    apply List.filter_eq_self.mpr
    intro entry mem
    simp only [ne_eq, decide_eq_true_eq]
    exact fun same => new (List.mem_map.mpr ⟨entry, mem, same⟩)
  simp only [owned, others, all]

/-- The segment found is released, or lost with the connection. -/
theorem Keeps.releaseSeg (h : Keeps fit s (d.chain.toList ++ chains))
    (ret : s.releaseSeg d = some s') :
    Keeps fit s' chains ∧ s'.descs = s.descs ∧ s'.raws = s.raws := by
  obtain ⟨seg, cimpl⟩ := d
  cases seg with
  | none =>
    cases ret
    exact ⟨h, rfl, rfl⟩
  | some seg =>
    cases cimpl with
    | none =>
      cases ret
      exact ⟨h, rfl, rfl⟩
    | some cimpl =>
      simp only [SendDescriptors.releaseSeg] at ret
      cases failed : (s.clients cimpl).sendFailed with
      | true =>
        rw [failed, if_pos rfl] at ret
        cases ret
        exact ⟨h.lose failed, rfl, rfl⟩
      | false =>
        rw [failed, if_neg Bool.false_ne_true] at ret
        obtain ⟨c, released, rfl⟩ := Option.map_eq_some_iff.mp ret
        exact ⟨h.release (SendClient.drops_releaseSendMsgDesc released), rfl, rfl⟩

theorem Keeps.mem_live (h : Keeps fit s ((cimpl, seg) :: chains)) :
    ∃ live, seg ∈ live ∧
      ClientSendManager.Sound fit (s.clients cimpl).params (s.clients cimpl).mgr live [] := by
  obtain ⟨live, lost, sound, perm, -⟩ := h.sound cimpl
  rw [segsOf_self] at perm
  exact ⟨live, perm.mem_iff.mpr List.mem_cons_self, sound⟩

theorem Keeps.releaseSeg_isSome (h : Keeps fit s (d.chain.toList ++ chains)) (fits : fit) :
    (s.releaseSeg d).isSome := by
  obtain ⟨seg, cimpl⟩ := d
  cases seg with
  | none => rfl
  | some seg =>
    cases cimpl with
    | none => rfl
    | some cimpl =>
      obtain ⟨live, mem, sound⟩ := h.mem_live
      simp only [SendDescriptors.releaseSeg]
      cases (s.clients cimpl).sendFailed with
      | true => rfl
      | false =>
        rw [if_neg Bool.false_ne_true, Option.isSome_map, SendClient.releaseSendMsgDesc,
          Option.isSome_map]
        exact SendClient.release_isSome fits mem sound

/-- The releaser goes with the chain, whatever comes of the send. -/
theorem Keeps.sendSeg {msgID len : UInt32} (h : Keeps fit s (d.chain.toList ++ chains))
    (ret : s.sendSeg msgID d len = some s') :
    Keeps fit s' chains ∧ s'.descs = s.descs ∧ s'.raws = s.raws := by
  obtain ⟨seg, cimpl⟩ := d
  cases seg with
  | none =>
    cases ret
    exact ⟨h, rfl, rfl⟩
  | some seg =>
    cases cimpl with
    | none =>
      cases ret
      exact ⟨h, rfl, rfl⟩
    | some cimpl =>
      obtain ⟨c, sent, rfl⟩ := Option.map_eq_some_iff.mp ret
      exact ⟨h.release (SendClient.drops_sendMessage sent), rfl, rfl⟩

theorem Keeps.sendSeg_isSome (h : Keeps fit s (d.chain.toList ++ chains)) (fits : fit)
    (msgID len : UInt32) : (s.sendSeg msgID d len).isSome := by
  obtain ⟨seg, cimpl⟩ := d
  cases seg with
  | none => rfl
  | some seg =>
    cases cimpl with
    | none => rfl
    | some cimpl =>
      obtain ⟨live, mem, sound⟩ := h.mem_live
      simp only [SendDescriptors.sendSeg, Option.isSome_map]
      exact SendClient.sendMessage_isSome msgID len fits mem sound

theorem owned_congr (descs : s'.descs = s.descs) (raws : s'.raws = s.raws) :
    s'.owned = s.owned := by
  simp only [owned, descs, raws]

theorem addresses_congr (descs : s'.descs = s.descs) : s'.addresses = s.addresses := by
  simp only [addresses, descs]

/-- A call keeps what holds, and has a result if the block IDs fit. -/
def Ends (fit : Prop) (ret : Option SendDescriptors) : Prop :=
  (∀ s', ret = some s' → Sound fit s') ∧ (fit → ret.isSome)

theorem Sound.ends (h : Sound fit s) : Ends fit (some s) := by
  constructor
  · intro s' eq
    cases eq
    exact h
  · exact fun _ => rfl

/-- `Reset` with a chain in hand. -/
theorem Taken.reset (h : Taken fit s d) (known : this ∈ s.addresses) :
    Ends fit (s.reset this d) := by
  have swapped : (d.chain.toList ++ s.owned).Perm
      ((s.desc this).chain.toList ++ (d.chain.toList ++ s.others this)) := by
    refine ((owned_perm h.distinct known).append_left _).trans ?_
    rw [← List.append_assoc, ← List.append_assoc]
    exact List.perm_append_comm.append_right _
  have keeps := h.keeps.perm swapped
  constructor
  · intro s' ret
    obtain ⟨s₁, released, rfl⟩ := Option.map_eq_some_iff.mp ret
    obtain ⟨keeps, descs, raws⟩ := keeps.releaseSeg released
    refine ⟨addresses_setDesc (addresses_congr descs ▸ h.distinct), ?_⟩
    have same : s₁.others this = s.others this := by simp only [others, descs, raws]
    rw [owned_setDesc, same]
    exact keeps.moved rfl rfl rfl
  · intro fits
    rw [SendDescriptors.reset, Option.isSome_map]
    exact keeps.releaseSeg_isSome fits

theorem Taken.sendSeg (h : Taken fit s d) (msgID len : UInt32) :
    Ends fit (s.sendSeg msgID d len) := by
  constructor
  · intro s' ret
    obtain ⟨keeps, descs, raws⟩ := h.keeps.sendSeg ret
    exact ⟨addresses_congr descs ▸ h.distinct, owned_congr descs raws ▸ keeps⟩
  · exact fun fits => h.keeps.sendSeg_isSome fits msgID len

/-! ## Calls -/

theorem mem_release {other : Nat} (known : other ∈ s.addresses) :
    other ∈ (s.release this).2.addresses := mem_setDesc known

/-- The descriptor assigned to may be the one the chain was taken from. -/
theorem Sound.assign {desc : Nat} (h : Sound fit s) (this_mem : this ∈ s.addresses)
    (desc_mem : desc ∈ s.addresses) : Ends fit (s.assign this desc) :=
  (h.release desc_mem).reset (mem_release this_mem)

theorem Sound.copy {desc : Nat} (h : Sound fit s) (new : this ∉ s.addresses)
    (desc_mem : desc ∈ s.addresses) : Sound fit (s.copy this desc) := by
  apply (h.release desc_mem).setDesc
  have still : this ∉ (s.release desc).2.addresses := by
    intro mem
    rcases List.mem_cons.mp mem with here | before
    · exact new (here ▸ desc_mem)
    · obtain ⟨entry, kept, same⟩ := List.mem_map.mp before
      exact new (List.mem_map.mpr ⟨entry, (List.mem_filter.mp kept).1, same⟩)
  exact .of_eq (others_new still)

theorem Sound.takeRaw {raw : SendMessageDescriptor} (h : Sound fit s) (mem : raw ∈ s.raws) :
    Taken fit { s with raws := s.raws.erase raw } raw := by
  refine ⟨h.distinct, (h.keeps.perm ?_).moved rfl rfl rfl⟩
  have split := (List.perm_cons_erase mem).filterMap SendMessageDescriptor.chain
  rw [chains_cons] at split
  simp only [owned]
  refine (split.append_left _).trans ?_
  rw [← List.append_assoc, ← List.append_assoc]
  exact List.perm_append_comm.append_right _

theorem Taken.putRaw (h : Taken fit s d) : Sound fit { s with raws := d :: s.raws } := by
  refine ⟨h.distinct, (h.keeps.perm ?_).moved rfl rfl rfl⟩
  simp only [owned, chains_cons]
  rw [← List.append_assoc, ← List.append_assoc]
  exact List.perm_append_comm.append_right _

theorem Sound.destroy (h : Sound fit s) (known : this ∈ s.addresses) :
    Ends fit (s.destroy this) := by
  obtain ⟨sound, defined⟩ := (h.taken rfl : Taken fit s {}).reset known
  constructor
  · intro s' ret
    obtain ⟨s₁, reset, rfl⟩ := Option.map_eq_some_iff.mp ret
    have sound := sound s₁ reset
    obtain ⟨s₂, -, rfl⟩ := Option.map_eq_some_iff.mp reset
    refine ⟨Assoc.nodup_keys_filter _ sound.distinct, ?_⟩
    have keeps := sound.keeps
    have gone : SendMessageDescriptor.chain {} = none := rfl
    rw [owned_setDesc, gone, Option.toList_none, List.nil_append, ← others_setDesc (d := {})] at keeps
    exact keeps.moved rfl rfl rfl
  · intro fits
    rw [SendDescriptors.destroy, Option.isSome_map]
    exact defined fits

theorem Sound.construct (h : Sound fit s) (new : this ∉ s.addresses)
    (null : d.chain = none) : Sound fit { s with descs := (this, d) :: s.descs } := by
  refine ⟨List.nodup_cons.mpr ⟨new, h.distinct⟩, ?_⟩
  simp only [owned, List.map_cons, chains_cons, null, Option.toList_none, List.nil_append]
  exact h.keeps.moved rfl rfl rfl

theorem Sound.setClient (h : Sound fit s) (sends : SendClient.Sends fit (s.clients cimpl) c) :
    Sound fit (s.setClient cimpl c) := ⟨h.distinct, h.keeps.setClient sends⟩

theorem Sound.getSendMessageDescriptor {len : UInt32} {contiguous poll : Bool}
    (h : Sound fit s) (new : this ∉ s.addresses) :
    Ends fit (s.getSendMessageDescriptor cimpl this len contiguous poll) := by
  constructor
  · intro s' ret
    obtain ⟨⟨turn, c⟩, got, rfl⟩ := Option.map_eq_some_iff.mp ret
    have turns : SendClient.Turns fit (s.clients cimpl) turn c := SendClient.turns_getSendMsgDesc got
    have sends (null : turn.seg = none) : Sound fit (s.setClient cimpl c) := by
      refine h.setClient ⟨turns.params, fun live sound => ?_, turns.failed⟩
      simpa only [null, Option.toList_none, List.append_nil] using turns.sound live sound
    cases turn with
    | again => exact sends rfl
    | polls => exact sends rfl
    | throws =>
      have closed := (sends rfl).construct new (d := {}) rfl
      exact ⟨closed.distinct, closed.keeps.moved rfl rfl rfl⟩
    | returns seg =>
      cases seg with
      | none =>
        have null := (sends rfl).construct new (d := ⟨none, some cimpl⟩) rfl
        exact ⟨null.distinct, null.keeps.moved rfl (List.append_nil _) rfl⟩
      | some seg =>
        have keeps : Keeps fit { s.setClient cimpl c with got := s.got ++ [(cimpl, seg)] }
            ((cimpl, seg) :: s.owned) :=
          h.keeps.got turns.params (turns.params ▸ turns.sound) turns.failed
        exact ⟨List.nodup_cons.mpr ⟨new, h.distinct⟩, keeps.moved rfl rfl rfl⟩
  · intro fits
    obtain ⟨live, -, sound, -⟩ := h.keeps.sound cimpl
    rw [SendDescriptors.getSendMessageDescriptor, Option.isSome_map]
    exact SendClient.getSendMsgDesc_isSome sound (h.keeps.sized cimpl)

/-- One call keeps it. -/
theorem Sound.call {call : Call} (h : Sound fit s) (legal : s.Legal call)
    (fits : fit → s.Fits call) : Ends fit (s.call call) := by
  cases call with
  | addFreeSlabs cimpl slabs =>
    constructor
    · intro s' ret
      obtain ⟨mgr, added, rfl⟩ := Option.map_eq_some_iff.mp ret
      refine h.setClient ⟨rfl, fun live sound => ?_, fun up => up⟩
      exact (sound.addFreeSlabs legal.1 legal.2
        (fun fitting slab mem => (fits fitting slab mem).1) added).1
    · intro fitting
      rw [SendDescriptors.call, Option.isSome_map]
      exact ClientSendManager.addFreeSlabs_isSome _ fun slab mem => (fits fitting slab mem).2
  | maxWorkingSlabs cimpl maxSlabs =>
    apply Sound.ends
    exact h.setClient ⟨rfl, fun _ sound => sound.setMaxWorkingSlabs maxSlabs, fun up => up⟩
  | flushWorkingSlabs cimpl =>
    apply Sound.ends
    exact h.setClient ⟨rfl, fun _ sound => sound.flushWorkingSlabs, fun up => up⟩
  | sendRetiredSlabs cimpl => exact (h.setClient (SendClient.sends_sendRetiredSlabs _)).ends
  | construct this => exact (h.construct legal rfl).ends
  | getSendMessageDescriptor cimpl this len contiguous poll =>
    exact h.getSendMessageDescriptor legal
  | copy this desc => exact (h.copy legal.1 legal.2).ends
  | assign this desc => exact h.assign legal.1 legal.2
  | copyRef this desc => exact (h.copy legal.1 legal.2).ends
  | assignRef this desc => exact h.assign legal.1 legal.2
  | release this => exact (h.release legal).putRaw.ends
  | reset this => exact (h.taken rfl).reset legal
  | resetRaw this raw => exact (h.takeRaw legal.2).reset legal.1
  | sendMessage this msgID len =>
    simp only [SendDescriptors.call, SendDescriptors.sendMessage]
    by_cases issued : (s.desc this).cimpl ≠ none
    · rw [if_pos issued]
      exact (h.release legal).sendSeg msgID len
    · rw [if_neg issued]
      exact h.ends
  | baseSendMessage cimpl this msgID len =>
    simp only [SendDescriptors.call, SendDescriptors.baseSendMessage]
    by_cases mismatch : some cimpl ≠ (s.desc this).cimpl
    · rw [if_pos mismatch]
      exact h.ends
    · rw [if_neg mismatch]
      exact (h.release legal).sendSeg msgID len
  | destroy this => exact h.destroy legal
  | close cimpl => exact Sound.ends ⟨h.distinct, h.keeps.moved rfl rfl rfl⟩

theorem Connects.sized (connects : Connects c) : c.params.Sized := by
  refine .inr (Nat.pos_of_ne_zero fun none => connects.size ?_)
  have empty : c.params.slabSize = 0 := by
    apply UInt32.toNat_inj.mp
    rw [c.params.whole, none, Nat.zero_mul, UInt32.toNat_zero]
  rw [SendClient.maxSendMessageSize, empty, UInt32.mul_zero]

theorem sound_start {clients : Nat → SendClient} (connects : ∀ cimpl, Connects (clients cimpl)) :
    Sound fit { clients } := by
  refine ⟨List.nodup_nil, ?_⟩
  constructor
  case sized => exact fun cimpl => (connects cimpl).sized
  case sound =>
    intro cimpl
    refine ⟨[], [], ?_, .nil, fun _ => rfl⟩
    rw [(connects cimpl).mgr]
    exact SendHistory.sound_start _ fit
  case bounded => exact fun _ => Nat.le_refl _
  case once => exact fun _ _ => rfl

theorem Run.sound (run : Run fit s) : Sound fit s := by
  induction run with
  | start clients connects => exact sound_start connects
  | step _ _ call legal fits next ih => exact (ih.call legal fits).1 _ next

/-- Chains of segments that are each in one place begin with different segments. -/
theorem nodup_live {next : Nat → Option Nat} {live : List Nat} {links : List (List Nat)}
    (linked : List.Forall₂ (fun d link => Linked next (some d) link) live links)
    (distinct : links.flatten.Nodup) : live.Nodup ∧ ∀ d ∈ live, d ∈ links.flatten := by
  induction linked with
  | nil => exact ⟨List.nodup_nil, fun _ mem => mem⟩
  | @cons d link live links first rest ih =>
    rw [List.flatten_cons] at distinct ⊢
    obtain ⟨-, later, apart⟩ := List.nodup_append.mp distinct
    obtain ⟨nodup, inside⟩ := ih later
    have head : d ∈ link := by
      cases first
      exact List.mem_cons_self
    constructor
    · exact List.nodup_cons.mpr ⟨fun again => apart d head d (inside d again) rfl, nodup⟩
    · intro x mem
      rcases List.mem_cons.mp mem with rfl | mem
      · exact List.mem_append_left _ head
      · exact List.mem_append_right _ (inside x mem)

theorem count_segsOf (chains : List (Nat × Nat)) (cimpl seg : Nat) :
    (segsOf cimpl chains).count seg = chains.count (cimpl, seg) := by
  induction chains with
  | nil => rfl
  | cons chain chains ih =>
    obtain ⟨cimpl', seg'⟩ := chain
    by_cases here : cimpl' = cimpl
    · subst here
      simp only [segsOf_self, List.count_cons, ih, beq_iff_eq, Prod.mk.injEq, true_and]
    · rw [segsOf_other here, ih, List.count_cons_of_ne]
      exact fun same => here (congrArg Prod.fst same)

theorem Sound.ownedOnce (h : Sound fit s) : OwnedOnce s := by
  constructor
  case single =>
    apply List.nodup_iff_count_le_one.mpr
    intro chain
    obtain ⟨live, lost, sound, perm, -⟩ := h.keeps.sound chain.1
    obtain ⟨links, linked, busy⟩ := sound.owns
    rw [List.append_nil] at busy
    have distinct := (nodup_live linked (busy.nodup_iff.mpr sound.pooled.nodup_busySegs)).1
    have few := List.nodup_iff_count_le_one.mp distinct chain.2
    rw [perm.count_eq, List.count_append, count_segsOf] at few
    exact (Nat.le_add_right _ _).trans few
  case bounded => exact h.keeps.bounded
  case once => exact h.keeps.once
  case busy =>
    intro cimpl up
    obtain ⟨live, lost, sound, perm, none⟩ := h.keeps.sound cimpl
    rw [none up, List.append_nil] at perm
    exact ⟨live, perm, sound.owns⟩

end SendDescriptors
end Mcsb
