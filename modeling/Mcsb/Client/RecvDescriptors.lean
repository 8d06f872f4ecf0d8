import Mathlib.Data.List.Dedup
import Mathlib.Data.List.ReduceOption
import Mcsb.Client.HandedOut
import Mcsb.Lib.Assoc

/-!
# Receive descriptors

`RecvMessageDescriptor`s are copied, assigned and destroyed as a program likes.
They count themselves in the first segment of their message, and the last one
releases it.
-/

namespace Mcsb

/-- Descriptors, each with the record of its first segment if it has one, and the
records. `chain` is the message that begins with a record, `got` are the messages
`GetRecvMessageDescriptor` has returned and `released` those that
`ReleaseRecvMsgDesc` was called for. -/
structure RecvDescriptors where
  client : Receiver
  chain : Nat → MessageDescriptor := fun _ => []
  refcnt : Nat → UInt32 := fun _ => 1
  descs : List (Nat × Option Nat) := []
  got : List MessageDescriptor := []
  released : List MessageDescriptor := []

namespace RecvDescriptors
open ClientRecvManager Receiver

/-- `AddSegments` resets the count of every record it takes. -/
def addSegments (s : RecvDescriptors) (blocks : List RcvdBlock) : RecvDescriptors :=
  let recvMgr := s.client.recvMgr.addSegments blocks
  let added := (recvMgr.pendingSegs.drop s.client.recvMgr.pendingSegs.length).map (·.ref)
  { s with
    client := { s.client with recvMgr }
    refcnt := fun ref => if ref ∈ added then 1 else s.refcnt ref }

def pendingRecvMessage (s : RecvDescriptors) : RecvDescriptors :=
  match s.client.pendingRecvMessage with
  | .ok (_, client) => { s with client }
  | .error _ => s

/-- `desc = GetRecvMessageDescriptor()` for a new descriptor. Without a message its
pointer is null. -/
def getRecvMessageDescriptor (s : RecvDescriptors) (mem : Memory) (desc : Nat) : RecvDescriptors :=
  match s.client.getRecvMsgDesc mem with
  | .ok (none, client) => { s with client, descs := (desc, none) :: s.descs }
  | .ok (some msg, client) =>
    { s with
      client
      chain := Function.update s.chain msg.first msg
      descs := (desc, some msg.first) :: s.descs
      got := s.got ++ [msg] }
  | .error _ => s

def inc (s : RecvDescriptors) : Option Nat → RecvDescriptors
  | none => s
  | some rms => { s with refcnt := Function.update s.refcnt rms (s.refcnt rms + 1) }

/-- An exception of the send in `ReleaseRecvMsgDesc` is caught. -/
def releaseRecvMsgDesc (s : RecvDescriptors) (msg : MessageDescriptor) : RecvDescriptors :=
  let s := { s with released := s.released ++ [msg] }
  match s.client.releaseRecvMsgDesc msg with
  | .ok client => { s with client }
  | .error _ => s

def dec (s : RecvDescriptors) : Option Nat → RecvDescriptors
  | none => s
  | some rms =>
    let s := { s with refcnt := Function.update s.refcnt rms (s.refcnt rms - 1) }
    if s.refcnt rms = 0 then
      if s.client.sendFailed then s else s.releaseRecvMsgDesc (s.chain rms)
    else s

def seg (s : RecvDescriptors) (desc : Nat) : Option Nat := (s.descs.lookup desc).getD none

def setSeg (s : RecvDescriptors) (desc : Nat) (rms : Option Nat) : RecvDescriptors :=
  { s with descs := (desc, rms) :: s.descs.filter (·.1 ≠ desc) }

/-- `RecvMessageDescriptor::RecvMessageDescriptor(desc)` -/
def copy (s : RecvDescriptors) (this desc : Nat) : RecvDescriptors :=
  (s.setSeg this (s.seg desc)).inc (s.seg desc)

/-- `RecvMessageDescriptor::operator=`. `desc` may be `this`. -/
def assign (s : RecvDescriptors) (this desc : Nat) : RecvDescriptors :=
  let rmd := s.seg desc
  let s := s.inc rmd
  let s := s.dec (s.seg this)
  let s := s.setSeg this (s.seg desc)
  let s := s.inc (s.seg this)
  s.dec rmd

/-- `RecvMessageDescriptor::~RecvMessageDescriptor` -/
def destroy (s : RecvDescriptors) (this : Nat) : RecvDescriptors :=
  let s := s.dec (s.seg this)
  { s with descs := s.descs.filter (·.1 ≠ this) }

/-- What a program does with a client and its descriptors, which have addresses. -/
inductive Call where
  | addSegments (blocks : List RcvdBlock)
  | pendingRecvMessage
  | getRecvMessageDescriptor (mem : Memory) (desc : Nat)
  | construct (this : Nat)
  | copy (this desc : Nat)
  | assign (this desc : Nat)
  | destroy (this : Nat)

def call (s : RecvDescriptors) : Call → RecvDescriptors
  | .addSegments blocks => s.addSegments blocks
  | .pendingRecvMessage => s.pendingRecvMessage
  | .getRecvMessageDescriptor mem desc => s.getRecvMessageDescriptor mem desc
  | .construct this => { s with descs := (this, none) :: s.descs }
  | .copy this desc => s.copy this desc
  | .assign this desc => s.assign this desc
  | .destroy this => s.destroy this

def addresses (s : RecvDescriptors) : List Nat := s.descs.map (·.1)

/-- A descriptor is constructed where there is none, and used until it is destroyed. -/
def Legal (s : RecvDescriptors) : Call → Prop
  | .addSegments _ => True
  | .pendingRecvMessage => True
  | .getRecvMessageDescriptor _ desc => desc ∉ s.addresses
  | .construct this => this ∉ s.addresses
  | .copy this desc => this ∉ s.addresses ∧ desc ∈ s.addresses
  | .assign this desc => this ∈ s.addresses ∧ desc ∈ s.addresses
  | .destroy this => this ∈ s.addresses

def pointers (s : RecvDescriptors) : List (Option Nat) := s.descs.map (·.2)

/-- The descriptors that refer to the message. -/
def referring (s : RecvDescriptors) (rms : Nat) : Nat := s.pointers.count (some rms)

/-- The messages that some descriptor refers to. -/
def live (s : RecvDescriptors) : List MessageDescriptor :=
  (s.pointers.reduceOption.dedup).map s.chain

/-- No message has so many descriptors that they cannot be counted. -/
def Few (s : RecvDescriptors) : Prop := ∀ rms, s.referring rms < 4294967296

/-- The programs with a client that has just connected and stays connected, as
long as all states are `ok`. -/
inductive Run (ok : RecvDescriptors → Prop) (numConsSlabs : Nat) : RecvDescriptors → Prop where
  | start (crcPolicy : CrcPolicy) :
      Run ok numConsSlabs { client := { recvMgr := { numConsSlabs }, crcPolicy } }
  | step {s : RecvDescriptors} (run : Run ok numConsSlabs s) (call : Call) (legal : s.Legal call)
      (still : ok (s.call call)) : Run ok numConsSlabs (s.call call)

/-- The counts are those of the descriptors, and every message got was released
once if no descriptor refers to it and otherwise not at all. -/
structure Exact (s : RecvDescriptors) : Prop where
  counted : ∀ rms, some rms ∈ s.pointers → (s.refcnt rms).toNat = s.referring rms
  once : s.got.Perm (s.released ++ s.live)

/-! ## What the counts are -/

/-- The descriptors with the pointers `refs`, which may be temporaries, refer to
the messages `held`. -/
structure Counted (numConsSlabs : Nat) (s : RecvDescriptors) (refs : List (Option Nat))
    (held : List MessageDescriptor) : Prop where
  up : s.client.Up
  holds : Holds numConsSlabs s.client held
  real : s.client.recvMgr.pendingMsg ≠ some []
  nonempty : ∀ msg ∈ held, msg ≠ []
  chains : ∀ msg ∈ held, s.chain msg.first = msg
  known : ∀ rms, some rms ∈ refs → ∃ msg ∈ held, msg.first = rms
  counts : ∀ msg ∈ held, 0 < refs.count (some msg.first) ∧
    s.refcnt msg.first = UInt32.ofNat (refs.count (some msg.first))
  fresh : ∀ seg ∈ s.client.recvMgr.awaiting, s.refcnt seg.ref = 1
  once : s.got.Perm (s.released ++ held)

variable {numConsSlabs : Nat} {s : RecvDescriptors} {refs refs' : List (Option Nat)}
  {held : List MessageDescriptor} {msg : MessageDescriptor} {rms : Option Nat}

theorem Counted.perm (h : Counted numConsSlabs s refs held) (same : refs.Perm refs') :
    Counted numConsSlabs s refs' held := by
  have count (rms : Option Nat) : refs'.count rms = refs.count rms := same.symm.count_eq rms
  constructor
  case up => exact h.up
  case holds => exact h.holds
  case real => exact h.real
  case nonempty => exact h.nonempty
  case chains => exact h.chains
  case known => exact fun rms mem => h.known rms (same.mem_iff.mpr mem)
  case counts =>
    intro msg mem
    rw [count]
    exact h.counts msg mem
  case fresh => exact h.fresh
  case once => exact h.once

theorem Counted.apart (h : Counted numConsSlabs s refs held) (mem : msg ∈ held)
    {seg : RecvMsgSegment} (waits : seg ∈ s.client.recvMgr.awaiting) : seg.ref ≠ msg.first :=
  h.holds.apart mem (h.nonempty msg mem) waits

theorem Counted.nodup_firsts (h : Counted numConsSlabs s refs held) :
    (held.map MessageDescriptor.first).Nodup := h.holds.nodup_firsts h.nonempty

theorem Counted.unique (h : Counted numConsSlabs s refs held) {msg' : MessageDescriptor}
    (mem : msg ∈ held) (mem' : msg' ∈ held) (same : msg.first = msg'.first) : msg = msg' :=
  List.inj_on_of_nodup_map h.nodup_firsts mem mem' same

theorem count_none_cons (refs : List (Option Nat)) (rms : Nat) :
    (none :: refs).count (some rms) = refs.count (some rms) :=
  List.count_cons_of_ne (by simp)

theorem Counted.inc (h : Counted numConsSlabs s refs held) (known : rms ∈ refs) :
    Counted numConsSlabs (s.inc rms) (rms :: refs) held := by
  cases rms with
  | none =>
    constructor
    case up => exact h.up
    case holds => exact h.holds
    case real => exact h.real
    case nonempty => exact h.nonempty
    case chains => exact h.chains
    case known => exact fun rms mem => h.known rms (by simpa using mem)
    case counts =>
      intro msg mem
      rw [count_none_cons]
      exact h.counts msg mem
    case fresh => exact h.fresh
    case once => exact h.once
  | some rms =>
    obtain ⟨msg₀, held₀, rfl⟩ := h.known rms known
    constructor
    case up => exact h.up
    case holds => exact h.holds
    case real => exact h.real
    case nonempty => exact h.nonempty
    case chains => exact h.chains
    case known =>
      intro rms mem
      rcases List.mem_cons.mp mem with here | mem
      · cases here
        exact ⟨msg₀, held₀, rfl⟩
      · exact h.known rms mem
    case counts =>
      intro msg mem
      obtain ⟨pos, count⟩ := h.counts msg mem
      by_cases here : msg.first = msg₀.first
      · simp only [RecvDescriptors.inc, ← here, Function.update_self, count, List.count_cons_self]
        exact ⟨Nat.succ_pos _, (UInt32.ofNat_add _ _).symm⟩
      · rw [List.count_cons_of_ne (by simpa using Ne.symm here)]
        simp only [RecvDescriptors.inc, Function.update_of_ne here]
        exact ⟨pos, count⟩
    case fresh =>
      intro seg waits
      simp only [RecvDescriptors.inc, Function.update_of_ne (h.apart held₀ waits)]
      exact h.fresh seg waits
    case once => exact h.once

/-- The count goes down, but the message is still held. -/
def drop (s : RecvDescriptors) (rms : Nat) : RecvDescriptors :=
  { s with refcnt := Function.update s.refcnt rms (s.refcnt rms - 1) }

theorem ofNat_succ_sub (n : Nat) : UInt32.ofNat (n + 1) - 1 = UInt32.ofNat n := by
  rw [UInt32.ofNat_add]
  exact UInt32.add_sub_cancel ..

theorem ofNat_eq_zero_iff {n : Nat} (few : n < 4294967296) : UInt32.ofNat n = 0 ↔ n = 0 := by
  have value : (UInt32.ofNat n).toNat = n := UInt32.toNat_ofNat_of_lt few
  rw [← UInt32.toNat_inj, value]
  rfl

/-- The last descriptor of a message goes. -/
theorem Counted.release (h : Counted numConsSlabs s (some msg.first :: refs) held)
    (mem : msg ∈ held) (last : refs.count (some msg.first) = 0) :
    Counted numConsSlabs ((s.drop msg.first).releaseRecvMsgDesc msg) refs (held.erase msg) := by
  obtain ⟨client, released, up⟩ := h.up.releaseRecvMsgDesc msg
  have same := sameInput_releaseRecvMsgDesc released
  have ret : (s.drop msg.first).releaseRecvMsgDesc msg =
      { s.drop msg.first with client, released := s.released ++ [msg] } := by
    simp only [RecvDescriptors.releaseRecvMsgDesc, drop, released]
  have other {msg' : MessageDescriptor} (mem' : msg' ∈ held.erase msg) :
      msg' ∈ held ∧ msg'.first ≠ msg.first := by
    have listed := List.mem_of_mem_erase mem'
    refine ⟨listed, fun eq => ?_⟩
    have nodup : held.Nodup := h.nodup_firsts.of_map _
    exact (nodup.mem_erase_iff.mp mem').1 (h.unique listed mem eq)
  rw [ret]
  constructor
  case up => exact up
  case holds => exact h.holds.releaseRecvMsgDesc mem released
  case real => exact same.stash ▸ h.real
  case nonempty => exact fun msg' mem' => h.nonempty msg' (other mem').1
  case chains => exact fun msg' mem' => h.chains msg' (other mem').1
  case known =>
    intro rms referred
    obtain ⟨msg', listed, rfl⟩ := h.known rms (List.mem_cons_of_mem _ referred)
    have different : msg' ≠ msg := by
      rintro rfl
      exact List.count_eq_zero.mp last referred
    exact ⟨msg', (List.mem_erase_of_ne different).mpr listed, rfl⟩
  case counts =>
    intro msg' mem'
    obtain ⟨listed, different⟩ := other mem'
    have counts := h.counts msg' listed
    rw [List.count_cons_of_ne (by simpa using Ne.symm different)] at counts
    simp only [drop, Function.update_of_ne different]
    exact counts
  case fresh =>
    intro seg waits
    have waits : seg ∈ s.client.recvMgr.awaiting := by
      rw [← awaiting_sameInput same]
      exact waits
    simp only [drop, Function.update_of_ne (h.apart mem waits)]
    exact h.fresh seg waits
  case once =>
    simp only [List.append_assoc, List.singleton_append]
    exact h.once.trans ((List.perm_cons_erase mem).append_left _)

theorem Counted.keep (h : Counted numConsSlabs s (some msg.first :: refs) held)
    (mem : msg ∈ held) (more : refs.count (some msg.first) ≠ 0) :
    Counted numConsSlabs (s.drop msg.first) refs held := by
  constructor
  case up => exact h.up
  case holds => exact h.holds
  case real => exact h.real
  case nonempty => exact h.nonempty
  case chains => exact h.chains
  case known => exact fun rms referred => h.known rms (List.mem_cons_of_mem _ referred)
  case counts =>
    intro msg' mem'
    have counts := h.counts msg' mem'
    by_cases here : msg'.first = msg.first
    · rw [here, List.count_cons_self] at counts
      simp only [drop, here, Function.update_self, counts.2, ofNat_succ_sub]
      exact ⟨Nat.pos_of_ne_zero more, trivial⟩
    · rw [List.count_cons_of_ne (by simpa using Ne.symm here)] at counts
      simp only [drop, Function.update_of_ne here]
      exact counts
  case fresh =>
    intro seg waits
    simp only [drop, Function.update_of_ne (h.apart mem waits)]
    exact h.fresh seg waits
  case once => exact h.once

theorem Counted.dec (h : Counted numConsSlabs s (rms :: refs) held)
    (few : ∀ rms, refs.count (some rms) < 4294967296) :
    ∃ held', Counted numConsSlabs (s.dec rms) refs held' := by
  cases rms with
  | none =>
    refine ⟨held, h.up, h.holds, h.real, h.nonempty, h.chains, ?_, ?_, h.fresh, h.once⟩
    · exact fun rms referred => h.known rms (List.mem_cons_of_mem _ referred)
    · intro msg mem
      rw [← count_none_cons]
      exact h.counts msg mem
  | some rms =>
    obtain ⟨msg, mem, rfl⟩ := h.known rms List.mem_cons_self
    have counts := (h.counts msg mem).2
    rw [List.count_cons_self] at counts
    have less : s.refcnt msg.first - 1 = UInt32.ofNat (refs.count (some msg.first)) := by
      rw [counts]
      exact ofNat_succ_sub _
    have value : s.dec (some msg.first) =
        if refs.count (some msg.first) = 0 then (s.drop msg.first).releaseRecvMsgDesc msg
        else s.drop msg.first := by
      simp only [RecvDescriptors.dec, drop, Function.update_self, less,
        ofNat_eq_zero_iff (few msg.first),
        h.up.alive, Bool.false_eq_true, if_false, h.chains msg mem]
    rw [value]
    by_cases last : refs.count (some msg.first) = 0
    · rw [if_pos last]
      exact ⟨_, h.release mem last⟩
    · rw [if_neg last]
      exact ⟨_, h.keep mem last⟩

/-! ## Whole programs -/

/-- What holds between any two calls. -/
structure Sound (numConsSlabs : Nat) (s : RecvDescriptors) : Prop where
  distinct : s.addresses.Nodup
  counted : ∃ held, Counted numConsSlabs s s.pointers held

variable {desc this : Nat}

/-- Descriptors stay where they are, and nothing is got. -/
theorem dec_frame (s : RecvDescriptors) (rms : Option Nat) :
    (s.dec rms).descs = s.descs ∧ (s.dec rms).got = s.got := by
  cases rms with
  | none => exact ⟨rfl, rfl⟩
  | some rms =>
    have release (s : RecvDescriptors) (msg : MessageDescriptor) :
        (s.releaseRecvMsgDesc msg).descs = s.descs ∧ (s.releaseRecvMsgDesc msg).got = s.got := by
      unfold RecvDescriptors.releaseRecvMsgDesc
      dsimp only
      cases s.client.releaseRecvMsgDesc msg <;> exact ⟨rfl, rfl⟩
    simp only [RecvDescriptors.dec]
    by_cases last : Function.update s.refcnt rms (s.refcnt rms - 1) rms = 0
    · rw [if_pos last]
      cases s.client.sendFailed with
      | true => exact ⟨rfl, rfl⟩
      | false => exact release ..
    · rw [if_neg last]
      exact ⟨rfl, rfl⟩

theorem dec_descs (s : RecvDescriptors) (rms : Option Nat) : (s.dec rms).descs = s.descs :=
  (dec_frame s rms).1

theorem got_destroy (s : RecvDescriptors) (this : Nat) : (s.destroy this).got = s.got :=
  (dec_frame s (s.seg this)).2

theorem inc_descs (s : RecvDescriptors) (rms : Option Nat) : (s.inc rms).descs = s.descs := by
  cases rms <;> rfl

theorem lookup_seg (known : desc ∈ s.addresses) : s.descs.lookup desc = some (s.seg desc) :=
  Assoc.lookup_of_key known none

/-- The pointer of one descriptor and those of the others. -/
theorem pointers_perm (distinct : s.addresses.Nodup) (known : this ∈ s.addresses) :
    s.pointers.Perm (s.seg this :: (s.descs.filter (·.1 ≠ this)).map (·.2)) :=
  List.Perm.map Prod.snd (Assoc.perm_filter_ne distinct (lookup_seg known))

theorem seg_mem (known : desc ∈ s.addresses) : s.seg desc ∈ s.pointers :=
  List.mem_map.mpr ⟨_, Assoc.mem_of_lookup (lookup_seg known), rfl⟩

theorem filter_fresh (fresh : this ∉ s.addresses) : s.descs.filter (·.1 ≠ this) = s.descs := by
  apply List.filter_eq_self.mpr
  intro entry mem
  simp only [ne_eq, decide_eq_true_eq]
  exact fun same => fresh (List.mem_map.mpr ⟨entry, mem, same⟩)

/-- Other fields of the client and the descriptors do not matter. -/
theorem Counted.descs (h : Counted numConsSlabs s refs held) (descs : List (Nat × Option Nat)) :
    Counted numConsSlabs { s with descs } refs held :=
  ⟨h.up, h.holds, h.real, h.nonempty, h.chains, h.known, h.counts, h.fresh, h.once⟩

theorem Counted.null (h : Counted numConsSlabs s refs held) :
    Counted numConsSlabs s (none :: refs) held := by
  refine ⟨h.up, h.holds, h.real, h.nonempty, h.chains, ?_, ?_, h.fresh, h.once⟩
  · exact fun rms mem => h.known rms (by simpa using mem)
  · intro msg mem
    rw [count_none_cons]
    exact h.counts msg mem

theorem Counted.addSegments (h : Counted numConsSlabs s refs held) (blocks : List RcvdBlock) :
    Counted numConsSlabs (s.addSegments blocks) refs held := by
  obtain ⟨new, pending⟩ := s.client.recvMgr.pendingSegs_addSegments blocks
  have stash := (RecvHistory.added_addSegments s.client.recvMgr blocks).stash
  have holds : Holds numConsSlabs (s.addSegments blocks).client held := by
    obtain ⟨hist, sound, mgr, perm⟩ := h.holds
    refine ⟨_, sound.step (.addSegments blocks) trivial, ?_, perm⟩
    simp only [RecvHistory.step, mgr, RecvDescriptors.addSegments]
  have awaiting : (s.addSegments blocks).client.recvMgr.awaiting =
      s.client.recvMgr.pendingSegs ++ new ++ s.client.recvMgr.pendingMsg.getD [] := by
    simp only [RecvDescriptors.addSegments, ClientRecvManager.awaiting, pending, stash]
  have refcnt (ref : Nat) : (s.addSegments blocks).refcnt ref =
      if ref ∈ new.map (·.ref) then 1 else s.refcnt ref := by
    simp only [RecvDescriptors.addSegments, pending, List.drop_left]
  constructor
  case up => exact ⟨h.up.alive, h.up.takes⟩
  case holds => exact holds
  case real =>
    simp only [RecvDescriptors.addSegments, stash]
    exact h.real
  case nonempty => exact h.nonempty
  case chains => exact h.chains
  case known => exact h.known
  case counts =>
    intro msg mem
    rw [refcnt, if_neg]
    · exact h.counts msg mem
    · intro taken
      obtain ⟨seg, added, eq⟩ := List.mem_map.mp taken
      apply holds.apart mem (h.nonempty msg mem) _ eq
      rw [awaiting]
      exact List.mem_append_left _ (List.mem_append_right _ added)
  case fresh =>
    intro seg waits
    rw [refcnt]
    by_cases taken : seg.ref ∈ new.map (·.ref)
    · exact if_pos taken
    · rw [if_neg taken]
      apply h.fresh
      have other : seg ∉ new := fun mem => taken (List.mem_map.mpr ⟨seg, mem, rfl⟩)
      rw [awaiting] at waits
      simp only [ClientRecvManager.awaiting, List.mem_append] at waits ⊢
      tauto
  case once => exact h.once

theorem Counted.pendingRecvMessage (h : Counted numConsSlabs s refs held) :
    Counted numConsSlabs s.pendingRecvMessage refs held := by
  obtain ⟨result, client, ret, up, holds, real, waiting⟩ :=
    h.holds.pendingRecvMessage h.up h.real
  simp only [RecvDescriptors.pendingRecvMessage, ret]
  refine ⟨up, holds, real, h.nonempty, h.chains, h.known, h.counts, ?_, h.once⟩
  exact fun seg waits => h.fresh seg (waiting seg waits)

/-- A message is got with its count at one, as it has been since its segments came. -/
theorem Counted.getRecvMessageDescriptor (h : Counted numConsSlabs s refs held) (mem : Memory)
    (desc : Nat) :
    ∃ rms held', (s.getRecvMessageDescriptor mem desc).descs = (desc, rms) :: s.descs ∧
      Counted numConsSlabs (s.getRecvMessageDescriptor mem desc) (rms :: refs) held' := by
  obtain ⟨result, client, ret, takes⟩ := @Holds.getRecvMsgDesc _ mem _ _ h.holds h.up h.real
  have holds := takes.holds
  have waiting := takes.waiting
  cases result with
  | none =>
    simp only [RecvDescriptors.getRecvMessageDescriptor, ret]
    rw [Option.toList_none, List.append_nil] at holds
    refine ⟨none, held, rfl, takes.up, holds, takes.real.1, h.nonempty, h.chains,
      h.null.known, h.null.counts, ?_, h.once⟩
    exact fun seg waits => h.fresh seg (waiting seg waits)
  | some msg =>
    have nonempty : ∀ msg' ∈ held ++ [msg], msg' ≠ [] := by
      intro msg' listed
      rcases List.mem_append.mp listed with before | here
      · exact h.nonempty msg' before
      · rw [List.mem_singleton.mp here]
        exact fun eq => takes.real.2 (congrArg some eq)
    have distinct := holds.nodup_firsts nonempty
    rw [Option.toList_some, List.map_append] at distinct
    have other : ∀ msg' ∈ held, msg'.first ≠ msg.first := fun msg' listed =>
      (List.nodup_append.mp distinct).2.2 _ (List.mem_map.mpr ⟨msg', listed, rfl⟩) _
        (by simp)
    simp only [RecvDescriptors.getRecvMessageDescriptor, ret]
    refine ⟨some msg.first, held ++ [msg], rfl, ?_⟩
    constructor
    case up => exact takes.up
    case holds => exact holds
    case real => exact takes.real.1
    case nonempty => exact nonempty
    case chains =>
      intro msg' listed
      rcases List.mem_append.mp listed with before | here
      · simp only [Function.update_of_ne (other msg' before)]
        exact h.chains msg' before
      · simp only [List.mem_singleton.mp here, Function.update_self]
    case known =>
      intro rms referred
      rcases List.mem_cons.mp referred with here | before
      · cases here
        exact ⟨msg, by simp, rfl⟩
      · obtain ⟨msg', listed, eq⟩ := h.known rms before
        exact ⟨msg', List.mem_append_left _ listed, eq⟩
    case counts =>
      intro msg' listed
      rcases List.mem_append.mp listed with before | here
      · rw [List.count_cons_of_ne (by simpa using (other msg' before).symm)]
        exact h.counts msg' before
      · have none : refs.count (some msg.first) = 0 := by
          apply List.count_eq_zero.mpr
          intro referred
          obtain ⟨msg', listed, eq⟩ := h.known _ referred
          exact other msg' listed eq
        obtain ⟨seg, inside, eq⟩ := MessageDescriptor.first_mem (nonempty msg (by simp))
        have one := h.fresh seg (waiting seg (List.mem_append_left _ inside))
        rw [eq] at one
        rw [List.mem_singleton.mp here, List.count_cons_self, none]
        exact ⟨Nat.one_pos, one⟩
    case fresh => exact fun seg waits => h.fresh seg (waiting seg (List.mem_append_right _ waits))
    case once =>
      rw [← List.append_assoc]
      exact h.once.append_right _

theorem Sound.assign (h : Sound numConsSlabs s) (this_mem : this ∈ s.addresses)
    (desc_mem : desc ∈ s.addresses) (few : (s.assign this desc).Few) :
    Sound numConsSlabs (s.assign this desc) := by
  obtain ⟨held, counted⟩ := h.counted
  have rmd := counted.inc (seg_mem desc_mem)
  generalize others : s.descs.filter (·.1 ≠ this) = rest at *
  have before := pointers_perm h.distinct this_mem
  rw [others] at before
  have swapped : (s.seg desc :: s.pointers).Perm
      (s.seg this :: s.seg desc :: rest.map (·.2)) :=
    (before.cons _).trans (List.Perm.swap ..)
  -- the temporary keeps the message if both descriptors refer to it
  generalize first : s.inc (s.seg desc) = s₁ at rmd
  have descs₁ : s₁.descs = s.descs := first ▸ inc_descs ..
  generalize second : s₁.dec (s.seg this) = s₂
  have descs₂ : s₂.descs = s.descs := second ▸ (dec_descs ..).trans descs₁
  generalize third : s₂.setSeg this (s.seg desc) = s₃
  have descs₃ : s₃.descs = (this, s.seg desc) :: rest := by
    rw [← third, setSeg, descs₂, others]
  have whole : s.assign this desc = (s₃.inc (s.seg desc)).dec (s.seg desc) := by
    have same₁ : s₁.seg this = s.seg this := by simp only [seg, descs₁]
    have same₂ : s₂.seg desc = s.seg desc := by simp only [seg, descs₂]
    have same₃ : s₃.seg this = s.seg desc := by simp only [seg, descs₃, List.lookup_cons_self]; rfl
    simp only [RecvDescriptors.assign, first, same₁, second, same₂, third, same₃]
  have descs : (s.assign this desc).descs = (this, s.seg desc) :: rest := by
    rw [whole, dec_descs, inc_descs, descs₃]
  have after : (s.assign this desc).pointers = s.seg desc :: rest.map (·.2) := by
    rw [pointers, descs]
    rfl
  have bound : ∀ rms, (s.seg desc :: rest.map (·.2)).count (some rms) < 4294967296 := by
    rw [← after]
    exact few
  obtain ⟨held₂, counted₂⟩ := (rmd.perm swapped).dec bound
  rw [second] at counted₂
  have counted₃ := counted₂.descs ((this, s.seg desc) :: s₂.descs.filter (·.1 ≠ this))
  have counted₄ := @Counted.inc _ _ _ _ (s.seg desc) counted₃ List.mem_cons_self
  obtain ⟨held₅, counted₅⟩ := counted₄.dec bound
  constructor
  case distinct =>
    rw [addresses, descs, ← others]
    exact Assoc.nodup_keys_put _ h.distinct
  case counted =>
    refine ⟨held₅, ?_⟩
    rw [after, whole, ← third]
    exact counted₅

theorem Sound.destroy (h : Sound numConsSlabs s) (known : this ∈ s.addresses)
    (few : (s.destroy this).Few) : Sound numConsSlabs (s.destroy this) := by
  obtain ⟨held, counted⟩ := h.counted
  have descs : (s.destroy this).descs = s.descs.filter (·.1 ≠ this) := by
    simp only [RecvDescriptors.destroy, dec_descs]
  have pointers : (s.destroy this).pointers = (s.descs.filter (·.1 ≠ this)).map (·.2) := by
    rw [RecvDescriptors.pointers, descs]
  have bound := few
  simp only [Few, referring, pointers] at bound
  obtain ⟨held', counted'⟩ := (counted.perm (pointers_perm h.distinct known)).dec bound
  constructor
  case distinct =>
    rw [addresses, descs]
    exact Assoc.nodup_keys_filter _ h.distinct
  case counted =>
    rw [pointers]
    exact ⟨held', counted'.descs _⟩

theorem Sound.copy (h : Sound numConsSlabs s) (new : this ∉ s.addresses)
    (known : desc ∈ s.addresses) : Sound numConsSlabs (s.copy this desc) := by
  obtain ⟨held, counted⟩ := h.counted
  have descs : (s.copy this desc).descs = (this, s.seg desc) :: s.descs := by
    simp only [RecvDescriptors.copy, inc_descs, setSeg, filter_fresh new]
  have counted' := (counted.descs (s.setSeg this (s.seg desc)).descs).inc (seg_mem known)
  constructor
  case distinct =>
    rw [addresses, descs]
    exact List.nodup_cons.mpr ⟨new, h.distinct⟩
  case counted =>
    rw [pointers, descs]
    exact ⟨held, counted'⟩

/-- One call keeps it. -/
theorem Sound.call {call : Call} (h : Sound numConsSlabs s) (legal : s.Legal call)
    (few : (s.call call).Few) : Sound numConsSlabs (s.call call) := by
  obtain ⟨held, counted⟩ := h.counted
  cases call with
  | addSegments blocks => exact ⟨h.distinct, held, counted.addSegments blocks⟩
  | pendingRecvMessage =>
    have descs : s.pendingRecvMessage.descs = s.descs := by
      unfold RecvDescriptors.pendingRecvMessage
      cases s.client.pendingRecvMessage <;> rfl
    constructor
    case distinct =>
      simp only [RecvDescriptors.call, addresses, descs]
      exact h.distinct
    case counted =>
      simp only [RecvDescriptors.call, pointers, descs]
      exact ⟨held, counted.pendingRecvMessage⟩
  | getRecvMessageDescriptor mem desc =>
    obtain ⟨rms, held', descs, counted'⟩ := counted.getRecvMessageDescriptor mem desc
    constructor
    case distinct =>
      simp only [RecvDescriptors.call, addresses, descs]
      exact List.nodup_cons.mpr ⟨legal, h.distinct⟩
    case counted =>
      simp only [RecvDescriptors.call, pointers, descs]
      exact ⟨held', counted'⟩
  | construct this =>
    exact ⟨List.nodup_cons.mpr ⟨legal, h.distinct⟩, held, counted.null.descs _⟩
  | copy this desc => exact h.copy legal.1 legal.2
  | assign this desc => exact h.assign legal.1 legal.2 few
  | destroy this => exact h.destroy legal few

theorem sound_start (crcPolicy : CrcPolicy) :
    Sound numConsSlabs { client := { recvMgr := { numConsSlabs }, crcPolicy } } where
  distinct := List.nodup_nil
  counted := by
    refine ⟨[], ⟨rfl, rfl⟩, ⟨_, RecvHistory.sound_start numConsSlabs, rfl, .refl _⟩, ?_, ?_, ?_, ?_, ?_, ?_,
      .refl _⟩
    · simp only [ne_eq, reduceCtorEq, not_false_eq_true]
    · exact fun _ mem => absurd mem List.not_mem_nil
    · exact fun _ mem => absurd mem List.not_mem_nil
    · exact fun _ mem => absurd mem List.not_mem_nil
    · exact fun _ mem => absurd mem List.not_mem_nil
    · exact fun _ mem => absurd mem List.not_mem_nil

theorem Run.sound (run : Run Few numConsSlabs s) : Sound numConsSlabs s := by
  induction run with
  | start crcPolicy => exact sound_start crcPolicy
  | step _ call legal few ih => exact ih.call legal few

/-- The messages held are those that descriptors refer to. -/
theorem Counted.live (h : Counted numConsSlabs s s.pointers held) : held.Perm s.live := by
  have firsts : (held.map MessageDescriptor.first).Perm s.pointers.reduceOption.dedup := by
    apply (List.perm_ext_iff_of_nodup h.nodup_firsts (List.nodup_dedup _)).mpr
    intro rms
    rw [List.mem_dedup, List.reduceOption_mem_iff, List.mem_map]
    constructor
    · rintro ⟨msg, mem, rfl⟩
      exact List.count_pos_iff.mp (h.counts msg mem).1
    · exact h.known rms
  have chained : (held.map MessageDescriptor.first).map s.chain = held := by
    rw [List.map_map]
    exact (List.map_congr_left h.chains).trans (List.map_id held)
  rw [← chained]
  exact firsts.map s.chain

/-- Whatever is done with the descriptors, as long as no message has 2^32 of them
the counts are exact and each message is released once, by the last one. -/
theorem Run.releases_once (run : Run Few numConsSlabs s) (few : s.Few) : Exact s := by
  obtain ⟨held, counted⟩ := run.sound.counted
  constructor
  case counted =>
    intro rms referred
    obtain ⟨msg, mem, rfl⟩ := counted.known rms referred
    rw [(counted.counts msg mem).2]
    exact UInt32.toNat_ofNat_of_lt (few msg.first)
  case once => exact counted.once.trans (counted.live.append_left _)

/-! ## Many descriptors -/

/-- A client that has received one message. -/
def rcvdOne : RecvDescriptors :=
  addSegments { client := { recvMgr := { numConsSlabs := 1 }, crcPolicy := .noCrcs } }
    [⟨3, 24, ⟨7, 1, 0, 0, 1, 0⟩⟩]

/-- Descriptor 0 has the message. -/
def gotOne : RecvDescriptors := rcvdOne.getRecvMessageDescriptor (fun _ => 0) 0

theorem descs_gotOne : gotOne.descs = [(0, some 0)] ∧
    gotOne.got = [[⟨0, 24, 1, 3, ⟨7, 1, 0, 0, 1, 0⟩⟩]] := by
  have got : rcvdOne.client.recvMgr.getMessageDescriptor =
      (some [⟨0, 24, 1, 3, ⟨7, 1, 0, 0, 1, 0⟩⟩], rcvdOne.client.recvMgr.getMessageDescriptor.2) := rfl
  have ret := @Receiver.loop_taken (fun _ => 0) rcvdOne.client _ _ got rfl
  have sent := @Receiver.sendRetiredSegments_none
    { rcvdOne.client with recvMgr := rcvdOne.client.recvMgr.getMessageDescriptor.2 } rfl
  simp only [gotOne, RecvDescriptors.getRecvMessageDescriptor, Receiver.getRecvMsgDesc, ret, sent,
    bind, Except.bind, pure, Except.pure]
  exact ⟨rfl, rfl⟩

theorem run_gotOne {ok : RecvDescriptors → Prop} (rcvd : ok rcvdOne) (got : ok gotOne) :
    Run ok 1 gotOne :=
  .step (.step (.start .noCrcs) (.addSegments _) trivial rcvd)
    (.getRecvMessageDescriptor (fun _ => 0) 0) List.not_mem_nil got

/-- Descriptors 1 to `k` are copies of it. -/
def copies : Nat → RecvDescriptors
  | 0 => gotOne
  | k + 1 => (copies k).copy (k + 1) 0

theorem run_copies (k : Nat) : Run (fun _ => True) 1 (copies k) ∧
    (copies k).addresses = (List.range (k + 1)).reverse ∧
    (copies k).pointers = List.replicate (k + 1) (some 0) := by
  induction k with
  | zero =>
    refine ⟨run_gotOne trivial trivial, ?_, ?_⟩
    · simp only [copies, addresses, descs_gotOne.1]
      rfl
    · simp only [copies, pointers, descs_gotOne.1]
      rfl
  | succ k ih =>
    obtain ⟨run, addresses, pointers⟩ := ih
    have new : k + 1 ∉ (copies k).addresses := by
      simp [addresses]
    have known : 0 ∈ (copies k).addresses := by
      simp [addresses]
    have here : (copies k).seg 0 = some 0 := by
      have mem := seg_mem known
      rw [pointers] at mem
      exact List.eq_of_mem_replicate mem
    have descs : (copies (k + 1)).descs = (k + 1, some 0) :: (copies k).descs := by
      simp only [copies, RecvDescriptors.copy, inc_descs, setSeg, filter_fresh new, here]
    refine ⟨.step run (.copy (k + 1) 0) ⟨new, known⟩ trivial, ?_, ?_⟩
    · rw [RecvDescriptors.addresses, descs, List.range_succ, List.reverse_append, ← addresses]
      rfl
    · rw [RecvDescriptors.pointers, descs, List.replicate_succ, ← pointers]
      rfl

theorem not_exact_copies {k : Nat} (many : 4294967295 ≤ k) : ¬ Exact (copies k) := by
  intro exactly
  obtain ⟨-, -, pointers⟩ := run_copies k
  have counted := exactly.counted 0 (by simp [pointers])
  rw [referring, pointers, List.count_replicate_self] at counted
  have less := ((copies k).refcnt 0).toNat_lt
  omega

/-- With 2^32 descriptors of a message its count is zero. -/
theorem not_releases_once : ¬ ∀ numConsSlabs s, Run (fun _ => True) numConsSlabs s → Exact s := fun all =>
  not_exact_copies (Nat.le_refl 4294967295) (all 1 _ (run_copies _).1)

theorem few_of_length (few : s.descs.length < 4294967296) : s.Few := by
  intro rms
  apply Nat.lt_of_le_of_lt List.count_le_length
  rw [pointers, List.length_map]
  exact few

/-- A copy is made and the descriptor copied from goes. -/
def copied : RecvDescriptors := (gotOne.copy 1 0).destroy 0

/-- The message is released with the last of its descriptors. -/
theorem releases_once_copied : copied.descs = [(1, some 0)] ∧ Exact copied ∧
    (copied.destroy 1).descs = [] ∧ Exact (copied.destroy 1) ∧
    (copied.destroy 1).released = [[⟨0, 24, 1, 3, ⟨7, 1, 0, 0, 1, 0⟩⟩]] := by
  obtain ⟨descs, got⟩ := descs_gotOne
  have both : (gotOne.copy 1 0).descs = [(1, some 0), (0, some 0)] := by
    simp only [RecvDescriptors.copy, inc_descs, setSeg, seg, descs]
    rfl
  have one : copied.descs = [(1, some 0)] := by
    simp only [copied, RecvDescriptors.destroy, dec_descs, both]
    rfl
  have none : (copied.destroy 1).descs = [] := by
    simp only [RecvDescriptors.destroy, dec_descs, one]
    rfl
  have few₁ : gotOne.Few := few_of_length (by simp [descs])
  have few₂ : (gotOne.copy 1 0).Few := few_of_length (by simp [both])
  have few₃ : copied.Few := few_of_length (by simp [one])
  have few₄ : (copied.destroy 1).Few := few_of_length (by simp [none])
  have run : Run Few 1 copied :=
    .step (.step (run_gotOne (few_of_length (by decide)) few₁) (.copy 1 0)
      ⟨by simp [addresses, descs], by simp [addresses, descs]⟩ few₂)
      (.destroy 0) (by simp [Legal, addresses, call, both]) few₃
  have last : Run Few 1 (copied.destroy 1) :=
    .step run (.destroy 1) (by simp [Legal, addresses, one]) few₄
  have exactly := last.releases_once few₄
  refine ⟨one, run.releases_once few₃, none, exactly, ?_⟩
  have unreferred : (copied.destroy 1).live = [] := by
    simp only [live, pointers, none]
    rfl
  have copy : (gotOne.copy 1 0).got = gotOne.got := by
    simp only [RecvDescriptors.copy, setSeg, seg, descs]
    rfl
  have same : (copied.destroy 1).got = gotOne.got := by
    rw [got_destroy, copied, got_destroy, copy]
  have all := exactly.once
  rw [unreferred, List.append_nil, same, got] at all
  exact List.perm_singleton.mp all.symm

end RecvDescriptors
end Mcsb
