import Mcsb.Manager.Indexing
import Mcsb.Manager.Growth
import Mcsb.Client.Mapping

/-!
# Buffers are announced before use

What the manager puts into the channel of a client. An ID stands behind the
name string that was sent when its buffer was there, and the client has mapped
the buffer when it gets to the ID.
-/

namespace Mcsb
open Effect ShmClient

set_option maxRecDepth 2000
set_option synthInstance.maxSize 10000

/-- The slabs that a message hands to the client, or the blocks of. -/
def Sent.slabs (blocksPerSlab : Nat) : Sent → List Nat
  | .blockIDs ids => ids.map (· / blocksPerSlab)
  | .slabIDs ids => ids
  | .ctrl _ => []

/-- What there is of a client's channel on the side of the manager. `covered` is
the length of the tracker's vectors. -/
structure Channel where
  out : List Sent
  announced : List (Nat × Nat)
  covered : Nat
  failed : Bool

def ClientProxy.channel (p : ClientProxy) : Channel :=
  ⟨p.sock.out, p.announced, p.slabs.totalNumSlabs, p.sendFailed⟩

namespace Channel

/-- Message `j` is the name string that was sent when `n` buffers were mapped. -/
def NameAt (ch : Channel) (fmt : List UInt8) (j n : Nat) : Prop :=
  (j, n) ∈ ch.announced ∧ ch.out[j]? = some (shmName fmt)

/-- The name string before message `i` that covers the slab. -/
def Announces (ch : Channel) (params : Params) (i s : Nat) : Prop :=
  ∃ j n, ch.NameAt params.shmNameFormat j n ∧ j < i ∧ s < params.slabsPerBuf * n

/-- Every slab is announced before use, with `b` buffers mapped by now. -/
structure Ordered (params : Params) (b : Nat) (ch : Channel) : Prop where
  before : ∀ i sent, ch.out[i]? = some sent → ∀ s ∈ sent.slabs params.blocksPerSlab,
    ch.Announces params i s
  covers : ∀ j n, (j, n) ∈ ch.announced → params.slabsPerBuf * n ≤ ch.covered
  past : ∀ j n, (j, n) ∈ ch.announced → n ≤ b
  names : ∀ i which str, ch.out[i]? = some (.ctrl (.ctrlString which str)) →
    Sent.ctrl (.ctrlString which str) = shmName params.shmNameFormat ∧
      ∃ n, (i, n) ∈ ch.announced

/-- The `b` buffers that slabs come from are announced, or nothing more is sent. -/
def UpToDate (params : Params) (b : Nat) (ch : Channel) : Prop :=
  ch.failed = false → ∃ j n, ch.NameAt params.shmNameFormat j n ∧ b ≤ n

section
variable {ch : Channel} {params : Params} {b : Nat}

theorem getElem?_push {out : List Sent} {sent : Sent} {j : Nat} {x : Sent}
    (at_ : (out ++ [sent])[j]? = some x) : out[j]? = some x ∨ j = out.length ∧ x = sent := by
  rw [List.getElem?_append] at at_
  split at at_
  · exact .inl at_
  · rename_i beyond
    rw [List.getElem?_singleton] at at_
    split at at_
    · rename_i here
      exact .inr ⟨by omega, (Option.some.inj at_).symm⟩
    · cases at_

theorem getElem?_keep {out more : List Sent} {j : Nat} {x : Sent} (at_ : out[j]? = some x) :
    (out ++ more)[j]? = some x := by
  rw [List.getElem?_append_left (List.getElem?_eq_some_iff.mp at_).1]
  exact at_

theorem NameAt.push {fmt : List UInt8} {j n : Nat} (h : ch.NameAt fmt j n) (sent : Sent) :
    NameAt { ch with out := ch.out ++ [sent] } fmt j n := ⟨h.1, getElem?_keep h.2⟩

theorem NameAt.lt {fmt : List UInt8} {j n : Nat} (h : ch.NameAt fmt j n) : j < ch.out.length :=
  (List.getElem?_eq_some_iff.mp h.2).1

theorem UpToDate.push (h : ch.UpToDate params b) (sent : Sent) :
    UpToDate params b { ch with out := ch.out ++ [sent] } := by
  intro working
  obtain ⟨j, n, name, enough⟩ := h working
  exact ⟨j, n, name.push sent, enough⟩

/-- A message whose slabs are covered by a name string, and that is none itself
unless its place is recorded. -/
theorem Ordered.push (h : ch.Ordered params b) {sent : Sent}
    (slabs : ∀ s ∈ sent.slabs params.blocksPerSlab, ch.Announces params ch.out.length s)
    (name : ∀ which str, sent = .ctrl (.ctrlString which str) →
      sent = shmName params.shmNameFormat ∧ ∃ n, (ch.out.length, n) ∈ ch.announced) :
    Ordered params b { ch with out := ch.out ++ [sent] } := by
  constructor
  · intro i x at_ s mem
    rcases getElem?_push at_ with old | ⟨rfl, rfl⟩
    · obtain ⟨j, n, named, lt, within⟩ := h.before i x old s mem
      exact ⟨j, n, named.push sent, lt, within⟩
    · obtain ⟨j, n, named, lt, within⟩ := slabs s mem
      exact ⟨j, n, named.push x, lt, within⟩
  · exact h.covers
  · exact h.past
  · intro i which str at_
    rcases getElem?_push at_ with old | ⟨rfl, rfl⟩
    · exact h.names i which str old
    · exact name which str rfl

/-- Slabs of those buffers may be sent. -/
theorem UpToDate.announces (h : ch.UpToDate params b) (working : ch.failed = false) {s : Nat}
    (within : s < params.slabsPerBuf * b) : ch.Announces params ch.out.length s := by
  obtain ⟨j, n, name, enough⟩ := h working
  exact ⟨j, n, name, name.lt, within.trans_le (Nat.mul_le_mul_left _ enough)⟩

/-- The place of the next message is noted, with all vectors sized for the
buffers there are. -/
theorem Ordered.note (h : ch.Ordered params b) : Ordered params b { ch with
    announced := ch.announced ++ [(ch.out.length, b)]
    covered := params.slabsPerBuf * b } := by
  have noted {j n : Nat} (mem : (j, n) ∈ ch.announced ++ [(ch.out.length, b)]) :
      (j, n) ∈ ch.announced ∨ n = b := by
    rcases List.mem_append.mp mem with old | new
    · exact .inl old
    · exact .inr (Prod.mk.inj (List.mem_singleton.mp new)).2
  constructor
  · intro i sent at_ s mem
    obtain ⟨j, n, named, lt, within⟩ := h.before i sent at_ s mem
    exact ⟨j, n, ⟨List.mem_append_left _ named.1, named.2⟩, lt, within⟩
  · intro j n mem
    rcases noted mem with old | rfl
    · exact Nat.mul_le_mul_left _ (h.past j n old)
    · exact le_rfl
  · intro j n mem
    rcases noted mem with old | rfl
    · exact h.past j n old
    · exact le_rfl
  · intro i which str at_
    obtain ⟨name, n, mem⟩ := h.names i which str at_
    exact ⟨name, n, List.mem_append_left _ mem⟩

theorem ordered_nil (params : Params) (b covered : Nat) (failed : Bool) :
    Ordered params b ⟨[], [], covered, failed⟩ := by
  constructor
  · intro i sent none
    cases none
  · intro j n none
    cases none
  · intro j n none
    cases none
  · intro i which str none
    cases none

theorem Ordered.fail (h : ch.Ordered params b) : Ordered params b { ch with failed := true } :=
  ⟨h.before, h.covers, h.past, h.names⟩

theorem Ordered.mono {b' : Nat} (h : ch.Ordered params b) (more : b ≤ b') :
    ch.Ordered params b' :=
  ⟨h.before, h.covers, fun j n mem => (h.past j n mem).trans more, h.names⟩

end
end Channel

/-- A control message other than a string. -/
class Plain (call : HandlerCall) : Prop where
  plain : ∀ which str, call ≠ .ctrlString which str

instance (prodSlabs consSlabs : UInt32) : Plain (.numSlabs prodSlabs consSlabs) := ⟨by simp⟩
instance (segs bytes : UInt32) : Plain (.dropReport segs bytes) := ⟨by simp⟩
instance (type : RegType) (cid gid : Int16) (msgIDs : List UInt32) :
    Plain (.registration type cid gid msgIDs) := ⟨by simp⟩
instance (id : Int16) : Plain (.groupID id) := ⟨by simp⟩
instance (id : Int16) : Plain (.clientID id) := ⟨by simp⟩
instance (bytes : List UInt8) : Plain (.managerEcho bytes) := ⟨by simp⟩
instance (token : UInt32) : Plain (.sequenceToken token) := ⟨by simp⟩
instance (magic version : UInt32) : Plain (.validatePeer magic version) := ⟨by simp⟩

namespace SlabManager

theorem wp_incrementHeldRefcnt_valid (slabIDs : List Nat) (sm : SlabManager) :
    wp (incrementHeldRefcnt slabIDs) sm (fun _ _ => ∀ s ∈ slabIDs, sm.Valid s)
      (fun _ _ => True) := by
  induction slabIDs generalizing sm with
  | nil =>
    intro s none
    cases none
  | cons s slabIDs ih =>
    rw [incrementHeldRefcnt, wp_bind]
    apply wp_getSlabInfo
    · intro valid
      simp only [wp_bind, wp_ite, wp_throw, wp_modify]
      split
      · split
        · trivial
        · apply wp_mono (ih _)
          · intro _ _ all
            exact List.forall_mem_cons.mpr ⟨valid, all⟩
          · intro _ _
            exact id
      · apply wp_mono (ih _)
        · intro _ _ all
          exact List.forall_mem_cons.mpr ⟨valid, all⟩
        · intro _ _
          exact id
    · intro _
      trivial

end SlabManager

namespace Manager

def channel (m : Manager) (c : Nat) : Channel := (m.proxy c).channel

theorem channel_setProxy {m : Manager} {c : Nat} {p : ClientProxy}
    (same : p.channel = m.channel c) : (m.setProxy c p).channel = m.channel :=
  inner_setProxy ClientProxy.channel same

/-- Slabs come from mapped buffers only, no channel has one that was not
announced, and the clients `told` are up to date. -/
structure Publishing (told : List Nat) (rest : List WantedSegment) (m : Manager) : Prop where
  queued : m.Queued rest
  perBuf : m.slabManager.slabsPerBuf = m.params.slabsPerBuf
  mapped : m.slabManager.numBuffers ≤ m.shmMapper.numBuffers
  ordered : ∀ c, (m.channel c).Ordered m.params m.shmMapper.numBuffers
  told : ∀ c ∈ told, (m.channel c).UpToDate m.params m.slabManager.numBuffers

/-- All clients are up to date, and so are those that are joining. -/
structure Published (joining cs : List Nat) (rest : List WantedSegment) (m : Manager) : Prop
    extends m.Publishing (joining ++ cs) rest where
  clients : m.clients = cs

section
variable {m m' : Manager} {told told' joining cs : List Nat} {rest rest' : List WantedSegment}

theorem Publishing.of_channels (h : m.Publishing told rest) (queued : m'.Queued rest')
    (params : m'.params = m.params) (shm : m'.shmMapper = m.shmMapper)
    (shape : m'.slabManager.shape = m.slabManager.shape)
    (channels : m'.channel = m.channel) : m'.Publishing told rest' := by
  simp only [Prod.mk.injEq] at shape
  constructor
  · exact queued
  · rw [shape.2, params]
    exact h.perBuf
  · rw [shape.1, shm]
    exact h.mapped
  · rw [params, shm, channels]
    exact h.ordered
  · rw [params, shape.1, channels]
    exact h.told

theorem Publishing.of_subset (h : m.Publishing told rest)
    (fewer : told' ⊆ told) : m.Publishing told' rest :=
  ⟨h.queued, h.perBuf, h.mapped, h.ordered, fun c mem => h.told c (fewer mem)⟩

theorem Published.of_channels (h : m.Published joining cs rest) (queued : m'.Queued rest')
    (params : m'.params = m.params) (clients : m'.clients = m.clients)
    (shm : m'.shmMapper = m.shmMapper) (shape : m'.slabManager.shape = m.slabManager.shape)
    (channels : m'.channel = m.channel) : m'.Published joining cs rest' := by
  constructor
  · exact h.toPublishing.of_channels queued params shm shape channels
  · rw [clients]
    exact h.clients

/-- Where one channel changes. -/
theorem Publishing.setChannel (h : m.Publishing told rest) {c : Nat} {p : ClientProxy}
    (queue : p.wantedQueue ⊆ (m.proxy c).wantedQueue)
    (ordered : p.channel.Ordered m.params m.shmMapper.numBuffers)
    (others : ∀ x ∈ told', x ≠ c → x ∈ told)
    (upToDate : c ∈ told' → p.channel.UpToDate m.params m.slabManager.numBuffers) :
    (m.setProxy c p).Publishing told' rest := by
  have channel (x : Nat) : (m.setProxy c p).channel x =
      if x = c then p.channel else m.channel x := by
    unfold Manager.channel
    split
    · rename_i here
      rw [here, proxy_setProxy]
    · rename_i there
      rw [proxy_setProxy_of_ne _ there]
  constructor
  · exact h.queued.setProxy fun seg mem => h.queued.queued c seg (queue mem)
  · exact h.perBuf
  · exact h.mapped
  · intro x
    rw [channel]
    split
    · exact ordered
    · exact h.ordered x
  · intro x mem
    rw [channel]
    split
    · rename_i here
      exact upToDate (here ▸ mem)
    · rename_i there
      exact h.told x (others x mem there)

/-- A write of anything but a name string. -/
theorem Published.sendOn (h : m.Published joining cs rest) {c fd : Nat} {sent : Sent}
    (slabs : (m.proxy c).sendFailed = false → ∀ s ∈ sent.slabs m.params.blocksPerSlab,
      (m.channel fd).Announces m.params (m.channel fd).out.length s)
    (plain : ∀ which str, sent ≠ .ctrl (.ctrlString which str)) :
    wp (sendOn c fd sent) m (fun _ => Published joining cs rest)
      (fun _ => Published joining cs rest) := by
  simp only [Mcsb.sendOn, wp_bind, wp_getProxy, wp_ite, wp_fail, wp_modifyProxy]
  split
  · exact h
  · rename_i working
    split
    · constructor
      · apply h.setChannel
        case queue => exact List.Subset.refl _
        case others =>
          intro _ mem _
          exact mem
        case ordered =>
          apply (h.ordered fd).push
          · exact slabs (Bool.eq_false_iff.mpr working)
          · intro which str eq
            exact absurd eq (plain which str)
        case upToDate =>
          intro mem
          exact (h.told fd mem).push sent
      · exact h.clients
    · have tried : Published joining cs rest (m.setProxy fd { m.proxy fd with
          sock := { (m.proxy fd).sock with attempts := (m.proxy fd).sock.attempts + 1 } }) :=
        h.of_channels (h.queued.setProxy (h.queued.queued fd)) rfl rfl rfl rfl
          (channel_setProxy rfl)
      constructor
      · apply tried.setChannel
        case queue => exact List.Subset.refl _
        case others =>
          intro _ mem _
          exact mem
        case ordered => exact (tried.ordered c).fail
        case upToDate =>
          intro _ working
          cases working
      · exact h.clients

end

section
variable (joining cs : List Nat) (rest : List WantedSegment)

instance : Orderly (Stays (Published joining cs rest)) where
  inside {m m'} same calm limit fine h := by
    have queued : m'.Queued rest :=
      Orderly.inside (R := Stays (Queued rest)) same calm limit fine h.queued
    simp only [Manager.settings, Prod.mk.injEq] at same
    apply h.of_channels queued same.1 same.2.1 same.2.2.1 calm.shape
    funext c
    rw [channel, channel, same.2.2.2.2.2.2]
  proxy {m c p} same fewer h := by
    have queued := Orderly.proxy (R := Stays (Queued rest)) same fewer h.queued
    simp only [ClientProxy.settings, SlabTracker.sizes, Prod.mk.injEq] at same
    apply h.of_channels queued rfl rfl rfl rfl
    apply channel_setProxy
    simp only [channel, ClientProxy.channel, same]
  queued valid h := h.of_channels (Orderly.queued (R := Stays (Queued rest)) valid h.queued)
    rfl rfl rfl rfl (channel_setProxy rfl)

instance : Reporting (Stays (Published joining cs rest)) where
  reporting reporter log h := h.of_channels
    (Reporting.reporting (R := Stays (Queued rest)) reporter log h.queued) rfl rfl rfl rfl
    (channel_setProxy rfl)
  dropped segs bytes h := h.of_channels
    (Reporting.dropped (R := Stays (Queued rest)) segs bytes h.queued) rfl rfl rfl rfl rfl

instance : Registering (Stays (Published joining cs rest)) where
  registering msgIDs h := h.of_channels
    (Registering.registering (R := Stays (Queued rest)) msgIDs h.queued) rfl rfl rfl rfl
    (channel_setProxy rfl)

instance : Wanting (Stays (Published joining cs rest)) where
  wanting want h := h.of_channels
    (Wanting.wanting (R := Stays (Queued rest)) want h.queued) rfl rfl rfl rfl
    (channel_setProxy rfl)

instance : Ranking (Stays (Published joining cs rest)) where
  ranking level h := h.of_channels
    (Ranking.ranking (R := Stays (Queued rest)) level h.queued) rfl rfl rfl rfl
    (channel_setProxy rfl)

instance : Grouping (Stays (Published joining cs rest)) where
  groups gm h := h.of_channels (Grouping.groups (R := Stays (Queued rest)) gm h.queued)
    rfl rfl rfl rfl rfl
  member id h := h.of_channels (Grouping.member (R := Stays (Queued rest)) id h.queued)
    rfl rfl rfl rfl (channel_setProxy rfl)

instance : Copying (Stays (Published joining cs rest)) where
  blockInfo info bytes h := h.of_channels
    (Copying.blockInfo (R := Stays (Queued rest)) info bytes h.queued) rfl rfl rfl rfl rfl

instance : Reserving (Stays (Published joining cs rest)) where
  reserved n h := h.of_channels (Reserving.reserved (R := Stays (Queued rest)) n h.queued)
    rfl rfl rfl rfl rfl
  granted n n' h := h.of_channels (Reserving.granted (R := Stays (Queued rest)) n n' h.queued)
    rfl rfl rfl rfl (channel_setProxy rfl)

instance (c : Nat) (slabIDs : List Nat) :
    Moves (Stays (Published joining cs rest)) (indexing c slabIDs) := .modify fun _ h =>
  h.of_channels (h.queued.of_slabs rfl h.queued.free (fun _ => id) fun _ => List.Subset.refl _)
    rfl rfl rfl rfl rfl

instance (c fd : Nat) (call : HandlerCall) [plain : Plain call] :
    Moves (Stays (Published joining cs rest)) (sendOn c fd (.ctrl call)) := .stays fun m h => by
  apply h.sendOn
  · intro _ s none
    cases none
  · intro which str eq
    exact plain.plain which str (Sent.ctrl.inj eq)

end

/-! ## What is handed out -/

/-- Client `c` is up to date. -/
class Listed (joining cs : List Nat) (c : Nat) : Prop where
  mem : c ∈ joining ++ cs

instance (cs : List Nat) (c : Nat) : Listed [c] cs c := ⟨List.mem_cons_self⟩

section
variable {m : Manager} {joining cs : List Nat} {rest : List WantedSegment} {c : Nat}

theorem Published.lt (h : m.Published joining cs rest) {s : Nat} (valid : m.slabManager.Valid s) :
    s < m.params.slabsPerBuf * m.slabManager.numBuffers := by
  rw [← h.perBuf]
  exact h.queued.free.lt valid

theorem Published.listed (h : m.Published joining cs rest) (live : c ∈ m.clients) :
    Listed joining cs c := by
  rw [h.clients] at live
  exact ⟨List.mem_append_right _ live⟩

theorem Published.sendIDs (h : m.Published joining cs rest) [Listed joining cs c]
    {kind : List Nat → Sent} {ids : List Nat}
    (slabs : ∀ s ∈ (kind ids).slabs m.blocksPerSlab, m.slabManager.Valid s)
    (plain : ∀ which str, kind ids ≠ .ctrl (.ctrlString which str)) :
    wp (sendIDs c kind ids) m (fun _ => Published joining cs rest)
      (fun _ => Published joining cs rest) := by
  simp only [Mcsb.sendIDs, wp_bind, wp_getProxy, wp_ite, wp_fail, wp_pure]
  split
  · exact h
  · split
    · apply h.sendOn
      · intro working s mem
        exact (h.told c Listed.mem).announces working (h.lt (slabs s mem))
      · exact plain
    · exact h

end

/-- What moving slabs and segments leaves alone. -/
abbrev fixtures (m : Manager) : Params × Nat × Nat := (m.params, m.slabManager.shape)

theorem valid_of_fixtures {m m' : Manager} (same : m'.fixtures = m.fixtures) (s : Nat) :
    m'.slabManager.Valid s ↔ m.slabManager.Valid s := by
  simp only [fixtures, Prod.mk.injEq] at same
  rw [SlabManager.Valid, SlabManager.Valid, same.2.1, same.2.2]

instance : Steady (Keeps fixtures) where
  inside {m m'} same calm _ := by
    simp only [Manager.settings, Prod.mk.injEq] at same
    show m'.fixtures = m.fixtures
    simp only [fixtures, same.1, true_and, Prod.mk.injEq]
    exact Prod.mk.inj calm.shape
  proxy _ := rfl

instance : Sending (Keeps fixtures) := ⟨fun _ _ => rfl⟩
instance : Reporting (Keeps fixtures) := ⟨fun _ _ => rfl, fun _ _ => rfl⟩

section
variable {m : Manager} {joining cs : List Nat} {rest : List WantedSegment} {c : Nat}

/-- After a part that changes no fixture. -/
theorem Published.then {α β : Type} (h : m.Published joining cs rest) {x : Act α} {f : α → Act β}
    [Moves (Stays (Published joining cs rest)) x] [Moves (Keeps fixtures) x]
    (next : ∀ a m', m'.Published joining cs rest → m'.fixtures = m.fixtures →
      wp (f a) m' (fun _ => Published joining cs rest) (fun _ => Published joining cs rest)) :
    wp (x >>= f) m (fun _ => Published joining cs rest)
      (fun _ => Published joining cs rest) := by
  rw [wp_bind]
  apply wp_mono (wp_and (Moves.wp_stays h) (Moves.moves (R := Keeps fixtures) m))
  · rintro a m' ⟨published, same⟩
    exact next a m' published same
  · rintro _ _ ⟨published, -⟩
    exact published

theorem Published.swallow {x : Act Unit}
    (kept : wp x m (fun _ => Published joining cs rest) (fun _ => Published joining cs rest)) :
    wp (swallow x) m (fun _ => Published joining cs rest)
      (fun _ => Published joining cs rest) := by
  rw [wp_swallow]
  apply wp_mono kept
  · intro _ _
    exact id
  · intro e m' left
    cases e with
    | runtimeError what => exact left
    | stuck => exact left

theorem Published.takeFreeSlabs (h : m.Published joining cs rest) [Listed joining cs c]
    {slabIDs : List Nat} (valid : ∀ s ∈ slabIDs, m.slabManager.Valid s) :
    wp (takeFreeSlabs c slabIDs) m (fun _ => Published joining cs rest)
      (fun _ => Published joining cs rest) := by
  rw [Mcsb.takeFreeSlabs]
  apply h.then
  intro _ m₁ h₁ same₁
  apply h₁.then
  intro _ m₂ h₂ same₂
  apply Moves.wp_bind_stays
  apply Published.swallow
  apply h₂.sendIDs
  · intro s mem
    exact (valid_of_fixtures (same₂.trans same₁) s).mpr (valid s mem)
  · intro which str eq
    cases eq

/-- Free slabs are granted. -/
theorem Published.grant (h : m.Published joining cs rest) [Listed joining cs c] (n : Nat) :
    wp (onSlabs (SlabManager.getFreeSlabs n) >>= Mcsb.takeFreeSlabs c) m
      (fun _ => Published joining cs rest) (fun _ => Published joining cs rest) := by
  have stays := Moves.wp_stays (P := Published joining cs rest)
    (x := onSlabs (SlabManager.getFreeSlabs n)) h
  rw [wp_bind]
  rw [wp_onSlabs] at stays ⊢
  have calm := Moves.moves (R := SlabManager.Calm) (x := SlabManager.getFreeSlabs n) m.slabManager
  apply wp_mono (wp_and stays (wp_and calm (SlabManager.wp_getFreeSlabs_mem n m.slabManager)))
  · rintro slabIDs sm ⟨published, calm, free⟩
    apply published.takeFreeSlabs
    intro s mem
    apply (SlabManager.valid_of_reserves calm.reserves s).mpr
    exact h.queued.free.2 s (free s mem)
  · rintro _ sm ⟨published, -⟩
    exact published

end

instance (joining cs : List Nat) (rest : List WantedSegment) (level : Nat) (req : SlabRequest) :
    Moves (Stays (Published joining cs rest)) (serveRequest level req) := .stays fun m h => by
  rw [serveRequest, wp_bind, wp_get]
  by_cases live : req.id ∈ m.clients ∧ (m.proxy req.id).addr = req.arg
  · rw [if_pos live]
    have := h.listed live.1
    rw [← bind_assoc]
    exact Moves.wp_bind_stays (h.grant 1)
  · rw [if_neg live]
    exact h

section
variable (joining cs : List Nat) (rest : List WantedSegment) (c : Nat) [Listed joining cs c]

instance (n : Nat) (niceLevel : Int) :
    Moves (Stays (Published joining cs rest)) (requestFreeSlabs n c niceLevel) :=
  .stays fun m h => by
  rw [requestFreeSlabs, wp_bind, wp_get]
  by_cases nice : niceLevel + (if m.params.playbackMode then 1 else 0) ≠ 0
  · rw [if_pos nice]
    exact Moves.wp_stays h
  · rw [if_neg nice, wp_ite]
    split
    · exact h
    · rw [wp_bind]
      apply wp_mono (Moves.wp_stays h)
      · intro _ m' harvested
        exact harvested.grant n
      · intro _ _
        exact id

end

section
variable {m : Manager} {joining cs : List Nat} {rest : List WantedSegment} {c : Nat}

/-- Blocks are sent after their slabs were looked up. -/
theorem Published.sendHeld (h : m.Published joining cs rest) [Listed joining cs c]
    {slabIDs : List Nat} {blocks : List (Nat × Nat)}
    (same : slabIDs = blocks.map (·.1 / m.blocksPerSlab)) :
    wp (onSlabs (SlabManager.incrementHeldRefcnt slabIDs) >>= fun _ => proxySendBlockIDs c blocks) m
      (fun _ => Published joining cs rest) (fun _ => Published joining cs rest) := by
  have stays := Moves.wp_stays (P := Published joining cs rest)
    (x := onSlabs (SlabManager.incrementHeldRefcnt slabIDs)) h
  rw [wp_bind]
  rw [wp_onSlabs] at stays ⊢
  have calm := Moves.moves (R := SlabManager.Calm) (x := SlabManager.incrementHeldRefcnt slabIDs)
    m.slabManager
  apply wp_mono (wp_and stays (wp_and calm
    (SlabManager.wp_incrementHeldRefcnt_valid slabIDs m.slabManager)))
  · rintro _ sm ⟨published, calm, valid⟩
    apply Published.swallow
    apply Moves.wp_bind_stays
    apply published.sendIDs
    · intro s mem
      obtain ⟨id, listed, rfl⟩ := List.mem_map.mp mem
      obtain ⟨block, sent, rfl⟩ := List.mem_map.mp listed
      apply (SlabManager.valid_of_reserves calm.reserves _).mpr
      apply valid
      rw [same]
      exact List.mem_map_of_mem sent
    · intro which str eq
      cases eq
  · rintro _ sm ⟨published, -⟩
    exact published

theorem Published.sendWanted (h : m.Published joining cs rest) [Listed joining cs c]
    {slabID : Nat} {seg : WantedSegment} (size : Nat)
    (same : slabID = seg.blockID / m.blocksPerSlab) :
    wp (sendWanted c slabID seg size) m (fun _ => Published joining cs rest)
      (fun _ => Published joining cs rest) :=
  h.sendHeld (congrArg (fun s => [s]) same)

end

section
variable (joining cs : List Nat) (rest : List WantedSegment)

instance (c : Nat) [Listed joining cs c] (seg : WantedSegment) :
    Moves (Stays (Published joining cs rest)) (popWanted c seg) := .stays fun m h => by
  rw [popWanted, wp_bind, wp_get, wp_ite]
  split
  · apply h.then
    intro taken m' h' same
    cases taken with
    | false =>
      rw [wp_ite, if_neg Bool.false_ne_true]
      exact Moves.wp_stays h'
    | true =>
      apply Moves.wp_bind_stays
      apply h'.sendWanted
      rw [blocksPerSlab, blocksPerSlab, (Prod.mk.inj same).1]
  · exact Moves.wp_stays h

instance (c : Nat) [Listed joining cs c] (send : List Segment) :
    Moves (Stays (Published joining cs rest)) (sendTaken c send) := .stays fun m h => by
  rw [sendTaken, wp_ite, wp_pure]
  split
  · exact h
  · rw [wp_bind, wp_get]
    apply h.sendHeld
    rw [List.map_map]
    rfl

/-- All clients that a frame is offered to are up to date. -/
instance (segs : List Segment) (gid : Int16) :
    Moves (Stays (Published joining cs rest)) (takeBlocksAndInfo segs gid) := .stays fun m h => by
  have offers (l : List Nat) (listed : ∀ c ∈ l, Listed joining cs c) :
      Moves (Stays (Published joining cs rest)) (offerSegments segs gid l) := by
    induction l with
    | nil => exact inferInstanceAs (Moves _ (pure _))
    | cons c l ih =>
      have := listed c List.mem_cons_self
      have := ih fun x mem => listed x (List.mem_cons_of_mem c mem)
      unfold offerSegments
      infer_instance
  rw [takeBlocksAndInfo, wp_bind]
  apply wp_mono (Moves.wp_stays h)
  · intro _ m' copied
    have := offers m'.clients fun c live => copied.listed live
    rw [wp_bind, wp_modify, wp_bind, wp_get]
    have counted (stats : ManagerStats) : Published joining cs rest { m' with stats } :=
      copied.of_channels (copied.queued.of_slabs rfl copied.queued.free (fun _ => id)
        fun _ => List.Subset.refl _) rfl rfl rfl rfl rfl
    exact Moves.wp_stays (counted _)
  · intro _ _
    exact id

end

/-- The queue that a destructor empties is the client's own. -/
instance (joining cs : List Nat) (c : Nat) : Moves (Stays (Published joining cs []))
    (getProxy c >>= fun p => releaseQueue c p.wantedQueue) := .stays fun m h => by
  have empties (queue : List WantedSegment) (m : Manager) (h : m.Published joining cs queue) :
      wp (releaseQueue c queue) m (fun _ => Published joining cs [])
        (fun _ => Published joining cs []) := by
    induction queue generalizing m with
    | nil => exact h
    | cons seg queue ih =>
      have fewer : m.Queued queue := ⟨h.queued.free, h.queued.queued,
        fun seg mem => h.queued.rest seg (List.mem_cons_of_mem _ mem)⟩
      have dropped : Published joining cs queue
          (m.setProxy c { m.proxy c with wantedQueue := queue }) :=
        h.of_channels (fewer.setProxy fewer.rest) rfl rfl rfl rfl (channel_setProxy rfl)
      rw [releaseQueue, wp_bind, wp_modifyProxy, wp_bind]
      apply wp_mono (Moves.wp_stays dropped)
      · intro _ m' released
        exact ih m' released
      · intro _ m' left
        exact left.of_channels ⟨left.queued.free, left.queued.queued, by simp⟩ rfl rfl rfl rfl rfl
  rw [wp_bind, wp_getProxy]
  apply empties
  exact h.of_channels ⟨h.queued.free, h.queued.queued, h.queued.queued c⟩ rfl rfl rfl rfl rfl

/-! ## Buffers are announced -/

section
variable {m : Manager} {told : List Nat} {rest : List WantedSegment}

/-- After a name string the client is up to date. -/
theorem Publishing.checkBufferParams (h : m.Publishing told rest) (c : Nat) :
    wp (checkBufferParams c) m
      (fun _ m' => m'.Publishing (c :: told) rest ∧ m'.clients = m.clients) (fun _ _ => False) := by
  have others : ∀ x ∈ c :: told, x ≠ c → x ∈ told := by
    intro x mem ne
    exact (List.mem_cons.mp mem).resolve_left ne
  simp only [Mcsb.checkBufferParams, wp_bind, wp_get, wp_modifyProxy, wp_swallow, sendCtrl,
    Mcsb.sendOn, wp_getProxy, wp_ite, wp_fail, proxy_setProxy, setProxy_setProxy]
  split
  · rename_i failed
    constructor
    · apply h.setChannel
      case queue => exact List.Subset.refl _
      case others => exact others
      case ordered => exact (h.ordered c).note
      case upToDate =>
        intro _ working
        exact absurd (failed.symm.trans working) (by decide)
    · rfl
  · split
    · constructor
      · apply h.setChannel
        case queue => exact List.Subset.refl _
        case others => exact others
        case ordered =>
          apply (h.ordered c).note.push
          · intro s none
            cases none
          · intro which str eq
            cases eq
            exact ⟨rfl, m.shmMapper.numBuffers, List.mem_append_right _ List.mem_cons_self⟩
        case upToDate =>
          intro _ _
          refine ⟨(m.proxy c).sock.out.length, m.shmMapper.numBuffers, ⟨?_, ?_⟩, h.mapped⟩
          · exact List.mem_append_right _ List.mem_cons_self
          · exact List.getElem?_concat_length
      · rfl
    · constructor
      · apply h.setChannel
        case queue => exact List.Subset.refl _
        case others => exact others
        case ordered => exact (h.ordered c).note.fail
        case upToDate =>
          intro _ working
          cases working
      · rfl

theorem Publishing.checkAllBufferParams (h : m.Publishing told rest) (cs : List Nat) :
    wp (checkAllBufferParams cs) m
      (fun _ m' => m'.Publishing (cs ++ told) rest ∧ m'.clients = m.clients)
      (fun _ _ => False) := by
  induction cs generalizing m told with
  | nil => exact ⟨h, rfl⟩
  | cons c cs ih =>
    rw [Mcsb.checkAllBufferParams, wp_bind]
    apply wp_mono (h.checkBufferParams c)
    · rintro _ m' ⟨announced, clients⟩
      apply wp_mono (ih announced)
      · rintro _ m'' ⟨all, clients'⟩
        refine ⟨all.of_subset fun x mem => ?_, clients'.trans clients⟩
        simpa [or_left_comm, or_assoc] using mem
      · intro _ _
        exact id
    · intro _ _
      exact id

/-- All clients are told when the slab manager gets the new buffers. -/
theorem Publishing.tellAll (h : m.Publishing [] rest) : wp (Mcsb.checkAllBufferParams m.clients) m
    (fun _ m' => m'.Published [] m.clients rest) (fun _ _ => False) := by
  apply wp_mono (h.checkAllBufferParams m.clients)
  · rintro _ m' ⟨all, clients⟩
    rw [List.append_nil] at all
    exact ⟨all, clients⟩
  · intro _ _
    exact id

/-- No slab manager has more than the buffers mapped. -/
theorem Publishing.grownTo {b : Nat} {shm : ShmMapper} (queued : m.Queued rest)
    (perBuf : m.slabManager.slabsPerBuf = m.params.slabsPerBuf)
    (enough : m.slabManager.numBuffers ≤ b) (buffers : shm.numBuffers = b)
    (ordered : ∀ c, (m.channel c).Ordered m.params b) : (m.grownTo b shm).Publishing [] rest := by
  constructor
  · exact queued.of_slabs rfl (SlabManager.freeValid_setNumBuffers queued.free b)
      (fun s => SlabManager.valid_setNumBuffers b) fun _ => List.Subset.refl _
  · exact (SlabManager.slabsPerBuf_setNumBuffers ..).trans perBuf
  · show (m.slabManager.setNumBuffers b).numBuffers ≤ shm.numBuffers
    rw [numBuffers_setNumBuffers, max_eq_right enough, buffers]
  · show ∀ c, (m.channel c).Ordered m.params shm.numBuffers
    rw [buffers]
    exact ordered
  · intro c none
    cases none

end

theorem Published.remapped {m : Manager} {joining cs : List Nat} {rest : List WantedSegment}
    (h : m.Published joining cs rest) {shm : ShmMapper}
    (more : m.shmMapper.numBuffers ≤ shm.numBuffers) :
    Published joining cs rest { m with shmMapper := shm } := by
  constructor
  · constructor
    · exact h.queued.of_slabs rfl h.queued.free (fun _ => id) fun _ => List.Subset.refl _
    · exact h.perBuf
    · exact h.mapped.trans more
    · exact fun c => (h.ordered c).mono more
    · exact h.told
  · exact h.clients

instance (cs : List Nat) (rest : List WantedSegment) (n : Nat) :
    Moves (Stays (Published [] cs rest)) (increaseNumBuffers n) := .stays fun m h => by
  apply wp_increaseNumBuffers_cases
  case still =>
    intro _ _
    exact h
  case fails =>
    rintro k shm _ ⟨j, _, made, all, _, rfl⟩ what
    apply h.remapped
    exact all.1.symm ▸ Nat.le_add_right _ _
  case unlocked =>
    intro k shm _ all _ what
    apply h.remapped
    exact all.1.symm ▸ Nat.le_add_right _ _
  case grown =>
    intro k shm _ all _
    have more := Nat.le_add_right m.shmMapper.numBuffers k
    have clients := h.clients
    subst clients
    apply wp_mono (Publishing.tellAll (Publishing.grownTo h.queued h.perBuf (h.mapped.trans more)
      all.1 fun c => (h.ordered c).mono more))
    · intro _ _
      exact id
    · intro _ _
      exact False.elim

/-! ## Every run -/

theorem start_published {params : Params} {m : Manager} (h : start params = some m)
    (fits : params.numBuffers ≤ params.maxNumBuffers) : m.Published [] m.clients [] := by
  refine start_eq_some (Q := fun m => m.Published [] m.clients []) (E := fun _ _ => True) ?_ h
  intro slabManager made
  have perBuf : slabManager.slabsPerBuf = params.slabsPerBuf := by
    rw [made]
    exact SlabManager.slabsPerBuf_setNumBuffers ..
  have buffers : slabManager.numBuffers = params.numBuffers := by
    rw [made, SlabManager.new, numBuffers_setNumBuffers]
    exact Nat.zero_max _
  have asked (n : Nat) (some : n ≠ 0) : buffersAsked { params, slabManager } n = n := if_neg some
  apply wp_increaseNumBuffers_cases
  case still =>
    intro _ refused
    have none : params.numBuffers = 0 := by
      by_contra some
      rw [asked _ some] at refused
      rcases refused with ⟨-, zero⟩ | ⟨-, more | fewer⟩
      · exact some zero
      · exact absurd fits (Nat.not_le.mpr more)
      · cases fewer
    constructor
    · constructor
      · exact queued_new made
      · exact perBuf
      · exact (buffers.trans none).le
      · exact fun _ => Channel.ordered_nil ..
      · intro c none
        cases none
    · rfl
  case fails =>
    intro _ _ _ _ _
    trivial
  case unlocked =>
    intro _ _ _ _ _ _
    trivial
  case grown =>
    intro k shm tries all _
    have target : params.numBuffers = 0 + k := (asked _ tries.other).symm.trans tries.asked
    have grown : (grownTo { params, slabManager } (0 + k) shm).Publishing [] [] :=
      Publishing.grownTo (queued_new made) perBuf (buffers.trans target).le all.1
        fun _ => Channel.ordered_nil ..
    apply wp_mono grown.tellAll
    · intro _ m' told
      rw [told.clients]
      exact told
    · intro _ _ _
      trivial

/-- With the clients that there are. -/
def Advertised (joining : List Nat) (m : Manager) : Prop := m.Published joining m.clients []

theorem Published.advertised {m : Manager} {joining cs : List Nat}
    (h : m.Published joining cs []) : m.Advertised joining := by
  rw [Advertised, h.clients]
  exact h

instance {α : Type} (joining : List Nat) (x : Act α)
    [∀ cs, Moves (Stays (Published joining cs [])) x] : Moves (Stays (Advertised joining)) x :=
  .stays fun m h => by
    apply wp_mono (Moves.wp_stays (P := Published joining m.clients []) h)
    · intro _ m' kept
      exact kept.advertised
    · intro _ m' left
      exact left.advertised

section
variable {m : Manager}

theorem Advertised.connect (h : m.Advertised []) (addr : Nat) (accepts : Nat → Bool) :
    wp (addConnectedClient addr accepts) m (fun _ => Advertised []) (fun _ _ => True) := by
  apply wp_addConnectedClient_sized (P := Advertised) h
  case fresh =>
    intro c next new
    have numbered : Published [] m.clients [] { m with nextNewClientID := next } :=
      h.of_channels (h.queued.of_slabs rfl h.queued.free (fun _ => id)
        fun _ => List.Subset.refl _) rfl rfl rfl rfl rfl
    constructor
    · apply numbered.setChannel
      case queue => exact List.nil_subset _
      case ordered => exact Channel.ordered_nil ..
      case others =>
        intro x live _
        exact live
      case upToDate =>
        intro live
        exact absurd live new
    · rfl
  case resize =>
    intro m c announced
    apply wp_mono (announced.checkBufferParams c)
    · rintro _ m' ⟨resized, clients⟩
      exact ⟨clients ▸ resized, rfl⟩
    · intro _ _
      exact False.elim
  case join =>
    intro m c filled
    have joined : m.Publishing (m.clients.orderedInsert (· ≤ ·) c) [] := by
      apply filled.of_subset
      intro x mem
      rw [List.mem_orderedInsert] at mem
      exact List.mem_cons.mpr mem
    exact ⟨joined.of_channels (joined.queued.of_slabs rfl joined.queued.free (fun _ => id)
      fun _ => List.Subset.refl _) rfl rfl rfl rfl, rfl⟩
  case drop =>
    intro m c left
    exact ⟨left.of_subset (List.subset_append_right _ _), rfl⟩

end

theorem Run.advertised {params : Params} {ok : History → Manager → Event → Prop} {hist : History}
    {m : Manager} (run : Run params ok hist m) (fits : params.numBuffers ≤ params.maxNumBuffers) :
    m.Advertised [] := by
  apply run.invariant
  case first =>
    intro m first
    exact start_published first fits
  case connect =>
    intro m addr accepts announced
    exact announced.connect addr accepts
  case delete =>
    intro m c announced
    apply wp_deleteClient.mpr
    have fewer : m.Publishing (m.clients.erase c) [] := announced.of_subset List.erase_subset
    have erased : Advertised [] { m with clients := m.clients.erase c } :=
      ⟨fewer.of_channels (fewer.queued.of_slabs rfl fewer.queued.free (fun _ => id)
        fun _ => List.Subset.refl _) rfl rfl rfl rfl, rfl⟩
    apply wp_mono (Moves.wp_stays erased)
    · intro _ _
      exact id
    · intro _ _ _
      trivial
  case handle =>
    intro m c f live announced
    have := Published.listed announced live
    have moves : Moves (Stays (Published [] m.clients [])) (f.handle c) := by
      apply Gentle.moves_handle
      · intro type cid gid msgIDs _
        infer_instance
      · intro new current _
        infer_instance
      · intro level _
        infer_instance
    apply wp_mono (Moves.wp_stays (P := Published [] m.clients []) announced)
    · intro _ m' handled
      exact handled.advertised
    · intro _ m' left
      exact left.advertised

/-- What the first header can show while client `c` handles each message: it has
been the first buffers from the start, and all those of a name string since that
was sent. -/
structure Shown (m : Manager) (c : Nat) (reads : Nat → Nat → Nat) : Prop extends Grows reads where
  first : m.params.numBuffers ≤ reads 0 0
  later : ∀ j n, (j, n) ∈ (m.proxy c).announced → n ≤ reads j 0

/-- A client that comes to a slab or a block of it has handled a name string
before that was sent with its buffer there, and has mapped the buffer, and the
manager's tracker covers it. It does come to it unless the manager gets ahead of it
while it maps buffers. -/
theorem announced_before_use {params : Params} {hist : History} {m : Manager}
    (run : Run params (fun _ _ _ => True) hist m) (named : params.shmNameFormat ≠ [])
    (fits : params.numBuffers ≤ params.maxNumBuffers) {c i s : Nat} {sent : Sent}
    (at_ : (m.proxy c).sock.out[i]? = some sent) (mem : s ∈ sent.slabs params.blocksPerSlab) :
    (∃ j < i, ∃ n, (j, n) ∈ (m.proxy c).announced ∧ s / params.slabsPerBuf < n ∧
      (m.proxy c).sock.out[j]? = some (shmName params.shmNameFormat)) ∧
    s < m.tracked c ∧
    ∀ reads, m.Shown c reads →
      (∀ shm, takeAll reads 0 {} ((m.proxy c).sock.out.take i) = some shm →
        s / params.slabsPerBuf < shm.numBuffers) ∧
      (Undisturbed params.shmNameFormat reads 0 ((m.proxy c).sock.out.take i) →
        (takeAll reads 0 {} ((m.proxy c).sock.out.take i)).isSome) := by
  have announced := run.advertised fits
  have same := run.params_eq
  subst same
  obtain ⟨j, n, ⟨listed, name⟩, lt, within⟩ := (announced.ordered c).before i sent at_ s mem
  have inside : s / m.params.slabsPerBuf < n := by
    rw [Nat.div_lt_iff_lt_mul m.params.slabs_pos, Nat.mul_comm]
    exact within
  constructor
  · exact ⟨j, lt, n, listed, inside, name⟩
  constructor
  · exact within.trans_le ((announced.ordered c).covers j n listed)
  · intro reads shown
    have mapped : 0 < m.shmMapper.numBuffers :=
      (Nat.zero_lt_of_lt inside).trans_le ((announced.ordered c).past j n listed)
    have pos := (run.mapped.some.mp mapped).1.trans_le shown.first
    have names (which : UInt32) (str : List UInt8)
        (mem : .ctrl (.ctrlString which str) ∈ (m.proxy c).sock.out.take i) :
        Sent.ctrl (.ctrlString which str) = shmName m.params.shmNameFormat := by
      obtain ⟨k, at_⟩ := List.getElem?_of_mem (List.mem_of_mem_take mem)
      exact ((announced.ordered c).names k which str at_).1
    constructor
    · intro shm took
      obtain ⟨-, maps⟩ := takeAll_maps named shown.toGrows pos names 0 (.inl rfl) took
      have all := maps j (by rwa [List.getElem?_take_of_lt lt])
      rw [Nat.zero_add] at all
      exact inside.trans_le ((shown.later j n listed).trans all)
    · exact takeAll_isSome named shown.toGrows pos names 0 (.inl rfl)

/-- Four slabs in a buffer, and memory for a second one. -/
def namedBuffers : Params := { fourSlabs with
  maxNumBuffers := 2
  pctNonreservable := 0
  shmNameFormat := [109, 37, 100]
  createBuffer := fun i => if i = 0 ∨ i = 1 then .locked else .fails
  memory := by
    intro i success
    have there : i = 0 ∨ i = 1 := by
      by_contra later
      exact success (if_neg later)
    rcases there with rfl | rfl
    · decide
    · decide
  pct_nonneg := by decide
  pct_le := by decide }

/-- The header while the messages are handled: the manager adds the buffer after it
has sent the first name string. -/
def grown (i _ : Nat) : Nat := if i < 3 then 1 else 2

/-- The client asks for more slabs than there are, and gets some of a second buffer. -/
theorem announced_before_use_granted : ∃ hist m,
    trace namedBuffers (fun _ _ _ => True) (asksFor 5 1) = some (hist, m) ∧
      m.shmMapper.numBuffers = 2 ∧ (m.proxy 0).sock.out[5]? = some (.slabIDs [0, 1, 2, 3, 4]) ∧
      (∃ j < 5, ∃ n, (j, n) ∈ (m.proxy 0).announced ∧ 1 < n ∧
        (m.proxy 0).sock.out[j]? = some (shmName namedBuffers.shmNameFormat)) ∧
      4 < m.tracked 0 ∧
      ∃ shm, takeAll grown 0 {} ((m.proxy 0).sock.out.take 5) = some shm ∧ 1 < shm.numBuffers := by
  have ran : (trace namedBuffers (fun _ _ _ => True) (asksFor 5 1)).any
      (fun run => run.2.shmMapper.numBuffers = 2 ∧
        (run.2.proxy 0).sock.out[5]? = some (.slabIDs [0, 1, 2, 3, 4]) ∧
        (run.2.proxy 0).announced = [(2, 1), (3, 2)]) = true := by
    decide +kernel
  obtain ⟨⟨hist, m⟩, eq, found⟩ := (Option.any_eq_true _ _).mp ran
  obtain ⟨buffers, at_, announced⟩ := of_decide_eq_true found
  have run := run_of_trace eq
  obtain ⟨before, covered, client⟩ :=
    announced_before_use run (by decide) (by decide) at_ (s := 4) (by decide)
  have shown : m.Shown 0 grown := by
    constructor
    case toGrows =>
      constructor
      · exact fun _ _ _ _ => le_rfl
      · intro i k
        unfold grown
        split <;> split <;> omega
    case first =>
      rw [run.params_eq]
      exact le_rfl
    case later =>
      rw [announced]
      intro j n mem
      simp only [List.mem_cons, Prod.mk.injEq, List.not_mem_nil, or_false] at mem
      rcases mem with ⟨rfl, rfl⟩ | ⟨rfl, rfl⟩ <;> decide
  obtain ⟨maps, comes⟩ := client grown shown
  obtain ⟨shm, took⟩ := Option.isSome_iff_exists.mp (comes fun _ _ _ => rfl)
  exact ⟨hist, m, eq, buffers, at_, before, covered, shm, took, maps shm took⟩

end Manager
end Mcsb
