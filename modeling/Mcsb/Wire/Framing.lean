import Mcsb.Wire.Poll

/-!
# The framing round trip

Raw IDs and framed control messages share one stream. Whatever the chunks in
which `recv` returns it, `Poll` delivers what was sent, in order, and leaves
less than one control message unconsumed (`polls_deliver`).
-/

namespace Mcsb
open LittleEndian

/-- `SendBlockIDs` on a socket that takes every byte: what it writes. -/
def sendBlockIDs (blockIDs : List UInt32) : List UInt8 := array word32 blockIDs

/-- `SendSlabIDs` sets the slab mask in a copy. -/
def sendSlabIDs (slabIDs : List UInt32) : List UInt8 := sendBlockIDs (slabIDs.map (· ||| kSlabMask))

/-- One send call of the peer. -/
inductive Item where
  | blockIDs (ids : List UInt32)
  | slabIDs (ids : List UInt32)
  | ctrlMsg (msg : CtrlMsg)
  deriving DecidableEq, Repr

def Item.bytes : Item → List UInt8
  | .blockIDs ids => sendBlockIDs ids
  | .slabIDs ids => sendSlabIDs ids
  | .ctrlMsg msg => msg.bytes

/-- What is delivered: one ID, or one control message. Batches of IDs fall
into their IDs, so two call sequences with the same units are equal once
adjacent batches of one kind are concatenated. -/
inductive Delivered where
  | blockID (id : UInt32)
  | slabID (id : UInt32)
  | ctrlMsg (msg : CtrlMsg)
  deriving DecidableEq, Repr

def Item.units : Item → List Delivered
  | .blockIDs ids => ids.map .blockID
  | .slabIDs ids => ids.map .slabID
  | .ctrlMsg msg => [.ctrlMsg msg]

def Call.units : Call → List Delivered
  | .blockIDs ids => ids.map .blockID
  | .slabIDs ids => ids.map .slabID
  | .ctrlMsg msg => [.ctrlMsg msg]

def CtrlMsg.Sendable (m : CtrlMsg) : Prop :=
  m.payload.length % 4 = 0 ∧ m.payload.length ≤ kMaxPayloadSize

def Item.Sendable : Item → Prop
  | .blockIDs ids => ∀ id ∈ ids, id < 0x80000000
  | .slabIDs ids => ∀ id ∈ ids, id < 0x7FFFFFFF
  | .ctrlMsg msg => msg.Sendable

/-- The message of `SendValidatePeer`. -/
def validatePeerMsg : CtrlMsg :=
  ⟨kCtrlMsgID_ValidatePeer, word32 kProtocolMagic ++ word32 kProtocolVersion⟩

/-- The handlers return normally: those for IDs on any IDs, and
`LocalHandleCtrlMsg` on each message sent, whatever stands after it. -/
structure Quiet {σ : Type} (h : Handlers σ) (msgs : CtrlMsg → Prop) : Prop where
  blockIDs : ∀ user ids, ∃ user', h.handleBlockIDs user ids = .ok user'
  slabIDs : ∀ user ids, ∃ user', h.handleSlabIDs user ids = .ok user'
  ctrlMsg : ∀ msg, msgs msg → ∀ peer : Peer σ, peer.validPeer = true → ∀ after, ∃ peer',
    localHandleCtrlMsg h peer msg.msgID (msg.payload ++ after) msg.payload.length = .ok peer'

section masks
variable {id : UInt32}

theorem block_and_mask (h : id < 0x80000000) : id &&& kSlabMask = 0 := by
  have small : id.toNat < 2 ^ 31 := UInt32.lt_iff_toNat_lt.mp h
  apply UInt32.toNat_inj.mp
  rw [UInt32.toNat_and, show kSlabMask.toNat = 2 ^ 31 from rfl]
  apply Nat.eq_of_testBit_eq
  intro i
  rw [Nat.testBit_and, Nat.testBit_two_pow]
  by_cases top : 31 = i
  · subst top
    simp [Nat.testBit_lt_two_pow small]
  · simp [top]

theorem toNat_slab_word (h : id < 0x7FFFFFFF) : (id ||| kSlabMask).toNat = 2 ^ 31 + id.toNat := by
  have small : id.toNat < 2 ^ 31 - 1 := UInt32.lt_iff_toNat_lt.mp h
  rw [UInt32.toNat_or, show kSlabMask.toNat = 2 ^ 31 * 1 from rfl, Nat.or_comm,
    ← Nat.two_pow_add_eq_or_of_lt (by omega), Nat.mul_one]

theorem slab_word_and_mask : (id ||| kSlabMask) &&& kSlabMask = kSlabMask := by
  apply UInt32.toNat_inj.mp
  rw [UInt32.toNat_and, UInt32.toNat_or]
  apply Nat.eq_of_testBit_eq
  intro i
  rw [Nat.testBit_and, Nat.testBit_or]
  cases kSlabMask.toNat.testBit i <;> simp

theorem slab_word_unmask (h : id < 0x7FFFFFFF) : (id ||| kSlabMask) &&& ~~~kSlabMask = id := by
  have small : id.toNat < 2 ^ 31 - 1 := UInt32.lt_iff_toNat_lt.mp h
  apply UInt32.toNat_inj.mp
  rw [UInt32.toNat_and, toNat_slab_word h, show (~~~kSlabMask).toNat = 2 ^ 31 - 1 from rfl,
    Nat.and_two_pow_sub_one_eq_mod]
  omega

theorem block_ne_token (h : id < 0x80000000) : id ≠ kToken := by
  rintro rfl
  exact absurd h (by decide)

theorem slab_word_ne_token (h : id < 0x7FFFFFFF) : id ||| kSlabMask ≠ kToken := by
  intro eq
  have word := toNat_slab_word h
  have small : id.toNat < 2 ^ 31 - 1 := UInt32.lt_iff_toNat_lt.mp h
  rw [eq, show kToken.toNat = 2 ^ 32 - 1 from rfl] at word
  omega

end masks

/-! ## Units on the wire -/

def Delivered.bytes : Delivered → List UInt8
  | .blockID id => word32 id
  | .slabID id => word32 (id ||| kSlabMask)
  | .ctrlMsg msg => msg.bytes

def Delivered.Sendable : Delivered → Prop
  | .blockID id => id < 0x80000000
  | .slabID id => id < 0x7FFFFFFF
  | .ctrlMsg msg => msg.Sendable

/-- The bytes of a sequence of units. -/
def wire (units : List Delivered) : List UInt8 := array Delivered.bytes units

theorem wire_append (us vs : List Delivered) : wire (us ++ vs) = wire us ++ wire vs :=
  array_append _ us vs

@[simp] theorem wire_nil : wire [] = [] := rfl

@[simp] theorem wire_cons (u : Delivered) (us : List Delivered) :
    wire (u :: us) = u.bytes ++ wire us := array_cons _ u us

theorem wire_blockIDs (ids : List UInt32) : wire (ids.map .blockID) = array word32 ids := by
  simp only [wire, array, List.flatMap_map]
  rfl

theorem wire_slabIDs (ids : List UInt32) :
    wire (ids.map .slabID) = array word32 (ids.map (· ||| kSlabMask)) := by
  simp only [wire, array, List.flatMap_map]
  rfl

theorem Item.bytes_eq_wire (item : Item) : item.bytes = wire item.units := by
  cases item with
  | blockIDs ids => exact (wire_blockIDs ids).symm
  | slabIDs ids => exact (wire_slabIDs ids).symm
  | ctrlMsg msg => simp [Item.bytes, Item.units, Delivered.bytes]

theorem bytes_items_eq_wire (items : List Item) :
    items.flatMap Item.bytes = wire (items.flatMap Item.units) := by
  induction items with
  | nil => rfl
  | cons item items ih =>
    rw [List.flatMap_cons, List.flatMap_cons, wire_append, ih, Item.bytes_eq_wire]

theorem Item.sendable_units {item : Item} (h : item.Sendable) :
    ∀ u ∈ item.units, u.Sendable := by
  cases item with
  | blockIDs ids => simpa [Item.units, Delivered.Sendable, Item.Sendable] using h
  | slabIDs ids => simpa [Item.units, Delivered.Sendable, Item.Sendable] using h
  | ctrlMsg msg => simpa [Item.units, Delivered.Sendable, Item.Sendable] using h

theorem sendable_items {items : List Item} (h : ∀ item ∈ items, item.Sendable) :
    ∀ u ∈ items.flatMap Item.units, u.Sendable := by
  intro u hu
  obtain ⟨item, mem, hu⟩ := List.mem_flatMap.mp hu
  exact Item.sendable_units (h item mem) u hu

/-- Too little to parse: part of a word, or part of a control message. -/
def Stuck (tail : List UInt8) : Prop :=
  tail.length < 4 ∨ ∃ msg : CtrlMsg, msg.Sendable ∧ tail.length < msg.bytes.length ∧ tail <+: msg.bytes

theorem Stuck.length_lt {tail : List UInt8} (h : Stuck tail) : tail.length < kMaxCtrlMsgSize := by
  rcases h with short | ⟨msg, ⟨-, le⟩, lt, -⟩
  · rw [kMaxCtrlMsgSize, sizeofCtrlMsgHdr]
    omega
  · rw [CtrlMsg.length_bytes] at lt
    rw [kMaxCtrlMsgSize]
    omega

/-- A cut in the middle of a unit leaves something stuck. -/
theorem stuck_of_cut {u : Delivered} (hu : u.Sendable) {tail : List UInt8} (pre : tail <+: u.bytes)
    (lt : tail.length < u.bytes.length) : Stuck tail := by
  cases u with
  | blockID id => exact .inl (by simpa [Delivered.bytes] using lt)
  | slabID id => exact .inl (by simpa [Delivered.bytes] using lt)
  | ctrlMsg msg => exact .inr ⟨msg, hu, lt, pre⟩

/-- Wherever the bytes of some units are cut, whole units stand before the
cut, and what is left of the cut unit is stuck. -/
theorem wire_cut (units : List Delivered) (hu : ∀ u ∈ units, u.Sendable)
    (data stream : List UInt8) (eq : wire units = data ++ stream) :
    ∃ done todo tail, units = done ++ todo ∧ data = wire done ++ tail ∧
      wire todo = tail ++ stream ∧ Stuck tail := by
  induction units generalizing data with
  | nil =>
    obtain ⟨rfl, rfl⟩ : data = [] ∧ stream = [] := by simpa using eq.symm
    exact ⟨[], [], [], rfl, rfl, rfl, .inl (by decide)⟩
  | cons u units ih =>
    rw [wire_cons] at eq
    have dataPre : data <+: u.bytes ++ wire units := ⟨stream, eq.symm⟩
    have unitPre : u.bytes <+: u.bytes ++ wire units := List.prefix_append _ _
    rcases Nat.lt_or_ge data.length u.bytes.length with lt | ge
    · have pre := List.prefix_of_prefix_length_le dataPre unitPre (Nat.le_of_lt lt)
      exact ⟨[], u :: units, data, rfl, rfl, by rw [wire_cons, eq],
        stuck_of_cut (hu u (by simp)) pre lt⟩
    · obtain ⟨more, rfl⟩ := List.prefix_of_prefix_length_le unitPre dataPre ge
      rw [List.append_assoc, List.append_cancel_left_eq] at eq
      obtain ⟨done, todo, tail, rfl, rfl, wired, stuck⟩ :=
        ih (fun v hv => hu v (List.mem_cons_of_mem u hv)) more eq
      exact ⟨u :: done, todo, tail, rfl, by simp, wired, stuck⟩

/-! ## One round of the parse loop -/

theorem runLength_word (first : Option UInt32) (w : UInt32) (rest : List UInt8) :
    runLength first (word32 w ++ rest) =
      if w = kToken then 0
      else match first with
        | none => runLength (some w) rest + 1
        | some f => if f &&& kSlabMask ≠ w &&& kSlabMask then 0 else runLength first rest + 1 := by
  obtain ⟨a, b, c, d, bytes⟩ : ∃ a b c d, word32 w = [a, b, c, d] := ⟨_, _, _, _, rfl⟩
  have word : get32 [a, b, c, d] = w := by
    rw [← bytes, ← List.append_nil (word32 w), get32_word32]
  have front : word32 w ++ rest = a :: b :: c :: d :: rest := by rw [bytes]; rfl
  rw [front]
  cases first with
  | none => exact (runLength.eq_def none _).trans (by simp only [word])
  | some f => exact (runLength.eq_def (some f) _).trans (by simp only [word])

theorem runLength_token (first : Option UInt32) (rest : List UInt8) :
    runLength first (word32 kToken ++ rest) = 0 := by
  rw [runLength_word, if_pos rfl]

/-- The words of one kind are counted up to where their run ends. -/
theorem runLength_run (f : UInt32) (ws : List UInt32) (rest : List UInt8)
    (same : ∀ w ∈ ws, w ≠ kToken ∧ w &&& kSlabMask = f &&& kSlabMask)
    (ends : runLength (some f) rest = 0) :
    runLength (some f) (array word32 ws ++ rest) = ws.length := by
  induction ws with
  | nil => simpa using ends
  | cons w ws ih =>
    obtain ⟨notToken, kind⟩ := same w (by simp)
    rw [array_cons, List.append_assoc, runLength_word, if_neg notToken]
    simp only [kind, ne_eq, not_true_eq_false, if_false, List.length_cons]
    rw [ih fun v hv => same v (by simp [hv])]

theorem runLength_ids (f : UInt32) (ws : List UInt32) (rest : List UInt8)
    (same : ∀ w ∈ f :: ws, w ≠ kToken ∧ w &&& kSlabMask = f &&& kSlabMask)
    (ends : runLength (some f) rest = 0) :
    runLength none (array word32 (f :: ws) ++ rest) = (f :: ws).length := by
  rw [array_cons, List.append_assoc, runLength_word, if_neg (same f (by simp)).1]
  simp only [List.length_cons]
  rw [runLength_run f ws rest (fun w hw => same w (by simp [hw])) ends]

theorem runLength_other_kind {f w : UInt32} (other : f &&& kSlabMask ≠ w &&& kSlabMask)
    (rest : List UInt8) : runLength (some f) (word32 w ++ rest) = 0 := by
  rw [runLength_word]
  split
  · rfl
  · exact if_pos other

theorem Stuck.token {tail : List UInt8} (h : Stuck tail) (long : 4 ≤ tail.length) :
    ∃ (msg : CtrlMsg) (more : List UInt8), msg.Sendable ∧ tail = word32 kToken ++ more ∧
      tail.length < msg.bytes.length ∧ more <+:
        word16 msg.msgID ++ (word16 (UInt16.ofNat msg.payload.length) ++ msg.payload) := by
  rcases h with short | ⟨msg, sendable, lt, pre⟩
  · omega
  · have token : word32 kToken <+: tail :=
      List.prefix_of_prefix_length_le (List.prefix_append _ _) pre (by simpa using long)
    obtain ⟨more, rfl⟩ := token
    exact ⟨msg, more, sendable, rfl, lt, (List.prefix_append_right_inj _).mp pre⟩

theorem runLength_stuck (first : Option UInt32) {tail : List UInt8} (h : Stuck tail) :
    runLength first tail = 0 := by
  rcases Nat.lt_or_ge tail.length 4 with short | long
  · have := runLength_le first tail
    omega
  · obtain ⟨msg, more, -, rfl, -⟩ := h.token long
    exact runLength_token first more

theorem CtrlMsg.Sendable.toNat_length {msg : CtrlMsg} (h : msg.Sendable) :
    (UInt16.ofNat msg.payload.length).toNat = msg.payload.length := by
  have := h.2
  rw [kMaxPayloadSize] at this
  rw [UInt16.toNat_ofNat', Nat.mod_eq_of_lt (by omega)]

section
variable {σ : Type} {h : Handlers σ} {stale : List UInt8} {peer : Peer σ}
  {consumed : List UInt8}

theorem parseLoop_stuck {tail : List UInt8} (stuck : Stuck tail) :
    parseLoop h stale peer consumed tail = ⟨peer, consumed, tail, none⟩ := by
  rw [parseLoop]
  simp only [runLength_stuck none stuck, Nat.lt_irrefl, dite_false]
  rcases Nat.lt_or_ge tail.length 8 with short | long
  · rw [dif_pos (show tail.length < sizeofCtrlMsgHdr from short)]
  · obtain ⟨msg, more, sendable, rfl, lt, pre⟩ := stuck.token (by omega)
    have header : word16 msg.msgID ++ word16 (UInt16.ofNat msg.payload.length) <+: more := by
      apply List.prefix_of_prefix_length_le _ pre
      · simp only [List.length_append, length_word16, length_word32] at long ⊢
        omega
      · rw [← List.append_assoc]
        exact List.prefix_append _ _
    obtain ⟨payload, rfl⟩ := header
    have len : get16 ((word32 kToken ++ (word16 msg.msgID ++
        word16 (UInt16.ofNat msg.payload.length) ++ payload)).drop 6) =
        UInt16.ofNat msg.payload.length := by
      simp [drop_word32 kToken _ 2, drop_word16 _ _ 0]
    rw [CtrlMsg.length_bytes] at lt
    rw [dif_neg (show ¬ _ < sizeofCtrlMsgHdr from Nat.not_lt.mpr long)]
    simp only [len, sendable.toNat_length, sendable.1, ne_eq, not_true_eq_false, if_false]
    rw [if_pos lt]

theorem parseLoop_ctrlMsg {msg : CtrlMsg} (sendable : msg.Sendable) {rest : List UInt8}
    {peer' : Peer σ} (handled : localHandleCtrlMsg h peer msg.msgID
      (msg.payload ++ (rest ++ stale)) msg.payload.length = .ok peer') :
    parseLoop h stale peer consumed (msg.bytes ++ rest) =
      parseLoop h stale { peer' with calls := peer.calls ++ [.ctrlMsg msg] }
        (consumed ++ msg.bytes) rest := by
  have none' : runLength none (msg.bytes ++ rest) = 0 := by
    rw [CtrlMsg.bytes, List.append_assoc, runLength_token]
  have room : ¬ (msg.bytes ++ rest).length < sizeofCtrlMsgHdr := by
    simp only [List.length_append, CtrlMsg.length_bytes]
    omega
  have fit : ¬ (msg.bytes ++ rest).length < sizeofCtrlMsgHdr + msg.payload.length := by
    simp [CtrlMsg.length_bytes]
  have id : get16 ((msg.bytes ++ rest).drop 4) = msg.msgID := by
    simp [CtrlMsg.bytes, drop_word32 kToken _ 0]
  have len : get16 ((msg.bytes ++ rest).drop 6) = UInt16.ofNat msg.payload.length := by
    simp [CtrlMsg.bytes, drop_word32 kToken _ 2, drop_word16 _ _ 0]
  have payload : (msg.bytes ++ rest).drop sizeofCtrlMsgHdr = msg.payload ++ rest := by
    simp [CtrlMsg.bytes, sizeofCtrlMsgHdr, drop_word32 kToken _ 4, drop_word16 _ _ 2,
      drop_word16 _ _ 0]
  have taken : (msg.bytes ++ rest).take (sizeofCtrlMsgHdr + msg.payload.length) = msg.bytes :=
    List.take_left' (CtrlMsg.length_bytes msg)
  have left : (msg.bytes ++ rest).drop (sizeofCtrlMsgHdr + msg.payload.length) = rest :=
    List.drop_left' (CtrlMsg.length_bytes msg)
  conv_lhs => rw [parseLoop]
  simp only [none', Nat.lt_irrefl, dite_false, room, id, len, sendable.toNat_length, sendable.1,
    ne_eq, not_true_eq_false, if_false, fit, Nat.not_lt.mpr sendable.2, payload, List.append_assoc,
    handled, taken, left, List.take_left]

/-- A run of block IDs goes to `HandleBlockIDs` in one call. -/
theorem parseLoop_blockIDs {f : UInt32} {ids : List UInt32} {rest : List UInt8}
    (small : ∀ id ∈ f :: ids, id < 0x80000000) (ends : runLength (some f) rest = 0)
    (valid : peer.validPeer = true) {user : σ}
    (handled : h.handleBlockIDs peer.user (f :: ids) = .ok user) :
    parseLoop h stale peer consumed (array word32 (f :: ids) ++ rest) =
      parseLoop h stale { peer with user, calls := peer.calls ++ [.blockIDs (f :: ids)] }
        (consumed ++ array word32 (f :: ids)) rest := by
  have run : runLength none (array word32 (f :: ids) ++ rest) = (f :: ids).length := by
    refine runLength_ids f ids rest (fun w hw => ⟨block_ne_token (small w hw), ?_⟩) ends
    rw [block_and_mask (small w hw), block_and_mask (small f (by simp))]
  have words : getArray 4 get32 (f :: ids).length (array word32 (f :: ids) ++ rest) = f :: ids :=
    getArray_array length_word32 get32_word32 _ _
  have front : get32 (array word32 (f :: ids) ++ rest) &&& kSlabMask = 0 := by
    rw [array_cons, List.append_assoc, get32_word32, block_and_mask (small f (by simp))]
  have size := length_array length_word32 (f :: ids)
  have some' : 0 < (f :: ids).length := Nat.succ_pos _
  conv_lhs => rw [parseLoop]
  simp only [run, words, front, valid, List.take_left' size, List.drop_left' size, handled,
    some', dite_true, Bool.not_true, Bool.false_eq_true, if_false, ne_eq, not_true_eq_false]

/-- A run of slab IDs goes to `HandleSlabIDs` in one call, with its masks
taken out of the buffer. -/
theorem parseLoop_slabIDs {f : UInt32} {ids : List UInt32} {rest : List UInt8}
    (small : ∀ id ∈ f :: ids, id < 0x7FFFFFFF)
    (ends : runLength (some (f ||| kSlabMask)) rest = 0)
    (valid : peer.validPeer = true) {user : σ}
    (handled : h.handleSlabIDs peer.user (f :: ids) = .ok user) :
    parseLoop h stale peer consumed (array word32 ((f :: ids).map (· ||| kSlabMask)) ++ rest) =
      parseLoop h stale { peer with user, calls := peer.calls ++ [.slabIDs (f :: ids)] }
        (consumed ++ array word32 (f :: ids)) rest := by
  have run : runLength none (array word32 ((f :: ids).map (· ||| kSlabMask)) ++ rest) =
      ((f :: ids).map (· ||| kSlabMask)).length := by
    refine runLength_ids (f ||| kSlabMask) (ids.map (· ||| kSlabMask)) rest (fun w hw => ?_) ends
    obtain ⟨id, mem, rfl⟩ : ∃ id ∈ f :: ids, id ||| kSlabMask = w := List.mem_map.mp hw
    exact ⟨slab_word_ne_token (small id mem), by rw [slab_word_and_mask, slab_word_and_mask]⟩
  have words : getArray 4 get32 ((f :: ids).map (· ||| kSlabMask)).length
      (array word32 ((f :: ids).map (· ||| kSlabMask)) ++ rest) =
      (f :: ids).map (· ||| kSlabMask) :=
    getArray_array length_word32 get32_word32 _ _
  have unmasked : ((f :: ids).map (· ||| kSlabMask)).map (· &&& ~~~kSlabMask) = f :: ids := by
    rw [List.map_map]
    conv_rhs => rw [← List.map_id (f :: ids)]
    exact List.map_congr_left fun id hid => slab_word_unmask (small id hid)
  have front : get32 (array word32 ((f :: ids).map (· ||| kSlabMask)) ++ rest) &&& kSlabMask ≠
      0 := by
    rw [List.map_cons, array_cons, List.append_assoc, get32_word32, slab_word_and_mask]
    decide
  have size := length_array length_word32 ((f :: ids).map (· ||| kSlabMask))
  have some' : 0 < ((f :: ids).map (· ||| kSlabMask)).length := by simp
  conv_lhs => rw [parseLoop]
  simp only [run, words, unmasked, front, valid, List.drop_left' size, handled, some', dite_true,
    Bool.not_true, Bool.false_eq_true, if_false, ne_eq, not_false_eq_true, if_true]

/-! ## Whole buffers -/

theorem localHandleCtrlMsg_keeps {msgID : UInt16} {ptr : List UInt8} {len : Nat} {peer' : Peer σ}
    (eq : localHandleCtrlMsg h peer msgID ptr len = .ok peer') :
    peer'.calls = peer.calls ∧ (peer.validPeer = true → peer'.validPeer = true) := by
  unfold localHandleCtrlMsg at eq
  split at eq
  · cases eq
  · split at eq
    · cases eq
    · split at eq
      · cases eq
      · split at eq
        · cases eq
        · cases eq
          exact ⟨rfl, fun _ => rfl⟩
    · rename_i call _ _
      cases handled : h.handle peer.user call with
      | error e => simp [handled, Except.map] at eq
      | ok user =>
        obtain rfl : { peer with user } = peer' := by simpa [handled, Except.map] using eq
        exact ⟨rfl, id⟩

theorem localHandleCtrlMsg_validatePeer (after : List UInt8) :
    localHandleCtrlMsg h peer validatePeerMsg.msgID (validatePeerMsg.payload ++ after)
      validatePeerMsg.payload.length = .ok { peer with validPeer := true } := by
  have call : dispatch kCtrlMsgID_ValidatePeer (validatePeerMsg.payload ++ after) 8 =
      .ok (.validatePeer kProtocolMagic kProtocolVersion) := by
    have magic : get32 (validatePeerMsg.payload ++ after) = kProtocolMagic := by
      rw [validatePeerMsg, List.append_assoc, get32_word32]
    have version : get32 ((validatePeerMsg.payload ++ after).drop 4) = kProtocolVersion := by
      rw [validatePeerMsg, List.append_assoc, drop_word32 _ _ 0, List.drop_zero, get32_word32]
    simp [dispatch, kCtrlMsgID_ValidatePeer, kCtrlMsgID_BlocksAndInfo, kCtrlMsgID_ManagerEcho,
      kCtrlMsgID_SequenceToken, kCtrlMsgID_Registration, kCtrlMsgID_DropReport,
      kCtrlMsgID_DropReportAck, kCtrlMsgID_CtrlString, magic, version]
  unfold localHandleCtrlMsg
  rw [show validatePeerMsg.msgID = kCtrlMsgID_ValidatePeer from rfl,
    show validatePeerMsg.payload.length = 8 from rfl, call]
  simp

/-- The endpoint can take these units: it has seen a `ValidatePeer`, or the
first unit is one. -/
def Ready (peer : Peer σ) (units : List Delivered) : Prop :=
  peer.validPeer = true ∨ ∀ u, units.head? = some u → u = .ctrlMsg validatePeerMsg

/-- The longest front of units of one kind, cut off at the first unit that `f`
does not take. -/
theorem units_run {α : Type} (f : α → Delivered) (units : List Delivered) :
    ∃ (xs : List α) (rest : List Delivered),
      units = xs.map f ++ rest ∧ ∀ x, rest.head? ≠ some (f x) := by
  induction units with
  | nil => exact ⟨[], [], rfl, fun x => by simp⟩
  | cons u units ih =>
    by_cases of : ∃ x, u = f x
    · obtain ⟨x, rfl⟩ := of
      obtain ⟨xs, rest, rfl, ends⟩ := ih
      exact ⟨x :: xs, rest, rfl, ends⟩
    · exact ⟨[], u :: units, rfl, fun x eq => of ⟨x, by simpa using eq⟩⟩

/-- A run of block IDs ends where the next unit is no block ID. -/
theorem runLength_after_blocks {f : UInt32} (small : f < 0x80000000) {rest : List Delivered}
    (ends : ∀ id, rest.head? ≠ some (.blockID id)) {tail : List UInt8} (stuck : Stuck tail) :
    runLength (some f) (wire rest ++ tail) = 0 := by
  cases rest with
  | nil => exact runLength_stuck _ stuck
  | cons u rest =>
    rw [wire_cons, List.append_assoc]
    cases u with
    | blockID id => exact absurd rfl (ends id)
    | slabID id =>
      apply runLength_other_kind
      rw [block_and_mask small, slab_word_and_mask]
      decide
    | ctrlMsg msg => rw [Delivered.bytes, CtrlMsg.bytes, List.append_assoc, runLength_token]

/-- A run of slab IDs ends where the next unit is no slab ID. -/
theorem runLength_after_slabs {f : UInt32} {rest : List Delivered}
    (sendable : ∀ u ∈ rest, u.Sendable)
    (ends : ∀ id, rest.head? ≠ some (.slabID id)) {tail : List UInt8} (stuck : Stuck tail) :
    runLength (some (f ||| kSlabMask)) (wire rest ++ tail) = 0 := by
  cases rest with
  | nil => exact runLength_stuck _ stuck
  | cons u rest =>
    rw [wire_cons, List.append_assoc]
    cases u with
    | blockID id =>
      apply runLength_other_kind
      rw [slab_word_and_mask, block_and_mask (sendable (.blockID id) (by simp))]
      decide
    | slabID id => exact absurd rfl (ends id)
    | ctrlMsg msg => rw [Delivered.bytes, CtrlMsg.bytes, List.append_assoc, runLength_token]

/-- What the parse loop makes of some units and a stuck tail: it takes the
units, in order, and leaves the tail. -/
def Takes (h : Handlers σ) (stale : List UInt8) (peer : Peer σ) (consumed : List UInt8)
    (units : List Delivered) (tail : List UInt8) : Prop :=
  ∃ peer' consumed',
    parseLoop h stale peer consumed (wire units ++ tail) = ⟨peer', consumed', tail, none⟩ ∧
    peer'.calls.flatMap Call.units = peer.calls.flatMap Call.units ++ units ∧
    consumed'.length = consumed.length + (wire units).length ∧
    (units ≠ [] ∨ peer.validPeer = true → peer'.validPeer = true)

/-- A turn of the loop takes the units in front; the rest follows. -/
theorem Takes.turn (front rest : List Delivered) {tail : List UInt8} {peer₁ : Peer σ}
    {consumed₁ : List UInt8}
    (turn : parseLoop h stale peer consumed (wire front ++ (wire rest ++ tail)) =
      parseLoop h stale peer₁ consumed₁ (wire rest ++ tail))
    (calls : peer₁.calls.flatMap Call.units = peer.calls.flatMap Call.units ++ front)
    (len : consumed₁.length = consumed.length + (wire front).length)
    (takes : Takes h stale peer₁ consumed₁ rest tail) (valid : peer₁.validPeer = true) :
    Takes h stale peer consumed (front ++ rest) tail := by
  obtain ⟨peer₂, consumed₂, eq, calls₂, len₂, valid₂⟩ := takes
  refine ⟨peer₂, consumed₂, ?_, ?_, ?_, fun _ => valid₂ (.inr valid)⟩
  · rw [wire_append, List.append_assoc, turn, eq]
  · rw [calls₂, calls, List.append_assoc]
  · rw [len₂, len, wire_append, List.length_append, Nat.add_assoc]

theorem sendable_run {α : Type} {f : α → Delivered} {x : α} {xs : List α} {rest : List Delivered}
    (sendable : ∀ u ∈ (x :: xs).map f ++ rest, u.Sendable) : ∀ y ∈ x :: xs, (f y).Sendable :=
  fun _ hy => sendable _ (List.mem_append_left _ (List.mem_map_of_mem hy))

theorem parseLoop_units {msgs : CtrlMsg → Prop} (quiet : Quiet h msgs) (stale : List UInt8)
    (peer : Peer σ) (consumed : List UInt8) (units : List Delivered)
    (sendable : ∀ u ∈ units, u.Sendable) (sent : ∀ m, .ctrlMsg m ∈ units → msgs m)
    (ready : Ready peer units) {tail : List UInt8} (stuck : Stuck tail) :
    Takes h stale peer consumed units tail := by
  -- by the number of units left; a turn takes one message or a whole run of IDs
  generalize size : units.length = n
  induction n using Nat.strongRecOn generalizing units peer consumed with
  | ind n ih =>
    have go (front rest : List Delivered) (split : units = front ++ rest) (ne : front ≠ [])
        (peer₁ : Peer σ) (consumed₁ : List UInt8) (valid : peer₁.validPeer = true) :
        Takes h stale peer₁ consumed₁ rest tail := by
      subst split
      have less : rest.length < n := by
        have := List.length_pos_of_ne_nil ne
        rw [List.length_append] at size
        omega
      exact ih rest.length less peer₁ consumed₁ rest (fun u hu => sendable u (by simp [hu]))
        (fun m hm => sent m (by simp [hm])) (.inl valid) rfl
    cases units with
    | nil =>
      refine ⟨peer, consumed, by simpa using parseLoop_stuck stuck, by simp, by simp, ?_⟩
      rintro (ne | valid)
      · exact absurd rfl ne
      · exact valid
    | cons u units =>
      cases u with
      | ctrlMsg msg =>
        obtain ⟨peer', handled, valid⟩ : ∃ peer', localHandleCtrlMsg h peer msg.msgID
            (msg.payload ++ ((wire units ++ tail) ++ stale)) msg.payload.length = .ok peer' ∧
            peer'.validPeer = true := by
          rcases ready with valid | first
          · obtain ⟨peer', handled⟩ := quiet.ctrlMsg msg (sent msg (by simp)) peer valid
              ((wire units ++ tail) ++ stale)
            exact ⟨peer', handled, (localHandleCtrlMsg_keeps handled).2 valid⟩
          · obtain rfl : msg = validatePeerMsg := by simpa using first (.ctrlMsg msg) rfl
            exact ⟨_, localHandleCtrlMsg_validatePeer _, rfl⟩
        have bytes : wire [.ctrlMsg msg] = msg.bytes := List.append_nil _
        refine Takes.turn [.ctrlMsg msg] units ?_ ?_ ?_
          (go [.ctrlMsg msg] units rfl (by simp)
            { peer' with calls := peer.calls ++ [.ctrlMsg msg] } (consumed ++ msg.bytes) valid) valid
        · rw [bytes, parseLoop_ctrlMsg (sendable (.ctrlMsg msg) (by simp)) handled]
        · simp [Call.units]
        · rw [bytes, List.length_append]
      | blockID id =>
        have valid : peer.validPeer = true := ready.resolve_right fun first => by cases first _ rfl
        obtain ⟨ids, rest, rfl, ends⟩ := units_run .blockID units
        have small := sendable_run (f := .blockID) (x := id) sendable
        obtain ⟨user, handled⟩ := quiet.blockIDs peer.user (id :: ids)
        refine Takes.turn ((id :: ids).map .blockID) rest ?_ ?_ ?_
          (go ((id :: ids).map .blockID) rest rfl (by simp)
            { peer with user, calls := peer.calls ++ [.blockIDs (id :: ids)] }
            (consumed ++ array word32 (id :: ids)) valid) valid
        · rw [wire_blockIDs, parseLoop_blockIDs small
            (runLength_after_blocks (small id (by simp)) ends stuck) valid handled]
        · simp [Call.units]
        · rw [wire_blockIDs, List.length_append]
      | slabID id =>
        have valid : peer.validPeer = true := ready.resolve_right fun first => by cases first _ rfl
        obtain ⟨ids, rest, rfl, ends⟩ := units_run .slabID units
        have small := sendable_run (f := .slabID) (x := id) sendable
        have later : ∀ u ∈ rest, u.Sendable := fun u hu => sendable u (by simp [hu])
        obtain ⟨user, handled⟩ := quiet.slabIDs peer.user (id :: ids)
        refine Takes.turn ((id :: ids).map .slabID) rest ?_ ?_ ?_
          (go ((id :: ids).map .slabID) rest rfl (by simp)
            { peer with user, calls := peer.calls ++ [.slabIDs (id :: ids)] }
            (consumed ++ array word32 (id :: ids)) valid) valid
        · rw [wire_slabIDs, parseLoop_slabIDs small
            (runLength_after_slabs later ends stuck) valid handled]
        · simp [Call.units]
        · rw [wire_slabIDs, List.length_append, length_array length_word32,
            length_array length_word32, List.length_map]

/-- `Poll`'s loop takes the whole units in the buffer, and moves the stuck tail
down to the base. -/
theorem parseAll_units {msgs : CtrlMsg → Prop} (quiet : Quiet h msgs) {ep : Endpoint σ}
    (within : ep.recvBufLen ≤ ep.recvBuf.length) {units : List Delivered} {tail : List UInt8}
    (data : ep.recvBuf.take ep.recvBufLen = wire units ++ tail)
    (sendable : ∀ u ∈ units, u.Sendable) (sent : ∀ m, .ctrlMsg m ∈ units → msgs m)
    (ready : Ready ep.peer units) (stuck : Stuck tail) :
    ∃ ep', parseAll h ep = .returned ep' ∧ ep'.recvBuf.length = ep.recvBuf.length ∧
      ep'.recvBufLen = tail.length ∧ ep'.recvBuf.take ep'.recvBufLen = tail ∧
      ep'.peer.calls.flatMap Call.units = ep.peer.calls.flatMap Call.units ++ units ∧
      (units ≠ [] ∨ ep.peer.validPeer = true → ep'.peer.validPeer = true) := by
  obtain ⟨peer', consumed', eq, calls, len, valid⟩ := parseLoop_units quiet
    (ep.recvBuf.drop ep.recvBufLen) ep.peer [] units sendable sent ready stuck
  have lens : ep.recvBufLen = (wire units).length + tail.length := by
    have := congrArg List.length data
    rwa [List.length_take, Nat.min_eq_left within, List.length_append] at this
  rw [parseAll]
  simp only [data, eq]
  split
  · -- something was consumed: the next call finds the tail alone
    have down : (tail ++ (consumed' ++ tail ++ ep.recvBuf.drop ep.recvBufLen).drop
        tail.length).take tail.length = tail := List.take_left' rfl
    rw [parseAll]
    simp only [down, parseLoop_stuck stuck, Nat.lt_irrefl, dite_false]
    refine ⟨_, rfl, ?_, rfl, down, calls, valid⟩
    simp only [List.length_append, List.length_drop, len, List.length_nil]
    omega
  · rename_i none
    have short : units = [] := by
      rcases units with _ | ⟨u, us⟩
      · rfl
      · exfalso
        apply none
        rw [lens, wire_cons, List.length_append]
        cases u <;> simp [Delivered.bytes, sizeofCtrlMsgHdr]
    subst short
    rw [wire_nil, List.nil_append] at data
    exact ⟨_, rfl, rfl, by simpa using lens, data, calls, valid⟩

/-- Between polls: the units delivered, those still to come, and the stuck tail
in the buffer, with `stream` not yet received. -/
structure Between (all : List Delivered) (cap : Nat) (ep : Endpoint σ) (stream : List UInt8)
    (todo : List Delivered) : Prop where
  split : all = ep.peer.calls.flatMap Call.units ++ todo
  cap_eq : ep.recvBuf.length = cap
  bytes : wire todo = ep.recvBuf.take ep.recvBufLen ++ stream
  within : ep.recvBufLen ≤ ep.recvBuf.length
  stuck : Stuck (ep.recvBuf.take ep.recvBufLen)
  ready : Ready ep.peer todo

theorem Between.recvBufLen_lt {all : List Delivered} {cap : Nat} {ep : Endpoint σ}
    {stream : List UInt8} {todo : List Delivered} (b : Between all cap ep stream todo) :
    ep.recvBufLen < kMaxCtrlMsgSize := by
  have := b.stuck.length_lt
  rwa [List.length_take, Nat.min_eq_left b.within] at this

/-- Once the stream is used up nothing is still to come: a turn of the parse
loop would take it, yet the tail is stuck. -/
theorem Between.todo_nil {msgs : CtrlMsg → Prop} (quiet : Quiet h msgs) {all : List Delivered}
    (sendable : ∀ u ∈ all, u.Sendable) (sent : ∀ m, .ctrlMsg m ∈ all → msgs m)
    {cap : Nat} {ep : Endpoint σ} {stream : List UInt8} {todo : List Delivered}
    (b : Between all cap ep stream todo) (done : stream = []) : todo = [] := by
  subst done
  have inAll : ∀ u ∈ todo, u ∈ all := fun u hu => b.split ▸ List.mem_append_right _ hu
  have nothing : Stuck [] := .inl (by decide)
  obtain ⟨peer', consumed', eq, calls, -⟩ := parseLoop_units quiet [] ep.peer [] todo
    (fun u hu => sendable u (inAll u hu)) (fun m hm => sent m (inAll _ hm)) b.ready nothing
  have left : wire todo = ep.recvBuf.take ep.recvBufLen := by rw [b.bytes, List.append_nil]
  rw [List.append_nil, left, parseLoop_stuck b.stuck] at eq
  obtain ⟨rfl, -⟩ := Parsed.mk.inj eq
  simpa using calls

theorem Ready.later {peer' : Peer σ} {us vs : List Delivered} (ready : Ready peer (us ++ vs))
    (valid : us ≠ [] ∨ peer.validPeer = true → peer'.validPeer = true) : Ready peer' vs := by
  rcases ready with v | first
  · exact .inl (valid (.inr v))
  · cases us with
    | nil => exact .inr first
    | cons u us => exact .inl (valid (.inl (by simp)))

/-- One poll that received `n` bytes. -/
theorem poll_between {msgs : CtrlMsg → Prop} (quiet : Quiet h msgs) {all : List Delivered}
    (sendable : ∀ u ∈ all, u.Sendable) (sent : ∀ m, .ctrlMsg m ∈ all → msgs m)
    {cap : Nat} {ep : Endpoint σ} {stream : List UInt8} {todo : List Delivered}
    (b : Between all cap ep stream todo) {n : Nat} (some' : stream.take n ≠ [])
    (room : n ≤ ep.recvBuf.length - ep.recvBufLen) :
    ∃ ep' todo', poll h ep (stream.take n) = .returned ep' ∧
      Between all cap ep' (stream.drop n) todo' := by
  have size : (stream.take n).length ≤ n := List.length_take_le n stream
  have within := b.within
  have cut : wire todo = (ep.recvBuf.take ep.recvBufLen ++ stream.take n) ++ stream.drop n := by
    rw [b.bytes, List.append_assoc, List.take_append_drop]
  have inAll : ∀ u ∈ todo, u ∈ all := fun u hu => b.split ▸ List.mem_append_right _ hu
  obtain ⟨done, todo', tail, rfl, data, left, stuck⟩ :=
    wire_cut todo (fun u hu => sendable u (inAll u hu)) _ _ cut
  have front : (ep.recvBuf.take ep.recvBufLen ++ stream.take n).length =
      ep.recvBufLen + (stream.take n).length := by
    rw [List.length_append, List.length_take, Nat.min_eq_left within]
  let received : Endpoint σ := { ep with
    recvBuf := ep.recvBuf.take ep.recvBufLen ++ stream.take n ++
      ep.recvBuf.drop (ep.recvBufLen + (stream.take n).length)
    recvBufLen := ep.recvBufLen + (stream.take n).length }
  have total : received.recvBuf.length = ep.recvBufLen + (stream.take n).length +
      (ep.recvBuf.drop (ep.recvBufLen + (stream.take n).length)).length := by
    rw [List.length_append, front]
  have buffered : received.recvBuf.take received.recvBufLen = wire done ++ tail := by
    rw [← data, List.take_left' front]
  obtain ⟨ep', eq, cap', len, tail', calls, valid⟩ := parseAll_units quiet
    (total ▸ Nat.le_add_right _ _) buffered
    (fun u hu => sendable u (inAll u (List.mem_append_left _ hu)))
    (fun m hm => sent m (inAll _ (List.mem_append_left _ hm)))
    (b.ready.imp_right fun first u hu => first u (by rw [List.head?_append, hu]; rfl)) stuck
  refine ⟨ep', todo', ?_, ?_⟩
  · rw [poll, if_neg some', eq]
  · refine ⟨by rw [calls, List.append_assoc]; exact b.split, ?_, by rw [tail', left], ?_,
      by rwa [tail'], b.ready.later valid⟩
    · rw [cap', ← b.cap_eq, total, List.length_drop]
      omega
    · have := congrArg List.length tail'
      rw [List.length_take] at this
      omega

theorem polls_between {msgs : CtrlMsg → Prop} (quiet : Quiet h msgs) {all : List Delivered}
    (sendable : ∀ u ∈ all, u.Sendable) (sent : ∀ m, .ctrlMsg m ∈ all → msgs m)
    {cap : Nat} (capMin : kMaxCtrlMsgSize ≤ cap) (ks : List Nat) {ep : Endpoint σ}
    {stream : List UInt8} {todo : List Delivered} (b : Between all cap ep stream todo) :
    ∃ ep' stream' todo', polls h ks ep stream = (.returned ep', stream') ∧
      Between all cap ep' stream' todo' ∧
      ((∀ k ∈ ks, 0 < k) → stream'.length ≤ stream.length - ks.length) := by
  induction ks generalizing ep stream todo with
  | nil => exact ⟨ep, stream, todo, rfl, b, by simp⟩
  | cons k ks ih =>
    rw [polls]
    by_cases idle : k = 0 ∨ stream = []
    · rw [if_pos idle]
      obtain ⟨ep', stream', todo', eq, b', less⟩ := ih b
      refine ⟨ep', stream', todo', eq, b', fun pos => ?_⟩
      have := less fun k hk => pos k (List.mem_cons_of_mem _ hk)
      rcases idle with rfl | rfl
      · exact absurd (pos 0 (by simp)) (by simp)
      · simp only [List.length_nil] at this ⊢
        omega
    · rw [if_neg idle]
      obtain ⟨some', data⟩ := not_or.mp idle
      have room := b.recvBufLen_lt
      have cap' := b.cap_eq
      have long := List.length_pos_of_ne_nil data
      generalize hn : min k (ep.recvBuf.length - ep.recvBufLen) = n
      have pos : 0 < n := by omega
      have got : stream.take n ≠ [] := by
        apply List.ne_nil_of_length_pos
        rw [List.length_take]
        omega
      obtain ⟨ep₁, todo₁, eq₁, b₁⟩ := poll_between quiet sendable sent b got (by omega)
      obtain ⟨ep', stream', todo', eq, b', less⟩ := ih b₁
      simp only [eq₁]
      refine ⟨ep', stream', todo', eq, b', fun pos' => ?_⟩
      have := less fun k hk => pos' k (List.mem_cons_of_mem _ hk)
      rw [List.length_drop] at this
      rw [List.length_cons]
      omega

/-! ## What the handlers make of the calls -/

/-- The handlers were called as recorded, one after the other from `user` on. What
follows a message in the buffer may be read by its handler. -/
inductive Handled (h : Handlers σ) (user : σ) : Peer σ → Prop where
  | new : Handled h user { validPeer := false, user, calls := [] }
  | blockIDs {peer ids user'} : Handled h user peer → peer.validPeer = true →
      h.handleBlockIDs peer.user ids = .ok user' →
      Handled h user { peer with user := user', calls := peer.calls ++ [.blockIDs ids] }
  | slabIDs {peer ids user'} : Handled h user peer → peer.validPeer = true →
      h.handleSlabIDs peer.user ids = .ok user' →
      Handled h user { peer with user := user', calls := peer.calls ++ [.slabIDs ids] }
  | ctrlMsg {peer msg after peer'} : Handled h user peer →
      localHandleCtrlMsg h peer msg.msgID (msg.payload ++ after) msg.payload.length = .ok peer' →
      Handled h user { peer' with calls := peer.calls ++ [.ctrlMsg msg] }

theorem handled_parseLoop {consumed data : List UInt8} (before : Handled h user peer)
    (returned : (parseLoop h stale peer consumed data).thrown = none) :
    Handled h user (parseLoop h stale peer consumed data).peer := by
  fun_induction parseLoop h stale peer consumed data with
  | case1 => cases returned
  | case2 peer _ _ _ _ invalid _ eq =>
    have startup : (!peer.validPeer && decide ((0xFFFF : UInt16) ≠ kCtrlMsgID_ValidatePeer)) = true := by
      rw [invalid]
      rfl
    rw [localHandleCtrlMsg, if_pos startup] at eq
    cases eq
  | case3 => cases returned
  | case4 peer _ _ _ _ _ valid _ _ _ _ handled ih =>
    exact ih (.slabIDs before (by simpa using valid) handled) returned
  | case5 => cases returned
  | case6 peer _ _ _ _ _ valid _ _ _ handled ih =>
    exact ih (.blockIDs before (by simpa using valid) handled) returned
  | case7 => exact before
  | case8 => cases returned
  | case9 => exact before
  | case10 => cases returned
  | case11 => cases returned
  | case12 peer _ data _ _ _ msgID length msgSize _ whole _ ptr call peer' handled ih =>
    have enough : length ≤ ptr.length := by
      rw [List.length_append, List.length_drop]
      omega
    have size : (ptr.take length).length = length := List.length_take_of_le enough
    have called : localHandleCtrlMsg h peer msgID (ptr.take length ++ ptr.drop length)
        (ptr.take length).length = .ok peer' := by
      rw [List.take_append_drop, size]
      exact handled
    exact ih (.ctrlMsg before called) returned

theorem handled_parseAll {ep ep' : Endpoint σ} (before : Handled h user ep.peer)
    (returned : parseAll h ep = .returned ep') : Handled h user ep'.peer := by
  fun_induction parseAll h ep with
  | case1 => cases returned
  | case2 ep data stale res thrown more buf ih => exact ih (handled_parseLoop before thrown) returned
  | case3 ep data stale res thrown =>
    cases returned
    exact handled_parseLoop before thrown

theorem handled_polls {ks : List Nat} {ep ep' : Endpoint σ} {stream stream' : List UInt8}
    (before : Handled h user ep.peer)
    (returned : polls h ks ep stream = (.returned ep', stream')) : Handled h user ep'.peer := by
  fun_induction polls h ks ep stream with
  | case1 =>
    cases returned
    exact before
  | case2 _ _ _ _ _ ih => exact ih before returned
  | case3 ks ep stream k idle n ep₁ polled ih =>
    apply ih _ returned
    rw [poll] at polled
    split at polled
    · cases polled
    · apply handled_parseAll _ polled
      exact before
  | case4 _ _ _ _ _ _ other => exact absurd (congrArg Prod.fst returned) (other ep')

end

/-- Whatever the chunks `ks` in which the bytes of the items arrive, polling
never fails; it has delivered the items' units in order, all of them once the
stream is used up, to handlers that were called as recorded; and the unconsumed
tail is shorter than `kMaxCtrlMsgSize`, so the next `recv` has room. Polls that
find something use the stream up. -/
theorem polls_deliver {σ : Type} (h : Handlers σ) (items : List Item)
    (sendable : ∀ item ∈ items, item.Sendable)
    (first : items.head? = some (.ctrlMsg validatePeerMsg))
    (quiet : Quiet h fun m => .ctrlMsg m ∈ items) (user : σ) (recvBufCap : Nat) (ks : List Nat) :
    ∃ ep stream,
      polls h ks (.new user recvBufCap) (items.flatMap Item.bytes) = (.returned ep, stream) ∧
      ep.peer.calls.flatMap Call.units <+: items.flatMap Item.units ∧
      (stream = [] → ep.peer.calls.flatMap Call.units = items.flatMap Item.units) ∧
      Handled h user ep.peer ∧
      ep.recvBufLen < kMaxCtrlMsgSize ∧ ep.recvBufLen < ep.recvBuf.length ∧
      ((∀ k ∈ ks, 0 < k) → (items.flatMap Item.bytes).length ≤ ks.length → stream = []) := by
  have sent (m : CtrlMsg) (hm : .ctrlMsg m ∈ items.flatMap Item.units) : .ctrlMsg m ∈ items := by
    obtain ⟨item, mem, hu⟩ := List.mem_flatMap.mp hm
    cases item with
    | blockIDs ids => simp [Item.units] at hu
    | slabIDs ids => simp [Item.units] at hu
    | ctrlMsg msg =>
      obtain rfl : m = msg := by simpa [Item.units] using hu
      exact mem
  have start : Between (items.flatMap Item.units) (max recvBufCap kMaxCtrlMsgSize)
      (.new user recvBufCap) (items.flatMap Item.bytes) (items.flatMap Item.units) := by
    refine ⟨rfl, List.length_replicate, (bytes_items_eq_wire items).symm, Nat.zero_le _,
      .inl (by simp [Endpoint.new]), .inr fun u hu => ?_⟩
    obtain ⟨rest, rfl⟩ := List.head?_eq_some_iff.mp first
    simpa [Item.units, eq_comm] using hu
  obtain ⟨ep, stream, todo, eq, b, less⟩ :=
    polls_between quiet (sendable_items sendable) sent (Nat.le_max_right _ _) ks start
  refine ⟨ep, stream, eq, ⟨todo, b.split.symm⟩, fun done => ?_, handled_polls .new eq,
    b.recvBufLen_lt, ?_, fun pos enough => ?_⟩
  · -- nothing is left to receive, so the stuck tail holds no unit either
    have none := b.todo_nil quiet (sendable_items sendable) sent done
    rw [b.split, none, List.append_nil]
  · have := b.recvBufLen_lt
    have := b.cap_eq
    omega
  · apply List.eq_nil_of_length_eq_zero
    have := less pos
    omega

/-- Handlers that do nothing. -/
def nullHandlers : Handlers Unit where
  handleBlockIDs _ _ := .ok ()
  handleSlabIDs _ _ := .ok ()
  handle _ _ := .ok ()

theorem quiet_validatePeer : Quiet nullHandlers (· = validatePeerMsg) where
  blockIDs _ _ := ⟨(), rfl⟩
  slabIDs _ _ := ⟨(), rfl⟩
  ctrlMsg := by
    rintro _ rfl peer - after
    exact ⟨_, localHandleCtrlMsg_validatePeer after⟩

/-- Two batches of block IDs and one of slab IDs, cut in the middle of the
message, of a block ID and of a slab ID. -/
theorem polls_deliver_batches :
    ∃ ep stream,
      polls nullHandlers [5, 13, 12, 100] (.new () 0)
        ([.ctrlMsg validatePeerMsg, .blockIDs [1, 2], .blockIDs [3], .slabIDs [4]].flatMap
          Item.bytes) = (.returned ep, stream) ∧
      ep.peer.calls.flatMap Call.units <+:
        [.ctrlMsg validatePeerMsg, .blockID 1, .blockID 2, .blockID 3, .slabID 4] := by
  obtain ⟨ep, stream, eq, delivered, -⟩ := polls_deliver nullHandlers
    [.ctrlMsg validatePeerMsg, .blockIDs [1, 2], .blockIDs [3], .slabIDs [4]]
    (by simp [Item.Sendable, CtrlMsg.Sendable, validatePeerMsg, kMaxPayloadSize]) rfl
    ⟨quiet_validatePeer.blockIDs, quiet_validatePeer.slabIDs, fun msg hmsg =>
      quiet_validatePeer.ctrlMsg msg (by simpa using hmsg)⟩ () 0 [5, 13, 12, 100]
  exact ⟨ep, stream, eq, delivered⟩

end Mcsb
