import Mathlib.Order.MinMax

/-!
# The slabs of a client

A client asks the manager for slabs for so many bytes and, once they are
granted, takes their size for the largest message it can send. `available_of_met`
says for which requests that size is right.
-/

namespace Mcsb

/-- What `ClientOptions` asks for. -/
structure ClientOptions where
  minProducerBytes : UInt64
  minConsumerBytes : UInt64
  minProducerSlabs : UInt32
  minConsumerSlabs : UInt32
  deriving DecidableEq, Repr

/-- The slabs `ClientImpl` has and asked for. -/
structure ClientSlabs where
  slabSize : UInt32
  numProdSlabs : UInt32 := 0
  numProdSlabsRqstd : UInt32 := 0
  numConsSlabs : UInt32 := 0
  numConsSlabsRqstd : UInt32 := 0
  deriving DecidableEq, Repr

/-- The slabs to ask for, at least one. The byte count has 64 bits, the slabs 32. -/
def numSlabs (minBytes : UInt64) (minSlabs slabSize : UInt32) : UInt32 :=
  let slabs := ((minBytes + slabSize.toUInt64 - 1) / slabSize.toUInt64).toUInt32
  let slabs := if slabs < minSlabs then minSlabs else slabs
  if slabs < 1 then 1 else slabs

namespace ClientSlabs

/-- What is sent, if anything. There is no slab size of zero to divide by. -/
def computeAndSendNumSlabs (c : ClientSlabs) (opts : ClientOptions) :
    Option (Option (UInt32 × UInt32) × ClientSlabs) :=
  if c.slabSize = 0 then none
  else
    let prod := numSlabs opts.minProducerBytes opts.minProducerSlabs c.slabSize
    let cons := numSlabs opts.minConsumerBytes opts.minConsumerSlabs c.slabSize
    if prod = c.numProdSlabs ∧ cons = c.numConsSlabs then some (none, c)
    else some (some (prod, cons), { c with numProdSlabsRqstd := prod, numConsSlabsRqstd := cons })

def handleNumSlabs (c : ClientSlabs) (prodSlabs consSlabs : UInt32) : Except String ClientSlabs :=
  if c.numProdSlabsRqstd ≠ prodSlabs ∨ c.numConsSlabsRqstd ≠ consSlabs then
    .error (s!"Manager denied request for numProdSlabs: {c.numProdSlabsRqstd}, " ++
      s!"numConsSlabs: {c.numConsSlabsRqstd}")
  else .ok { c with numProdSlabs := prodSlabs, numConsSlabs := consSlabs }

/-- A product of 32 bits. -/
def maxSendMessageSize (c : ClientSlabs) : UInt32 := c.numProdSlabs * c.slabSize

/-- The condition of the loop in `BaseClient::Connect`, which polls as long as it
is true. -/
def waits (c : ClientSlabs) (groupStr : String) (groupID : Int16) : Bool :=
  c.maxSendMessageSize == 0 || (groupStr != "" && groupID ≤ 0)

/-- A new client, which the manager grants what it asks for. -/
def granted (opts : ClientOptions) (slabSize : UInt32) : Option ClientSlabs := do
  let (request, c) ← computeAndSendNumSlabs { slabSize } opts
  let (prod, cons) ← request
  (c.handleNumSlabs prod cons).toOption

/-- The bytes asked for can be sent at once, and `Connect` goes on. -/
def Available (opts : ClientOptions) (slabSize : UInt32) : Prop :=
  ∃ c, granted opts slabSize = some c ∧ 0 < c.maxSendMessageSize.toNat ∧
    min opts.minProducerBytes.toNat 4294967295 ≤ c.maxSendMessageSize.toNat ∧
    ∀ groupID, c.waits "" groupID = false

/-! ## The requests that are met -/

/-- The slabs `bytes` take. -/
def slabsFor (bytes slabSize : Nat) : Nat := (bytes + slabSize - 1) / slabSize

/-- The slabs to ask for, at least one, and their size. -/
def sizeFor (bytes slabs slabSize : Nat) : Nat :=
  max 1 (max slabs (slabsFor bytes slabSize)) * slabSize

/-- All slabs asked for are smaller than 2^32 together. -/
def Fits (bytes slabs slabSize : Nat) : Prop := sizeFor bytes slabs slabSize < 4294967296

/-- So many slabs are asked for besides the bytes that the part of their size
beyond 2^32 still has the bytes. -/
def Spare (bytes slabs slabSize : Nat) : Prop :=
  bytes < 4294967295 ∧ bytes ≤ slabs * slabSize ∧ max bytes 1 ≤ slabs * slabSize % 4294967296

/-- Rounded in 64 and cut to 32 bits, the slabs come out at one byte less than a
multiple of 2^32. Only an odd slab size can do that. -/
def AllOnes (bytes slabs slabSize : Nat) : Prop :=
  4294967295 ≤ bytes ∧
    max 1 (max slabs ((bytes + slabSize + 18446744073709551615) % 18446744073709551616 / slabSize %
      4294967296)) * slabSize % 4294967296 = 4294967295

theorem toNat_numSlabs (bytes : UInt64) (slabs slabSize : UInt32) :
    (numSlabs bytes slabs slabSize).toNat =
      max 1 (max slabs.toNat ((bytes.toNat + slabSize.toNat + 18446744073709551615) %
        18446744073709551616 / slabSize.toNat % 4294967296)) := by
  have quot : ((bytes + slabSize.toUInt64 - 1) / slabSize.toUInt64).toUInt32.toNat =
      (bytes.toNat + slabSize.toNat + 18446744073709551615) % 18446744073709551616 /
        slabSize.toNat % 4294967296 := by
    have one : (1 : UInt64).toNat = 1 := rfl
    have num : (bytes + slabSize.toUInt64 - 1).toNat =
        (bytes.toNat + slabSize.toNat + 18446744073709551615) % 18446744073709551616 := by
      rw [UInt64.toNat_sub, UInt64.toNat_add, UInt32.toNat_toUInt64, one]
      omega
    rw [UInt64.toNat_toUInt32, UInt64.toNat_div, num, UInt32.toNat_toUInt64]
  have one : (1 : UInt32).toNat = 1 := rfl
  unfold numSlabs
  rw [← quot]
  simp only [UInt32.lt_iff_toNat_lt, one]
  split <;> split <;> omega

variable {bytes slabs slabSize : Nat}

theorem le_slabsFor (pos : 0 < slabSize) : bytes ≤ slabsFor bytes slabSize * slabSize := by
  have split := Nat.div_add_mod' (bytes + slabSize - 1) slabSize
  have less := Nat.mod_lt (bytes + slabSize - 1) pos
  unfold slabsFor
  omega

theorem slabsFor_lt (pos : 0 < slabSize) : slabsFor bytes slabSize * slabSize < bytes + slabSize := by
  have split := Nat.div_add_mod' (bytes + slabSize - 1) slabSize
  unfold slabsFor
  omega

theorem slabsFor_le_iff (pos : 0 < slabSize) :
    slabsFor bytes slabSize ≤ slabs ↔ bytes ≤ slabs * slabSize := by
  constructor
  · intro few
    exact Nat.le_trans (le_slabsFor pos) (Nat.mul_le_mul_right slabSize few)
  · intro enough
    have less := @slabsFor_lt bytes slabSize pos
    by_contra more
    have : (slabs + 1) * slabSize ≤ slabsFor bytes slabSize * slabSize :=
      Nat.mul_le_mul_right slabSize (by omega)
    rw [Nat.succ_mul] at this
    omega

/-- The slabs for fewer bytes than 2^32 - 1 are rounded exactly. -/
theorem slabsFor_exact (size_lt : slabSize < 4294967296) (few : bytes < 4294967295) :
    (bytes + slabSize + 18446744073709551615) % 18446744073709551616 / slabSize % 4294967296 =
      slabsFor bytes slabSize := by
  rcases Nat.eq_zero_or_pos slabSize with rfl | pos
  · rw [slabsFor, Nat.div_zero, Nat.div_zero]
  have le : slabsFor bytes slabSize ≤ bytes :=
    (slabsFor_le_iff pos).mpr (Nat.le_mul_of_pos_right bytes pos)
  have sum : (bytes + slabSize + 18446744073709551615) % 18446744073709551616 =
      bytes + slabSize - 1 := by omega
  rw [sum]
  exact Nat.mod_eq_of_lt (by unfold slabsFor at le; omega)

/-- Fewer bytes than 2^32 - 1 fit, or there must be spare slabs. -/
theorem enough_few (pos : 0 < slabSize) (size_lt : slabSize < 4294967296)
    (few : bytes < 4294967295) :
    max bytes 1 ≤ max 1 (max slabs (slabsFor bytes slabSize)) * slabSize % 4294967296 ↔
      Fits bytes slabs slabSize ∨ Spare bytes slabs slabSize := by
  have enough := @le_slabsFor bytes slabSize pos
  have tight := @slabsFor_lt bytes slabSize pos
  by_cases fits : Fits bytes slabs slabSize
  · have more : slabsFor bytes slabSize * slabSize ≤
        max 1 (max slabs (slabsFor bytes slabSize)) * slabSize :=
      Nat.mul_le_mul_right slabSize (by omega)
    have some : slabSize ≤ max 1 (max slabs (slabsFor bytes slabSize)) * slabSize :=
      Nat.le_mul_of_pos_left slabSize (by omega)
    apply iff_of_true _ (.inl fits)
    unfold Fits sizeFor at fits
    rw [Nat.mod_eq_of_lt fits]
    omega
  have large : 4294967296 ≤ max 1 (max slabs (slabsFor bytes slabSize)) * slabSize :=
    Nat.not_lt.mp fits
  rw [or_iff_right fits]
  by_cases spare : bytes ≤ slabs * slabSize
  · have le := (slabsFor_le_iff pos).mpr spare
    rw [Nat.max_eq_left le] at large ⊢
    have most : max 1 slabs = slabs := by
      rcases Nat.eq_zero_or_pos slabs with rfl | some
      · simp only [Nat.max_eq_left (Nat.zero_le 1), Nat.one_mul] at large
        omega
      · exact Nat.max_eq_right some
    rw [most]
    exact ⟨fun h => ⟨few, spare, h⟩, fun h => h.2.2⟩
  · have less : slabs < slabsFor bytes slabSize :=
      Nat.lt_of_not_le fun le => spare ((slabsFor_le_iff pos).mp le)
    have most : max 1 (max slabs (slabsFor bytes slabSize)) = slabsFor bytes slabSize := by omega
    rw [most] at large ⊢
    -- the bytes above 2^32 are fewer than a slab
    exact iff_of_false (by omega) fun h => spare h.2.1

/-- More bytes need all 32 bits of the size. -/
theorem allOnes_of_fits (pos : 0 < slabSize) (size_lt : slabSize < 4294967296)
    (many : 4294967295 ≤ bytes) (fits : Fits bytes slabs slabSize) :
    AllOnes bytes slabs slabSize := by
  have enough := @le_slabsFor bytes slabSize pos
  have more : slabsFor bytes slabSize * slabSize ≤
      max 1 (max slabs (slabsFor bytes slabSize)) * slabSize :=
    Nat.mul_le_mul_right slabSize (by omega)
  have count : slabsFor bytes slabSize ≤ slabsFor bytes slabSize * slabSize :=
    Nat.le_mul_of_pos_right _ pos
  unfold Fits sizeFor at fits
  have sum : (bytes + slabSize + 18446744073709551615) % 18446744073709551616 =
      bytes + slabSize - 1 := by omega
  have exact : (bytes + slabSize - 1) / slabSize % 4294967296 = slabsFor bytes slabSize := by
    rw [← slabsFor]
    exact Nat.mod_eq_of_lt (by omega)
  constructor
  · exact many
  · rw [sum, exact, Nat.mod_eq_of_lt fits]
    omega

theorem enough_iff (pos : 0 < slabSize) (size_lt : slabSize < 4294967296) :
    max (min bytes 4294967295) 1 ≤
        max 1 (max slabs ((bytes + slabSize + 18446744073709551615) % 18446744073709551616 /
          slabSize % 4294967296)) * slabSize % 4294967296 ↔
      Fits bytes slabs slabSize ∨ Spare bytes slabs slabSize ∨ AllOnes bytes slabs slabSize := by
  by_cases few : bytes < 4294967295
  · have none : ¬ AllOnes bytes slabs slabSize := fun full => Nat.not_lt.mpr full.1 few
    rw [Nat.min_eq_left (Nat.le_of_lt few), slabsFor_exact size_lt few,
      enough_few pos size_lt few, or_iff_left none]
  · have many := Nat.not_lt.mp few
    have none : ¬ Spare bytes slabs slabSize := fun spare => few spare.1
    have least : max (min bytes 4294967295) 1 = 4294967295 := by omega
    rw [least, or_iff_right none, or_iff_right_of_imp (allOnes_of_fits pos size_lt many)]
    constructor
    · intro full
      exact ⟨many, Nat.le_antisymm (Nat.le_of_lt_succ (Nat.mod_lt _ (by decide))) full⟩
    · intro full
      rw [full.2]

/-! ## The grant -/

theorem granted_eq (opts : ClientOptions) {size : UInt32} (pos : size ≠ 0) :
    granted opts size = some
      { slabSize := size
        numProdSlabs := numSlabs opts.minProducerBytes opts.minProducerSlabs size
        numProdSlabsRqstd := numSlabs opts.minProducerBytes opts.minProducerSlabs size
        numConsSlabs := numSlabs opts.minConsumerBytes opts.minConsumerSlabs size
        numConsSlabsRqstd := numSlabs opts.minConsumerBytes opts.minConsumerSlabs size } := by
  have some : numSlabs opts.minProducerBytes opts.minProducerSlabs size ≠ 0 := by
    have value := toNat_numSlabs opts.minProducerBytes opts.minProducerSlabs size
    intro none
    rw [none] at value
    have zero : (0 : UInt32).toNat = 0 := rfl
    omega
  simp only [granted, computeAndSendNumSlabs, pos, some, false_and, if_false, Option.bind_eq_bind,
    Option.bind_some, handleNumSlabs, ne_eq, not_true_eq_false, or_self]
  rfl

theorem waits_pos {c : ClientSlabs} (pos : 0 < c.maxSendMessageSize.toNat) (groupID : Int16) :
    c.waits "" groupID = false := by
  have some : (c.maxSendMessageSize == 0) = false := by
    rw [beq_eq_false_iff_ne]
    intro none
    rw [none] at pos
    exact absurd pos (by decide)
  unfold waits
  rw [some]
  rfl

/-- The bytes asked for can be sent exactly if the slabs asked for have a size of
less than 2^32 together, or what is beyond that happens to do no harm. -/
theorem available_iff (opts : ClientOptions) (size : UInt32) :
    Available opts size ↔ size ≠ 0 ∧
      (Fits opts.minProducerBytes.toNat opts.minProducerSlabs.toNat size.toNat ∨
        Spare opts.minProducerBytes.toNat opts.minProducerSlabs.toNat size.toNat ∨
        AllOnes opts.minProducerBytes.toNat opts.minProducerSlabs.toNat size.toNat) := by
  by_cases zero : size = 0
  · apply iff_of_false _ fun h => h.1 zero
    rintro ⟨c, grant, -⟩
    rw [granted, computeAndSendNumSlabs, if_pos zero] at grant
    cases grant
  have pos : 0 < size.toNat := Nat.pos_of_ne_zero fun h => zero (UInt32.toNat_inj.mp h)
  obtain ⟨c, grant, product⟩ : ∃ c, granted opts size = some c ∧ c.maxSendMessageSize.toNat =
      (numSlabs opts.minProducerBytes opts.minProducerSlabs size).toNat * size.toNat % 4294967296 :=
    ⟨_, granted_eq opts zero, UInt32.toNat_mul _ _⟩
  rw [and_iff_right zero, ← enough_iff pos size.toNat_lt, ← toNat_numSlabs, ← product, Available,
    grant]
  constructor
  · rintro ⟨c, same, some, enough, -⟩
    cases same
    exact max_le enough some
  · intro most
    obtain ⟨enough, some⟩ := max_le_iff.mp most
    exact ⟨c, rfl, some, enough, fun groupID => waits_pos some groupID⟩

/-- The slabs asked for are granted, and the largest message is as large as they are. -/
def Exact (opts : ClientOptions) (size : UInt32) : Prop :=
  ∃ c, granted opts size = some c ∧ c.maxSendMessageSize.toNat =
    sizeFor opts.minProducerBytes.toNat opts.minProducerSlabs.toNat size.toNat

/-- Neither the number of slabs nor the product wraps around. -/
theorem exact_of_fits {opts : ClientOptions} {size : UInt32} (pos : size ≠ 0)
    (fits : Fits opts.minProducerBytes.toNat opts.minProducerSlabs.toNat size.toNat) :
    Exact opts size := by
  have some : 0 < size.toNat := Nat.pos_of_ne_zero fun h => pos (UInt32.toNat_inj.mp h)
  have size_lt := size.toNat_lt
  have enough := @le_slabsFor opts.minProducerBytes.toNat size.toNat some
  have most : slabsFor opts.minProducerBytes.toNat size.toNat * size.toNat ≤
      sizeFor opts.minProducerBytes.toNat opts.minProducerSlabs.toNat size.toNat :=
    Nat.mul_le_mul_right size.toNat (by omega)
  have count : slabsFor opts.minProducerBytes.toNat size.toNat ≤
      slabsFor opts.minProducerBytes.toNat size.toNat * size.toNat := Nat.le_mul_of_pos_right _ some
  unfold Fits at fits
  have sum : (opts.minProducerBytes.toNat + size.toNat + 18446744073709551615) %
      18446744073709551616 = opts.minProducerBytes.toNat + size.toNat - 1 := by omega
  have rounded : (opts.minProducerBytes.toNat + size.toNat - 1) / size.toNat % 4294967296 =
      slabsFor opts.minProducerBytes.toNat size.toNat := by
    rw [← slabsFor]
    exact Nat.mod_eq_of_lt (by omega)
  refine ⟨_, granted_eq opts pos, (UInt32.toNat_mul _ _).trans ?_⟩
  dsimp only
  rw [toNat_numSlabs, sum, rounded]
  exact Nat.mod_eq_of_lt fits

/-- When the bytes decide and slabs have an even size, what is beyond 2^32 is not
made up for. -/
theorem not_spare (pos : 0 < slabSize) (size_lt : slabSize < 4294967296)
    (large : ¬ Fits bytes slabs slabSize) (fewer : slabs ≤ slabsFor bytes slabSize) :
    ¬ Spare bytes slabs slabSize := by
  rintro ⟨few, enough, left⟩
  have tight := @slabsFor_lt bytes slabSize pos
  have same : slabs = slabsFor bytes slabSize := le_antisymm fewer ((slabsFor_le_iff pos).mpr enough)
  rw [← same] at tight
  have most : sizeFor bytes slabs slabSize = max 1 slabs * slabSize := by
    rw [sizeFor, ← same, max_self]
  unfold Fits at large
  rw [most] at large
  have some : 1 ≤ slabs := by
    by_contra none
    rw [Nat.max_eq_left (by omega), Nat.one_mul] at large
    omega
  rw [Nat.max_eq_right some] at large
  omega

theorem not_allOnes (even : 2 ∣ slabSize) : ¬ AllOnes bytes slabs slabSize := by
  rintro ⟨-, ones⟩
  have divides := Nat.dvd_mul_left_of_dvd even (max 1 (max slabs
    ((bytes + slabSize + 18446744073709551615) % 18446744073709551616 / slabSize % 4294967296)))
  generalize max 1 (max slabs ((bytes + slabSize + 18446744073709551615) % 18446744073709551616 /
    slabSize % 4294967296)) * slabSize = product at ones divides
  omega

/-- There is a slab size, and the slabs asked for have a size of less than 2^32
together. -/
def Met (opts : ClientOptions) (size : UInt32) : Prop :=
  size ≠ 0 ∧ Fits opts.minProducerBytes.toNat opts.minProducerSlabs.toNat size.toNat

/-- A request that is met makes the bytes asked for available. Any other has a wrong
size, and one that is too small if slabs have an even size and the bytes decide how
many there are. -/
theorem available_of_met (opts : ClientOptions) (size : UInt32) :
    (Met opts size → Available opts size) ∧ (Exact opts size ↔ Met opts size) ∧
      (2 ∣ size.toNat →
        opts.minProducerSlabs.toNat ≤ slabsFor opts.minProducerBytes.toNat size.toNat →
        (Available opts size ↔ Met opts size)) := by
  have enough : Met opts size → Available opts size :=
    fun met => (available_iff opts size).mpr ⟨met.1, .inl met.2⟩
  refine ⟨enough, ⟨?_, fun met => exact_of_fits met.1 met.2⟩, fun even fewer => ⟨?_, enough⟩⟩
  · rintro ⟨c, grant, same⟩
    constructor
    · rintro rfl
      rw [granted, computeAndSendNumSlabs, if_pos rfl] at grant
      cases grant
    · unfold Fits
      rw [← same]
      exact c.maxSendMessageSize.toNat_lt
  · intro available
    obtain ⟨some, fits | spare | ones⟩ := (available_iff opts size).mp available
    · exact ⟨some, fits⟩
    · have pos : 0 < size.toNat := Nat.pos_of_ne_zero fun h => some (UInt32.toNat_inj.mp h)
      refine ⟨some, ?_⟩
      by_contra large
      exact not_spare pos size.toNat_lt large fewer spare
    · exact absurd ones (not_allOnes even)

/-- Four gibibytes, with slabs of the default size. -/
def fourGibibytes : ClientOptions where
  minProducerBytes := 4294967296
  minConsumerBytes := 0
  minProducerSlabs := 0
  minConsumerSlabs := 0

theorem not_available : ¬ ∀ opts size, size ≠ 0 → Available opts size := by
  intro claim
  obtain ⟨c, grant, some, -⟩ := claim fourGibibytes 8388608 (by decide)
  rw [granted_eq _ (by decide), Option.some.injEq] at grant
  subst grant
  exact absurd some (by decide)

end ClientSlabs
end Mcsb
