import EventUdpToKafka.MessageEncoding
import EventUdpToKafka.MixedRadix
import EventUdpToKafka.RecordDecoding

set_option autoImplicit false

/-!
# From position words to pixel ids

When the channel bits and the position bits of a word do not overlap, the pixel ids
number the pairs of a channel and a position without gaps and without collisions.
-/
namespace EventUdpToKafka.PixelMap
open MachineWords BigEndianBytes MixedRadix EventDecoding EventArithmetic EventExactness
open MessageEncoding RecordDecoding PacketFormat1

def topBits (n : ℕ) (w : UInt32) : ℕ := w.toNat / 2 ^ (32 - n)

def lowBits (n : ℕ) (w : UInt32) : ℕ := w.toNat % 2 ^ n

theorem lowBits_lt (n : ℕ) (w : UInt32) : lowBits n w < 2 ^ n := Nat.mod_lt _ (Nat.two_pow_pos n)

/-- Some message with these board parameters has a record with this position word, and the record
    gets this pixel id. -/
def PixelOf (b : BoardParameters) (w : UInt32) (id : Int32) : Prop :=
  ∃ (bytes : List UInt8) (delayUs : UInt32) (data : List UInt8) (events : EventData) (k : ℕ)
    (r : Bytes8), bytes.length = 8 ∧ boardOf bytes = b ∧
    Parses bytes delayUs data events ∧ (records data)[k]? = some r ∧ u32FromBeBytes r.low = w ∧
    events.pixelId[k]? = some id

/-- The `j`-th pixel from the offset on. -/
def pixelAt (b : BoardParameters) (j : ℕ) : Int32 :=
  (UInt32.ofNat (b.detectorIdOffset.toNat + j)).toInt32

variable (b : BoardParameters)

def pixelIndex (w : UInt32) : ℕ :=
  value [2 ^ b.channelBits.toNat, 2 ^ b.positionBits.toNat]
    [topBits b.channelBits.toNat w, lowBits b.positionBits.toNat w]

theorem pixelAt_inj {j j' : ℕ} (h : j < 2 ^ 32) (h' : j' < 2 ^ 32) :
    pixelAt b j = pixelAt b j' ↔ j = j' := by
  constructor
  · intro he
    have hword : UInt32.ofNat (b.detectorIdOffset.toNat + j) =
        UInt32.ofNat (b.detectorIdOffset.toNat + j') := congrArg Int32.toUInt32 he
    have hmod := congrArg UInt32.toNat hword
    rw [UInt32.toNat_ofNat', UInt32.toNat_ofNat'] at hmod
    omega
  · rintro rfl
    rfl

/-- A record with any position word is decoded in some message. -/
theorem exists_pixelOf (w : UInt32) : ∃ id, PixelOf b w id := by
  let offset := u32ToBeBytes b.detectorIdOffset
  let low := u32ToBeBytes w
  let bytes : List UInt8 := [0, b.channelBits, 0, b.positionBits] ++ offset.toList
  let record : Bytes8 := ⟨0xE0, 0, 0, 0, low.b0, low.b1, low.b2, low.b3⟩
  have hboard : boardOf bytes = b := by
    change (⟨b.channelBits, b.positionBits, u32FromBeBytes offset⟩ : BoardParameters) = b
    rw [u32FromBeBytes_toBeBytes]
  have hrecords : records record.toList = [record] := (asChunks8_eq record.toList).symm
  have hmarked : unmarked record.toList = 0 := by
    rw [unmarked_eq_zero, hrecords, List.forall_mem_singleton]
    exact (by decide : (0xE0 : UInt8) >>> 1 = 0b1110000)
  have hlength : record.toList.length = 8 := rfl
  obtain ⟨events, hparses⟩ : ∃ events, Parses bytes 0 record.toList events :=
    (exists_parses_iff rfl).mpr ⟨⟨by rw [hlength], by decide⟩, hmarked⟩
  obtain ⟨-, -, -, hpixels⟩ := parses_entries rfl hparses
  rw [hrecords] at hpixels
  exact ⟨_, bytes, 0, record.toList, events, 0, record, rfl, hboard, hparses, by rw [hrecords]; rfl,
    u32FromBeBytes_toBeBytes w, by rw [hpixels]; rfl⟩

section Split
variable {b} (hsplit : EventExactness.Disjoint b)
include hsplit

theorem topBits_lt (w : UInt32) : topBits b.channelBits.toNat w < 2 ^ b.channelBits.toNat := by
  have hpow : 2 ^ b.channelBits.toNat * 2 ^ (32 - b.channelBits.toNat) = 2 ^ 32 := by
    rw [Nat.mul_comm]
    exact Nat.pow_sub_mul_pow 2 (Nat.le_trans (Nat.le_add_right _ _) hsplit)
  apply (Nat.div_lt_iff_lt_mul (Nat.two_pow_pos _)).mpr
  rw [hpow]
  exact w.toNat_lt

theorem within_index (w : UInt32) :
    Within [2 ^ b.channelBits.toNat, 2 ^ b.positionBits.toNat]
      [topBits b.channelBits.toNat w, lowBits b.positionBits.toNat w] :=
  .cons (topBits_lt hsplit w) (.cons (lowBits_lt _ w) .nil)

theorem pixelIndex_lt (w : UInt32) :
    pixelIndex b w < 2 ^ (b.channelBits.toNat + b.positionBits.toNat) := by
  have h := value_lt (within_index hsplit w)
  rwa [List.prod_cons, List.prod_singleton, ← Nat.pow_add] at h

theorem index_bound : 2 ^ (b.channelBits.toNat + b.positionBits.toNat) ≤ 2 ^ 32 :=
  Nat.pow_le_pow_right (by decide) hsplit

theorem pixelOf_eq {w : UInt32} {id : Int32} (h : PixelOf b w id) : id = pixelAt b (pixelIndex b w) := by
  obtain ⟨bytes, delayUs, data, events, k, r, hlen, rfl, hparses, hrecord, rfl, hid⟩ := h
  have hbits : (boardOf bytes).channelBits.toNat ≤ 32 := Nat.le_trans (Nat.le_add_right _ _) hsplit
  obtain ⟨-, -, -, hpixels⟩ := parses_entries hlen hparses
  rw [hpixels, List.getElem?_map, hrecord] at hid
  obtain rfl := Option.some.inj hid
  apply congrArg UInt32.toInt32
  apply UInt32.toNat_inj.mp
  have hword := pixelWord_toNat (boardOf bytes) (delayUs * 1000) r hbits
  rw [UInt32.toNat_ofNat']
  refine hword.trans ?_
  rw [pixelIndex, value_pair, ← Nat.add_assoc]
  rfl

theorem pixelIndex_inj {w w' : UInt32} : pixelIndex b w = pixelIndex b w' ↔
    topBits b.channelBits.toNat w = topBits b.channelBits.toNat w' ∧
      lowBits b.positionBits.toNat w = lowBits b.positionBits.toNat w' := by
  rw [pixelIndex, pixelIndex, value_inj (within_index hsplit w) (within_index hsplit w')]
  simp only [List.cons.injEq, and_true]

theorem pixelOf_inj {w w' : UInt32} {id id' : Int32} (h : PixelOf b w id) (h' : PixelOf b w' id') :
    id = id' ↔ topBits b.channelBits.toNat w = topBits b.channelBits.toNat w' ∧
      lowBits b.positionBits.toNat w = lowBits b.positionBits.toNat w' := by
  have hbound := index_bound hsplit
  have hlt := Nat.lt_of_lt_of_le (pixelIndex_lt hsplit w) hbound
  have hlt' := Nat.lt_of_lt_of_le (pixelIndex_lt hsplit w') hbound
  rw [pixelOf_eq hsplit h, pixelOf_eq hsplit h', pixelAt_inj b hlt hlt', pixelIndex_inj hsplit]

/-- Every channel and every position in their ranges are those of some word. -/
theorem exists_word {c p : ℕ} (hc : c < 2 ^ b.channelBits.toNat) (hp : p < 2 ^ b.positionBits.toNat) :
    ∃ w, topBits b.channelBits.toNat w = c ∧ lowBits b.positionBits.toNat w = p := by
  let e : Event b.channelBits.toNat b.positionBits.toNat :=
    ⟨0, c, 0, p, by decide, hc, Nat.two_pow_pos _, hp⟩
  exact ⟨u32FromBeBytes e.words.low, e.channel_words hsplit, e.position_words hsplit⟩

theorem exists_index {j : ℕ} (h : j < 2 ^ (b.channelBits.toNat + b.positionBits.toNat)) :
    ∃ w, pixelIndex b w = j := by
  have hprod : j < [2 ^ b.channelBits.toNat, 2 ^ b.positionBits.toNat].prod := by
    rwa [List.prod_cons, List.prod_singleton, ← Nat.pow_add]
  obtain ⟨hwithin, hvalue⟩ := value_digits hprod
  cases hwithin with
  | cons hc htail =>
    cases htail with
    | cons hp _ =>
      obtain ⟨w, hw, hw'⟩ := exists_word hsplit hc hp
      refine ⟨w, ?_⟩
      rw [pixelIndex, hw, hw']
      exact hvalue

theorem reachable_iff {id : Int32} : (∃ w, PixelOf b w id) ↔
    ∃ j < 2 ^ (b.channelBits.toNat + b.positionBits.toNat), id = pixelAt b j := by
  constructor
  · rintro ⟨w, h⟩
    exact ⟨pixelIndex b w, pixelIndex_lt hsplit w, pixelOf_eq hsplit h⟩
  · rintro ⟨j, hj, rfl⟩
    obtain ⟨w, rfl⟩ := exists_index hsplit hj
    obtain ⟨id, h⟩ := exists_pixelOf b w
    rw [← pixelOf_eq hsplit h]
    exact ⟨w, h⟩

end Split

/-- Two position words get one pixel id just when their channels and their positions agree, and the
    ids are consecutive from the offset on, one for each pair of a channel and a position. -/
theorem pixelIds_unaliased {b : BoardParameters} (hsplit : EventExactness.Disjoint b) :
    (∀ w, ∃ id, PixelOf b w id) ∧
    (∀ w w' id id', PixelOf b w id → PixelOf b w' id' →
      (id = id' ↔ topBits b.channelBits.toNat w = topBits b.channelBits.toNat w' ∧
        lowBits b.positionBits.toNat w = lowBits b.positionBits.toNat w')) ∧
    (∀ id, (∃ w, PixelOf b w id) ↔
      ∃ j < 2 ^ (b.channelBits.toNat + b.positionBits.toNat), id = pixelAt b j) ∧
    (∀ j < 2 ^ (b.channelBits.toNat + b.positionBits.toNat),
      ∀ j' < 2 ^ (b.channelBits.toNat + b.positionBits.toNat), pixelAt b j = pixelAt b j' → j = j') ∧
    ∀ id, (∃ w, PixelOf b w id) → ∃! q : ℕ × ℕ, q.1 < 2 ^ b.channelBits.toNat ∧
      q.2 < 2 ^ b.positionBits.toNat ∧ ∃ w, PixelOf b w id ∧ topBits b.channelBits.toNat w = q.1 ∧
        lowBits b.positionBits.toNat w = q.2 := by
  refine ⟨exists_pixelOf b, fun w w' id id' h h' => pixelOf_inj hsplit h h',
    fun id => reachable_iff hsplit, fun j hj j' hj' => ?_, fun id ⟨w, h⟩ => ?_⟩
  · have hbound := index_bound hsplit
    exact (pixelAt_inj b (Nat.lt_of_lt_of_le hj hbound) (Nat.lt_of_lt_of_le hj' hbound)).mp
  · refine ⟨(topBits b.channelBits.toNat w, lowBits b.positionBits.toNat w),
      ⟨topBits_lt hsplit w, lowBits_lt _ w, w, h, rfl, rfl⟩, ?_⟩
    rintro ⟨c, p⟩ ⟨-, -, w', h', rfl, rfl⟩
    obtain ⟨hc, hp⟩ := (pixelOf_inj hsplit h' h).mp rfl
    exact Prod.ext hc hp

/-- No channel bits and 32 position bits: the word itself, counted from the offset. -/
theorem pixelIds_unaliased_wide : ∃ id, PixelOf ⟨0, 32, 7⟩ 0xFFFFFFFF id :=
  (pixelIds_unaliased (b := ⟨0, 32, 7⟩) (by unfold EventExactness.Disjoint; decide)).1 0xFFFFFFFF

end EventUdpToKafka.PixelMap
