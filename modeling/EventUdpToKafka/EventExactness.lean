import EventUdpToKafka.EventArithmetic
import EventUdpToKafka.Testing

set_option autoImplicit false

/-!
# When the decoded numbers are the intended ones

The decoder computes modulo `2 ^ 32` and casts to signed numbers. What it
delivers is compared with the sums over the natural numbers.
-/
namespace EventUdpToKafka.EventExactness
open LoggedRun MachineWords BigEndianBytes BitUtils Metrics EventDecoding EventArithmetic
open PacketFormat1 Testing

/-- The 25-bit clock reading of a record. -/
def tick (event : Bytes8) : ℕ := (u32FromBeBytes event.high).toNat % 2 ^ 25

def positionWordOf (event : Bytes8) : ℕ := (u32FromBeBytes event.low).toNat

def channel (channelBits : ℕ) (event : Bytes8) : ℕ := positionWordOf event / 2 ^ (32 - channelBits)

def position (positionBits : ℕ) (event : Bytes8) : ℕ := positionWordOf event % 2 ^ positionBits

def timeOfFlight (delayUs : UInt32) (event : Bytes8) : ℕ := 20 * tick event + 1000 * delayUs.toNat

def pixelId (b : BoardParameters) (event : Bytes8) : ℕ :=
  b.detectorIdOffset.toNat + channel b.channelBits.toNat event * 2 ^ b.positionBits.toNat +
    position b.positionBits.toNat event

/-- The channel that the code goes on with. A width of over 32 bits gives it channel zero. -/
def usedChannel (channelBits : ℕ) (event : Bytes8) : ℕ :=
  if channelBits ≤ 32 then channel channelBits event else 0

/-- The factor of the channel. A shift by 32 bits or more gives zero. -/
def usedMultiplier (positionBits : ℕ) : ℕ := if positionBits < 32 then 2 ^ positionBits else 0

def boardOf (bytes : List UInt8) : BoardParameters :=
  ⟨byteAt bytes 1, byteAt bytes 3, u32FromBeBytes (bytes4At bytes 4)⟩

def capturedBy (bytes : List UInt8) (delayUs : UInt32) : Captured :=
  captured (boardOf bytes) (delayUs * 1000)

theorem tickWord_toNat (event : Bytes8) : (tickWord event).toNat = tick event :=
  and_mask_toNat (u32FromBeBytes event.high) 25

theorem tofWord_toNat (c : Captured) (event : Bytes8) :
    (tofWord c event).toNat = (20 * tick event + c.frameSyncDelayNs.toNat) % 2 ^ 32 := by
  have h20 : clockTicksToNs.toNat = 20 := rfl
  rw [tofWord, UInt32.toNat_add, UInt32.toNat_mul, tickWord_toNat, h20]
  omega

theorem tofFits_iff (c : Captured) (event : Bytes8) :
    TofFits c event ↔ 20 * tick event + c.frameSyncDelayNs.toNat < 2 ^ 32 := by
  have h20 : clockTicksToNs.toNat = 20 := rfl
  have htick : tick event < 2 ^ 25 := Nat.mod_lt _ (by decide)
  have hproduct : tick event * 20 % 2 ^ 32 = tick event * 20 := Nat.mod_eq_of_lt (by omega)
  unfold TofFits
  rw [UInt32.toNat_mul, tickWord_toNat, h20, hproduct]
  omega

section Captured
variable (b : BoardParameters) (delayNs : UInt32) (event : Bytes8)

theorem positionWord_toNat : (positionWord (captured b delayNs) event).toNat =
    position b.positionBits.toNat event :=
  (and_mask_toNat (u32FromBeBytes event.low) b.positionBits.toUInt32).trans
    (by rw [UInt8.toNat_toUInt32]; rfl)

theorem channelWord_toNat (h : b.channelBits.toNat ≤ 32) :
    (channelWord (captured b delayNs) event).toNat = channel b.channelBits.toNat event := by
  have hbits : b.channelBits.toUInt32.toNat = b.channelBits.toNat := UInt8.toNat_toUInt32 _
  have hmsb := extractMsb_toNat (u32FromBeBytes event.low) (hbits ▸ h)
  rw [hbits] at hmsb
  exact hmsb

theorem channelMultiplier_toNat : (captured b delayNs).channelMultiplier.toNat =
    usedMultiplier b.positionBits.toNat := by
  have hbits : b.positionBits.toUInt32.toNat = b.positionBits.toNat := UInt8.toNat_toUInt32 _
  rw [← hbits, usedMultiplier]
  exact unboundedShl_one_toNat b.positionBits.toUInt32

/-- A multiplier of zero is the right one modulo `2 ^ 32`. -/
theorem channelOffset_mod (n : ℕ) : n * (captured b delayNs).channelMultiplier.toNat % 2 ^ 32 =
    n * 2 ^ b.positionBits.toNat % 2 ^ 32 := by
  rw [channelMultiplier_toNat, usedMultiplier]
  split
  · rfl
  · rename_i hwide
    have hpow : 2 ^ b.positionBits.toNat = 2 ^ (b.positionBits.toNat - 32) * 2 ^ 32 := by
      rw [← Nat.pow_add, Nat.sub_add_cancel (Nat.le_of_not_lt hwide)]
    rw [hpow, ← Nat.mul_assoc, Nat.mul_mod_left, Nat.mul_zero, Nat.zero_mod]

theorem pixelWord_toNat (h : b.channelBits.toNat ≤ 32) :
    (pixelWord (captured b delayNs) event).toNat = pixelId b event % 2 ^ 32 := by
  have hoffset := channelOffset_mod b delayNs (channel b.channelBits.toNat event)
  rw [pixelWord, UInt32.toNat_add, UInt32.toNat_add, UInt32.toNat_mul, positionWord_toNat,
    channelWord_toNat _ _ _ h, hoffset, pixelId]
  change ((_ + b.detectorIdOffset.toNat) % 2 ^ 32 + _) % 2 ^ 32 = _
  omega

theorem channelWord_used : (channelWord (captured b delayNs) event).toNat =
    usedChannel b.channelBits.toNat event := by
  by_cases h : b.channelBits.toNat ≤ 32
  · rw [channelWord_toNat _ _ _ h, usedChannel, if_pos h]
  · have hbits : b.channelBits.toUInt32.toNat = b.channelBits.toNat := UInt8.toNat_toUInt32 _
    have hwide := extractMsb_wide (u32FromBeBytes event.low) (n := b.channelBits.toUInt32) (by omega)
    have hnone : channelWord (captured b delayNs) event = 0 := by
      rw [channelWord]
      exact congrArg (fun o : Option UInt32 => o.getD 0) hwide
    rw [hnone, usedChannel, if_neg h]
    rfl

theorem pixelFits_iff : PixelFits (captured b delayNs) event ↔
    position b.positionBits.toNat event + b.detectorIdOffset.toNat +
      usedChannel b.channelBits.toNat event * usedMultiplier b.positionBits.toNat < 2 ^ 32 := by
  have hoffset : (captured b delayNs).detectorIdOffset = b.detectorIdOffset := rfl
  unfold PixelFits
  rw [UInt32.toNat_add, UInt32.toNat_mul, positionWord_toNat, channelWord_used, hoffset,
    channelMultiplier_toNat]
  omega

theorem pixelFits_of_lt (h : b.channelBits.toNat ≤ 32) (hlt : pixelId b event < 2 ^ 32) :
    PixelFits (captured b delayNs) event := by
  have hmultiplier : usedMultiplier b.positionBits.toNat ≤ 2 ^ b.positionBits.toNat := by
    rw [usedMultiplier]
    split
    · exact Nat.le_refl _
    · exact Nat.zero_le _
  have hproduct := Nat.mul_le_mul_left (channel b.channelBits.toNat event) hmultiplier
  rw [pixelFits_iff, usedChannel, if_pos h]
  unfold pixelId at hlt
  omega

end Captured

/-- The sums over the fields of a record fit in 32 bits. -/
structure SumsFit (b : BoardParameters) (delayUs : UInt32) (event : Bytes8) : Prop where
  timeOfFlight : timeOfFlight delayUs event < 2 ^ 32
  pixelId : position b.positionBits.toNat event + b.detectorIdOffset.toNat +
    usedChannel b.channelBits.toNat event * usedMultiplier b.positionBits.toNat < 2 ^ 32

instance (b : BoardParameters) (delayUs : UInt32) (event : Bytes8) : Decidable (SumsFit b delayUs event) :=
  decidable_of_iff (_ ∧ _) ⟨fun h => ⟨h.1, h.2⟩, fun h => ⟨h.1, h.2⟩⟩

/-- No operation of the code on a record overflows exactly when its sums fit. -/
theorem eventFits_iff {b : BoardParameters} {delayUs : UInt32} {event : Bytes8}
    (h : delayUs.toNat * 1000 < 2 ^ 32) :
    EventFits (captured b (delayUs * 1000)) event ↔ SumsFit b delayUs event := by
  have hns : (captured b (delayUs * 1000)).frameSyncDelayNs.toNat = delayUs.toNat * 1000 := by
    change (delayUs * 1000).toNat = _
    rw [UInt32.toNat_mul]
    exact Nat.mod_eq_of_lt h
  rw [EventFits, tofFits_iff, hns, pixelFits_iff]
  constructor
  · rintro ⟨htof, hpixel⟩
    exact ⟨by unfold timeOfFlight; omega, hpixel⟩
  · intro hfit
    have htof := hfit.timeOfFlight
    unfold timeOfFlight at htof
    exact ⟨by omega, hfit.pixelId⟩

theorem describes_ok {d : Decoding} {log : List Effect} {events : EventData}
    (h : d.Describes ⟨log, .ok (.ok events)⟩) : d = .decoded events ∧ log = [] := by
  cases d with
  | overflow => exact absurd (congrArg Run.outcome h) (by simp [Run.stop])
  | refused =>
    obtain ⟨text, h⟩ := h
    exact absurd (congrArg Run.outcome h) (by simp)
  | invalid count =>
    obtain ⟨text, h⟩ := h
    exact absurd (congrArg Run.outcome h) (by simp)
  | decoded events' =>
    have ho := congrArg Run.outcome h
    have hl := congrArg Run.log h
    simp at ho hl
    exact ⟨by rw [ho], hl⟩

theorem decodeFormat1_decoded {p : Profile} {board : Option BoardParameters} {data : List UInt8}
    {delayUs : UInt32} {events : EventData}
    (h : decodeFormat1 p board data delayUs = .decoded events) :
    ∃ b, board = some b ∧ delayUs.toNat * 1000 < 2 ^ 32 ∧
      events = eventData (captured b (delayUs * 1000)) (asChunks8 data) := by
  rcases decodeFormat1_cases p board data delayUs with ⟨-, hd⟩ | ⟨-, hdelay, b, rfl, hd⟩
  · rw [hd] at h
    cases h
  · rw [hd, decodeChunks] at h
    split_ifs at h
    cases h
    exact ⟨b, rfl, hdelay, rfl⟩

theorem boardParameters_eq {bytes : List UInt8} {b : BoardParameters}
    (h : boardParameters bytes = some b) : bytes.length = 8 ∧ b = boardOf bytes := by
  have hlen : bytes.length = 8 := by
    by_contra hl
    rw [boardParameters, bytes8_tryFrom_of_length hl] at h
    cases h
  obtain ⟨w, rfl⟩ := bytes8_of_length bytes hlen
  exact ⟨rfl, (Option.some.inj h).symm⟩

theorem parseRawData_ok {p : Profile} {bytes data : List UInt8} {delayUs : UInt32}
    {log : List Effect} {events : EventData}
    (h : parseRawData p bytes data delayUs = ⟨log, .ok (.ok events)⟩) :
    delayUs.toNat * 1000 < 2 ^ 32 ∧ bytes.length = 8 ∧
      events = eventData (capturedBy bytes delayUs) (asChunks8 data) := by
  have hd := parseRawData_describes p bytes data delayUs
  rw [h] at hd
  obtain ⟨b, hb, hdelay, he⟩ := decodeFormat1_decoded (describes_ok hd).1
  obtain ⟨hlen, rfl⟩ := boardParameters_eq hb
  exact ⟨hdelay, hlen, he⟩

/-- The decoder returns events. -/
def Decodes (p : Profile) (bytes data : List UInt8) (delayUs : UInt32) : Prop :=
  ∃ log events, parseRawData p bytes data delayUs = ⟨log, .ok (.ok events)⟩

theorem boardParameters_of_length {bytes : List UInt8} (h : bytes.length = 8) :
    boardParameters bytes = some (boardOf bytes) := by
  obtain ⟨w, rfl⟩ := bytes8_of_length bytes h
  rfl

/-- What the decoder asks for, and what the overflow checks of a build add to it. -/
theorem decodes_iff {p : Profile} {bytes data : List UInt8} {delayUs : UInt32} :
    Decodes p bytes data delayUs ↔ bytes.length = 8 ∧ data.length % 8 = 0 ∧
      delayUs.toNat * 1000 < 2 ^ 32 ∧ (∀ e ∈ asChunks8 data, validMarker e) ∧
      (p = .dev → ∀ e ∈ asChunks8 data, SumsFit (boardOf bytes) delayUs e) := by
  have hdescribes := parseRawData_describes p bytes data delayUs
  have hdecoded : Decodes p bytes data delayUs ↔
      ∃ events, decodeFormat1 p (boardParameters bytes) data delayUs = .decoded events := by
    constructor
    · rintro ⟨log, events, hrun⟩
      rw [hrun] at hdescribes
      exact ⟨events, (describes_ok hdescribes).1⟩
    · rintro ⟨events, hd⟩
      rw [hd] at hdescribes
      exact ⟨[], events, hdescribes⟩
  rw [hdecoded]
  rcases decodeFormat1_cases p (boardParameters bytes) data delayUs with
    ⟨hguards, hd⟩ | ⟨hwhole, hdelay, b, hb, hd⟩
  · rw [hd]
    refine iff_of_false (fun ⟨_, h⟩ => nomatch h) ?_
    rintro ⟨hlen, hwhole, hdelay, -⟩
    exact hguards ⟨hwhole, by rw [boardParameters_of_length hlen]; rfl, hdelay⟩
  · obtain ⟨hlen, rfl⟩ := boardParameters_eq hb
    have hfits : (∀ e ∈ asChunks8 data, EventFits (captured (boardOf bytes) (delayUs * 1000)) e) ↔
        ∀ e ∈ asChunks8 data, SumsFit (boardOf bytes) delayUs e :=
      forall₂_congr fun _ _ => eventFits_iff hdelay
    rw [hd, decodeChunks, ← hfits, ← badRecords_eq_zero]
    constructor
    · rintro ⟨events, h⟩
      split_ifs at h with hoverflow hbad
      exact ⟨hlen, hwhole, hdelay, hbad, fun hp => by_contra fun hf => hoverflow ⟨hp, hf⟩⟩
    · rintro ⟨-, -, -, hbad, hfit⟩
      rw [if_neg fun h => h.2 (hfit h.1), if_pos hbad]
      exact ⟨_, rfl⟩

/-- The delays and board parameters that the decoder refuses whatever the data is. Delays from
    `2 ^ 31` nanoseconds on and widths that overlap are not among them. -/
theorem refused_iff {p : Profile} {bytes : List UInt8} {delayUs : UInt32} :
    (∀ data ≠ [], ¬ Decodes p bytes data delayUs) ↔
      bytes.length ≠ 8 ∨ 2 ^ 32 ≤ delayUs.toNat * 1000 := by
  constructor
  · intro h
    by_contra hguards
    rw [not_or, not_not, not_le] at hguards
    -- a record of zeros behind its marker fits whatever the parameters are
    refine h [0xE0, 0, 0, 0, 0, 0, 0, 0] (List.cons_ne_nil _ _) (decodes_iff.mpr
      ⟨hguards.1, rfl, hguards.2, by decide +kernel, fun _ e he => ?_⟩)
    have hzero : e = ⟨0xE0, 0, 0, 0, 0, 0, 0, 0⟩ := List.mem_singleton.mp he
    have htick : tick ⟨0xE0, 0, 0, 0, 0, 0, 0, 0⟩ = 0 := by decide +kernel
    have hword : positionWordOf ⟨0xE0, 0, 0, 0, 0, 0, 0, 0⟩ = 0 := by decide +kernel
    subst hzero
    constructor
    · rw [timeOfFlight, htick]
      omega
    · have hoffset := (boardOf bytes).detectorIdOffset.toNat_lt
      rw [usedChannel, position, channel, hword, Nat.zero_mod, Nat.zero_div, ite_self]
      omega
  · rintro hguards data - hd
    obtain ⟨hlen, -, hdelay, -⟩ := decodes_iff.mp hd
    rcases hguards with hne | hle
    · exact hne hlen
    · omega

theorem map_toInt_eq_iff {events : List Bytes8} {word : Bytes8 → UInt32} {number : Bytes8 → ℕ}
    (h : ∀ e ∈ events, (word e).toNat = number e % 2 ^ 32) :
    (events.map fun e => (word e).toInt32).map Int32.toInt = events.map (fun e => (number e : ℤ)) ↔
      ∀ e ∈ events, number e < 2 ^ 31 := by
  rw [List.map_map, List.map_inj_left]
  exact forall₂_congr fun e he => u32_toInt32_eq_iff (h e he)

/-- The delivered times of flight are exact precisely where the sum of the clock reading and the
    delay is below `2 ^ 31` nanoseconds, which the check on the delay alone does not give. -/
theorem timeOfFlight_exact_iff {p : Profile} {bytes data : List UInt8} {delayUs : UInt32}
    {log : List Effect} {events : EventData}
    (h : parseRawData p bytes data delayUs = ⟨log, .ok (.ok events)⟩) :
    events.timeOfFlight.map Int32.toInt =
        (asChunks8 data).map (fun e => (timeOfFlight delayUs e : ℤ)) ↔
      ∀ e ∈ asChunks8 data, timeOfFlight delayUs e < 2 ^ 31 := by
  obtain ⟨hdelay, -, rfl⟩ := parseRawData_ok h
  apply map_toInt_eq_iff
  intro e _
  have hns : (capturedBy bytes delayUs).frameSyncDelayNs.toNat = delayUs.toNat * 1000 := by
    change (delayUs * 1000).toNat = _
    rw [UInt32.toNat_mul]
    exact Nat.mod_eq_of_lt hdelay
  rw [tofWord_toNat, hns, timeOfFlight, Nat.mul_comm 1000]

theorem timeOfFlight_exact_fake :
    ([456000] : List Int32).map Int32.toInt =
      (asChunks8 packetFormat1.makeFakeEvent).map (fun e => (timeOfFlight 0 e : ℤ)) :=
  (timeOfFlight_exact_iff (show parseRawData .dev packetFormat1.makeFakeBoardSpecificHeaderData
    packetFormat1.makeFakeEvent 0 = ⟨[], .ok (.ok ⟨[456000], [292254], rfl⟩)⟩ from rfl)).mpr
    (by decide +kernel)

/-- A delay of 2.147484 seconds passes the check and makes the time of flight negative. -/
theorem timeOfFlight_wraps :
    parseRawData .release packetFormat1.makeFakeBoardSpecificHeaderData
        [0xE0, 0, 0, 0, 0, 0, 0, 0] 2147484 =
      ⟨[], .ok (.ok ⟨[-2147483296], [282828], rfl⟩)⟩ ∧
    ([-2147483296] : List Int32).map Int32.toInt ≠
      (asChunks8 [0xE0, 0, 0, 0, 0, 0, 0, 0]).map (fun e => (timeOfFlight 2147484 e : ℤ)) :=
  ⟨rfl, by decide +kernel⟩

def Disjoint (b : BoardParameters) : Prop := b.channelBits.toNat + b.positionBits.toNat ≤ 32

theorem pixelId_exact_iff {p : Profile} {bytes data : List UInt8} {delayUs : UInt32}
    {log : List Effect} {events : EventData}
    (h : parseRawData p bytes data delayUs = ⟨log, .ok (.ok events)⟩) :
    (Disjoint (boardOf bytes) ∧
      (∀ e ∈ asChunks8 data, PixelFits (capturedBy bytes delayUs) e) ∧
      events.pixelId.map Int32.toInt =
        (asChunks8 data).map (fun e => (pixelId (boardOf bytes) e : ℤ))) ↔
      Disjoint (boardOf bytes) ∧ ∀ e ∈ asChunks8 data, pixelId (boardOf bytes) e < 2 ^ 31 := by
  obtain ⟨-, -, rfl⟩ := parseRawData_ok h
  refine and_congr_right fun hdisjoint => ?_
  have hbits : (boardOf bytes).channelBits.toNat ≤ 32 := by
    unfold Disjoint at hdisjoint
    omega
  have hexact := map_toInt_eq_iff fun e (_ : e ∈ asChunks8 data) =>
    pixelWord_toNat (boardOf bytes) (delayUs * 1000) e hbits
  refine ⟨fun hc => hexact.mp hc.2, fun hlt => ⟨fun e he => ?_, hexact.mpr hlt⟩⟩
  exact pixelFits_of_lt _ _ _ hbits ((hlt e he).trans (by decide))

theorem pixelId_exact_fake :
    ([292254] : List Int32).map Int32.toInt = (asChunks8 packetFormat1.makeFakeEvent).map
      (fun e => (pixelId (boardOf packetFormat1.makeFakeBoardSpecificHeaderData) e : ℤ)) :=
  ((pixelId_exact_iff (show parseRawData .dev packetFormat1.makeFakeBoardSpecificHeaderData
    packetFormat1.makeFakeEvent 0 = ⟨[], .ok (.ok ⟨[456000], [292254], rfl⟩)⟩ from rfl)).mpr
    ⟨by unfold Disjoint; decide +kernel, by decide +kernel⟩).2.2

/-- A detector id offset of `2 ^ 31` makes the pixel id negative. -/
theorem pixelId_wraps :
    parseRawData .release [0x78, 8, 12, 12, 0x80, 0, 0, 0] [0xE0, 0, 0, 0, 0, 0, 0, 0] 0 =
      ⟨[], .ok (.ok ⟨[0], [-2147483648], rfl⟩)⟩ ∧
    ([-2147483648] : List Int32).map Int32.toInt ≠ (asChunks8 [0xE0, 0, 0, 0, 0, 0, 0, 0]).map
      (fun e => (pixelId (boardOf [0x78, 8, 12, 12, 0x80, 0, 0, 0]) e : ℤ)) :=
  ⟨rfl, by decide +kernel⟩

end EventUdpToKafka.EventExactness
