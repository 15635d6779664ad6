import EventUdpToKafka.EventExactness
import EventUdpToKafka.FrameEmission

set_option autoImplicit false

/-!
# Decoding record by record

Without overflow checks the decoder takes all the records of a message or none, and
what it makes of one of them depends on that record alone.
-/
namespace EventUdpToKafka.RecordDecoding
open LoggedRun MachineWords BigEndianBytes Metrics EventDecoding EventArithmetic EventExactness
open FrameEmission PacketFormat1 Testing

def records (data : List UInt8) : List Bytes8 :=
  (List.range (data.length / 8)).map fun k => bytes8At data (8 * k)

/-- The top seven bits of the first byte. -/
def HasMarker (record : Bytes8) : Prop := record.b0 >>> 1 = 0b1110000

instance (record : Bytes8) : Decidable (HasMarker record) := inferInstanceAs (Decidable (_ = _))

def unmarked (data : List UInt8) : ℕ := (records data).countP fun r => ¬ HasMarker r

def invalidEventsText : String :=
  "PacketFormat1 decoder encountered invalid neutron events; dropping all events in this message."

def Parses (bytes : List UInt8) (delayUs : UInt32) (data : List UInt8) (events : EventData) : Prop :=
  (parseRawData .release bytes data delayUs).outcome = .ok (.ok events)

def FailsOnMarkers (bytes : List UInt8) (delayUs : UInt32) (data : List UInt8) : Prop :=
  (parseRawData .release bytes data delayUs).outcome = .ok (.error invalidEventsText)

/-- The guards that the decoder passes before it looks at the records. -/
def Ready (delayUs : UInt32) (data : List UInt8) : Prop :=
  data.length % 8 = 0 ∧ 1000 * delayUs.toNat < 2 ^ 32

instance (delayUs : UInt32) (data : List UInt8) : Decidable (Ready delayUs data) :=
  inferInstanceAs (Decidable (_ ∧ _))

/-- Both coordinates of a record that is decoded under these parameters and this delay. -/
def entry (bytes : List UInt8) (delayUs : UInt32) (record : Bytes8) : Int32 × Int32 :=
  ((tofWord (capturedBy bytes delayUs) record).toInt32,
    (pixelWord (capturedBy bytes delayUs) record).toInt32)

theorem hasMarker_iff (record : Bytes8) : HasMarker record ↔ validMarker record := by
  have h (x : BitVec 8) : x >>> 1 = 0b1110000#8 ↔ x = 0xE0#8 ∨ x = 0xE1#8 := by
    revert x
    decide
  rw [validMarker_iff, HasMarker, ← UInt8.toBitVec_inj, ← UInt8.toBitVec_inj, ← UInt8.toBitVec_inj]
  exact h record.b0.toBitVec

theorem records_append {data : List UInt8} (h : data.length % 8 = 0) (data' : List UInt8) :
    records (data ++ data') = records data ++ records data' := by
  simp only [records, ← asChunks8_eq, asChunks8_append h]

theorem records_length (data : List UInt8) : (records data).length = data.length / 8 := by
  rw [records, List.length_map, List.length_range]

theorem badRecords_eq (data : List UInt8) : badRecords (asChunks8 data) = unmarked data := by
  rw [asChunks8_eq, unmarked, records, badRecords]
  apply List.countP_congr
  intro r _
  simp only [decide_eq_true_eq, hasMarker_iff, Bool.not_eq_true', Bool.not_eq_true]

theorem unmarked_eq_zero {data : List UInt8} : unmarked data = 0 ↔ ∀ r ∈ records data, HasMarker r := by
  rw [unmarked, List.countP_eq_zero]
  simp only [decide_eq_true_eq, not_not]

theorem unmarked_append {data : List UInt8} (h : data.length % 8 = 0) (data' : List UInt8) :
    unmarked (data ++ data') = unmarked data + unmarked data' := by
  rw [unmarked, records_append h, List.countP_append]
  rfl

theorem decodeRecords_release (c : Captured) (data : List UInt8) :
    decodeRecords .release c data =
      if unmarked data = 0 then pure (.ok (eventData c (asChunks8 data)))
      else ⟨[.increment .invalidNeutronEvents (unmarked data)], .ok (.error invalidEventsText)⟩ := by
  have hall : decodeAll .release c (asChunks8 data) = .ok ⟨unmarked data,
      timesOfFlight c (asChunks8 data), pixelIds c (asChunks8 data)⟩ := by
    rw [decodeAll_eq, badRecords_eq]
    rfl
  rw [decodeRecords, hall, Run.lift_ok_bind]
  by_cases hbad : unmarked data = 0
  · rw [if_pos hbad, hbad, if_neg (Nat.lt_irrefl 0), eventData_new]
  · rw [if_neg hbad, if_pos (Nat.pos_of_ne_zero hbad)]
    rfl

section Message
variable {bytes : List UInt8} (hlen : bytes.length = 8)
include hlen

/-- The guards in the order of the code. -/
theorem parseRawData_release (delayUs : UInt32) (data : List UInt8) :
    (¬ Ready delayUs data ∧ ∃ text, text ≠ invalidEventsText ∧
      parseRawData .release bytes data delayUs = pure (.error text)) ∨
    (Ready delayUs data ∧
      parseRawData .release bytes data delayUs =
        decodeRecords .release (capturedBy bytes delayUs) data) := by
  obtain ⟨w, rfl⟩ := bytes8_of_length bytes hlen
  unfold parseRawData
  by_cases hwhole : data.length % 8 = 0
  swap
  · rw [if_pos hwhole]
    exact .inl ⟨fun h => hwhole h.1, _, by decide, rfl⟩
  rw [if_neg (not_not.mpr hwhole), if_neg (not_not.mpr hlen), checkedMul_thousand]
  by_cases hdelay : delayUs.toNat * 1000 < 2 ^ 32
  · rw [if_pos hdelay]
    exact .inr ⟨⟨hwhole, by omega⟩, rfl⟩
  · rw [if_neg hdelay]
    refine .inl ⟨fun h => hdelay ?_, _, by decide, rfl⟩
    have hready := h.2
    omega

theorem parseRawData_cases (delayUs : UInt32) (data : List UInt8) :
    (¬ Ready delayUs data ∧ ∃ text, text ≠ invalidEventsText ∧
      parseRawData .release bytes data delayUs = pure (.error text)) ∨
    (Ready delayUs data ∧ unmarked data ≠ 0 ∧
      parseRawData .release bytes data delayUs =
        ⟨[.increment .invalidNeutronEvents (unmarked data)], .ok (.error invalidEventsText)⟩) ∨
    (Ready delayUs data ∧ unmarked data = 0 ∧
      parseRawData .release bytes data delayUs =
        pure (.ok (eventData (capturedBy bytes delayUs) (asChunks8 data)))) := by
  rcases parseRawData_release hlen delayUs data with h | ⟨hready, hparse⟩
  · exact .inl h
  · rw [hparse, decodeRecords_release]
    by_cases hbad : unmarked data = 0
    · rw [if_pos hbad]
      exact .inr (.inr ⟨hready, hbad, rfl⟩)
    · rw [if_neg hbad]
      exact .inr (.inl ⟨hready, hbad, rfl⟩)

variable {delayUs : UInt32} {data : List UInt8}

theorem parses_iff {events : EventData} : Parses bytes delayUs data events ↔
    Ready delayUs data ∧ unmarked data = 0 ∧
      events = eventData (capturedBy bytes delayUs) (asChunks8 data) := by
  unfold Parses
  rcases parseRawData_cases hlen delayUs data with
    ⟨hready, text, -, hparse⟩ | ⟨hready, hbad, hparse⟩ | ⟨hready, hbad, hparse⟩
  · rw [hparse]
    exact iff_of_false (fun h => nomatch h) fun h => hready h.1
  · rw [hparse]
    exact iff_of_false (fun h => nomatch h) fun h => hbad h.2.1
  · rw [hparse]
    constructor
    · intro h
      cases h
      exact ⟨hready, hbad, rfl⟩
    · rintro ⟨-, -, rfl⟩
      rfl

theorem failsOnMarkers_iff : FailsOnMarkers bytes delayUs data ↔
    Ready delayUs data ∧ unmarked data ≠ 0 := by
  unfold FailsOnMarkers
  rcases parseRawData_cases hlen delayUs data with
    ⟨hready, text, htext, hparse⟩ | ⟨hready, hbad, hparse⟩ | ⟨hready, hbad, hparse⟩
  · rw [hparse]
    refine iff_of_false (fun h => ?_) fun h => hready h.1
    cases h
    exact htext rfl
  · rw [hparse]
    exact iff_of_true rfl ⟨hready, hbad⟩
  · rw [hparse]
    exact iff_of_false (fun h => nomatch h) fun h => h.2 hbad

theorem invalid_total : total .invalidNeutronEvents (parseRawData .release bytes data delayUs).log =
    if Ready delayUs data ∧ unmarked data ≠ 0 then
      unmarked data else 0 := by
  rcases parseRawData_cases hlen delayUs data with
    ⟨hready, text, -, hparse⟩ | ⟨hready, hbad, hparse⟩ | ⟨hready, hbad, hparse⟩
  · rw [hparse, if_neg fun h => hready h.1]
    rfl
  · rw [hparse, if_pos ⟨hready, hbad⟩]
    rfl
  · rw [hparse, if_neg fun h => h.2 hbad]
    rfl

theorem exists_parses_iff : (∃ events, Parses bytes delayUs data events) ↔
    Ready delayUs data ∧ unmarked data = 0 := by
  simp only [parses_iff hlen]
  exact ⟨fun ⟨_, hready, hbad, _⟩ => ⟨hready, hbad⟩, fun ⟨hready, hbad⟩ => ⟨_, hready, hbad, rfl⟩⟩

theorem parses_entries {events : EventData} (h : Parses bytes delayUs data events) :
    events.timeOfFlight.length = data.length / 8 ∧ events.pixelId.length = data.length / 8 ∧
      events.timeOfFlight = (records data).map (fun r => (entry bytes delayUs r).1) ∧
      events.pixelId = (records data).map fun r => (entry bytes delayUs r).2 := by
  obtain ⟨-, -, rfl⟩ := (parses_iff hlen).mp h
  have hrecords := records_length data
  rw [records, ← asChunks8_eq] at hrecords ⊢
  exact ⟨(List.length_map _).trans hrecords, (List.length_map _).trans hrecords, rfl, rfl⟩

section Append
variable {data' : List UInt8} (hdata : data.length % 8 = 0) (hdata' : data'.length % 8 = 0)
include hdata hdata'

theorem exists_parses_append_iff : (∃ events, Parses bytes delayUs (data ++ data') events) ↔
    (∃ events, Parses bytes delayUs data events) ∧ ∃ events, Parses bytes delayUs data' events := by
  have hcount := unmarked_append hdata data'
  have hwhole : (data ++ data').length % 8 = 0 := by
    rw [List.length_append]
    omega
  simp only [exists_parses_iff hlen, Ready, hcount, hwhole, hdata, hdata', true_and]
  constructor
  · rintro ⟨hdelay, hsum⟩
    exact ⟨⟨hdelay, by omega⟩, hdelay, by omega⟩
  · rintro ⟨⟨hdelay, hbad⟩, -, hbad'⟩
    exact ⟨hdelay, by omega⟩

theorem parses_append {events events' : EventData} (h : Parses bytes delayUs data events)
    (h' : Parses bytes delayUs data' events') : ∃ both, Parses bytes delayUs (data ++ data') both ∧
      both.timeOfFlight = events.timeOfFlight ++ events'.timeOfFlight ∧
      both.pixelId = events.pixelId ++ events'.pixelId := by
  obtain ⟨both, hboth⟩ := (exists_parses_append_iff hlen hdata hdata').mpr ⟨⟨_, h⟩, _, h'⟩
  obtain ⟨-, -, htof, hpixel⟩ := parses_entries hlen h
  obtain ⟨-, -, htof', hpixel'⟩ := parses_entries hlen h'
  obtain ⟨-, -, htofs, hpixels⟩ := parses_entries hlen hboth
  rw [records_append hdata, List.map_append] at htofs hpixels
  exact ⟨both, hboth, by rw [htofs, htof, htof'], by rw [hpixels, hpixel, hpixel']⟩

end Append

end Message

/-- The decoder takes the records one by one and all of them or none. What it delivers for a record
    is `entry` of the parameters, the delay and that record. -/
theorem parseRawData_elementwise {bytes : List UInt8} (hlen : bytes.length = 8) (delayUs : UInt32) :
    (∀ data, (∃ events, Parses bytes delayUs data events) ↔
      data.length % 8 = 0 ∧ 1000 * delayUs.toNat < 2 ^ 32 ∧ ∀ r ∈ records data, HasMarker r) ∧
    (∀ data events, Parses bytes delayUs data events →
      events.timeOfFlight.length = data.length / 8 ∧ events.pixelId.length = data.length / 8 ∧
      events.timeOfFlight = (records data).map (fun r => (entry bytes delayUs r).1) ∧
      events.pixelId = (records data).map fun r => (entry bytes delayUs r).2) ∧
    (∀ data data', data.length % 8 = 0 → data'.length % 8 = 0 →
      ((∃ events, Parses bytes delayUs (data ++ data') events) ↔
        (∃ events, Parses bytes delayUs data events) ∧
          ∃ events, Parses bytes delayUs data' events) ∧
      (∀ events events', Parses bytes delayUs data events → Parses bytes delayUs data' events' →
        ∃ both, Parses bytes delayUs (data ++ data') both ∧
          both.timeOfFlight = events.timeOfFlight ++ events'.timeOfFlight ∧
          both.pixelId = events.pixelId ++ events'.pixelId) ∧
      unmarked (data ++ data') = unmarked data + unmarked data') ∧
    ∀ data, (FailsOnMarkers bytes delayUs data ↔
        data.length % 8 = 0 ∧ 1000 * delayUs.toNat < 2 ^ 32 ∧ ∃ r ∈ records data, ¬ HasMarker r) ∧
      (FailsOnMarkers bytes delayUs data →
        total .invalidNeutronEvents (parseRawData .release bytes data delayUs).log =
          unmarked data) ∧
      (¬ FailsOnMarkers bytes delayUs data →
        total .invalidNeutronEvents (parseRawData .release bytes data delayUs).log = 0) := by
  refine ⟨fun data => ?_, fun data events h => parses_entries hlen h,
    fun data data' hdata hdata' => ⟨exists_parses_append_iff hlen hdata hdata',
      fun events events' h h' => parses_append hlen hdata hdata' h h', unmarked_append hdata data'⟩,
    fun data => ⟨?_, fun h => ?_, fun h => ?_⟩⟩
  · rw [exists_parses_iff hlen, unmarked_eq_zero, Ready, and_assoc]
  · rw [failsOnMarkers_iff hlen, Ne, unmarked_eq_zero, Ready, and_assoc]
    simp only [not_forall, exists_prop]
  · rw [invalid_total hlen, if_pos ((failsOnMarkers_iff hlen).mp h)]
  · rw [invalid_total hlen, if_neg fun hc => h ((failsOnMarkers_iff hlen).mpr hc)]

/-- Two records that differ in their tick, channel and position. -/
theorem parseRawData_elementwise_fake : ∃ events,
    Parses packetFormat1.makeFakeBoardSpecificHeaderData 0
      (packetFormat1.makeFakeEvent ++ [0xE1, 0, 0, 1, 3, 0, 0, 7]) events ∧
    events.timeOfFlight = [456000, 335544340] ∧ events.pixelId = [292254, 295123] := by
  obtain ⟨hparses, hentries, -⟩ := parseRawData_elementwise
    (show packetFormat1.makeFakeBoardSpecificHeaderData.length = 8 from rfl) 0
  obtain ⟨events, h⟩ := (hparses (packetFormat1.makeFakeEvent ++ [0xE1, 0, 0, 1, 3, 0, 0, 7])).mpr
    ⟨rfl, by decide, by decide +kernel⟩
  obtain ⟨-, -, htof, hpixel⟩ := hentries _ _ h
  refine ⟨events, h, ?_, ?_⟩
  · rw [htof]
    decide +kernel
  · rw [hpixel]
    decide +kernel

end EventUdpToKafka.RecordDecoding
