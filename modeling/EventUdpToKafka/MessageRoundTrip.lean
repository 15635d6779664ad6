import EventUdpToKafka.DatagramRuns
import EventUdpToKafka.MessageEncoding

set_option autoImplicit false

/-!
# Decoding undoes encoding

The run over encodings, one behind the other, hands over what their descriptions
say.
-/
namespace EventUdpToKafka.MessageRoundTrip
open LoggedRun MachineWords BigEndianBytes GpsClock GpsInstants Config UdpMessage Metrics
open EventDecoding EventArithmetic EventExactness DataProcessing SelfDelimiting MessageReading
open FrameProcessing DatagramRuns PackedClock MessageEncoding PacketFormat1 Testing

section Decoding
variable (d : Description)

theorem asChunks8_events : asChunks8 (d.events.flatMap Event.encode) = d.events.map Event.words := by
  generalize d.events = events
  induction events with
  | nil => rfl
  | cons e events ih =>
    rw [List.flatMap_cons, List.map_cons, ← ih]
    exact asChunks8_toList_append e.words _

def capturedOf : Captured := captured d.board (d.frameSyncDelayUs * 1000)

theorem channelBits_le : d.board.channelBits.toNat ≤ 32 :=
  Nat.le_trans (Nat.le_add_right _ _) d.split

theorem pixelId_words (e : Event d.channelBits.toNat d.positionBits.toNat) :
    pixelId d.board e.words = d.pixelId e := by
  have hchannel := e.channel_words d.split
  have hposition := e.position_words d.split
  rw [pixelId, Description.pixelId]
  change _ + channel d.channelBits.toNat e.words * _ + position d.positionBits.toNat e.words = _
  rw [hchannel, hposition]
  rfl

section Member
variable {d} {e : Event d.channelBits.toNat d.positionBits.toNat} (he : e ∈ d.events)
include he

theorem delay_lt : d.frameSyncDelayUs.toNat * 1000 < 2 ^ 32 := by
  have htof := d.tofs_lt e he
  omega

theorem capturedOf_delay :
    (capturedOf d).frameSyncDelayNs.toNat = 1000 * d.frameSyncDelayUs.toNat := by
  have hdelay := delay_lt he
  change (d.frameSyncDelayUs * 1000).toNat = _
  rw [UInt32.toNat_mul, Nat.mul_comm 1000]
  exact Nat.mod_eq_of_lt hdelay

theorem tofWord_words : (tofWord (capturedOf d) e.words).toNat = d.timeOfFlight e := by
  have htof := d.tofs_lt e he
  rw [tofWord_toNat, capturedOf_delay he, e.tick_words, Description.timeOfFlight]
  omega

theorem pixelWord_words : (pixelWord (capturedOf d) e.words).toNat = d.pixelId e := by
  have hpixel := d.pixels_lt e he
  rw [capturedOf, pixelWord_toNat _ _ _ (channelBits_le d), pixelId_words d e]
  unfold Description.pixelId
  omega

theorem eventFits : EventFits (capturedOf d) e.words := by
  have htof := d.tofs_lt e he
  have hpixel := d.pixels_lt e he
  constructor
  · rw [tofFits_iff, capturedOf_delay he, e.tick_words]
    exact htof.trans (by decide)
  · apply pixelFits_of_lt _ _ _ (channelBits_le d)
    rw [pixelId_words d e]
    exact Nat.lt_trans hpixel (by decide)

end Member

theorem badRecords_words : badRecords (d.events.map Event.words) = 0 := by
  rw [badRecords_eq_zero]
  intro w hw
  obtain ⟨e, -, rfl⟩ := List.mem_map.mp hw
  exact e.validMarker_words

theorem eventData_words : eventData (capturedOf d) (d.events.map Event.words) = d.eventData := by
  have htof : timesOfFlight (capturedOf d) (d.events.map Event.words) = d.eventData.timeOfFlight := by
    rw [timesOfFlight, List.map_map, Description.eventData]
    apply List.map_congr_left
    intro e he
    rw [← tofWord_words he]
    exact congrArg UInt32.toInt32 UInt32.ofNat_toNat.symm
  have hpixel : pixelIds (capturedOf d) (d.events.map Event.words) = d.eventData.pixelId := by
    rw [pixelIds, List.map_map, Description.eventData]
    apply List.map_congr_left
    intro e he
    rw [← pixelWord_words he]
    exact congrArg UInt32.toInt32 UInt32.ofNat_toNat.symm
  cases hd : d.eventData with
  | mk tofs pixels sameLength =>
    rw [hd] at htof hpixel
    subst htof hpixel
    rfl

theorem decode_events (p : Profile) : decode p packetFormatCode (some d.board)
    (d.events.flatMap Event.encode) d.frameSyncDelayUs = .decoded d.eventData := by
  have hlength := d.events_length
  have hwhole : ¬ (d.events.flatMap Event.encode).length % 8 ≠ 0 := by omega
  have hfits : ∀ w ∈ d.events.map Event.words, EventFits (capturedOf d) w := by
    intro w hw
    obtain ⟨e, he, rfl⟩ := List.mem_map.mp hw
    exact eventFits he
  cases hevents : d.events with
  | nil =>
    have hdata : d.eventData = EventData.default := by
      simp only [Description.eventData, hevents, List.map_nil]
      rfl
    rw [hdata]
    rfl
  | cons e events =>
    have he : e ∈ d.events := hevents ▸ List.mem_cons_self
    have hnonempty : ¬ (d.events.flatMap Event.encode).isEmpty := by
      rw [List.isEmpty_iff, ← List.length_eq_zero_iff, hlength, hevents, List.length_cons]
      omega
    rw [← hevents, decode, if_neg hnonempty, if_pos rfl, decodeFormat1, if_neg hwhole,
      checkedMul_thousand, if_pos (delay_lt he)]
    dsimp only
    rw [asChunks8_events, decodeChunks, if_neg fun hov => hov.2 hfits, if_pos (badRecords_words d)]
    exact congrArg Decoding.decoded (eventData_words d)

end Decoding

theorem pu00Message_encode (controlBoard : Bool) (scaling : Float32) (d : Description) :
    pu00Message controlBoard scaling (readMessage d.encode)
      (UInt64.ofNat d.clock.nanosecondsSinceEpoch) = d.pulse controlBoard scaling := by
  rw [d.readMessage_encode, pu00Message, Description.pulse, Description.referenceTime,
    UInt64.toInt64_ofNat']
  generalize d.clock.nanosecondsSinceEpoch = time
  rfl

theorem event44Message_encode (d : Description) :
    event44Message (UInt64.ofNat d.clock.nanosecondsSinceEpoch) d.eventData = d.eventMessage := by
  rw [event44Message, Description.eventMessage, Description.referenceTime, UInt64.toInt64_ofNat']
  generalize d.clock.nanosecondsSinceEpoch = time
  rfl

section Run
variable {chrono : Chrono} (hc : Gregorian chrono) (p : Profile)
include hc

theorem frameRun_encode (controlBoard : Bool) (scaling : Float32) (d : Description) :
    (frameRun p chrono controlBoard scaling (readMessage d.encode)).outcome = .ok () ∧
      sent (frameRun p chrono controlBoard scaling (readMessage d.encode)).log =
        d.emitted controlBoard scaling := by
  have htype : (readMessage d.encode).packetType = .neutronData := by rw [d.readMessage_encode]
  have htime : (readMessage d.encode).gpsTime.nanosecondsSinceEpoch p chrono =
      .ok (some (UInt64.ofNat d.clock.nanosecondsSinceEpoch)) := by
    rw [d.readMessage_encode, nanosecondsSinceEpoch_eq _ hc,
      if_pos (d.clock.pack_valid d.clock_valid), d.clock.pack_instant]
  have hdecoding : decoding p (readMessage d.encode) = some (.decoded d.eventData) := by
    rw [d.readMessage_encode, decoding, Option.map_some, decode_events]
  have hpulse := pu00Message_encode controlBoard scaling d
  have hevents := event44Message_encode d
  have hempty : d.eventData.isEmpty = d.events.isEmpty := by
    rw [EventData.isEmpty, Description.eventData, List.isEmpty_map]
  rw [frameRun, if_pos htype, neutronRun, htime, hdecoding]
  dsimp only
  rw [sent_increment, timedRun_sent, timedRun, hpulse, Description.emitted, ← hempty, bodyRun]
  cases d.eventData.isEmpty with
  | true => exact ⟨rfl, rfl⟩
  | false =>
    rw [hevents]
    exact ⟨rfl, rfl⟩

/-- The encodings of any descriptions, one behind the other, lead to exactly what the descriptions
    say, in their order, and the numbers in it are the intended ones. -/
theorem processUdpBytesToKafka_encode (srcIp : IpAddr) (config : EventUdpToKafkaConfig)
    (ds : List Description) : ∃ log,
    processUdpBytesToKafka p chrono (ds.flatMap Description.encode) srcIp config = ⟨log, .ok ()⟩ ∧
    (sent log = ds.flatMap fun d => d.emitted (decide (srcIp = config.streamingControlBoardIp))
      config.rawToUahScalingOrDefault) ∧
    ∀ d ∈ ds, d.Exact := by
  have hsplit : Splits udpDelimiter (ds.flatMap Description.encode) (ds.map Description.encode) [] := by
    rw [splits_iff, List.append_nil]
    refine ⟨rfl, fun m hm => ?_, size_nil⟩
    obtain ⟨d, -, rfl⟩ := List.mem_map.mp hm
    exact d.encode_complete
  have hfits : ∀ m ∈ ds.map Description.encode, HeaderFits m := by
    intro m hm
    obtain ⟨d, -, rfl⟩ := List.mem_map.mp hm
    exact d.encode_headerFits
  have hreturns : ∀ m ∈ ds.map Description.encode,
      (messageRun p chrono srcIp config m).Returns := by
    intro m hm
    obtain ⟨d, -, rfl⟩ := List.mem_map.mp hm
    exact ⟨(), (frameRun_encode hc p _ _ d).1⟩
  have hsent := datagram_sent p chrono srcIp config hsplit (.inr hfits)
  have hrun := processUdpBytesToKafka_eq p chrono srcIp config hsplit (.inr hfits)
  rw [messagesRun_of_returns p chrono srcIp config hreturns] at hsent hrun
  refine ⟨_, hrun, ?_, fun d _ => d.exact⟩
  rw [hrun] at hsent
  rw [hsent, sent_flatMap, List.flatMap_map]
  exact List.flatMap_congr fun d _ => (frameRun_encode hc p _ _ d).2

end Run

theorem processUdpBytesToKafka_encode_fake : ∃ log,
    processUdpBytesToKafka .dev gregorianChrono
      (makeUdpPacket packetFormat1 2 34 ++ makeUdpPacket packetFormat1 0 56) (.v4 0x7F000001)
      .makeTestingConfig = ⟨log, .ok ()⟩ ∧ (sent log).length = 3 := by
  obtain ⟨log, hrun, hsent, -⟩ := processUdpBytesToKafka_encode gregorianChrono_gregorian .dev
    (.v4 0x7F000001) .makeTestingConfig
    [fakeDescription 2 34 (by decide), fakeDescription 0 56 (by decide)]
  rw [List.flatMap_cons, List.flatMap_cons, List.flatMap_nil, List.append_nil, ← makeUdpPacket_eq,
    ← makeUdpPacket_eq] at hrun
  exact ⟨log, hrun, congrArg List.length hsent⟩

end EventUdpToKafka.MessageRoundTrip
