import EventUdpToKafka.DatagramRuns
import EventUdpToKafka.EventExactness
import EventUdpToKafka.FrameEmission

set_option autoImplicit false

/-!
# Which datagrams make the code panic

The code validates the total length of a message and never its header length, so
the slices that the header length bounds can fail.
-/
namespace EventUdpToKafka.CrashFreedom
open LoggedRun MachineWords BigEndianBytes GpsClock GpsInstants Config UdpMessage Metrics
open EventDecoding EventArithmetic EventExactness DataProcessing SelfDelimiting MessageReading
open FrameProcessing DatagramRuns FrameEmission PacketFormat1 Testing

/-- The sums over the fields of the events fit, if the code gets as far as the events. -/
def ArithmeticFits (m : List UInt8) : Prop :=
  eventBytes m ≠ [] → (readMessage m).formatCode = packetFormatCode →
    (eventBytes m).length % 8 = 0 → (readMessage m).frameSyncDelayUs.toNat * 1000 < 2 ^ 32 →
    ∀ b, boardParameters (boardBytes m) = some b → ∀ e ∈ asChunks8 (eventBytes m),
      SumsFit b (readMessage m).frameSyncDelayUs e

theorem decode_overflow_iff (p : Profile) (m : List UInt8) :
    decode p (readMessage m).formatCode (boardParameters (boardBytes m)) (eventBytes m)
      (readMessage m).frameSyncDelayUs ≠ .overflow ↔ (p = .dev → ArithmeticFits m) := by
  rw [decode]
  by_cases hdata : eventBytes m = []
  · rw [if_pos (List.isEmpty_iff.mpr hdata)]
    exact iff_of_true Decoding.noConfusion fun _ hne => absurd hdata hne
  rw [if_neg fun he => hdata (List.isEmpty_iff.mp he)]
  by_cases hcode : (readMessage m).formatCode = packetFormatCode
  · rw [if_pos hcode, Ne, decodeFormat1_overflow_iff]
    constructor
    · intro h hp _ _ hwhole hdelay b hb e he
      rw [← eventFits_iff hdelay]
      by_contra hfit
      exact h ⟨hp, hwhole, hdelay, b, hb, fun hall => hfit (hall e he)⟩
    · rintro h ⟨hp, hwhole, hdelay, b, hb, hfit⟩
      exact hfit fun e he => (eventFits_iff hdelay).mpr (h hp hdata hcode hwhole hdelay b hb e he)
  · rw [if_neg hcode]
    exact iff_of_true Decoding.noConfusion fun _ _ hc => absurd hc hcode

theorem decoding_returns_iff (p : Profile) (m : List UInt8) :
    (∃ d, decoding p (readMessage m) = some d ∧ d ≠ .overflow) ↔
      HeaderFits m ∧ (p = .dev → ArithmeticFits m) := by
  rw [← decode_overflow_iff, decoding, readMessage]
  by_cases hf : HeaderFits m
  · rw [if_pos hf, Option.map_some]
    constructor
    · rintro ⟨d, hd, hne⟩
      cases hd
      exact ⟨hf, hne⟩
    · rintro ⟨-, hne⟩
      exact ⟨_, rfl, hne⟩
  · rw [if_neg hf, Option.map_none]
    constructor
    · rintro ⟨d, hd, -⟩
      cases hd
    · rintro ⟨hfits, -⟩
      exact absurd hfits hf

variable (p : Profile) {chrono : Chrono} (srcIp : IpAddr) (config : EventUdpToKafkaConfig)

theorem messageRun_returns_iff (hc : Gregorian chrono) (m : List UInt8) :
    (messageRun p chrono srcIp config m).Returns ↔
      (Timed m → HeaderFits m ∧ (p = .dev → ArithmeticFits m)) := by
  have htype : (readMessage m).packetType = .neutronData ↔ byteAt m 11 = 0xFF :=
    packetTypeOf_neutronData
  rw [messageRun, frameRun_returns_iff p chrono _ _ (nanosecondsSinceEpoch_eq _ hc p),
    decoding_returns_iff, htype, timed_iff]
  by_cases hv : Valid (readMessage m).gpsTime
  · rw [if_pos hv]
    exact ⟨fun h ht => h ht.1 rfl, fun h hn _ => h ⟨hn, hv⟩⟩
  · rw [if_neg hv]
    exact iff_of_true (fun _ h => absurd h Bool.false_ne_true) fun ht => absurd ht.2 hv

/-- The code returns on a datagram if and only if in it every neutron message with a valid
    timestamp has a header that holds its fixed part and is no longer than the message; a build
    with overflow checks needs the sums over the events to fit as well. -/
theorem processUdpBytesToKafka_returns_iff (hc : Gregorian chrono) {u : List UInt8}
    (hu : u.length ≤ isizeMax) :
    (processUdpBytesToKafka p chrono u srcIp config).Returns ↔
      ∀ m ∈ messages udpDelimiter u, Timed m →
        HeaderFits m ∧ (p = .dev → ArithmeticFits m) := by
  rw [datagram_returns_iff p chrono srcIp config (messages_splits u) (.inl hu)]
  exact forall₂_congr fun m _ => messageRun_returns_iff p srcIp config hc m

/-- Two events, in both builds. -/
theorem processUdpBytesToKafka_returns_fake :
    (processUdpBytesToKafka .release gregorianChrono (makeUdpPacket packetFormat1 2 123) (.v4 0)
      .makeTestingConfig).Returns ∧
    (processUdpBytesToKafka .dev gregorianChrono (makeUdpPacket packetFormat1 2 123) (.v4 0)
      .makeTestingConfig).Returns := by
  have hmessages : messages udpDelimiter (makeUdpPacket packetFormat1 2 123) =
      [makeUdpPacket packetFormat1 2 123] := by
    decide +kernel
  have hfits (p : Profile) : ∀ m ∈ messages udpDelimiter (makeUdpPacket packetFormat1 2 123),
      Timed m → HeaderFits m ∧ (p = .dev → ArithmeticFits m) := by
    rw [hmessages, List.forall_mem_singleton]
    refine fun _ => ⟨by decide +kernel, fun _ _ _ _ _ b hb => ?_⟩
    cases hb
    decide +kernel
  have hreturns (p : Profile) := (processUdpBytesToKafka_returns_iff p (.v4 0) .makeTestingConfig
    gregorianChrono_gregorian (by decide +kernel)).mpr (hfits p)
  exact ⟨hreturns .release, hreturns .dev⟩

/-- A header length of zero in a message that is otherwise like the fabricated ones. -/
theorem processUdpBytesToKafka_panics :
    (processUdpBytesToKafka .release gregorianChrono ((makeUdpHeader packetFormat1 0 123).set 7 0)
      (.v4 0) .makeTestingConfig).outcome = .error .panic := by
  decide +kernel

end EventUdpToKafka.CrashFreedom
