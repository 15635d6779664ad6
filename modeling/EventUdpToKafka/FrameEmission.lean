import EventUdpToKafka.FrameProcessing
import EventUdpToKafka.PackedClock
import EventUdpToKafka.Testing

set_option autoImplicit false

/-!
# Which messages a frame leads to

Without overflow checks the bytes of a frame alone decide whether it leads to no
message, to a pulse message, or to a pulse message and an event message.
-/
namespace EventUdpToKafka.FrameEmission
open LoggedRun MachineWords BigEndianBytes GpsClock GpsInstants Config UdpMessage Metrics
open EventDecoding EventArithmetic DataProcessing MessageReading FrameProcessing PackedClock
open PacketFormat1 Testing

/-- A neutron message whose packed clock names an instant. -/
def Timed (content : List UInt8) : Prop :=
  byteAt content 11 = 0xFF ∧ (unpack (readMessage content).gpsTime).Valid

instance (content : List UInt8) : Decidable (Timed content) := inferInstanceAs (Decidable (_ ∧ _))

structure Decodable (content : List UInt8) : Prop where
  nonempty : eventBytes content ≠ []
  format : u16FromBeBytes (byteAt content 5) (byteAt content 6) = 1
  header : headerWords content = 16
  even : declaredWords content % 2 = 0
  delay : (u32FromBeBytes (bytes4At content 48)).toNat ≤ 4294967
  marked : ∀ e ∈ asChunks8 (eventBytes content), e.b0 = 0xE0 ∨ e.b0 = 0xE1

theorem timed_iff {content : List UInt8} :
    Timed content ↔ byteAt content 11 = 0xFF ∧ Valid (readMessage content).gpsTime :=
  and_congr_right fun _ => unpack_valid_iff _

def Reports (log : List Effect) : Prop := ∃ type, failed type ∈ log

theorem packetTypeOf_neutronData {flags : UInt8} :
    packetTypeOf flags = .neutronData ↔ flags = 0xFF := by
  unfold packetTypeOf
  split <;> simp_all

theorem validMarker_iff (e : Bytes8) : validMarker e ↔ e.b0 = 0xE0 ∨ e.b0 = 0xE1 := by
  have h (x : BitVec 8) : x &&& 0b11111110#8 = 0b11100000#8 ↔ x = 0xE0#8 ∨ x = 0xE1#8 := by
    revert x
    decide
  rw [validMarker, beq_iff_eq, ← UInt8.toBitVec_inj, ← UInt8.toBitVec_inj, ← UInt8.toBitVec_inj]
  exact h e.b0.toBitVec

theorem boardParameters_isSome (bytes : List UInt8) :
    (boardParameters bytes).isSome ↔ bytes.length = 8 := by
  constructor
  · intro h
    by_contra hb
    rw [boardParameters, bytes8_tryFrom_of_length hb] at h
    cases h
  · intro h
    obtain ⟨w, rfl⟩ := bytes8_of_length bytes h
    rfl

section Lengths
variable {content : List UInt8} (h : Accepted content)
include h

theorem eventBytes_length :
    (eventBytes content).length = (declaredWords content - headerWords content) * 4 := by
  have hle := h.declared_le
  unfold declaredBytes at hle
  rw [eventBytes, List.length_drop, List.length_take, declaredBytes]
  omega

theorem Decodable.records_pos (hd : Decodable content) : 0 < (declaredWords content - 16) / 2 := by
  have hlen := eventBytes_length h
  have hpos := List.length_pos_iff.mpr hd.nonempty
  have heven := hd.even
  rw [hd.header] at hlen
  omega

variable (hf : HeaderFits content)
include hf

theorem boardBytes_length : (boardBytes content).length = headerWords content * 4 - 56 := by
  have hle := h.declared_le
  obtain ⟨hlo, hhi⟩ := hf
  unfold declaredBytes at hle
  rw [boardBytes, List.length_drop, List.length_take]
  omega

theorem boardParameters_message : boardParameters (boardBytes content) =
    if headerWords content = 16 then
      some ⟨byteAt content 53, byteAt content 55, u32FromBeBytes (bytes4At content 56)⟩
    else none := by
  have hlen := boardBytes_length h hf
  split
  · rename_i h16
    have hle : 52 + 8 ≤ content.length := by
      have hdeclared := h.declared_le
      have hhi := hf.2
      unfold declaredBytes at hdeclared
      omega
    rw [boardParameters, boardBytes, h16, bytes8_tryFrom_window hle]
    rfl
  · rename_i h16
    have hlo := hf.1
    rw [boardParameters, bytes8_tryFrom_of_length (by omega)]
    rfl

theorem decodable_iff : Decodable content ↔ eventBytes content ≠ [] ∧
    (readMessage content).formatCode = packetFormatCode ∧
    Intact (boardParameters (boardBytes content)) (eventBytes content)
      (readMessage content).frameSyncDelayUs := by
  have hboard : (boardParameters (boardBytes content)).isSome ↔ headerWords content = 16 := by
    have hlo := hf.1
    rw [boardParameters_isSome, boardBytes_length h hf]
    omega
  have hwhole (h16 : headerWords content = 16) :
      (eventBytes content).length % 8 = 0 ↔ declaredWords content % 2 = 0 := by
    have hhi := hf.2
    rw [eventBytes_length h]
    omega
  have hdelay (x : UInt32) : x.toNat ≤ 4294967 ↔ x.toNat * 1000 < 2 ^ 32 := by omega
  constructor
  · intro hd
    exact ⟨hd.nonempty, hd.format, (hwhole hd.header).mpr hd.even, hboard.mpr hd.header,
      (hdelay _).mp hd.delay, fun e he => (validMarker_iff e).mpr (hd.marked e he)⟩
  · rintro ⟨hne, hformat, hi⟩
    have h16 := hboard.mp hi.board
    exact ⟨hne, hformat, h16, (hwhole h16).mp hi.whole, (hdelay _).mpr hi.delay,
      fun e he => (validMarker_iff e).mp (hi.marked e he)⟩

end Lengths

/-- The messages of one frame, and whether it reports an error. -/
inductive Emission (content : List UInt8) : List Effect → Prop where
  | silent {log : List Effect} (ht : ¬ Timed content) (hs : sent log = []) (hr : Reports log) :
      Emission content log
  | pulse {log : List Effect} {pulse : Pu00Message} (ht : Timed content)
      (hd : ¬ Decodable content) (hs : sent log = [.pu00 pulse])
      (hr : Reports log ↔ eventBytes content ≠ []) : Emission content log
  | both {log : List Effect} {pulse : Pu00Message} {events : Event44Message} (ht : Timed content)
      (hd : Decodable content) (hs : sent log = [.pu00 pulse, .ev44 events]) (hr : ¬ Reports log)
      (time : events.referenceTime = [pulse.referenceTime])
      (tofs : events.timeOfFlight.length = (declaredWords content - 16) / 2)
      (pixels : events.pixelId.length = (declaredWords content - 16) / 2) : Emission content log

theorem reports_cons {e : Effect} {log : List Effect} (he : ∀ type, e ≠ failed type) :
    Reports (e :: log) ↔ Reports log := by
  simp only [Reports, List.mem_cons, (he _).symm, false_or]

theorem timedRun_reports (controlBoard : Bool) (scaling : Float32) (r : Reading) (time : UInt64)
    (d : Option Decoding) :
    Reports (timedRun controlBoard scaling r time d).log ↔ Reports (bodyRun time d).log := by
  cases controlBoard with
  | false => exact reports_cons fun _ => Effect.noConfusion
  | true =>
    have hcount : ∀ type, Effect.increment .streamingControlBoardFrames 1 ≠ failed type := by
      intro type h
      cases h
    exact (reports_cons hcount).trans (reports_cons fun _ => Effect.noConfusion)

theorem bodyRun_failed (time : UInt64) {d : Decoding} (h : d.Failed) :
    ∃ log, bodyRun time (some d) = ⟨log, .ok ()⟩ ∧ sent log = [] ∧ Reports log := by
  cases d with
  | overflow | decoded => exact absurd h not_false
  | refused => exact ⟨_, rfl, rfl, .neutronData, List.mem_singleton_self _⟩
  | invalid count => exact ⟨_, rfl, rfl, .neutronData, List.mem_cons_of_mem _ (List.mem_singleton_self _)⟩

theorem decoding_release {content : List UInt8} (hf : HeaderFits content) :
    decoding .release (readMessage content) =
      some (decode .release (readMessage content).formatCode (boardParameters (boardBytes content))
        (eventBytes content) (readMessage content).frameSyncDelayUs) := by
  have hbody : (readMessage content).body =
      some (boardParameters (boardBytes content), eventBytes content) := if_pos hf
  rw [decoding, hbody, Option.map_some]

section Frame
variable {content : List UInt8} (h : Accepted content) (hf : HeaderFits content)
include h hf

theorem bodyRun_emission (time : UInt64) :
    (¬ Decodable content ∧ ∃ log, bodyRun time (decoding .release (readMessage content)) =
      ⟨log, .ok ()⟩ ∧ sent log = [] ∧ (Reports log ↔ eventBytes content ≠ [])) ∨
    (Decodable content ∧ ∃ log events, bodyRun time (decoding .release (readMessage content)) =
      ⟨log, .ok ()⟩ ∧ sent log = [.ev44 events] ∧ ¬ Reports log ∧
      events.referenceTime = [time.toInt64] ∧
      events.timeOfFlight.length = (declaredWords content - 16) / 2 ∧
      events.pixelId.length = (declaredWords content - 16) / 2) := by
  have hiff := decodable_iff h hf
  rw [decoding_release hf, decode]
  by_cases hdata : eventBytes content = []
  · rw [if_pos (List.isEmpty_iff.mpr hdata)]
    have hnone : ¬ Reports [] := by
      rintro ⟨type, hm⟩
      exact List.not_mem_nil hm
    exact .inl ⟨fun hd => hd.nonempty hdata, _, rfl, rfl, iff_of_false hnone (not_not.mpr hdata)⟩
  rw [if_neg fun he => hdata (List.isEmpty_iff.mp he)]
  by_cases hcode : (readMessage content).formatCode = packetFormatCode
  · rw [if_pos hcode]
    rcases decodeFormat1_release (boardParameters (boardBytes content)) (eventBytes content)
      (readMessage content).frameSyncDelayUs with ⟨hi, c, hdecoded⟩ | ⟨hi, hfailed⟩
    · have hd : Decodable content := hiff.mpr ⟨hdata, hcode, hi⟩
      have hlen : (asChunks8 (eventBytes content)).length = (declaredWords content - 16) / 2 := by
        rw [asChunks8_length, eventBytes_length h, hd.header]
        omega
      have htofs : (eventData c (asChunks8 (eventBytes content))).timeOfFlight.length =
          (declaredWords content - 16) / 2 := (List.length_map _).trans hlen
      have hne : ¬ (eventData c (asChunks8 (eventBytes content))).isEmpty := fun he =>
        hdata ((eventData_isEmpty_iff c hi.whole).mp he)
      rw [hdecoded, bodyRun, if_neg hne]
      refine .inr ⟨hd, _, _, rfl, rfl, ?_, rfl, htofs, (List.length_map _).trans hlen⟩
      rintro ⟨type, hm⟩
      simp [failed] at hm
    · obtain ⟨log, hrun, hsent, hreports⟩ := bodyRun_failed time hfailed
      exact .inl ⟨fun hd => hi (hiff.mp hd).2.2, log, hrun, hsent, iff_of_true hreports hdata⟩
  · rw [if_neg hcode]
    obtain ⟨log, hrun, hsent, hreports⟩ := bodyRun_failed time (d := .refused) trivial
    exact .inl ⟨fun hd => hcode (hiff.mp hd).2.1, log, hrun, hsent, iff_of_true hreports hdata⟩

theorem timedRun_emission (controlBoard : Bool) (scaling : Float32) (time : UInt64)
    (ht : Timed content) : ∃ log,
    timedRun controlBoard scaling (readMessage content) time
      (decoding .release (readMessage content)) = ⟨log, .ok ()⟩ ∧
    Emission content (.increment (.incomingUdpHeaders .neutronData) 1 :: log) := by
  have hheader : ∀ type, Effect.increment (.incomingUdpHeaders .neutronData) 1 ≠ failed type := by
    intro type h
    cases h
  have hsent := timedRun_sent controlBoard scaling (readMessage content) time
    (decoding .release (readMessage content))
  have hreports := (reports_cons hheader).trans (timedRun_reports controlBoard scaling
    (readMessage content) time (decoding .release (readMessage content)))
  have hrun {log : List Effect}
      (hb : bodyRun time (decoding .release (readMessage content)) = ⟨log, .ok ()⟩) :
      (timedRun controlBoard scaling (readMessage content) time
        (decoding .release (readMessage content))).outcome = .ok () := congrArg Run.outcome hb
  rcases bodyRun_emission h hf time with ⟨hd, log, hb, hs, hr⟩ |
    ⟨hd, log, events, hb, hs, hr, htime, htofs, hpixels⟩
  · rw [hb, hs] at hsent
    rw [hb, hr] at hreports
    exact ⟨_, congrArg (Run.mk _) (hrun hb), .pulse ht hd hsent hreports⟩
  · rw [hb, hs] at hsent
    rw [hb] at hreports
    exact ⟨_, congrArg (Run.mk _) (hrun hb),
      .both ht hd hsent (fun hc => hr (hreports.mp hc)) htime htofs hpixels⟩

theorem frameRun_emission {chrono : Chrono} (hc : Gregorian chrono) (controlBoard : Bool)
    (scaling : Float32) : ∃ log,
    frameRun .release chrono controlBoard scaling (readMessage content) = ⟨log, .ok ()⟩ ∧
      Emission content log := by
  have htype : (readMessage content).packetType = .neutronData ↔ byteAt content 11 = 0xFF :=
    packetTypeOf_neutronData
  have hlast (e e' : Effect) : e' ∈ [e, e'] := List.mem_cons_of_mem e (List.mem_singleton_self e')
  rw [frameRun]
  by_cases hflags : byteAt content 11 = 0xFF
  · rw [if_pos (htype.mpr hflags), neutronRun, nanosecondsSinceEpoch_eq _ hc]
    by_cases hv : Valid (readMessage content).gpsTime
    · obtain ⟨log, hrun, he⟩ := timedRun_emission h hf controlBoard scaling
        (UInt64.ofNat (instant (readMessage content).gpsTime)) (timed_iff.mpr ⟨hflags, hv⟩)
      rw [if_pos hv]
      dsimp only
      rw [hrun]
      exact ⟨_, rfl, he⟩
    · rw [if_neg hv]
      exact ⟨_, rfl, .silent (fun ht => hv (timed_iff.mp ht).2) rfl ⟨_, hlast _ _⟩⟩
  · rw [if_neg fun hn => hflags (htype.mp hn)]
    exact ⟨_, rfl, .silent (fun ht => hflags ht.1) rfl ⟨_, hlast _ _⟩⟩

end Frame

/-- The bytes of an accepted frame decide its messages: none, a pulse message, or a pulse message
    and an event message. -/
theorem processFrame_emission {chrono : Chrono} (hc : Gregorian chrono) (srcIp : IpAddr)
    (config : EventUdpToKafkaConfig) {content : List UInt8} {view : UdpMessageView}
    (hv : newView content = .ok (.ok view)) (hf : HeaderFits content) : ∃ log,
    processFrame .release chrono srcIp config view = ⟨log, .ok ()⟩ ∧
    (sent log = [] ↔ ¬ Timed content) ∧
    ((∃ pulse events, sent log = [.pu00 pulse, .ev44 events]) ↔
      Timed content ∧ Decodable content) ∧
    ((∃ pulse, sent log = [.pu00 pulse]) ↔ Timed content ∧ ¬ Decodable content) ∧
    (Reports log ↔ sent log = [] ∨ (∃ pulse, sent log = [.pu00 pulse]) ∧ eventBytes content ≠ []) ∧
    ∀ pulse events, sent log = [.pu00 pulse, .ev44 events] →
      events.referenceTime = [pulse.referenceTime] ∧ events.timeOfFlight ≠ [] ∧
      events.timeOfFlight.length = (declaredWords content - 16) / 2 ∧ events.pixelId ≠ [] ∧
      events.pixelId.length = (declaredWords content - 16) / 2 := by
  rw [newView_eq] at hv
  obtain ⟨h, rfl⟩ := classify_ok (Except.ok.inj hv)
  obtain ⟨log, hrun, he⟩ := frameRun_emission h hf hc (isControlBoard srcIp config)
    config.rawToUahScalingOrDefault
  refine ⟨log, by rw [processFrame_eq h (.inr hf), hrun], ?_⟩
  cases he with
  | silent ht hs hr => simp [hs, hr, ht]
  | pulse ht hd hs hr => simp [hs, hr, ht, hd]
  | both ht hd hs hr htime htofs hpixels =>
    have hpos := hd.records_pos h
    have hne {l : List Int32} (hl : l.length = (declaredWords content - 16) / 2) : l ≠ [] :=
      List.length_pos_iff.mp (hl ▸ hpos)
    simp [hs, hr, ht, hd, htime, htofs, hpixels, hne htofs, hne hpixels]

theorem processFrame_emission_fake : ∃ log pulse events,
    processFrame .release gregorianChrono (.v4 0) .makeTestingConfig
      ⟨makeUdpPacket packetFormat1 2 123⟩ = ⟨log, .ok ()⟩ ∧
    sent log = [.pu00 pulse, .ev44 events] := by
  obtain ⟨log, hrun, -, hboth, -⟩ := processFrame_emission gregorianChrono_gregorian (.v4 0)
    .makeTestingConfig (show newView (makeUdpPacket packetFormat1 2 123) =
      .ok (.ok ⟨makeUdpPacket packetFormat1 2 123⟩) from rfl) (by decide +kernel)
  have ht : Timed (makeUdpPacket packetFormat1 2 123) := ⟨rfl, by decide +kernel⟩
  have hd : Decodable (makeUdpPacket packetFormat1 2 123) :=
    ⟨by decide +kernel, rfl, rfl, rfl, by decide +kernel, by decide +kernel⟩
  obtain ⟨pulse, events, hs⟩ := hboth.mpr ⟨ht, hd⟩
  exact ⟨log, pulse, events, hrun, hs⟩

end EventUdpToKafka.FrameEmission
