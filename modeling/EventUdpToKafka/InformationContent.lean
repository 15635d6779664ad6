import EventUdpToKafka.ClockOrder
import EventUdpToKafka.MessageFormat
import EventUdpToKafka.StreamGrammar

set_option autoImplicit false

/-!
# What the output tells about the input

Two runs over well-formed messages hand over the same exactly when their messages
agree, one by one, on a few facts. Under the same frame sync delay and the same
board parameters the instant, the times and the ids can be read back to the clock
and to the numbers of each event. Of the proton count only the scaled charge is left.
-/
namespace EventUdpToKafka.InformationContent
open LoggedRun MachineWords GpsClock GpsInstants Config Metrics FrameProcessing MessageEncoding PackedClock
open ClockOrder UdpProcess ServiceRuns StreamGrammar MessageFormat Testing

/-- What is to be read off the messages that a message leads to. Only the control board
    tells a period and a charge, and the charge is the proton count after the scaling. -/
structure Facts where
  instant : ℕ
  vetoes : UInt32
  period : Option UInt16
  scaledCharge : Option Float32
  timesOfFlight : List ℕ
  pixelIds : List ℕ

/-- The same with the fields behind the instant, the times and the ids. -/
structure Fields where
  clock : Clock
  vetoes : UInt32
  period : Option UInt16
  scaledCharge : Option Float32
  ticks : List ℕ
  places : List (ℕ × ℕ)

section Message
variable (config : EventUdpToKafkaConfig) (x : IpAddr × Description)

def period : Option UInt16 :=
  if isControlBoard x.1 config then some x.2.periodNumber else none

def scaledCharge : Option Float32 :=
  if isControlBoard x.1 config then some (x.2.ppp.toFloat32 * config.rawToUahScalingOrDefault) else none

def facts : Facts where
  instant := x.2.clock.nanosecondsSinceEpoch
  vetoes := x.2.vetoes
  period := period config x
  scaledCharge := scaledCharge config x
  timesOfFlight := x.2.events.map x.2.timeOfFlight
  pixelIds := x.2.events.map x.2.pixelId

def fields : Fields where
  clock := x.2.clock
  vetoes := x.2.vetoes
  period := period config x
  scaledCharge := scaledCharge config x
  ticks := x.2.events.map Event.tick
  places := x.2.events.map fun e => (e.channel, e.position)

def groupOf : Group where
  pulse := x.2.pulse (isControlBoard x.1 config) config.rawToUahScalingOrDefault
  events := if x.2.events.isEmpty then none else some x.2.eventMessage

theorem emitted_messages :
    x.2.emitted (isControlBoard x.1 config) config.rawToUahScalingOrDefault = (groupOf config x).messages := by
  rw [Description.emitted, Group.messages, groupOf]
  cases x.2.events.isEmpty <;> rfl

end Message

section Numbers
variable {d d' : Description}

theorem referenceTime_inj : d.referenceTime = d'.referenceTime ↔
    d.clock.nanosecondsSinceEpoch = d'.clock.nanosecondsSinceEpoch := by
  constructor
  · intro h
    have hint := congrArg Int64.toInt h
    rw [d.exact.referenceTime, d'.exact.referenceTime] at hint
    exact Int.ofNat_inj.mp hint
  · intro h
    rw [Description.referenceTime, h]
    rfl

/-- Exact numbers can be read back from the signed ones. -/
theorem ofNat_map_inj {α β : Type} {f : α → ℕ} {g : β → ℕ} {xs : List α} {ys : List β}
    (hf : ∀ x ∈ xs, f x < 2 ^ 31) (hg : ∀ y ∈ ys, g y < 2 ^ 31) :
    xs.map (fun x => Int32.ofNat (f x)) = ys.map (fun y => Int32.ofNat (g y)) ↔ xs.map f = ys.map g := by
  have hread {γ : Type} {h : γ → ℕ} {zs : List γ} (hh : ∀ z ∈ zs, h z < 2 ^ 31) :
      (zs.map fun z => Int32.ofNat (h z)).map (fun w => w.toInt.toNat) = zs.map h := by
    rw [List.map_map]
    exact List.map_congr_left fun z hz => congrArg Int.toNat (Int32.toInt_ofNat_of_lt (hh z hz))
  constructor
  · intro h
    rw [← hread hf, ← hread hg, h]
  · intro h
    have hwords := congrArg (List.map Int32.ofNat) h
    rwa [List.map_map, List.map_map] at hwords

theorem timeOfFlight_inj : d.eventData.timeOfFlight = d'.eventData.timeOfFlight ↔
    d.events.map d.timeOfFlight = d'.events.map d'.timeOfFlight :=
  ofNat_map_inj d.tofs_lt d'.tofs_lt

theorem pixelId_inj : d.eventData.pixelId = d'.eventData.pixelId ↔
    d.events.map d.pixelId = d'.events.map d'.pixelId :=
  ofNat_map_inj d.pixels_lt d'.pixels_lt

end Numbers

section Groups
variable {config config' : EventUdpToKafkaConfig} {x x' : IpAddr × Description}

theorem pulse_inj : (groupOf config x).pulse = (groupOf config' x').pulse ↔
    x.2.clock.nanosecondsSinceEpoch = x'.2.clock.nanosecondsSinceEpoch ∧ x.2.vetoes = x'.2.vetoes ∧
      period config x = period config' x' ∧ scaledCharge config x = scaledCharge config' x' := by
  rw [← referenceTime_inj]
  simp only [groupOf, Description.pulse, period, scaledCharge, Pu00Message.mk.injEq,
    Option.some.injEq, true_and]
  cases isControlBoard x.1 config with
  | false => cases isControlBoard x'.1 config' <;> simp
  | true =>
    cases isControlBoard x'.1 config' with
    | false => simp
    | true => simp [UInt16.toUInt32_inj]

theorem events_inj (h : x.2.referenceTime = x'.2.referenceTime) :
    (groupOf config x).events = (groupOf config' x').events ↔
      x.2.events.map x.2.timeOfFlight = x'.2.events.map x'.2.timeOfFlight ∧
        x.2.events.map x.2.pixelId = x'.2.events.map x'.2.pixelId := by
  have hmessages : x.2.eventMessage = x'.2.eventMessage ↔
      x.2.events.map x.2.timeOfFlight = x'.2.events.map x'.2.timeOfFlight ∧
        x.2.events.map x.2.pixelId = x'.2.events.map x'.2.pixelId := by
    rw [← timeOfFlight_inj, ← pixelId_inj, Description.eventMessage, Description.eventMessage, h]
    simp only [Event44Message.mk.injEq, true_and]
  rw [groupOf, groupOf]
  cases hempty : x.2.events.isEmpty with
  | true =>
    rw [List.isEmpty_iff.mp hempty]
    cases hempty' : x'.2.events.isEmpty with
    | true => simp [List.isEmpty_iff.mp hempty']
    | false => simpa using hempty'
  | false =>
    cases hempty' : x'.2.events.isEmpty with
    | true =>
      rw [List.isEmpty_iff.mp hempty']
      simpa using hempty
    | false =>
      rw [← hmessages]
      simp

theorem groupOf_inj : groupOf config x = groupOf config' x' ↔ facts config x = facts config' x' := by
  rw [Group.mk.injEq, pulse_inj, facts, facts, Facts.mk.injEq]
  constructor
  · rintro ⟨⟨hinstant, hvetoes, hperiod, hcharge⟩, hevents⟩
    exact ⟨hinstant, hvetoes, hperiod, hcharge, (events_inj (referenceTime_inj.mpr hinstant)).mp hevents⟩
  · rintro ⟨hinstant, hvetoes, hperiod, hcharge, hevents⟩
    exact ⟨⟨hinstant, hvetoes, hperiod, hcharge⟩, (events_inj (referenceTime_inj.mpr hinstant)).mpr hevents⟩

end Groups

theorem map_eq_map_iff_of {α β γ δ : Type} {f : α → γ} {g : β → γ} {f' : α → δ} {g' : β → δ}
    {xs : List α} {ys : List β} (h : ∀ x ∈ xs, ∀ y ∈ ys, f x = g y ↔ f' x = g' y) :
    xs.map f = ys.map g ↔ xs.map f' = ys.map g' := by
  induction xs generalizing ys with
  | nil => simp only [List.map_nil, List.nil_eq, List.map_eq_nil_iff]
  | cons x xs ih =>
    cases ys with
    | nil => simp only [List.map_cons, List.map_nil, reduceCtorEq]
    | cons y ys =>
      have hhead := h x List.mem_cons_self y List.mem_cons_self
      have htail := ih fun z hz w hw => h z (List.mem_cons_of_mem x hz) w (List.mem_cons_of_mem y hw)
      rw [List.map_cons, List.map_cons, List.map_cons, List.map_cons, List.cons.injEq, List.cons.injEq,
        hhead, htail]

/-- The part of the header that says how the events are to be read: the frame sync delay, which
    each message has of its own, and the parameters of the board. -/
structure SameDecoding (d d' : Description) : Prop where
  delay : d.frameSyncDelayUs = d'.frameSyncDelayUs
  channelBits : d.channelBits = d'.channelBits
  positionBits : d.positionBits = d'.positionBits
  detectorIdOffset : d.detectorIdOffset = d'.detectorIdOffset

section Fields
variable {d d' : Description}

theorem clock_inj (h : Ordinary d.clock) (h' : Ordinary d'.clock) :
    d.clock.nanosecondsSinceEpoch = d'.clock.nanosecondsSinceEpoch ↔ d.clock = d'.clock := by
  constructor
  · intro he
    have hlt := packedRepr_lt_iff h h'
    have hgt := packedRepr_lt_iff h' h
    have hrepr : d.clock.packedRepr = d'.clock.packedRepr := by omega
    rw [← unpack_pack d.clock, ← unpack_pack d'.clock, Clock.pack, Clock.pack, hrepr]
  · intro he
    rw [he]

variable (h : SameDecoding d d')
include h

theorem ticks_inj : d.events.map d.timeOfFlight = d'.events.map d'.timeOfFlight ↔
    d.events.map Event.tick = d'.events.map Event.tick := by
  refine map_eq_map_iff_of fun e _ e' _ => ?_
  rw [Description.timeOfFlight, Description.timeOfFlight, h.delay]
  omega

theorem places_inj : d.events.map d.pixelId = d'.events.map d'.pixelId ↔
    (d.events.map fun e => (e.channel, e.position)) = d'.events.map fun e => (e.channel, e.position) := by
  refine map_eq_map_iff_of fun e _ e' _ => ?_
  have hpow : 2 ^ d'.positionBits.toNat = 2 ^ d.positionBits.toNat := by rw [h.positionBits]
  have hposition := e.position_lt
  have hposition' := e'.position_lt.trans_eq hpow
  rw [Prod.mk.injEq, ← MixedRadix.place_inj hposition hposition', Description.pixelId, Description.pixelId,
    hpow, h.detectorIdOffset]
  omega

end Fields

theorem facts_iff_fields (config config' : EventUdpToKafkaConfig) {x x' : IpAddr × Description}
    (hdecoding : SameDecoding x.2 x'.2) (hleap : x.2.clock.seconds < 60)
    (hleap' : x'.2.clock.seconds < 60) :
    facts config x = facts config' x' ↔ fields config x = fields config' x' := by
  rw [facts, facts, Facts.mk.injEq, fields, fields, Fields.mk.injEq,
    clock_inj ⟨x.2.clock_valid, hleap⟩ ⟨x'.2.clock_valid, hleap'⟩, ticks_inj hdecoding,
    places_inj hdecoding]

theorem sent_groups {chrono : Chrono} (hc : Gregorian chrono) (p : Profile) (length : KafkaMessage → ℕ)
    {config : EventUdpToKafkaConfig} (hbuffer : config.udpBufferSizeOrDefault ≤ isizeMax)
    {results : List Received} {ds : List (IpAddr × Description)}
    (hds : results.flatMap (carried config) = ds.map encodeFrom) :
    sent (udpProcess p chrono length config results).log =
      (ds.map (groupOf config)).flatMap Group.messages := by
  rw [sent_carriedRun p chrono length config results hbuffer, carriedRun_encode hc p config hds,
    sent_flatMap, List.flatMap_map]
  refine List.flatMap_congr fun x _ => ?_
  rw [(sourceRun_encode hc p config x).2, emitted_messages]

/-- Two runs over well-formed messages, in builds, configurations and datagrams of their own, hand
    over the same if and only if the facts about their messages are the same. When all messages have
    the same frame sync delay and the same board parameters and it is no leap second, then this is so
    if and only if the fields behind the instants, the times and the ids are the same. -/
theorem udpProcess_facts {chrono : Chrono} (hc : Gregorian chrono) (p p' : Profile)
    (length length' : KafkaMessage → ℕ) {config config' : EventUdpToKafkaConfig}
    (hbuffer : config.udpBufferSizeOrDefault ≤ isizeMax)
    (hbuffer' : config'.udpBufferSizeOrDefault ≤ isizeMax) {results results' : List Received}
    {ds ds' : List (IpAddr × Description)} (hds : results.flatMap (carried config) = ds.map encodeFrom)
    (hds' : results'.flatMap (carried config') = ds'.map encodeFrom) :
    (sent (udpProcess p chrono length config results).log =
        sent (udpProcess p' chrono length' config' results').log ↔
      ds.map (facts config) = ds'.map (facts config')) ∧
    ((∀ x ∈ ds, ∀ x' ∈ ds', SameDecoding x.2 x'.2) → (∀ x ∈ ds ++ ds', x.2.clock.seconds < 60) →
      (sent (udpProcess p chrono length config results).log =
          sent (udpProcess p' chrono length' config' results').log ↔
        ds.map (fields config) = ds'.map (fields config'))) := by
  have hfacts : sent (udpProcess p chrono length config results).log =
      sent (udpProcess p' chrono length' config' results').log ↔
        ds.map (facts config) = ds'.map (facts config') := by
    rw [sent_groups hc p length hbuffer hds, sent_groups hc p' length' hbuffer' hds',
      ← map_eq_map_iff_of fun x _ x' _ => groupOf_inj]
    exact ⟨flatMap_messages_inj, congrArg _⟩
  refine ⟨hfacts, fun hdecoding hleap => ?_⟩
  rw [hfacts]
  exact map_eq_map_iff_of fun x hx x' hx' => facts_iff_fields config config' (hdecoding x hx x' hx')
    (hleap x (List.mem_append_left _ hx)) (hleap x' (List.mem_append_right _ hx'))

/-- Two counts of protons do not show in the messages of another source than the control board. One
    event more does. -/
theorem udpProcess_facts_fake :
    sent (udpProcess .dev gregorianChrono (fun _ => 100) .makeTestingConfig
        [.datagram (makeUdpPacket packetFormat1 1 12) (.v4 0) fun _ => true]).log =
      sent (udpProcess .release gregorianChrono (fun _ => 200) shortBufferConfig
        [.error, .datagram (makeUdpPacket packetFormat1 1 34) (.v4 0) fun _ => false]).log ∧
    sent (udpProcess .dev gregorianChrono (fun _ => 100) .makeTestingConfig
        [.datagram (makeUdpPacket packetFormat1 1 12) (.v4 0) fun _ => true]).log ≠
      sent (udpProcess .release gregorianChrono (fun _ => 200) shortBufferConfig
        [.datagram (makeUdpPacket packetFormat1 2 12) (.v4 0) fun _ => true]).log := by
  have hds : [Received.datagram (makeUdpPacket packetFormat1 1 12) (.v4 0) fun _ => true].flatMap
      (carried .makeTestingConfig) = [(IpAddr.v4 0, fakeDescription 1 12 (by decide))].map encodeFrom := by
    rw [List.map_singleton, encodeFrom, ← makeUdpPacket_eq]
    decide +kernel
  have hother : [.error, Received.datagram (makeUdpPacket packetFormat1 1 34) (.v4 0) fun _ => false].flatMap
      (carried shortBufferConfig) = [(IpAddr.v4 0, fakeDescription 1 34 (by decide))].map encodeFrom := by
    rw [List.map_singleton, encodeFrom, ← makeUdpPacket_eq]
    decide +kernel
  have hlonger : [Received.datagram (makeUdpPacket packetFormat1 2 12) (.v4 0) fun _ => true].flatMap
      (carried shortBufferConfig) = [(IpAddr.v4 0, fakeDescription 2 12 (by decide))].map encodeFrom := by
    rw [List.map_singleton, encodeFrom, ← makeUdpPacket_eq]
    decide +kernel
  constructor
  · have hfacts : facts .makeTestingConfig (.v4 0, fakeDescription 1 12 (by decide)) =
        facts shortBufferConfig (.v4 0, fakeDescription 1 34 (by decide)) := by
      rw [facts, facts, Facts.mk.injEq, period, period, scaledCharge, scaledCharge,
        if_neg (by decide), if_neg (by decide), if_neg (by decide), if_neg (by decide)]
      exact ⟨rfl, rfl, rfl, rfl, rfl, rfl⟩
    rw [(udpProcess_facts gregorianChrono_gregorian .dev .release (fun _ => 100) (fun _ => 200)
      (by decide) (by decide) hds hother).1, List.map_singleton, List.map_singleton, hfacts]
  · have hdecoding : ∀ x ∈ [(IpAddr.v4 0, fakeDescription 1 12 (by decide))],
        ∀ x' ∈ [(IpAddr.v4 0, fakeDescription 2 12 (by decide))], SameDecoding x.2 x'.2 := by
      intro x hx x' hx'
      rw [List.mem_singleton.mp hx, List.mem_singleton.mp hx']
      exact ⟨rfl, rfl, rfl, rfl⟩
    rw [Ne, (udpProcess_facts gregorianChrono_gregorian .dev .release (fun _ => 100) (fun _ => 200)
      (by decide) (by decide) hds hlonger).2 hdecoding (by decide), List.map_singleton,
      List.map_singleton, List.singleton_inj]
    intro h
    exact absurd (congrArg Fields.ticks h) (by decide)

end EventUdpToKafka.InformationContent
