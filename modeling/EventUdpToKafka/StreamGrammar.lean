import EventUdpToKafka.ServiceRuns

set_option autoImplicit false

/-!
# The grammar of the message stream

At any moment of any run, also of one that panics later, what has been handed to
the producer is a sequence of pulses, each with its events right behind it or
without events. A reader of the stream can take it apart in one way only.
-/
namespace EventUdpToKafka.StreamGrammar
open LoggedRun MachineWords GpsClock Config Metrics EventArithmetic DataProcessing
open MessageReading FrameProcessing UdpProcess ServiceRuns

/-- A pulse and the events of its frame. -/
structure Group where
  pulse : Pu00Message
  events : Option Event44Message

namespace Group

def messages (g : Group) : List KafkaMessage :=
  .pu00 g.pulse :: (g.events.map KafkaMessage.ev44).toList

structure WellFormed (g : Group) : Prop where
  source : g.pulse.sourceName = sourceName
  messageId : g.pulse.messageId = 0
  vetos : g.pulse.vetos.isSome
  /-- Either both come from the streaming control board or neither is there. -/
  control : g.pulse.periodNumber.isSome = g.pulse.protonCharge.isSome
  eventSource : ∀ e ∈ g.events, e.sourceName = sourceName ∧ e.messageId = 0
  referenceTime : ∀ e ∈ g.events, e.referenceTime = [g.pulse.referenceTime] ∧ e.referenceTimeIndex = [0]
  events_ne : ∀ e ∈ g.events, e.timeOfFlight ≠ [] ∧ e.timeOfFlight.length = e.pixelId.length

end Group

def Groups (gs : List Group) (stream : List KafkaMessage) : Prop :=
  gs.flatMap Group.messages = stream ∧ ∀ g ∈ gs, g.WellFormed

theorem Groups.nil : Groups [] [] := ⟨rfl, fun _ h => absurd h List.not_mem_nil⟩

theorem Groups.append {gs gs' : List Group} {stream stream' : List KafkaMessage}
    (h : Groups gs stream) (h' : Groups gs' stream') : Groups (gs ++ gs') (stream ++ stream') := by
  refine ⟨by rw [List.flatMap_append, h.1, h'.1], fun g hg => ?_⟩
  exact (List.mem_append.mp hg).elim (h.2 g) (h'.2 g)

theorem Group.WellFormed.pulseOnly {g : Group} (h : g.WellFormed) :
    (⟨g.pulse, none⟩ : Group).WellFormed :=
  ⟨h.source, h.messageId, h.vetos, h.control, fun _ he => (nomatch he), fun _ he => (nomatch he),
    fun _ he => (nomatch he)⟩

/-- A stream that is cut short loses the events of its last pulse at most. -/
theorem Groups.of_prefix {gs : List Group} {stream seen : List KafkaMessage} (h : Groups gs stream)
    (hseen : seen <+: stream) : ∃ gs', Groups gs' seen := by
  induction gs generalizing stream seen with
  | nil =>
    obtain ⟨rfl, -⟩ := h
    obtain rfl := List.prefix_nil.mp hseen
    exact ⟨[], .nil⟩
  | cons g gs ih =>
    obtain ⟨rfl, hgs⟩ := h
    obtain ⟨hg, hrest⟩ := List.forall_mem_cons.mp hgs
    rw [List.flatMap_cons, Group.messages, List.cons_append] at hseen
    rcases List.prefix_cons_iff.mp hseen with rfl | ⟨seen', rfl, hseen'⟩
    · exact ⟨[], .nil⟩
    · cases he : g.events with
      | none =>
        rw [he] at hseen'
        obtain ⟨gs', hgs'⟩ := ih ⟨rfl, hrest⟩ hseen'
        exact ⟨⟨g.pulse, none⟩ :: gs', by rw [List.flatMap_cons, hgs'.1]; rfl,
          List.forall_mem_cons.mpr ⟨hg.pulseOnly, hgs'.2⟩⟩
      | some e =>
        rw [he] at hseen'
        rcases List.prefix_cons_iff.mp hseen' with rfl | ⟨seen'', rfl, hseen''⟩
        · exact ⟨[⟨g.pulse, none⟩], rfl, List.forall_mem_singleton.mpr hg.pulseOnly⟩
        · obtain ⟨gs', hgs'⟩ := ih ⟨rfl, hrest⟩ hseen''
          refine ⟨g :: gs', ?_, List.forall_mem_cons.mpr ⟨hg, hgs'.2⟩⟩
          rw [List.flatMap_cons, hgs'.1, Group.messages, he]
          rfl

theorem flatMap_messages_ne (gs : List Group) (e : Event44Message) (stream : List KafkaMessage) :
    gs.flatMap Group.messages ≠ .ev44 e :: stream := by
  cases gs with
  | nil => exact List.cons_ne_nil _ _ |>.symm
  | cons g gs =>
    rw [List.flatMap_cons, Group.messages, List.cons_append]
    exact fun h => nomatch (List.cons.inj h).1

theorem flatMap_messages_inj {gs gs' : List Group}
    (h : gs.flatMap Group.messages = gs'.flatMap Group.messages) : gs = gs' := by
  induction gs generalizing gs' with
  | nil =>
    cases gs' with
    | nil => rfl
    | cons g' gs' => cases h
  | cons g gs ih =>
    cases gs' with
    | nil => cases h
    | cons g' gs' =>
      obtain ⟨pulse, events⟩ := g
      obtain ⟨pulse', events'⟩ := g'
      simp only [List.flatMap_cons, Group.messages, List.cons_append, List.cons.injEq,
        KafkaMessage.pu00.injEq] at h
      obtain ⟨rfl, h⟩ := h
      cases events with
      | none =>
        cases events' with
        | none => rw [ih h]
        | some e' => exact absurd h (flatMap_messages_ne gs e' _)
      | some e =>
        cases events' with
        | none => exact absurd h.symm (flatMap_messages_ne gs' e _)
        | some e' =>
          obtain ⟨he, hrest⟩ := List.cons.inj h
          cases he
          rw [ih hrest]

section Frames
variable {p : Profile} {chrono : Chrono}

theorem pulse_wellFormed (controlBoard : Bool) (scaling : Float32) (r : Reading) (time : UInt64) :
    (⟨pu00Message controlBoard scaling r time, none⟩ : Group).WellFormed := by
  refine ⟨rfl, rfl, rfl, ?_, fun _ he => (nomatch he), fun _ he => (nomatch he),
    fun _ he => (nomatch he)⟩
  cases controlBoard <;> rfl

theorem timedRun_groups (controlBoard : Bool) (scaling : Float32) (r : Reading) (time : UInt64)
    (d : Option Decoding) : ∃ gs, Groups gs (sent (timedRun controlBoard scaling r time d).log) := by
  have hpulse := pulse_wellFormed controlBoard scaling r time
  rw [timedRun_sent]
  match d with
  | none | some .overflow | some .refused | some (.invalid _) =>
    exact ⟨[_], rfl, List.forall_mem_singleton.mpr hpulse⟩
  | some (.decoded events) =>
    rw [bodyRun]
    split
    · exact ⟨[_], rfl, List.forall_mem_singleton.mpr hpulse⟩
    · rename_i hne
      refine ⟨[⟨pu00Message controlBoard scaling r time, some (event44Message time events)⟩], rfl,
        List.forall_mem_singleton.mpr ⟨rfl, rfl, rfl, hpulse.control, ?_, ?_, ?_⟩⟩
      · rintro e ⟨⟩
        exact ⟨rfl, rfl⟩
      · rintro e ⟨⟩
        exact ⟨rfl, rfl⟩
      · rintro e ⟨⟩
        exact ⟨fun h => hne (List.isEmpty_iff.mpr h), events.sameLength⟩

theorem frameRun_groups (controlBoard : Bool) (scaling : Float32) (r : Reading) :
    ∃ gs, Groups gs (sent (frameRun p chrono controlBoard scaling r).log) := by
  rcases frameRun_cases p chrono controlBoard scaling r with ⟨-, hr⟩ | ⟨-, s, -, hr⟩ | ⟨-, -, hr⟩ |
    ⟨-, time, -, hr⟩ <;> rw [hr]
  · exact ⟨[], .nil⟩
  · exact ⟨[], .nil⟩
  · exact ⟨[], .nil⟩
  · exact timedRun_groups controlBoard scaling r time _

end Frames

theorem carriedRun_groups (p : Profile) (chrono : Chrono) (config : EventUdpToKafkaConfig)
    (results : List Received) : ∃ gs, Groups gs (sent (carriedRun p chrono config results).log) := by
  refine (Run.each_related _ (g := sourceRun p chrono config)
    (R := fun log _ => ∃ gs, Groups gs (sent log)) ⟨[], .nil⟩ ?_ fun x _ =>
      ⟨rfl, frameRun_groups _ _ _⟩).2
  rintro a b c d ⟨gs, h⟩ ⟨gs', h'⟩
  rw [sent_append]
  exact ⟨gs ++ gs', h.append h'⟩

/-- The first `n` messages that are handed to the producer are a sequence of pulses with their
    events, and can be read in this one way only. -/
theorem udpProcess_groups (p : Profile) (chrono : Chrono) (length : KafkaMessage → ℕ)
    (config : EventUdpToKafkaConfig) (results : List Received) (n : ℕ) :
    ∃! gs : List Group,
      gs.flatMap Group.messages = (sent (udpProcess p chrono length config results).log).take n ∧
      ∀ g ∈ gs, g.WellFormed := by
  have hall : ∃ gs, Groups gs (sent (udpProcess p chrono length config results).log) := by
    by_cases hbuffer : config.udpBufferSizeOrDefault ≤ isizeMax
    · rw [sent_carriedRun p chrono length config results hbuffer]
      exact carriedRun_groups p chrono config results
    · rw [udpProcess_of_no_buffer p chrono length config results hbuffer]
      exact ⟨[], .nil⟩
  obtain ⟨gs, hgs⟩ := hall
  obtain ⟨gs', hgs'⟩ := hgs.of_prefix (List.take_prefix n _)
  exact ⟨gs', hgs', fun gs'' h => flatMap_messages_inj (h.1.trans hgs'.1.symm)⟩

end EventUdpToKafka.StreamGrammar
