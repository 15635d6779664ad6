import EventUdpToKafka.ServiceRefinement
import Mathlib.Data.List.Flatten

set_option autoImplicit false

/-!
# Datagrams that are lost, repeated or swapped

UDP promises neither that a datagram arrives nor when. What the service does for
one arrival is the same in every run and at every place in it, although it keeps
a buffer and a builder from one arrival to the next. An arrival is a datagram with
the producer's verdicts on its messages and the time that it takes.
-/
namespace EventUdpToKafka.UnreliableDelivery
open LoggedRun LogMachine MachineWords GpsClock GpsInstants Config Metrics DataProcessing UdpProcess
open KafkaService ServiceRefinement Testing

variable (p : Profile) (chrono : Chrono) {fb : FlatBuffers} {config : ServiceConfig}
  {Same : fb.Builder → fb.Builder → Prop}

/-- What the service does for an arrival when it is the first one. -/
def arrivalRun (fb : FlatBuffers) (config : ServiceConfig) (arrival : Arrival) :
    Run ServiceEffect Stop Unit :=
  let first := handle fb p chrono config ⟨fb.new, List.replicate config.udpBufferSizeOrDefault 0⟩ arrival
  ⟨first.log, first.outcome.map fun _ => ()⟩

section Stateless
variable (h : Reusable fb Same)
include h

/-- The builder's state does not show in the records. -/
theorem sinkMachine_stateless (accepts : ℕ → Bool) (fbb fbb' : fb.Builder) (log : List Effect) :
    ((sinkMachine fb config accepts).run (fbb, 0) log).2 =
      ((sinkMachine fb config accepts).run (fbb', 0) log).2 := by
  refine (Machine.run_related (R := fun s t => s.2 = t.2) (T := Eq) rfl
    (fun ha hb => by rw [ha, hb]) ?_ rfl log).2
  rintro ⟨b, n⟩ ⟨b', n'⟩ e hn
  cases e with
  | increment counter amount => exact ⟨hn, rfl⟩
  | sink message =>
    change n = n' at hn
    subst hn
    refine ⟨rfl, ?_⟩
    change produce config (writeMessage fb message b).1 (accepts n) =
      produce config (writeMessage fb message b').1 (accepts n)
    rw [writeMessage_payload h, writeMessage_payload h]

theorem handle_stateless {state : ServiceState fb} (hs : Sized config state) (arrival : Arrival) :
    Simulates (Sized config) Eq (handle fb p chrono config state arrival)
      (arrivalRun p chrono fb config arrival) := by
  obtain ⟨result, elapsed⟩ := arrival
  cases result with
  | error => exact ⟨rfl, .inl ⟨state, (), rfl, rfl, hs⟩⟩
  | datagram bytes srcIp accepts =>
    have hbuf := recvFrom_length state.udpBuf bytes
    simp only [arrivalRun, handle]
    rw [recvFrom_slice, recvFrom_slice, Run.lift_ok_bind, Run.lift_ok_bind, hs, List.length_replicate]
    generalize processUdpBytesToKafka p chrono (bytes.take config.udpBufferSizeOrDefault) srcIp
      config.toEventUdpToKafkaConfig = r
    have hlog : ((sinkMachine fb config accepts).run (state.fbb, 0) r.log).2 =
        ((sinkMachine fb config accepts).run (fb.new, 0) r.log).2 :=
      sinkMachine_stateless h accepts state.fbb fb.new r.log
    cases hr : r.outcome with
    | error s =>
      have hthrough (b : fb.Builder) : through (sinkMachine fb config accepts) (b, 0) r =
          ⟨((sinkMachine fb config accepts).run (b, 0) r.log).2, .error s⟩ := by
        rw [through, hr]
        rfl
      rw [hthrough, hthrough]
      exact ⟨hlog, .inr ⟨s, rfl, rfl⟩⟩
    | ok u =>
      have hthrough (b : fb.Builder) : through (sinkMachine fb config accepts) (b, 0) r =
          ⟨((sinkMachine fb config accepts).run (b, 0) r.log).2,
            .ok ((sinkMachine fb config accepts).run (b, 0) r.log).1⟩ := by
        rw [through, hr]
        rfl
      rw [hthrough, hthrough]
      refine ⟨?_, .inl ⟨_, (), rfl, rfl, hbuf.trans hs⟩⟩
      exact congrArg (fun log : List ServiceEffect => log ++ [.recordTime elapsed]) hlog

theorem serve_stateless {state : ServiceState fb} (hs : Sized config state) (arrivals : List Arrival) :
    Simulates (Sized config) Eq (serve fb p chrono config state arrivals)
      (Run.each (arrivalRun p chrono fb config) arrivals) :=
  foldlM_simulates rfl (fun ha hb => by rw [ha, hb])
    (fun _ arrival hs => handle_stateless p chrono h hs arrival) hs arrivals

variable {state : ServiceState fb} (hs : Sized config state)
include hs

theorem serve_returns_iff (arrivals : List Arrival) :
    (serve fb p chrono config state arrivals).Returns ↔
      ∀ a ∈ arrivals, (arrivalRun p chrono fb config a).Returns := by
  rw [← Run.each_returns_iff]
  exact (serve_stateless p chrono h hs arrivals).returns_iff

theorem serve_log {arrivals : List Arrival}
    (hreturns : ∀ a ∈ arrivals, (arrivalRun p chrono fb config a).Returns) :
    (serve fb p chrono config state arrivals).log =
      arrivals.flatMap fun a => (arrivalRun p chrono fb config a).log := by
  rw [(serve_stateless p chrono h hs arrivals).log, Run.each_of_returns _ hreturns]

end Stateless

/-- When a run gets through some arrivals, then every run that sees only arrivals of these, each as
    often and in whichever place the network has it, gets through as well, from any contents of the
    buffer and any state of the builder. It does for each what the first run does for it, where an
    arrival brings its verdicts and its time along. -/
theorem serve_delivered (h : Reusable fb Same) {state : ServiceState fb}
    (hs : state.udpBuf.length = config.udpBufferSizeOrDefault) {intended : List Arrival}
    (hreturns : (serve fb p chrono config state intended).Returns) :
    ∃ effects : Arrival → List ServiceEffect,
      (serve fb p chrono config state intended).log = intended.flatMap effects ∧
      ∀ (state' : ServiceState fb) (arrivals : List Arrival),
        state'.udpBuf.length = config.udpBufferSizeOrDefault → arrivals ⊆ intended →
        (serve fb p chrono config state' arrivals).Returns ∧
        (serve fb p chrono config state' arrivals).log = arrivals.flatMap effects ∧
        (arrivals.Perm intended → (serve fb p chrono config state' arrivals).log.Perm
          (serve fb p chrono config state intended).log) ∧
        (arrivals.Sublist intended → (serve fb p chrono config state' arrivals).log.Sublist
          (serve fb p chrono config state intended).log) := by
  have hall := (serve_returns_iff p chrono h hs intended).mp hreturns
  have hintended := serve_log p chrono h hs hall
  refine ⟨fun a => (arrivalRun p chrono fb config a).log, hintended, fun state' arrivals hs' hsub => ?_⟩
  have hthese := fun a ha => hall a (hsub ha)
  have hlog := serve_log p chrono h hs' hthese
  refine ⟨(serve_returns_iff p chrono h hs' arrivals).mpr hthese, hlog, fun hperm => ?_, fun hlist => ?_⟩
  · rw [hlog, hintended]
    exact hperm.flatMap_right _
  · rw [hlog, hintended]
    exact hlist.flatMap _

/-- The second datagram comes first, the first one comes twice, and the read error does not come. -/
def delivered : List Arrival := neutronArrivals.drop 2 ++ neutronArrivals.take 1 ++ neutronArrivals.take 1

theorem serve_delivered_fake : ∃ effects : Arrival → List ServiceEffect,
    (serve byteFlatBuffers .release gregorianChrono smallConfig ⟨⟨[], 0⟩, List.replicate 96 0⟩
      neutronArrivals).log = neutronArrivals.flatMap effects ∧
    (serve byteFlatBuffers .release gregorianChrono smallConfig usedState delivered).Returns ∧
    (serve byteFlatBuffers .release gregorianChrono smallConfig usedState delivered).log =
      delivered.flatMap effects := by
  have hsized : Sized smallConfig (⟨⟨[], 0⟩, List.replicate 96 0⟩ : ServiceState byteFlatBuffers) := rfl
  have hreturns : (serve byteFlatBuffers .release gregorianChrono smallConfig
      ⟨⟨[], 0⟩, List.replicate 96 0⟩ neutronArrivals).Returns :=
    (serve_simulates .release gregorianChrono byteFlatBuffers_reusable hsized neutronArrivals).returns_iff.mpr
      ⟨(), by decide +kernel⟩
  obtain ⟨effects, hintended, hdelivered⟩ := serve_delivered .release gregorianChrono
    byteFlatBuffers_reusable hsized hreturns
  have hsub : delivered ⊆ neutronArrivals :=
    List.append_subset.mpr ⟨List.append_subset.mpr ⟨List.drop_subset _ _, List.take_subset _ _⟩,
      List.take_subset _ _⟩
  obtain ⟨hagain, hlog, -⟩ := hdelivered usedState delivered rfl hsub
  exact ⟨effects, hintended, hagain, hlog⟩

end EventUdpToKafka.UnreliableDelivery
