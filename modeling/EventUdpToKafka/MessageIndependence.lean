import EventUdpToKafka.CrashFreedom
import EventUdpToKafka.LogMachine

set_option autoImplicit false

/-!
# Messages of one datagram

A message leads to the same output wherever it stands in a datagram, and cutting a
datagram short takes output away at the end only.
-/
namespace EventUdpToKafka.MessageIndependence
open LoggedRun LogMachine MachineWords GpsClock Config UdpMessage Metrics DataProcessing
open SelfDelimiting MessageReading FrameProcessing PacketFraming DatagramRuns CrashFreedom
open GpsInstants Testing

variable (p : Profile) (chrono : Chrono) (srcIp : IpAddr) (config : EventUdpToKafkaConfig)

/-- What the code does with a message alone. -/
theorem run_alone {m : List UInt8} (h : Complete udpDelimiter m)
    (hlen : m.length ≤ isizeMax ∨ HeaderFits m) :
    (processUdpBytesToKafka p chrono m srcIp config).outcome =
      (messageRun p chrono srcIp config m).outcome ∧
    sent (processUdpBytesToKafka p chrono m srcIp config).log =
      sent (messageRun p chrono srcIp config m).log := by
  have hlen' : m.length ≤ isizeMax ∨ ∀ m' ∈ [m], HeaderFits m' :=
    hlen.imp_right fun hf m' hm' => List.mem_singleton.mp hm' ▸ hf
  have hone : messagesRun p chrono srcIp config [m] = messageRun p chrono srcIp config m :=
    bind_pure_unit
  rw [datagram_sent p chrono srcIp config (splits_message h) hlen',
    processUdpBytesToKafka_eq p chrono srcIp config (splits_message h) hlen', hone]
  exact ⟨rfl, rfl⟩

theorem messageRun_returns_release {m : List UInt8} (hf : HeaderFits m) :
    (messageRun .release chrono srcIp config m).Returns := by
  obtain ⟨time, ht⟩ := nanosecondsSinceEpoch_release (readMessage m).gpsTime chrono
  rw [messageRun, frameRun_returns_iff _ _ _ _ ht, decoding_returns_iff]
  exact fun _ _ => ⟨hf, Profile.noConfusion⟩

/-- The output of a datagram is what its messages lead to alone, one behind the other. In a build
    with overflow checks this needs each of them to return. -/
theorem messages_independent {ms : List (List UInt8)} {t : List UInt8}
    (hms : ∀ m ∈ ms, CompleteMessage m) (hfit : ∀ m ∈ ms, HeaderFits m) (ht : Tail t)
    (hp : p = .dev → ∀ m ∈ ms, (processUdpBytesToKafka p chrono m srcIp config).Returns) :
    sent (processUdpBytesToKafka p chrono (ms.flatten ++ t) srcIp config).log =
      ms.flatMap fun m => sent (processUdpBytesToKafka p chrono m srcIp config).log := by
  have hs : Splits udpDelimiter (ms.flatten ++ t) ms t := decomposes_iff.mp ⟨rfl, hms, ht⟩
  have hreturns : ∀ m ∈ ms, (messageRun p chrono srcIp config m).Returns := by
    intro m hm
    cases p with
    | release => exact messageRun_returns_release chrono srcIp config (hfit m hm)
    | dev =>
      have halone := (run_alone .dev chrono srcIp config (completeMessage_iff.mp (hms m hm))
        (.inr (hfit m hm))).1
      rw [Run.Returns, ← halone]
      exact hp rfl m hm
  rw [datagram_sent p chrono srcIp config hs (.inr hfit), messagesRun_of_returns _ _ _ _ hreturns,
    sent_flatMap]
  apply List.flatMap_congr
  intro m hm
  exact (run_alone p chrono srcIp config (completeMessage_iff.mp (hms m hm))
    (.inr (hfit m hm))).2.symm

/-- Between two good messages a veto frame, a message on day zero and one with an unmarked record. -/
def mixedMessages : List (List UInt8) :=
  [makeUdpPacket packetFormat1 1 12, (makeUdpHeader packetFormat1 0 12).set 11 0xFD,
    ((makeUdpPacket packetFormat1 1 12).set 13 0).set 14 0, (makeUdpPacket packetFormat1 1 12).set 64 0,
    makeUdpPacket packetFormat1 2 34]

theorem messages_independent_fake :
    sent (processUdpBytesToKafka .release gregorianChrono (mixedMessages.flatten ++ [0, 0, 0]) (.v4 0)
        .makeTestingConfig).log =
      mixedMessages.flatMap (fun m =>
        sent (processUdpBytesToKafka .release gregorianChrono m (.v4 0) .makeTestingConfig).log) ∧
    (mixedMessages.map fun m =>
      (sent (processUdpBytesToKafka .release gregorianChrono m (.v4 0) .makeTestingConfig).log).length) =
        [2, 0, 0, 1, 2] := by
  have hcomplete : ∀ m ∈ mixedMessages, CompleteMessage m := by
    simp only [mixedMessages, List.forall_mem_cons, List.not_mem_nil, false_implies, implies_true, and_true]
    exact ⟨⟨rfl, rfl⟩, ⟨rfl, rfl⟩, ⟨rfl, rfl⟩, ⟨rfl, rfl⟩, ⟨rfl, rfl⟩⟩
  exact ⟨messages_independent .release gregorianChrono (.v4 0) .makeTestingConfig hcomplete
    (by decide +kernel) (.inr ⟨_, rfl⟩) Profile.noConfusion, by decide +kernel⟩

/-- The messages that the framing finds, each with the offset it starts at. -/
def extracted (u : List UInt8) : Checked (List (ℕ × List UInt8)) := do
  let views ← (packetToFrames u).outcome
  views.mapM fun view => do
    let bytes ← ownBytes view
    return (u.length - view.content.length, bytes)

theorem viewsOf_located {ms : List (List UInt8)} (h : ∀ m ∈ ms, Complete udpDelimiter m)
    (t : List UInt8) (o : ℕ) :
    ((viewsOf ms t).mapM fun view => do
      let bytes ← ownBytes view
      return (o + (ms.flatten ++ t).length - view.content.length, bytes)) =
        (.ok (located o ms) : Checked _) := by
  induction ms generalizing o with
  | nil => rfl
  | cons m ms ih =>
    obtain ⟨hm, hms⟩ := List.forall_mem_cons.mp h
    have hend : o + ((m :: ms).flatten ++ t).length =
        o + m.length + (ms.flatten ++ t).length := by
      simp only [List.flatten_cons, List.length_append, Nat.add_assoc]
    have hstart : o + m.length + (ms.flatten ++ t).length - (m ++ (ms.flatten ++ t)).length = o := by
      simp only [List.length_append]
      omega
    rw [hend, viewsOf, List.mapM_cons, ownBytes_append hm, ok_bind]
    dsimp only
    rw [hstart, pure_eq_ok, ok_bind, ih hms, ok_bind, located]
    rfl

theorem extracted_eq (u : List UInt8) :
    extracted u = .ok (located 0 (messages udpDelimiter u)) := by
  have hs := messages_splits (d := udpDelimiter) u
  obtain ⟨hu, hms, -⟩ := splits_iff.mp hs
  have hv := viewsOf_located hms (remainder udpDelimiter u) 0
  rw [← hu, Nat.zero_add] at hv
  rw [extracted, packetToFrames_eq hs]
  exact hv

/-- More messages add the run over them where the run over the first ones returns, and nothing
    where it does not. -/
theorem messagesRun_append_sent (ms rest : List (List UInt8)) : ∃ extra,
    sent (messagesRun p chrono srcIp config (ms ++ rest)).log =
      sent (messagesRun p chrono srcIp config ms).log ++ extra ∧
    ((messagesRun p chrono srcIp config ms).Returns →
      extra = sent (messagesRun p chrono srcIp config rest).log) ∧
    (¬ (messagesRun p chrono srcIp config ms).Returns → extra = []) := by
  rw [messagesRun, Run.each_append]
  cases ho : (Run.each (messageRun p chrono srcIp config) ms).outcome with
  | error s =>
    rw [Run.bind_of_error ho]
    refine ⟨[], (List.append_nil _).symm, ?_, fun _ => rfl⟩
    rintro ⟨_, hu⟩
    rw [messagesRun, ho] at hu
    cases hu
  | ok u =>
    rw [Run.bind_of_ok ho, sent_append]
    exact ⟨_, rfl, fun _ => rfl, fun hn => absurd ⟨u, ho⟩ hn⟩

/-- The run over messages, each of them alone. -/
def aloneRun (found : List (ℕ × List UInt8)) : Exec Unit :=
  Run.each (fun q => processUdpBytesToKafka p chrono q.2 srcIp config) found

theorem aloneRun_located {ms : List (List UInt8)} (h : ∀ m ∈ ms, Complete udpDelimiter m)
    (hlen : ∀ m ∈ ms, m.length ≤ isizeMax) (o : ℕ) :
    sent (aloneRun p chrono srcIp config (located o ms)).log =
      sent (messagesRun p chrono srcIp config ms).log := by
  have hmap := each_map (fun m => processUdpBytesToKafka p chrono m srcIp config) Prod.snd (located o ms)
  rw [located_map_snd] at hmap
  rw [aloneRun, ← hmap, messagesRun]
  refine (Run.each_related _ (R := fun log log' => sent log = sent log') rfl (fun ha hb => ?_)
    fun m hm => run_alone p chrono srcIp config (h m hm) (.inl (hlen m hm))).2
  rw [sent_append, sent_append, ha, hb]

/-- More bytes add frames behind those already there, all of which end past the bytes there were.
    The output grows by that of the run over these frames, unless the code has panicked before. -/
theorem truncation_loses_suffix {a b : List UInt8} (hlen : (a ++ b).length ≤ isizeMax) :
    ∃ found more extra, extracted a = .ok found ∧ extracted (a ++ b) = .ok (found ++ more) ∧
      (∀ q ∈ more, a.length < q.1 + q.2.length) ∧
      sent (processUdpBytesToKafka p chrono (a ++ b) srcIp config).log =
        sent (processUdpBytesToKafka p chrono a srcIp config).log ++ extra ∧
      ((processUdpBytesToKafka p chrono a srcIp config).Returns →
        extra = sent (aloneRun p chrono srcIp config more).log) ∧
      (¬ (processUdpBytesToKafka p chrono a srcIp config).Returns → extra = []) ∧
      ∀ message ∈ extra, ∃ o m, (o, m) ∈ more ∧ a.length < o + m.length ∧
        message ∈ sent (processUdpBytesToKafka p chrono m srcIp config).log := by
  have ha := messages_splits (d := udpDelimiter) a
  have hab := messages_splits (d := udpDelimiter) (a ++ b)
  obtain ⟨rest, hrest, hs⟩ := ha.append hab
  obtain ⟨hcut, -, ht⟩ := splits_iff.mp ha
  obtain ⟨-, hcomplete, -⟩ := splits_iff.mp hs
  obtain ⟨extra, hsent, hgrows, hstops⟩ :=
    messagesRun_append_sent p chrono srcIp config (messages udpDelimiter a) rest
  have hla : a.length ≤ isizeMax := by
    rw [List.length_append] at hlen
    omega
  have hshort : ∀ m ∈ rest, m.length ≤ isizeMax := fun m hm =>
    (hab.message_le (hrest ▸ List.mem_append_right _ hm)).trans hlen
  have hreturns : (processUdpBytesToKafka p chrono a srcIp config).Returns ↔
      (messagesRun p chrono srcIp config (messages udpDelimiter a)).Returns := by
    rw [processUdpBytesToKafka_eq p chrono srcIp config ha (.inl hla)]
    rfl
  have hlate : ∀ q ∈ located (messages udpDelimiter a).flatten.length rest,
      a.length < q.1 + q.2.length := by
    intro q hq
    have hend := hs.extra_end ht hq
    rwa [hcut, List.length_append]
  have halone := aloneRun_located p chrono srcIp config hcomplete hshort
    (messages udpDelimiter a).flatten.length
  refine ⟨located 0 (messages udpDelimiter a), located (messages udpDelimiter a).flatten.length rest,
    extra, extracted_eq a, ?_, hlate, ?_, fun hr => (hgrows (hreturns.mp hr)).trans halone.symm,
    fun hn => hstops fun hr => hn (hreturns.mpr hr), fun message hmessage => ?_⟩
  · rw [extracted_eq, hrest, located_append, Nat.zero_add]
  · rw [datagram_sent p chrono srcIp config hab (.inl hlen),
      datagram_sent p chrono srcIp config ha (.inl hla), hrest, hsent]
  · have hin : message ∈ sent (messagesRun p chrono srcIp config rest).log := by
      by_cases hr : (messagesRun p chrono srcIp config (messages udpDelimiter a)).Returns
      · exact hgrows hr ▸ hmessage
      · rw [hstops hr] at hmessage
        cases hmessage
    obtain ⟨m, hm, he⟩ := Run.exists_mem_of_mem_each _ (mem_sent.mp hin)
    obtain ⟨o, ho⟩ := exists_located hm (messages udpDelimiter a).flatten.length
    refine ⟨o, m, ho, hlate _ ho, ?_⟩
    rw [(run_alone p chrono srcIp config (hcomplete m hm) (.inl (hshort m hm))).2]
    exact mem_sent.mpr he

/-- A datagram cut off two bytes into its second message. -/
theorem truncation_loses_suffix_fake :
    sent (processUdpBytesToKafka .release gregorianChrono (makeUdpPacket packetFormat1 1 12 ++
        [0xFF, 0xFF] ++ (makeUdpPacket packetFormat1 2 34).drop 2) (.v4 0) .makeTestingConfig).log =
      sent (processUdpBytesToKafka .release gregorianChrono (makeUdpPacket packetFormat1 1 12 ++
        [0xFF, 0xFF]) (.v4 0) .makeTestingConfig).log ++
      sent (processUdpBytesToKafka .release gregorianChrono (makeUdpPacket packetFormat1 2 34) (.v4 0)
        .makeTestingConfig).log := by
  have hlen : (makeUdpPacket packetFormat1 1 12 ++ [0xFF, 0xFF] ++
      (makeUdpPacket packetFormat1 2 34).drop 2).length ≤ isizeMax := by
    decide +kernel
  have hfront : extracted (makeUdpPacket packetFormat1 1 12 ++ [0xFF, 0xFF]) =
      .ok [(0, makeUdpPacket packetFormat1 1 12)] := by
    decide +kernel
  have hwhole : extracted (makeUdpPacket packetFormat1 1 12 ++ [0xFF, 0xFF] ++
      (makeUdpPacket packetFormat1 2 34).drop 2) =
        .ok ([(0, makeUdpPacket packetFormat1 1 12)] ++ [(72, makeUdpPacket packetFormat1 2 34)]) := by
    decide +kernel
  have hreturns : (processUdpBytesToKafka .release gregorianChrono (makeUdpPacket packetFormat1 1 12 ++
      [0xFF, 0xFF]) (.v4 0) .makeTestingConfig).Returns := ⟨(), by decide +kernel⟩
  obtain ⟨found, more, extra, hfound, hmore, -, hsent, hextra, -⟩ := truncation_loses_suffix .release
    gregorianChrono (.v4 0) .makeTestingConfig hlen
  rw [hfront] at hfound
  cases hfound
  rw [hwhole, Except.ok.injEq, List.append_cancel_left_eq] at hmore
  have hrun : aloneRun .release gregorianChrono (.v4 0) .makeTestingConfig
      [(72, makeUdpPacket packetFormat1 2 34)] = processUdpBytesToKafka .release gregorianChrono
        (makeUdpPacket packetFormat1 2 34) (.v4 0) .makeTestingConfig := bind_pure_unit
  rw [hsent, hextra hreturns, ← hmore, hrun]

end EventUdpToKafka.MessageIndependence
