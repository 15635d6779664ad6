import EventUdpToKafka.LoggedRun
import EventUdpToKafka.UdpMessage

set_option autoImplicit false

/-!
# Messages, counters and the effects of the program

The log of a run lists the counter increments and the messages handed to the
sink, in the order in which the code performs them.
-/
namespace EventUdpToKafka.Metrics
open LoggedRun MachineWords UdpMessage

structure Pu00Message where
  sourceName : String
  messageId : Int64
  referenceTime : Int64
  vetos : Option UInt32
  periodNumber : Option UInt32
  protonCharge : Option Float32

structure Event44Message where
  sourceName : String
  messageId : Int64
  referenceTime : List Int64
  referenceTimeIndex : List Int32
  timeOfFlight : List Int32
  pixelId : List Int32
  deriving DecidableEq

inductive KafkaMessage where
  | pu00 (message : Pu00Message)
  | ev44 (message : Event44Message)

inductive Counter where
  | incomingUdpPackets
  | incomingUdpPacketSize
  | incomingUdpHeaders (type : UdpPacketType)
  | incomingUdpPacketErrors
  | incomingUdpInvalidHeaderDeclaredLengthTooShort
  | incomingUdpInvalidHeaderDeclaredLengthTooLong
  | processingErrors (type : UdpPacketType)
  | streamingControlBoardFrames
  | neutronEvents
  | invalidNeutronEvents
  | outgoingKafkaProduceErrors
  | outgoingKafkaMessages
  | outgoingKafkaMessageSize
  deriving DecidableEq

inductive Effect where
  | increment (counter : Counter) (amount : ℕ)
  | sink (message : KafkaMessage)

abbrev Exec (α : Type) := Run Effect Stop α

/-- The value of `anyhow::Result`, with the error's text. -/
abbrev Anyhow (α : Type) := Except String α

def increment (counter : Counter) (amount : ℕ) : Exec Unit := .emit (.increment counter amount)

def sink (message : KafkaMessage) : Exec Unit := .emit (.sink message)

def Effect.sent? : Effect → Option KafkaMessage
  | .increment _ _ => none
  | .sink message => some message

def sent (log : List Effect) : List KafkaMessage := log.filterMap Effect.sent?

def Effect.amountOf (counter : Counter) : Effect → ℕ
  | .increment c amount => if c = counter then amount else 0
  | .sink _ => 0

/-- What a counter that starts at zero shows after a run. -/
def total (counter : Counter) (log : List Effect) : ℕ := (log.map (Effect.amountOf counter)).sum

@[simp] theorem sent_nil : sent [] = [] := rfl

@[simp] theorem sent_increment (counter : Counter) (amount : ℕ) (log : List Effect) :
    sent (.increment counter amount :: log) = sent log := rfl

@[simp] theorem sent_sink (message : KafkaMessage) (log : List Effect) :
    sent (.sink message :: log) = message :: sent log := rfl

@[simp] theorem sent_append (log log' : List Effect) :
    sent (log ++ log') = sent log ++ sent log' := List.filterMap_append

@[simp] theorem total_nil (counter : Counter) : total counter [] = 0 := rfl

@[simp] theorem total_cons (counter : Counter) (e : Effect) (log : List Effect) :
    total counter (e :: log) = e.amountOf counter + total counter log := List.sum_cons

@[simp] theorem total_append (counter : Counter) (log log' : List Effect) :
    total counter (log ++ log') = total counter log + total counter log' := by
  rw [total, List.map_append, List.sum_append]
  rfl

theorem total_eq_zero {counter : Counter} {log : List Effect}
    (h : ∀ amount, .increment counter amount ∉ log) : total counter log = 0 := by
  induction log with
  | nil => rfl
  | cons e log ih =>
    have he : e.amountOf counter = 0 := by
      cases e with
      | sink message => rfl
      | increment c amount =>
        have hne : c ≠ counter := fun hc => h amount (by rw [← hc]; exact List.mem_cons_self)
        rw [Effect.amountOf, if_neg hne]
    rw [total_cons, he, ih fun amount hm => h amount (List.mem_cons_of_mem e hm)]

theorem mem_sent {message : KafkaMessage} {log : List Effect} :
    message ∈ sent log ↔ .sink message ∈ log := by
  rw [sent, List.mem_filterMap]
  constructor
  · rintro ⟨e, he, hm⟩
    cases e with
    | increment counter amount => cases hm
    | sink message' =>
      cases hm
      exact he
  · exact fun h => ⟨_, h, rfl⟩

theorem sent_flatMap {α : Type} (f : α → List Effect) (xs : List α) :
    sent (xs.flatMap f) = xs.flatMap fun x => sent (f x) := by
  induction xs with
  | nil => rfl
  | cons x xs ih => simp only [List.flatMap_cons, sent_append, ih]

end EventUdpToKafka.Metrics
