import EventUdpToKafka.MachineWords

set_option autoImplicit false

/-!
# The packed GPS clock

Years, days, hours, minutes, seconds, milliseconds, microseconds and nanoseconds
in the 8, 9, 5, 6, 6, 10, 10 and 10 bits of one 64-bit word.
-/
namespace EventUdpToKafka.GpsClock
open MachineWords

/-- The calendar of the `chrono` package. A date's timestamp is that of its midnight in UTC. -/
structure Chrono where
  NaiveDate : Type
  fromYoOpt : Int32 → UInt32 → Option NaiveDate
  timestamp : NaiveDate → Int64

structure GpsTime where
  content : UInt64
  deriving DecidableEq

def fromPackedRepr (packedRepr : UInt64) : GpsTime := ⟨packedRepr⟩

namespace GpsTime
variable (t : GpsTime)

def years : UInt64 := t.content >>> (24 + 32)
def days : UInt64 := (t.content >>> (15 + 32)) &&& 0b111111111
def hours : UInt64 := (t.content >>> (10 + 32)) &&& 0b11111
def minutes : UInt64 := (t.content >>> (4 + 32)) &&& 0b111111
def seconds : UInt64 := (t.content >>> 30) &&& 0b111111
def milliseconds : UInt64 := (t.content >>> 20) &&& 0b1111111111
def microseconds : UInt64 := (t.content >>> 10) &&& 0b1111111111
def nanoseconds : UInt64 := t.content &&& 0b1111111111

def debug : String :=
  "GpsTime \x7b years: " ++ toString t.years ++ ", days: " ++ toString t.days ++
    ", hours: " ++ toString t.hours ++ ", minutes: " ++ toString t.minutes ++
    ", seconds: " ++ toString t.seconds ++ ", milliseconds: " ++ toString t.milliseconds ++
    ", microseconds: " ++ toString t.microseconds ++
    ", nanoseconds: " ++ toString t.nanoseconds ++ " \x7d"

/-- The range check on the time of day. A second of exactly 60 is a leap second. -/
def inRange : Bool :=
  decide (t.hours < 24) && decide (t.minutes < 60) && decide (t.seconds ≤ 60) &&
    decide (t.milliseconds < 1000) && decide (t.microseconds < 1000) &&
    decide (t.nanoseconds < 1000)

def nanosPerSec : UInt64 := 1000000000

/-- The sum that `then_some` evaluates whether or not the range check holds. -/
def sumNanos (p : Profile) (timestampS : UInt64) : Checked UInt64 := do
  let date ← u64Mul p timestampS nanosPerSec
  let hours ← u64Mul p t.hours 3600
  let hours ← u64Mul p hours nanosPerSec
  let sum ← u64Add p date hours
  let minutes ← u64Mul p t.minutes 60
  let minutes ← u64Mul p minutes nanosPerSec
  let sum ← u64Add p sum minutes
  let seconds ← u64Mul p t.seconds nanosPerSec
  let sum ← u64Add p sum seconds
  let milliseconds ← u64Mul p t.milliseconds 1000000
  let sum ← u64Add p sum milliseconds
  let microseconds ← u64Mul p t.microseconds 1000
  let sum ← u64Add p sum microseconds
  u64Add p sum t.nanoseconds

def midnight (p : Profile) (chrono : Chrono) : Checked (Option UInt64) :=
  match i32TryFrom t.years with
  | none => .ok none
  | some years =>
    match u32TryFrom t.days with
    | none => .ok none
    | some days => do
      let year ← i32Add p years 2000
      return do
        let date ← chrono.fromYoOpt year days
        u64TryFrom (chrono.timestamp date)

def nanosecondsSinceEpoch (p : Profile) (chrono : Chrono) : Checked (Option UInt64) := do
  match ← t.midnight p chrono with
  | none => return none
  | some timestampS =>
    let sum ← t.sumNanos p timestampS
    return if t.inRange then some sum else none

end GpsTime

end EventUdpToKafka.GpsClock
