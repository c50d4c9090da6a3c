/-!
# Spans of time and the clock

Spans of time are counted in nanoseconds, and so is the clock, which never runs backwards. The clock has a
last instant. A deadline behind it cannot be named, and `Clock.after?` says so.
-/

namespace SensorCatalog

namespace Clock

/-- The first number of nanoseconds that the clock cannot show. -/
def horizon : Nat := Nat.pow 2 63 * 1000000000

/-- The instant that lies a span of time ahead, if the clock can show it. -/
def after? (now span : Nat) : Option Nat := if now + span < horizon then some (now + span) else none

end Clock

/-- A number of seconds as a span of time. -/
def seconds (n : Nat) : Nat := n * 1000000000

/-- A number of milliseconds as a span of time. -/
def milliseconds (n : Nat) : Nat := n * 1000000

/-- A span of time in minutes, rounded up. -/
def inMinutes (span : Nat) : Nat := (span + (seconds 60 - 1)) / seconds 60

/-- The digits of a part of a unit that has so many decimal places, without zeros at the end. -/
def decimalPlaces : (places : Nat) → (part : Nat) → String
  | 0, _ => ""
  | places + 1, part =>
    if part = 0 then ""
    else toString (part / Nat.pow 10 places) ++ decimalPlaces places (part % Nat.pow 10 places)

/-- A span of time in a unit of so many decimal places. -/
def inUnit (places span : Nat) (unit : String) : String :=
  let part := span % Nat.pow 10 places
  toString (span / Nat.pow 10 places) ++ (if part = 0 then "" else "." ++ decimalPlaces places part) ++ unit

/-- The text of a span of time, in the greatest unit of which it has at least one. -/
def spanText (span : Nat) : String :=
  if seconds 1 ≤ span then inUnit 9 span "s"
  else if milliseconds 1 ≤ span then inUnit 6 span "ms"
  else if 1000 ≤ span then inUnit 3 span "µs"
  else inUnit 0 span "ns"

end SensorCatalog
