import Toolpath.Number.Binary

/-! # Durations

A duration is shown as hours, minutes, seconds and tenths. It is rounded to tenths first, so that a
carry runs through all places and no place shows sixty.
-/
namespace Toolpath.Duration

def maxTenths : Nat := UInt64.size - 1

/-- The tenths of a number of seconds, to the nearest, a half going up. What is negative or not a
number has none. -/
def tenths (seconds : Float) : Nat :=
  match Binary.ofFloat ((if 0 < seconds then seconds else 0) * 10) with
  | .finite false m e => let r := Binary.ratio m e; min (Binary.roundHalfUp r.1 r.2) maxTenths
  | .infinity false => maxTenths
  | _ => 0

def twoDigits (n : Nat) : String := if n < 10 then "0" ++ toString n else toString n

def layout (tenths : Nat) : String :=
  toString (tenths / 36000) ++ ":" ++ twoDigits (tenths / 600 % 60) ++ ":" ++
    twoDigits (tenths / 10 % 60) ++ "." ++ toString (tenths % 10)

def text (seconds : Float) : String := layout (tenths seconds)

end Toolpath.Duration
