import Toolpath.Number.Fixed

/-! # Advisories

A line can go wrong without ending the run. A `Refusal` is a reason for making no move at all; the
other findings go with a move that is made.
-/
namespace Toolpath

inductive Refusal where
  | missingArcCenter
  | zeroLengthChord
  | zeroRadius
  | coordinateOverflow
  deriving DecidableEq, Repr

inductive Finding where
  | refused (why : Refusal)
  /-- The radius given does not reach from the chord's ends to its middle. -/
  | radiusTooSmall (radius halfChord : Float)
  | nonPositiveFeed (feed : Float)
  deriving DecidableEq, Repr

structure Advisory where
  /-- The line, counted from one. -/
  line : Nat
  finding : Finding
  deriving DecidableEq, Repr

def Refusal.name : Refusal → String
  | missingArcCenter => "MissingArcCenter"
  | zeroLengthChord => "ZeroLengthChord"
  | zeroRadius => "ZeroRadius"
  | coordinateOverflow => "CoordinateOverflow"

def Refusal.message : Refusal → String
  | missingArcCenter => "Arc has no center offset or radius; no motion produced"
  | zeroLengthChord => "Radius-form arc has a zero-length chord; no motion produced"
  | zeroRadius => "Arc radius is zero; no motion produced"
  | coordinateOverflow => "Move coordinates overflow; no motion produced"

def Finding.name : Finding → String
  | refused why => why.name
  | radiusTooSmall .. => "RadiusTooSmall"
  | nonPositiveFeed _ => "NonPositiveFeed"

def Finding.message : Finding → String
  | refused why => why.message
  | radiusTooSmall radius halfChord =>
    "Arc radius " ++ Fixed.text 4 radius ++ " mm is smaller than half the chord (" ++
      Fixed.text 4 halfChord ++ " mm); clamped"
  | nonPositiveFeed feed =>
    "Feed rate " ++ Fixed.text 3 feed ++ " mm/min is not positive; move time set to 0"

def Advisory.message (a : Advisory) : String :=
  "line " ++ toString a.line ++ ": " ++ a.finding.message

end Toolpath
