import Toolpath.Arc
import Toolpath.Number.Double

/-! # Moves

A move record tells what a move was, how far it went and how long it took. A `Travel` is all that
one motion line adds: the record, the points of the path, and where the machine arrives.
-/
namespace Toolpath

/-- The time in seconds to travel a distance; none if the feed is not positive. -/
def moveTime (distance feed : Float) : Float :=
  if 0 < feed then distance / feed * 60 else 0

structure Move where
  kind : Motion
  /-- In millimeters. -/
  distance : Float
  /-- In seconds. -/
  time : Float
  /-- In millimeters per minute. -/
  feed : Float
  deriving DecidableEq, Repr

/-- The record of a move. A feed that is not positive is recorded as none. -/
def Move.of (kind : Motion) (distance feed : Float) : Move :=
  { kind, distance, time := moveTime distance feed, feed := if 0 < feed then feed else 0 }

structure Travel where
  move : Move
  points : List (Position Float)
  arrival : Position Float

namespace Travel

def straight (kind : Motion) (start target : Position Float) (feed : Float) : Travel :=
  ⟨.of kind (start.distanceTo target) feed, [target], target⟩

/-- Along an arc: the samples are shown, the target is reached. -/
def along (E : Elementary Float) (a : Arc Float) (feed : Float) : Travel :=
  ⟨.of (.arc a.turn) a.length feed, a.samples.toList E, a.target⟩

/-- A move that could not be made: the machine stays, and its position is shown once more. -/
def stay (kind : Motion) (position : Position Float) (feed : Float) : Travel :=
  ⟨.of kind 0 feed, [position], position⟩

end Travel
end Toolpath
