import Toolpath.Move

/-! # Statistics

Totals and counts over a log of moves. Everything but a rapid move cuts.
-/
namespace Toolpath

structure Statistics where
  moves : Nat := 0
  distance : Float := 0
  time : Float := 0
  cutting : Float := 0
  rapid : Nat := 0
  linear : Nat := 0
  clockwise : Nat := 0
  counterclockwise : Nat := 0
  deriving DecidableEq, Repr

namespace Statistics

def tally (s : Statistics) : Motion → Statistics
  | .rapid => { s with rapid := s.rapid + 1 }
  | .linear => { s with linear := s.linear + 1 }
  | .arc .clockwise => { s with clockwise := s.clockwise + 1 }
  | .arc .counterclockwise => { s with counterclockwise := s.counterclockwise + 1 }

def add (s : Statistics) (m : Move) : Statistics :=
  let s := s.tally m.kind
  { s with
    moves := s.moves + 1
    distance := s.distance + m.distance
    time := s.time + m.time
    cutting := if m.kind = .rapid then s.cutting else s.cutting + m.distance }

def ofMoves (moves : List Move) : Statistics := moves.foldl add {}

def count (s : Statistics) : Motion → Nat
  | .rapid => s.rapid
  | .linear => s.linear
  | .arc .clockwise => s.clockwise
  | .arc .counterclockwise => s.counterclockwise

end Statistics

def recent (n : Nat) (moves : List Move) : List Move := moves.drop (moves.length - n)

end Toolpath
