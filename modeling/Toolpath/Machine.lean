import Toolpath.Advisory
import Toolpath.Arc.Resolve
import Toolpath.Block
import Toolpath.Cleaner
import Toolpath.Move

/-! # The machine

The machine is its modal state and its position, and a line is read by these alone. A motion whose
target, distance or time is out of range is not made.
-/
namespace Toolpath

structure Machine where
  modal : Modal
  position : Position Float

/-- What a line does: the machine behind it, the travel if the line asks for motion, and what is to
be said about it. -/
structure Outcome where
  machine : Machine
  travel : Option Travel := none
  findings : List Finding := []

def isRepresentable (distance feed : Float) : Bool :=
  distance.isFinite && (moveTime distance feed).isFinite

def feedFindings (feed : Float) : List Finding :=
  if feed ≤ 0 then [.nonPositiveFeed feed] else []

namespace Machine

def travelled (m : Machine) (t : Travel) (findings : List Finding) : Outcome :=
  { machine := { m with position := t.arrival }, travel := some t, findings }

def refuse (m : Machine) (kind : Motion) (feed : Float) (findings : List Finding) : Outcome :=
  m.travelled (.stay kind m.position feed) findings

def moveStraight (m : Machine) (kind : Motion) (words : AxisWords Float) : Outcome :=
  let target := m.modal.target m.position words
  let feed := m.modal.feedOf kind
  if target.isFinite && isRepresentable (m.position.distanceTo target) feed then
    m.travelled (.straight kind m.position target feed) (feedFindings feed)
  else m.refuse kind feed [.refused .coordinateOverflow]

variable (E : Elementary Float) (s : Sampling Float)

def moveArc (m : Machine) (turn : Turn) (words : AxisWords Float) : Outcome :=
  let feed := m.modal.feed
  match Arc.resolve E s turn m.position words m.modal.toFrame with
  | .error why => m.refuse (.arc turn) feed [.refused why]
  | .ok fitted =>
    let clamp := fitted.clamped.toList.map fun c => Finding.radiusTooSmall c.radius c.halfChord
    if isRepresentable fitted.arc.length feed then
      m.travelled (.along E fitted.arc feed) (clamp ++ feedFindings feed)
    else m.refuse (.arc turn) feed (clamp ++ [.refused .coordinateOverflow])

def perform (m : Machine) (b : Block) : Outcome :=
  let m := { m with modal := b.modal }
  match b.performs with
  | none => { machine := m }
  | some (.arc turn) => m.moveArc E s turn b.words
  | some kind => m.moveStraight kind b.words

def step (m : Machine) (line : List Char) : Outcome :=
  match Pipeline.standard.run line with
  | none => { machine := m }
  | some text => m.perform E s (Block.scan m.modal (Word.split text))

end Machine
end Toolpath
