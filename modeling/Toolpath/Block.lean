import Toolpath.Modal
import Toolpath.Word.Value

/-! # Blocks

A block is what one line of words says: the modal state behind it, the motion it asks for and the
numbers for axes and arcs. Words act from left to right, so a change of units tells on the feeds
that follow it. A later word overrides an earlier one, but only if it has a number.
-/
namespace Toolpath

structure Block where
  modal : Modal
  motion : Option Motion := none
  words : AxisWords Float := {}

namespace Block

def command (b : Block) (c : Command) : Block :=
  { b with modal := b.modal.apply c, motion := c.motion?.or b.motion }

/-- Takes a word into the block. Unknown letters and codes are passed over. -/
def read (b : Block) (w : Word) : Block :=
  match w.letter with
  | 'G' => match w.code?.bind Command.ofCode? with
    | some c => b.command c
    | none => b
  | 'F' => match w.number? with
    | some raw => { b with modal := b.modal.setFeed raw }
    | none => b
  | 'X' => { b with words.x := w.number?.or b.words.x }
  | 'Y' => { b with words.y := w.number?.or b.words.y }
  | 'Z' => { b with words.z := w.number?.or b.words.z }
  | 'I' => { b with words.i := w.number?.or b.words.i }
  | 'J' => { b with words.j := w.number?.or b.words.j }
  | 'K' => { b with words.k := w.number?.or b.words.k }
  | 'R' => { b with words.r := w.number?.or b.words.r }
  | _ => b

def scan (m : Modal) (words : List Word) : Block := words.foldl read { modal := m }

/-- The motion that the block performs. An arc needs no axis; a straight move does, and axes alone
ask for a straight cut. -/
def performs (b : Block) : Option Motion :=
  match b.motion with
  | some (.arc t) => some (.arc t)
  | some kind => if b.words.hasAxis then some kind else none
  | none => if b.words.hasAxis then some .linear else none

end Block
end Toolpath
