import Toolpath.Duration
import Toolpath.Evaluation

/-! # Summaries

A summary tells in lines what a program does: its moves, distances and time, where it ends and in
which state, the latest moves, and the advisories.
-/
namespace Toolpath

def fillRight (width : Nat) (text : String) : String := text ++ "".pushn ' ' (width - text.length)

def fillLeft (width : Nat) (text : String) : String := "".pushn ' ' (width - text.length) ++ text

def Move.summary (m : Move) : String :=
  "  " ++ fillRight 14 m.kind.text ++ " " ++
    fillLeft 12 (Units.millimeters.formatLength m.distance) ++ " " ++
    fillLeft 10 (Fixed.text 3 m.time) ++ " s @ " ++ Fixed.text 1 m.feed ++ " mm/min"

def Statistics.summary (s : Statistics) : List String :=
  [ "Moves: " ++ toString s.moves ++ " (rapid " ++ toString s.rapid ++ ", linear " ++
      toString s.linear ++ ", arc cw " ++ toString s.clockwise ++ ", arc ccw " ++
      toString s.counterclockwise ++ ")",
    "Distance: " ++ Units.millimeters.formatLength s.distance ++ " (cutting " ++
      Units.millimeters.formatLength s.cutting ++ ")",
    "Time: " ++ Duration.text s.time ]

def Modal.summary (m : Modal) : String :=
  "Modal: " ++ m.units.code ++ " " ++ m.distance.code ++ " " ++ m.plane.code ++ " F" ++
    Fixed.text 1 m.feed ++ " mm/min"

/-- Lines under a title, or nothing where there are none. -/
def titled (title : String) (lines : List String) : List String :=
  if lines.isEmpty then [] else title :: lines

def Evaluation.summary (e : Evaluation) (program : String) (latest : Nat) : List String :=
  ("Program: " ++ program) :: e.statistics.summary ++
    ["Final position: " ++ e.position.text, e.modal.summary] ++
    titled "Recent moves:" ((recent latest e.moves).map Move.summary) ++
    titled "Advisories:" (e.advisories.map fun a => "  " ++ a.message)

end Toolpath
