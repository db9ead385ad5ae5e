import Toolpath.Motion
import Toolpath.Plane
import Toolpath.Units

/-! # Modal state

What a line sets stays in force until another line changes it. The `Frame` says how the numbers of a
line become positions, `Modal` adds the feeds. The rapid feed is given in program units, and is kept
in millimeters beside that; whoever selects units has to rescale it.
-/
namespace Toolpath

inductive DistanceMode where
  | absolute
  | incremental
  deriving DecidableEq, Repr

namespace DistanceMode

def code : DistanceMode → String
  | absolute => "G90"
  | incremental => "G91"

def text : DistanceMode → String
  | absolute => "Absolute positioning (G90)"
  | incremental => "Incremental positioning (G91)"

end DistanceMode

structure Frame where
  units : Units := .millimeters
  distance : DistanceMode := .absolute
  plane : Plane := .xy
  deriving DecidableEq, Repr

namespace Frame
variable {α : Type} [Scalar α]

/-- A coordinate after the move: without a word it stays, in absolute mode the word replaces it, in
incremental mode the word is added to it. -/
def coordinate (f : Frame) (current : α) : Option α → α
  | none => current
  | some raw => match f.distance with
    | .absolute => f.units.toMm raw
    | .incremental => current + f.units.toMm raw

def target (f : Frame) (current : Position α) (words : AxisWords α) : Position α :=
  ⟨f.coordinate current.x words.x, f.coordinate current.y words.y, f.coordinate current.z words.z⟩

end Frame

inductive Command where
  | motion (kind : Motion)
  | plane (plane : Plane)
  | units (units : Units)
  | distance (mode : DistanceMode)
  deriving DecidableEq, Repr

namespace Command

/-- The command of a code; all other codes ask for nothing. -/
def ofCode? : Nat → Option Command
  | 0 => some (motion .rapid)
  | 1 => some (motion .linear)
  | 2 => some (motion (.arc .clockwise))
  | 3 => some (motion (.arc .counterclockwise))
  | 17 => some (plane .xy)
  | 18 => some (plane .xz)
  | 19 => some (plane .yz)
  | 20 => some (units .inches)
  | 21 => some (units .millimeters)
  | 90 => some (distance .absolute)
  | 91 => some (distance .incremental)
  | _ => none

def motion? : Command → Option Motion
  | motion kind => some kind
  | _ => none

end Command

structure Modal extends Frame where
  /-- The commanded feed in millimeters per minute. -/
  feed : Float
  /-- The rapid feed in program units per minute. -/
  rapidSource : Float
  /-- The rapid feed in millimeters per minute. -/
  rapidFeed : Float
  deriving Repr

namespace Modal

/-- Selects units and rescales the rapid feed, each time from program units, so that roundings do not
add up. -/
def selectUnits (m : Modal) (units : Units) : Modal :=
  { m with units, rapidFeed := m.rapidSource * units.factor }

@[simp] theorem selectUnits_toFrame (m : Modal) (units : Units) :
    (m.selectUnits units).toFrame = { m.toFrame with units } := rfl

def initial (feed rapidSource : Float) : Modal :=
  selectUnits { feed, rapidSource, rapidFeed := 0 } .millimeters

instance : Inhabited Modal := ⟨initial 1000 24⟩

/-- Takes a feed given in program units, unless it is out of range in millimeters. -/
def setFeed (m : Modal) (raw : Float) : Modal :=
  let feed : Float := m.units.toMm raw
  if feed.isFinite then { m with feed } else m

/-- Nothing but the feed is changed by it. -/
theorem setFeed_eq (m : Modal) (raw : Float) :
    m.setFeed raw = { m with feed := (m.setFeed raw).feed } := by
  unfold setFeed
  dsimp only
  split <;> rfl

/-- Obeys a command. A motion is the line's own affair and leaves the state alone. -/
def apply (m : Modal) : Command → Modal
  | .motion _ => m
  | .plane plane => { m with plane }
  | .units units => m.selectUnits units
  | .distance distance => { m with distance }

def feedOf (m : Modal) : Motion → Float
  | .rapid => m.rapidFeed
  | _ => m.feed

end Modal
end Toolpath
