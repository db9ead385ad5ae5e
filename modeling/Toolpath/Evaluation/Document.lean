import Toolpath.Evaluation
import Toolpath.Json.Value

/-! # Evaluations as documents

The whole evaluation as a JSON document: path, moves, modal state, position and advisories.
-/
namespace Toolpath

def Position.document (p : Position Float) : Json :=
  .object [("x", .number p.x), ("y", .number p.y), ("z", .number p.z)]

def Move.document (m : Move) : Json :=
  .object [("kind", .string m.kind.name), ("distance_mm", .number m.distance),
    ("time_sec", .number m.time), ("feed_mm_per_min", .number m.feed)]

def Modal.document (m : Modal) : Json :=
  .object [("units", .string m.units.name), ("absolute", .bool (m.distance = .absolute)),
    ("plane", .string m.plane.name), ("current_feed", .number m.feed),
    ("rapid_feed_source", .number m.rapidSource), ("rapid_feed", .number m.rapidFeed)]

/-- A finding without numbers is its name; one with numbers is a field of that name. -/
def Finding.document (f : Finding) : Json :=
  match f with
  | .refused why => .string why.name
  | .radiusTooSmall radius halfChord =>
    .object [(f.name, .object [("radius", .number radius), ("half_chord", .number halfChord)])]
  | .nonPositiveFeed feed => .object [(f.name, .object [("feed", .number feed)])]

def Advisory.document (a : Advisory) : Json :=
  .object [("line_number", .natural a.line), ("kind", a.finding.document)]

def Evaluation.document (e : Evaluation) : Json :=
  .object [("path", .array (e.path.map Position.document)),
    ("moves", .array (e.moves.map Move.document)), ("modal", e.modal.document),
    ("position", e.position.document), ("advisories", .array (e.advisories.map Advisory.document))]

end Toolpath
