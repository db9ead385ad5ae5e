import Toolpath.Machine
import Toolpath.Settings
import Toolpath.Statistics
import Toolpath.Text.Lines

/-! # Evaluating programs

A program is read line by line from the origin, in the modal state of the settings. `Run` keeps the
machine and the outcomes so far; the evaluation is read off the outcomes: the points of all travels
behind the origin, their records, and the findings with the numbers of their lines.
-/
namespace Toolpath

structure Run where
  machine : Machine
  outcomes : Array Outcome := #[]

structure Evaluation where
  path : List (Position Float)
  moves : List Move
  modal : Modal
  position : Position Float
  advisories : List Advisory

namespace Evaluation

def points (outcomes : List Outcome) : List (Position Float) :=
  outcomes.flatMap fun o => (o.travel.map Travel.points).getD []

def records (outcomes : List Outcome) : List Move :=
  outcomes.filterMap fun o => o.travel.map Travel.move

def notes (first : Nat) (outcomes : List Outcome) : List Advisory :=
  (outcomes.zipIdx first).flatMap fun (o, line) => o.findings.map (Advisory.mk line)

def ofRun (r : Run) : Evaluation :=
  let outcomes := r.outcomes.toList
  { path := .origin :: points outcomes
    moves := records outcomes
    modal := r.machine.modal
    position := r.machine.position
    advisories := notes 1 outcomes }

def statistics (e : Evaluation) : Statistics := .ofMoves e.moves

end Evaluation

namespace Settings

def initialModal (s : Settings) : Modal := .initial s.defaultFeed s.rapidFeed

def initialMachine (s : Settings) : Machine := ⟨s.initialModal, .origin⟩

def sampling (s : Settings) : Sampling Float :=
  .of s.degreesPerSample s.minSamples.toNat s.endpointTolerance

end Settings

namespace Run
variable (E : Elementary Float) (s : Sampling Float)

def step (r : Run) (line : List Char) : Run :=
  let outcome := r.machine.step E s line
  ⟨outcome.machine, r.outcomes.push outcome⟩

def through (r : Run) (lines : List (List Char)) : Run := lines.foldl (step E s) r

end Run

def evaluate (E : Elementary Float) (s : Settings) (program : String) : Evaluation :=
  .ofRun (Run.through E s.sampling { machine := s.initialMachine } (lines program.toList))

end Toolpath
