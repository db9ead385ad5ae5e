import Toolpath.Proofs.Arc.Elementary
import Toolpath.Proofs.Evaluation.Growth

/-! # Continuing a program

A text behind a line feed is read as a program of its own, only that the machine is where the lines
before have left it. What it adds depends on nothing else of them, but for the numbers of the lines.
-/
namespace Toolpath

theorem Modal.eq_of_fields {m n : Modal} (hframe : m.toFrame = n.toFrame) (hfeed : m.feed = n.feed)
    (hsource : m.rapidSource = n.rapidSource) (hrapid : m.rapidFeed = n.rapidFeed) : m = n := by
  cases m
  cases n
  simp_all

def Advisory.shift (count : Nat) (a : Advisory) : Advisory := { a with line := a.line + count }

namespace Evaluation

theorem notes_shift (first count : Nat) (outcomes : List Outcome) :
    notes (first + count) outcomes = (notes first outcomes).map (Advisory.shift count) := by
  induction outcomes generalizing first with
  | nil => simp
  | cons o rest ih =>
    have hline : first + count + 1 = first + 1 + count := by omega
    simp [hline, ih, Advisory.shift, Function.comp_def]

/-- An evaluation of so many lines, with what a further run adds. -/
def extend (e : Evaluation) (count : Nat) (r : Run) : Evaluation where
  path := e.path ++ points r.outcomes.toList
  moves := e.moves ++ records r.outcomes.toList
  modal := r.machine.modal
  position := r.machine.position
  advisories := e.advisories ++ (notes 1 r.outcomes.toList).map (Advisory.shift count)

section
variable (E : Elementary Float)

theorem ofRun_through_append (s : Sampling Float) (m : Machine) (before rest : List (List Char)) :
    ofRun (Run.through E s { machine := m } (before ++ rest)) =
      (ofRun (Run.through E s { machine := m } before)).extend before.length
        (Run.through E s { machine := m.after E s before } rest) := by
  obtain ⟨hwhole, houtcomes⟩ := Run.through_eq E s { machine := m } (before ++ rest)
  obtain ⟨-, hbefore⟩ := Run.through_eq E s { machine := m } before
  obtain ⟨hlast, hrest⟩ := Run.through_eq E s { machine := m.after E s before } rest
  rw [Machine.after_append, ← hlast] at hwhole
  rw [Machine.outcomes_append] at houtcomes
  simp [ofRun, extend, hwhole, houtcomes, hbefore, hrest, points_append, records_append,
    notes_append, notes_shift]

variable (s : Settings)

/-- The run over a further text, from the machine with which an evaluation ends. -/
def resume (e : Evaluation) (text : String) : Run :=
  Run.through E s.sampling { machine := ⟨e.modal, e.position⟩ } (lines text.toList)

theorem resume_evaluate (program text : String) :
    resume E s (evaluate E s program) text = Run.through E s.sampling
      { machine := s.initialMachine.after E s.sampling (lines program.toList) }
      (lines text.toList) := by
  rw [← (Run.through_eq E s.sampling { machine := s.initialMachine } (lines program.toList)).1]
  rfl

theorem evaluate_eq_extend {program : String}
    (h : program = "" ∨ program.toList.getLast? = some '\n') (text : String) :
    evaluate E s (program ++ text) = (evaluate E s program).extend (lines program.toList).length
      (resume E s (evaluate E s program) text) := by
  have hend : program.toList = [] ∨ program.toList.getLast? = some '\n' := by
    simpa using h
  rw [resume_evaluate]
  unfold evaluate
  rw [String.toList_append, lines_append hend, ofRun_through_append]

end
end Evaluation

/-- A text behind the end of a line adds to the evaluation what it does from the machine there, with
its lines counted on. So the lines before it matter only by where they leave the machine. -/
theorem evaluate_append (E : Elementary Float) (s : Settings) {program : String}
    (h : program = "" ∨ program.toList.getLast? = some '\n') (text : String) :
    evaluate E s (program ++ text) = (evaluate E s program).extend (lines program.toList).length
      ((evaluate E s program).resume E s text) ∧
    (evaluate E s program).path <+: (evaluate E s (program ++ text)).path ∧
    (evaluate E s program).moves <+: (evaluate E s (program ++ text)).moves ∧
    (evaluate E s program).advisories <+: (evaluate E s (program ++ text)).advisories ∧
    ∀ other, (other = "" ∨ other.toList.getLast? = some '\n') →
      (evaluate E s other).modal = (evaluate E s program).modal →
      (evaluate E s other).position = (evaluate E s program).position →
      evaluate E s (other ++ text) = (evaluate E s other).extend (lines other.toList).length
        ((evaluate E s program).resume E s text) := by
  have hextend := Evaluation.evaluate_eq_extend E s h text
  refine ⟨hextend, ?_, ?_, ?_, ?_⟩
  · rw [hextend]
    exact List.prefix_append ..
  · rw [hextend]
    exact List.prefix_append ..
  · rw [hextend]
    exact List.prefix_append ..
  · intro other hother hmodal hposition
    rw [Evaluation.evaluate_eq_extend E s hother]
    unfold Evaluation.resume
    rw [hmodal, hposition]

/-- Two ways to the same point in incremental mode are continued alike, be there one line or two. -/
theorem evaluate_append_incremental :
    evaluate .onAxes {} ("G91\nX1\n" ++ "X2 F0\nG2") =
      (evaluate .onAxes {} "G91\nX1\n").extend 2
        ((evaluate .onAxes {} "G91\nX1\n").resume .onAxes {} "X2 F0\nG2") ∧
    evaluate .onAxes {} ("G91 X1\r\n" ++ "X2 F0\nG2") =
      (evaluate .onAxes {} "G91 X1\r\n").extend 1
        ((evaluate .onAxes {} "G91\nX1\n").resume .onAxes {} "X2 F0\nG2") := by
  have hend : "G91\nX1\n".toList.getLast? = some '\n' := by decide
  have hother : "G91 X1\r\n".toList.getLast? = some '\n' := by decide
  have hmodal : (evaluate .onAxes {} "G91 X1\r\n").modal =
      (evaluate .onAxes {} "G91\nX1\n").modal :=
    Modal.eq_of_fields (by decide +kernel) (by decide +kernel) (by decide +kernel)
      (by decide +kernel)
  obtain ⟨hextend, -, -, -, hcontinued⟩ :=
    evaluate_append .onAxes {} (.inr hend) "X2 F0\nG2"
  exact ⟨hextend, hcontinued _ (.inr hother) hmodal (by decide +kernel)⟩

end Toolpath
