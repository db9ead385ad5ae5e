import Toolpath.Proofs.Evaluation.Kinds
import Toolpath.Proofs.Evaluation.Path

/-! # How an evaluation grows

One more line adds the points, the record and the advisories of its outcome behind those that are
there, and takes over its machine. So a law of whole evaluations is a law of what one outcome adds.
-/
namespace Toolpath

namespace Evaluation

@[simp] theorem points_singleton (o : Outcome) : points [o] = o.points := List.flatMap_singleton ..

theorem points_append (before rest : List Outcome) :
    points (before ++ rest) = points before ++ points rest := List.flatMap_append

@[simp] theorem records_singleton (o : Outcome) :
    records [o] = (o.travel.map Travel.move).toList := by
  cases h : o.travel <;> simp [records, h]

@[simp] theorem notes_nil (first : Nat) : notes first [] = [] := rfl

@[simp] theorem notes_cons (first : Nat) (o : Outcome) (rest : List Outcome) :
    notes first (o :: rest) = o.findings.map (Advisory.mk first) ++ notes (first + 1) rest := rfl

theorem notes_append (first : Nat) (before rest : List Outcome) :
    notes first (before ++ rest) = notes first before ++ notes (first + before.length) rest := by
  induction before generalizing first with
  | nil => simp
  | cons o before ih => simp [ih, Nat.add_assoc, Nat.add_comm 1]

def add (e : Evaluation) (line : Nat) (o : Outcome) : Evaluation where
  path := e.path ++ o.points
  moves := e.moves ++ (o.travel.map Travel.move).toList
  modal := o.machine.modal
  position := o.machine.position
  advisories := e.advisories ++ o.findings.map (Advisory.mk line)

theorem ofRun_step (E : Elementary Float) (s : Sampling Float) (r : Run) (line : List Char) :
    ofRun (r.step E s line) = (ofRun r).add (r.outcomes.size + 1) (r.machine.step E s line) := by
  simp [ofRun, Run.step, add, points_append, records_append, notes_append, Nat.add_comm 1]

end Evaluation

section
variable (E : Elementary Float) (s : Settings) (program : String)

theorem runAfter_succ {n : Nat} {line : List Char} (h : (lines program.toList)[n]? = some line) :
    runAfter E s program (n + 1) = (runAfter E s program n).step E s.sampling line := by
  unfold runAfter Run.through
  simp [List.take_add_one, h]

/-- Behind the last line nothing happens any more. -/
theorem runAfter_of_length_le {n : Nat} (h : (lines program.toList).length ≤ n) :
    runAfter E s program n = runAfter E s program (lines program.toList).length := by
  unfold runAfter
  rw [List.take_of_length_le h, List.take_length]

/-- What holds before the first line, and is kept by every line of a program, holds behind any
number of its lines. -/
theorem runAfter_induction {P : Run → Prop} (hzero : P { machine := s.initialMachine })
    (hstep : ∀ n line, (lines program.toList)[n]? = some line → P (runAfter E s program n) →
      P ((runAfter E s program n).step E s.sampling line)) (n : Nat) :
    P (runAfter E s program n) := by
  induction n with
  | zero => exact hzero
  | succ n ih =>
    by_cases hn : n < (lines program.toList).length
    · have hline := List.getElem?_eq_getElem hn
      rw [runAfter_succ E s program hline]
      exact hstep n _ hline ih
    · rw [runAfter_of_length_le E s program (by omega),
        ← runAfter_of_length_le E s program (Nat.le_of_not_lt hn)]
      exact ih

end
end Toolpath
