import Toolpath.Evaluation

/-! # The outcomes of a program

The evaluation of a program is read off the outcomes of its lines, and these come from the machine
alone. A law of a single line that keeps an invariant of the machine is a law of all outcomes, and
the invariant holds behind every line.
-/
namespace Toolpath

namespace Machine
variable (E : Elementary Float) (s : Sampling Float)

def after (m : Machine) (lines : List (List Char)) : Machine :=
  lines.foldl (fun m line => (m.step E s line).machine) m

def outcomes (m : Machine) : List (List Char) → List Outcome
  | [] => []
  | line :: rest => m.step E s line :: outcomes (m.step E s line).machine rest

@[simp] theorem after_nil (m : Machine) : m.after E s [] = m := rfl

@[simp] theorem after_cons (m : Machine) (line : List Char) (rest : List (List Char)) :
    m.after E s (line :: rest) = (m.step E s line).machine.after E s rest := rfl

theorem after_append (m : Machine) (before rest : List (List Char)) :
    m.after E s (before ++ rest) = (m.after E s before).after E s rest := List.foldl_append

@[simp] theorem length_outcomes (m : Machine) (lines : List (List Char)) :
    (m.outcomes E s lines).length = lines.length := by
  induction lines generalizing m with
  | nil => rfl
  | cons line rest ih => simp [outcomes, ih]

theorem outcomes_append (m : Machine) (before rest : List (List Char)) :
    m.outcomes E s (before ++ rest) =
      m.outcomes E s before ++ (m.after E s before).outcomes E s rest := by
  induction before generalizing m with
  | nil => rfl
  | cons line before ih => rw [List.cons_append, outcomes, outcomes, ih, after_cons, List.cons_append]

/-- The outcome of a line is that of the machine behind the lines before it. -/
theorem getElem?_outcomes (m : Machine) (lines : List (List Char)) (n : Nat) :
    (m.outcomes E s lines)[n]? =
      lines[n]?.map fun line => (m.after E s (lines.take n)).step E s line := by
  induction lines generalizing m n with
  | nil => rfl
  | cons line rest ih =>
    cases n with
    | zero => rfl
    | succ n => exact ih (m.step E s line).machine n

/-- What every line keeps holds behind any number of lines. -/
theorem after_of_step {E : Elementary Float} {s : Sampling Float} {I : Machine → Prop}
    (hstep : ∀ m line, I m → I (m.step E s line).machine) {m : Machine} (hm : I m)
    (lines : List (List Char)) : I (m.after E s lines) := by
  induction lines generalizing m with
  | nil => exact hm
  | cons line rest ih => exact ih (hstep m line hm)

end Machine

namespace Run
variable (E : Elementary Float) (s : Sampling Float)

theorem through_eq (r : Run) (lines : List (List Char)) :
    (r.through E s lines).machine = r.machine.after E s lines ∧
    (r.through E s lines).outcomes.toList =
      r.outcomes.toList ++ r.machine.outcomes E s lines := by
  induction lines generalizing r with
  | nil => simp [through, Machine.outcomes]
  | cons line rest ih =>
    obtain ⟨hm, ho⟩ := ih (r.step E s line)
    refine ⟨hm, ho.trans ?_⟩
    simp [step, Machine.outcomes]

end Run

section
variable (E : Elementary Float) (s : Settings) (program : String)

def programOutcomes : List Outcome :=
  s.initialMachine.outcomes E s.sampling (lines program.toList)

def runAfter (n : Nat) : Run :=
  Run.through E s.sampling { machine := s.initialMachine } ((lines program.toList).take n)

theorem runAfter_machine (n : Nat) : (runAfter E s program n).machine =
    s.initialMachine.after E s.sampling ((lines program.toList).take n) :=
  (Run.through_eq E s.sampling _ _).1

theorem runAfter_outcomes (n : Nat) : (runAfter E s program n).outcomes.toList =
    s.initialMachine.outcomes E s.sampling ((lines program.toList).take n) :=
  (Run.through_eq E s.sampling _ _).2.trans (List.nil_append _)

theorem evaluate_eq_ofRun :
    evaluate E s program = .ofRun (runAfter E s program (lines program.toList).length) := by
  unfold runAfter
  rw [List.take_length]
  rfl

/-- Each outcome of a program is that of one of its lines, read by the machine behind the lines
before. -/
theorem forall_programOutcomes {P : Outcome → Prop} : (∀ o ∈ programOutcomes E s program, P o) ↔
    ∀ n line, (lines program.toList)[n]? = some line →
      P ((runAfter E s program n).machine.step E s.sampling line) := by
  unfold programOutcomes
  constructor
  · intro h n line hline
    apply h
    rw [List.mem_iff_getElem?]
    refine ⟨n, ?_⟩
    rw [Machine.getElem?_outcomes, hline, runAfter_machine]
    rfl
  · intro h o ho
    obtain ⟨n, hn⟩ := List.mem_iff_getElem?.mp ho
    rw [Machine.getElem?_outcomes] at hn
    obtain ⟨line, hline, rfl⟩ := Option.map_eq_some_iff.mp hn
    rw [← runAfter_machine]
    exact h n line hline

theorem evaluate_outcomes :
    (runAfter E s program (lines program.toList).length).outcomes.toList
      = programOutcomes E s program := by
  rw [runAfter_outcomes, List.take_length]
  rfl

theorem evaluate_eq : evaluate E s program =
    { path := .origin :: Evaluation.points (programOutcomes E s program)
      moves := Evaluation.records (programOutcomes E s program)
      modal := (s.initialMachine.after E s.sampling (lines program.toList)).modal
      position := (s.initialMachine.after E s.sampling (lines program.toList)).position
      advisories := Evaluation.notes 1 (programOutcomes E s program) } := by
  obtain ⟨hmachine, houtcomes⟩ :=
    Run.through_eq E s.sampling { machine := s.initialMachine } (lines program.toList)
  simp [evaluate, Evaluation.ofRun, hmachine, houtcomes, programOutcomes]

theorem evaluate_moves :
    (evaluate E s program).moves = Evaluation.records (programOutcomes E s program) := by
  rw [evaluate_eq]

theorem evaluate_path :
    (evaluate E s program).path = .origin :: Evaluation.points (programOutcomes E s program) := by
  rw [evaluate_eq]

theorem evaluate_position : (evaluate E s program).position =
    (runAfter E s program (lines program.toList).length).machine.position := by
  rw [evaluate_eq_ofRun]
  rfl

end
end Toolpath
