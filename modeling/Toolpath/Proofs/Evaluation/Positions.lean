import Toolpath.Proofs.Evaluation.Path
import Toolpath.Proofs.Machine.Findings
import Toolpath.Proofs.Machine.Words

/-! # Where lines leave the machine

A line that makes its motion leaves the machine at the target that its words name in the modal state
behind it, along whatever points the path leads there; any other line leaves the machine where it
is. So an axis is left alone by every line that has no number for it, and by runs of such lines.
-/
namespace Toolpath

inductive Axis where
  | x
  | y
  | z
  deriving DecidableEq, Repr

namespace Axis

def letter : Axis → Char
  | x => 'X'
  | y => 'Y'
  | z => 'Z'

def of {α : Type} : Axis → Position α → α
  | x, p => p.x
  | y, p => p.y
  | z, p => p.z

def UnnamedBy (axis : Axis) (line : List Char) : Prop :=
  ∀ w ∈ lineWords line, w.letter = axis.letter → w.number? = none

instance (axis : Axis) : DecidablePred axis.UnnamedBy := fun line =>
  inferInstanceAs (Decidable (∀ w ∈ lineWords line, w.letter = axis.letter → w.number? = none))

end Axis

theorem lastNumber_eq_none {letter : Char} {words : List Word}
    (h : ∀ w ∈ words, w.letter = letter → w.number? = none) : lastNumber letter words = none := by
  unfold lastNumber
  rw [List.getLast?_eq_none_iff, List.filterMap_eq_nil_iff]
  intro w hw
  obtain ⟨hmem, hletter⟩ := List.mem_filter.mp hw
  exact h w hmem (beq_iff_eq.mp hletter)

/-- An axis without a number stays. -/
theorem Frame.target_axis (f : Frame) (p : Position Float) {words : List Word} {axis : Axis}
    (h : lastNumber axis.letter words = none) :
    axis.of (f.target p (lastNumbers words)) = axis.of p := by
  cases axis <;> exact congrArg (f.coordinate _) h

/-- Whether a line makes a motion: it records one and does not refuse it. -/
def Outcome.Moves (o : Outcome) : Prop := o.travel.isSome = true ∧ ¬ Refuses o.findings

namespace Machine
variable {E : Elementary Float} {s : Sampling Float}

theorem blockOf?_words {m : Machine} {line : List Char} {b : Block} (h : m.blockOf? line = some b) :
    b.words = lastNumbers (lineWords line) := by
  obtain ⟨text, htext, rfl⟩ := Option.map_eq_some_iff.mp h
  rw [Block.scan_words, lineWords, htext]
  rfl

variable (E s) in
/-- What a line does to the position: a motion that is made leads to the target of the words of the
line, read in the modal state behind them all, and there is no other change. An arc leads to its
exact target, which is the same. -/
structure Positions (m : Machine) (line : List Char) : Prop where
  moved : (m.step E s line).Moves → (m.step E s line).machine.position =
    (m.step E s line).machine.modal.target m.position (lastNumbers (lineWords line))
  stayed : ¬ (m.step E s line).Moves → (m.step E s line).machine.position = m.position
  along : ∀ a, m.arc? E s line = some a → (m.step E s line).machine.position = a.target ∧
    a.target = (m.step E s line).machine.modal.target m.position (lastNumbers (lineWords line))

theorem step_positions (m : Machine) (line : List Char) : Positions E s m line := by
  rcases step_cases E s m line with
    ⟨hidle, modal, h⟩ | ⟨b, kind, travel, findings, hblock, hperforms, hmakes, h⟩
  · have hstill : ¬ (m.step E s line).Moves := by
      rw [h]
      exact fun hmoves => absurd hmoves.1 Bool.false_ne_true
    refine ⟨fun hmoves => absurd hmoves hstill, fun _ => by rw [h], fun a ha => ?_⟩
    rw [arc?_idle hidle] at ha
    cases ha
  · have hwords := blockOf?_words hblock
    have hmoves : (m.step E s line).Moves ↔ ¬ Refuses findings := by
      rw [h]
      exact and_iff_right rfl
    constructor
    case moved =>
      intro hmove
      rw [h, ← hwords]
      exact hmakes.arrives (hmoves.mp hmove)
    case stayed =>
      intro hstay
      rw [hmoves, not_not] at hstay
      rw [h]
      exact congrArg Travel.arrival (hmakes.stays hstay)
    case along =>
      intro a ha
      rw [arc?_of_block hblock] at ha
      rcases hmakes.arcOf?_cases hperforms with ⟨hnone, -⟩ | ⟨turn, fitted, hsome, hresolve, rfl⟩
      · rw [hnone] at ha
        cases ha
      · obtain rfl : fitted.arc = a := Option.some.inj (hsome.symm.trans ha)
        obtain ⟨-, -, -, -, htarget, -⟩ := Arc.resolve_ok hresolve
        rw [h, ← hwords]
        exact ⟨rfl, htarget⟩

/-- A line leaves an axis alone for which it has no number. -/
theorem step_axis (m : Machine) {line : List Char} {axis : Axis} (h : axis.UnnamedBy line) :
    axis.of (m.step E s line).machine.position = axis.of m.position := by
  have hpositions := step_positions (E := E) (s := s) m line
  by_cases hmoves : (m.step E s line).Moves
  · rw [hpositions.moved hmoves]
    exact Frame.target_axis _ m.position (lastNumber_eq_none h)
  · rw [hpositions.stayed hmoves]

theorem after_axis (m : Machine) {lines : List (List Char)} {axis : Axis}
    (h : ∀ line ∈ lines, axis.UnnamedBy line) :
    axis.of (m.after E s lines).position = axis.of m.position := by
  induction lines generalizing m with
  | nil => rfl
  | cons line rest ih =>
    rw [List.forall_mem_cons] at h
    rw [after_cons, ih _ h.2, step_axis m h.1]

end Machine

section
variable (E : Elementary Float) (s : Settings) (program : String)

theorem evaluate_position_after (n : Nat) : (evaluate E s program).position =
    ((runAfter E s program n).machine.after E s.sampling ((lines program.toList).drop n)).position := by
  rw [evaluate_position, runAfter_machine, runAfter_machine, ← Machine.after_append, List.take_length,
    List.take_append_drop]

/-- Behind any number of lines of a program, the next line leads to the target that its words name
in the modal state behind them, or it leaves the machine where it is, and it does the first just if
it records a motion and refuses none. Arcs lead to their exact targets, not to samples. So lines in
turn leave an axis alone for which none of them has a number, up to the end of the program. -/
theorem evaluate_positions :
    (∀ n line, Machine.Positions E s.sampling (runAfter E s program n).machine line) ∧
    (∀ n (axis : Axis) lines, (∀ line ∈ lines, axis.UnnamedBy line) →
      axis.of ((runAfter E s program n).machine.after E s.sampling lines).position =
        axis.of (runAfter E s program n).machine.position) ∧
    ∀ n (axis : Axis), (∀ line ∈ (lines program.toList).drop n, axis.UnnamedBy line) →
      axis.of (evaluate E s program).position = axis.of (runAfter E s program n).machine.position := by
  refine ⟨fun n line => Machine.step_positions _ line, ?_, ?_⟩
  · intro n axis lines hlines
    exact Machine.after_axis _ hlines
  · intro n axis hlines
    rw [evaluate_position_after E s program n]
    exact Machine.after_axis _ hlines

end

/-- A quarter of a circle leads to the target of its words, and neither it nor the arc behind it,
which has no centre, lifts the machine. -/
theorem evaluate_positions_quarter :
    ((runAfter .onAxes {} "G1 X1 Z2\nG3 X0 Y1 I-1\nG2 X7 Y7" 1).machine.step .onAxes
      (Settings.sampling {}) "G3 X0 Y1 I-1".toList).Moves ∧
    ((runAfter .onAxes {} "G1 X1 Z2\nG3 X0 Y1 I-1\nG2 X7 Y7" 1).machine.step .onAxes
      (Settings.sampling {}) "G3 X0 Y1 I-1".toList).machine.position = ⟨0, 1, 2⟩ ∧
    (∀ line ∈ (lines "G1 X1 Z2\nG3 X0 Y1 I-1\nG2 X7 Y7".toList).drop 1, Axis.z.UnnamedBy line) ∧
    (evaluate .onAxes {} "G1 X1 Z2\nG3 X0 Y1 I-1\nG2 X7 Y7").position.z = 2 := by
  obtain ⟨hpositions, -, haxis⟩ :=
    evaluate_positions .onAxes {} "G1 X1 Z2\nG3 X0 Y1 I-1\nG2 X7 Y7"
  have hmoves : ((runAfter .onAxes {} "G1 X1 Z2\nG3 X0 Y1 I-1\nG2 X7 Y7" 1).machine.step .onAxes
      (Settings.sampling {}) "G3 X0 Y1 I-1".toList).Moves := by
    refine ⟨by decide +kernel, ?_⟩
    rintro ⟨why, hwhy⟩
    have hfindings : ((runAfter .onAxes {} "G1 X1 Z2\nG3 X0 Y1 I-1\nG2 X7 Y7" 1).machine.step
        .onAxes (Settings.sampling {}) "G3 X0 Y1 I-1".toList).findings = [] := by decide +kernel
    rw [hfindings] at hwhy
    cases hwhy
  have hunnamed : ∀ line ∈ (lines "G1 X1 Z2\nG3 X0 Y1 I-1\nG2 X7 Y7".toList).drop 1,
      Axis.z.UnnamedBy line := by decide +kernel
  refine ⟨hmoves, ((hpositions 1 _).moved hmoves).trans ?_, hunnamed, (haxis 1 .z hunnamed).trans ?_⟩
  · decide +kernel
  · decide +kernel

end Toolpath
