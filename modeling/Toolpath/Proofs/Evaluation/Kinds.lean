import Toolpath.Proofs.Arc.Resolution
import Toolpath.Proofs.Evaluation.Outcomes
import Toolpath.Proofs.Machine.Words

/-! # The kinds of a log

Which motion a line records is told by its words alone: by the last motion code among them, and by
whether an axis is given. Neither the state of the machine nor the settings nor the geometry
matter, for a motion that cannot be made is recorded as well.
-/
namespace Toolpath

def motionOfCode? : Nat → Option Motion
  | 0 => some .rapid
  | 1 => some .linear
  | 2 => some (.arc .clockwise)
  | 3 => some (.arc .counterclockwise)
  | _ => none

def Word.directive? (w : Word) : Option Motion :=
  if w.letter = 'G' then w.code?.bind motionOfCode? else none

def Word.givesAxis (w : Word) : Bool :=
  (w.letter == 'X' || w.letter == 'Y' || w.letter == 'Z') && w.number?.isSome

def lastDirective (words : List Word) : Option Motion := (words.filterMap Word.directive?).getLast?

/-- The motion that a line of words asks for: that of its last directive, or a linear one. A motion
that is not an arc needs an axis. -/
def motionOf (words : List Word) : Option Motion :=
  let kind := (lastDirective words).getD .linear
  if kind.isArc || words.any Word.givesAxis then some kind else none

def lineMotion (line : List Char) : Option Motion :=
  (Pipeline.standard.run line).bind fun text => motionOf (Word.split text)

theorem motion_ofCode (code : Nat) :
    (Command.ofCode? code).bind Command.motion? = motionOfCode? code := by
  unfold Command.ofCode? motionOfCode?
  split <;> first | rfl | (split <;> first | rfl | contradiction)

theorem Word.directive?_eq (w : Word) : w.directive? = w.command?.bind Command.motion? := by
  unfold directive? command?
  split
  · rw [Option.bind_assoc]
    exact Option.bind_congr fun code _ => (motion_ofCode code).symm
  · rfl

theorem AxisWords.hasAxis_or {α : Type} (w v : AxisWords α) :
    (w.or v).hasAxis = (w.hasAxis || v.hasAxis) := by
  simp [hasAxis, AxisWords.or, Bool.or_assoc, Bool.or_left_comm]

theorem Word.hasAxis_numbers (w : Word) : w.numbers.hasAxis = w.givesAxis := by
  unfold numbers givesAxis AxisWords.hasAxis
  rw [Bool.eq_iff_iff]
  cases w.number? <;> simp

namespace Block

/-- A word is read into motion and axes as it stands. -/
theorem read_eq (b : Block) (w : Word) :
    (b.read w).motion = w.directive?.or b.motion ∧
    (b.read w).words.hasAxis = (w.givesAxis || b.words.hasAxis) := by
  rw [read_parts, Word.directive?_eq, ← Word.hasAxis_numbers, ← AxisWords.hasAxis_or]
  exact ⟨rfl, rfl⟩

theorem foldl_read (words : List Word) (b : Block) :
    (words.foldl read b).motion = (lastDirective words).or b.motion ∧
    (words.foldl read b).words.hasAxis = (words.any Word.givesAxis || b.words.hasAxis) := by
  induction words generalizing b with
  | nil => exact ⟨rfl, rfl⟩
  | cons w rest ih =>
    obtain ⟨hmotion, haxis⟩ := read_eq b w
    obtain ⟨hm, ha⟩ := ih (b.read w)
    rw [List.foldl_cons, hm, ha, hmotion, haxis]
    constructor
    · unfold lastDirective
      cases hw : w.directive? with
      | none => rw [List.filterMap_cons_none hw, Option.none_or]
      | some kind =>
        rw [List.filterMap_cons_some hw, List.getLast?_cons]
        cases (rest.filterMap Word.directive?).getLast? <;> rfl
    · rw [List.any_cons, Bool.or_left_comm, Bool.or_assoc]

theorem scan_motion (m : Modal) (words : List Word) : (scan m words).motion = lastDirective words :=
  (foldl_read words { modal := m }).1.trans Option.or_none

/-- The motion of a block does not depend on the modal state in which it is read. -/
theorem scan_performs (modal : Modal) (words : List Word) :
    (scan modal words).performs = motionOf words := by
  have hm := scan_motion modal words
  have ha : (scan modal words).words.hasAxis = words.any Word.givesAxis :=
    (foldl_read words { modal }).2.trans (Bool.or_false _)
  unfold performs motionOf
  rw [hm, ha]
  cases lastDirective words with
  | none => rfl
  | some kind => cases kind <;> rfl

end Block

def Outcome.kind? (o : Outcome) : Option Motion := o.travel.map fun t => t.move.kind

namespace Machine
variable {E : Elementary Float} {s : Sampling Float}

/-- A motion is recorded under its own kind, made or not. -/
theorem Makes.kind_eq {m : Machine} {words : AxisWords Float} {kind : Motion} {travel : Travel}
    {findings : List Finding} (h : Makes E s m words kind travel findings) :
    travel.move.kind = kind := by
  cases h with
  | along resolved fits =>
    obtain ⟨-, hturn, -⟩ := Arc.resolve_ok resolved
    exact congrArg Motion.arc hturn
  | _ => rfl

theorem blockOf_performs (m : Machine) (line : List Char) :
    (m.blockOf? line).bind Block.performs = lineMotion line := by
  unfold blockOf? lineMotion
  cases Pipeline.standard.run line with
  | none => rfl
  | some text => exact Block.scan_performs _ _

theorem step_kind (m : Machine) (line : List Char) :
    (m.step E s line).kind? = lineMotion line := by
  rw [← blockOf_performs m]
  rcases step_cases E s m line with
    ⟨hnone, modal, h⟩ | ⟨b, kind, travel, findings, hblock, hperforms, hmakes, h⟩
  · rw [hnone, h]
    rfl
  · rw [hblock, h]
    exact (congrArg some hmakes.kind_eq).trans hperforms.symm

/-- Every line adds what it asks for, and so do lines in turn. -/
theorem outcomes_kinds (m : Machine) (lines : List (List Char)) :
    (m.outcomes E s lines).map Outcome.kind? = lines.map lineMotion := by
  induction lines generalizing m with
  | nil => rfl
  | cons line rest ih => rw [outcomes, List.map_cons, List.map_cons, step_kind, ih]

end Machine

namespace Evaluation

theorem records_kinds (outcomes : List Outcome) :
    (records outcomes).map Move.kind = (outcomes.map Outcome.kind?).filterMap id := by
  unfold records
  rw [List.map_filterMap, List.filterMap_map]
  apply congrArg (outcomes.filterMap ·)
  funext o
  exact Option.map_map ..

theorem records_append (before rest : List Outcome) :
    records (before ++ rest) = records before ++ records rest := List.filterMap_append

end Evaluation

section
variable (E : Elementary Float) (s : Settings) (program : String)

theorem runAfter_kinds (n : Nat) :
    (Evaluation.records (runAfter E s program n).outcomes.toList).map Move.kind =
      ((lines program.toList).take n).filterMap lineMotion := by
  rw [runAfter_outcomes, Evaluation.records_kinds, Machine.outcomes_kinds, List.filterMap_map]
  rfl

theorem records_runAfter_begins (n : Nat) :
    Evaluation.records (runAfter E s program n).outcomes.toList <+: (evaluate E s program).moves := by
  rw [evaluate_moves, runAfter_outcomes]
  unfold programOutcomes
  conv => rhs; rw [← List.take_append_drop n (lines program.toList), Machine.outcomes_append,
    Evaluation.records_append]
  exact List.prefix_append ..

/-- A program records one move for each line that asks for motion, in the order of its lines and of
the kind that the words of the line tell; the log grows by these moves line by line. So neither the
settings nor the geometry have a say in the kinds. -/
theorem evaluate_kinds :
    (evaluate E s program).moves.map Move.kind = (lines program.toList).filterMap lineMotion ∧
    (∀ n, Evaluation.records (runAfter E s program n).outcomes.toList <+:
        (evaluate E s program).moves ∧
      (Evaluation.records (runAfter E s program n).outcomes.toList).map Move.kind =
        ((lines program.toList).take n).filterMap lineMotion) ∧
    ∀ (F : Elementary Float) (t : Settings),
      (evaluate F t program).moves.map Move.kind = (evaluate E s program).moves.map Move.kind := by
  have hkinds (F : Elementary Float) (t : Settings) :
      (evaluate F t program).moves.map Move.kind = (lines program.toList).filterMap lineMotion := by
    rw [evaluate_moves, ← evaluate_outcomes, runAfter_kinds, List.take_length]
  refine ⟨hkinds E s, ?_, ?_⟩
  · intro n
    exact ⟨records_runAfter_begins E s program n, runAfter_kinds E s program n⟩
  · intro F t
    rw [hkinds, hkinds]

end
end Toolpath
