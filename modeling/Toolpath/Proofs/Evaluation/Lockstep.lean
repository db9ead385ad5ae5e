import Mathlib.Data.List.Forall2
import Toolpath.Proofs.Evaluation.Outcomes

/-! # Two runs side by side

Two programs are compared line by line, each pair of lines at the machine to which the lines before
have brought the first of the two. What one pair of lines keeps between the two machines, and
between their outcomes, holds behind all of them.
-/
namespace Toolpath.Machine
variable {E : Elementary Float} {s t : Sampling Float}

/-- Lines related one by one, each pair as seen from the machine that reads the first of the two. -/
inductive Along (E : Elementary Float) (s : Sampling Float)
    (L : Machine → List Char → List Char → Prop) :
    Machine → List (List Char) → List (List Char) → Prop where
  | nil {m : Machine} : Along E s L m [] []
  | cons {m : Machine} {line line' : List Char} {rest rest' : List (List Char)}
      (head : L m line line') (tail : Along E s L (m.step E s line).machine rest rest') :
      Along E s L m (line :: rest) (line' :: rest')

instance Along.decidable {L : Machine → List Char → List Char → Prop}
    [∀ m line line', Decidable (L m line line')] :
    ∀ m lines lines', Decidable (Along E s L m lines lines')
  | _, [], [] => isTrue .nil
  | _, [], _ :: _ => isFalse nofun
  | _, _ :: _, [] => isFalse nofun
  | m, line :: rest, line' :: rest' =>
    have : Decidable (Along E s L (m.step E s line).machine rest rest') :=
      Along.decidable _ rest rest'
    decidable_of_iff (L m line line' ∧ Along E s L (m.step E s line).machine rest rest')
      ⟨fun ⟨head, tail⟩ => .cons head tail, fun | .cons head tail => ⟨head, tail⟩⟩

theorem Along.of_forall₂ {L : List Char → List Char → Prop} {lines lines' : List (List Char)}
    (h : List.Forall₂ L lines lines') (m : Machine) : Along E s (fun _ => L) m lines lines' := by
  induction h generalizing m with
  | nil => exact .nil
  | cons head _ ih => exact .cons head (ih _)

theorem Along.and_left {L : Machine → List Char → List Char → Prop} {P : List Char → Prop}
    {m : Machine} {lines lines' : List (List Char)} (h : Along E s L m lines lines')
    (hP : ∀ line ∈ lines, P line) :
    Along E s (fun m line line' => P line ∧ L m line line') m lines lines' := by
  induction h with
  | nil => exact .nil
  | cons head _ ih =>
    rw [List.forall_mem_cons] at hP
    exact .cons ⟨hP.1, head⟩ (ih hP.2)

/-- A law of a pair of lines is a law of two runs. It may be one of those lines only whose outcomes
are as supposed. -/
theorem Along.outcomes {L : Machine → List Char → List Char → Prop} {R : Machine → Machine → Prop}
    {G : Outcome → Prop} {S : Outcome → Outcome → Prop}
    (hstep : ∀ m n line line', R m n → L m line line' → G (m.step E s line) →
      G (n.step E t line') → S (m.step E s line) (n.step E t line') ∧
        R (m.step E s line).machine (n.step E t line').machine)
    {m n : Machine} {lines lines' : List (List Char)} (h : Along E s L m lines lines')
    (hm : R m n) (hG : ∀ o ∈ m.outcomes E s lines, G o)
    (hG' : ∀ o ∈ n.outcomes E t lines', G o) :
    List.Forall₂ S (m.outcomes E s lines) (n.outcomes E t lines') ∧
    R (m.after E s lines) (n.after E t lines') := by
  induction h generalizing n with
  | nil => exact ⟨.nil, hm⟩
  | cons head _ ih =>
    rw [Machine.outcomes, List.forall_mem_cons] at hG hG'
    obtain ⟨hS, hR⟩ := hstep _ _ _ _ hm head hG.1 hG'.1
    obtain ⟨houtcomes, hafter⟩ := ih hR hG.2 hG'.2
    exact ⟨.cons hS houtcomes, hafter⟩

end Toolpath.Machine
