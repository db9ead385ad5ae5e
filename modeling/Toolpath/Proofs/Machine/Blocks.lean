import Mathlib.Data.List.TakeWhile
import Toolpath.Proofs.Evaluation.Kinds
import Toolpath.Proofs.Machine.Modes

/-! # What a block says

The motion and the numbers of a block are those that were said last, in whatever modal state it is
read. Two lines of words in turn are one block in which the second overrides the first, and a word
that tells nothing may stand anywhere.
-/
namespace Toolpath

def Command.codes : List Nat := [0, 1, 2, 3, 17, 18, 19, 20, 21, 90, 91]

namespace Word

/-- Whether a word has no finite number to give: it is a letter alone, has a digit outside of ASCII,
or is out of range. -/
def Numberless (w : Word) : Prop :=
  w.isFlag = true ∨ (∃ c ∈ w.value, isDecimal c = true ∧ c.isDigit = false) ∨
    ∃ l, w.literal? = some l ∧ l.toFloat.isFinite = false

theorem magnitude?_eq_none {negative : Bool} {text : List Char} {c : Char} (hc : c ∈ text)
    (hpoint : c ≠ '.') (hdigit : c.isDigit = false) : magnitude? negative text = none := by
  have hbehind : c ∈ text.dropWhile Char.isDigit := by
    rw [← List.takeWhile_append_dropWhile (p := Char.isDigit) (l := text), List.mem_append] at hc
    refine hc.resolve_left fun hwhole => ?_
    rw [List.mem_takeWhile_imp hwhole] at hdigit
    cases hdigit
  cases hdrop : text.dropWhile Char.isDigit with
  | nil =>
    rw [hdrop] at hbehind
    cases hbehind
  | cons d fraction =>
    rw [hdrop, List.mem_cons] at hbehind
    by_cases hd : d = '.'
    · subst hd
      have hfraction : fraction.all Char.isDigit = false :=
        List.all_eq_false.mpr ⟨c, hbehind.resolve_left hpoint, by simp [hdigit]⟩
      simp [magnitude?, hdrop, hfraction]
    · simp [magnitude?, hdrop, hd]

theorem number?_of_numberless {w : Word} (h : w.Numberless) : w.number? = none := by
  unfold number?
  rcases h with hflag | ⟨c, hc, hdecimal, hdigit⟩ | ⟨l, hl, hfinite⟩
  · have hnone : w.literal? = none := by
      unfold literal?
      rw [List.isEmpty_iff.mp hflag]
      rfl
    rw [hnone]
    rfl
  · have hne {d : Char} (hd : isDecimal d = false) : c ≠ d := by
      rintro rfl
      rw [hdecimal] at hd
      cases hd
    have hpoint : c ≠ '.' := hne (by decide)
    have hnone : w.literal? = none := by
      unfold literal?
      split
      · next heq =>
        rw [heq] at hc
        exact magnitude?_eq_none ((List.mem_cons.mp hc).resolve_left (hne (by decide))) hpoint hdigit
      · next heq =>
        rw [heq] at hc
        exact magnitude?_eq_none ((List.mem_cons.mp hc).resolve_left (hne (by decide))) hpoint hdigit
      · exact magnitude?_eq_none hc hpoint hdigit
    rw [hnone]
    rfl
  · rw [hl, Option.map_some, Option.filter_some, hfinite]
    rfl

end Word

namespace Block

end Block
end Toolpath
