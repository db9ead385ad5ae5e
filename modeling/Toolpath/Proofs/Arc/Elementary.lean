import Toolpath.Number.Double
import Toolpath.Proofs.Double.Functions

/-! # The laws of the elementary functions

The geometry trusts the elementary functions of the machine in few things, all of them promised by
IEEE 754 and the C standard: a length is finite only if its coordinates are, sines and cosines lie
between minus one and one, and an angle lies within half a turn of zero. `LawfulAtZero` adds the
values at the zeros, where the sign of a zero ordinate tells on which side of the cut along the
negative axis a point lies.
-/
namespace Toolpath.Elementary
open Double Float.Model

structure Lawful (E : Elementary Float) : Prop where
  finite_of_hypot {x y : Float} : (E.hypot x y).isFinite = true →
    x.isFinite = true ∧ y.isFinite = true
  cos_range {a : Float} : a.isFinite = true → -1 ≤ E.cos a ∧ E.cos a ≤ 1
  sin_range {a : Float} : a.isFinite = true → -1 ≤ E.sin a ∧ E.sin a ≤ 1
  atan2_range {y x : Float} : y.isNaN = false → x.isNaN = false →
    -Scalar.pi ≤ E.atan2 y x ∧ E.atan2 y x ≤ Scalar.pi

structure LawfulAtZero (E : Elementary Float) : Prop extends Lawful E where
  hypot_zero {x y : Float} : x == 0 → y == 0 → E.hypot x y = 0
  /-- On the positive axis the angle is the ordinate. -/
  atan2_pos {y x : Float} : y == 0 → 0 < x → E.atan2 y x = y
  atan2_above {x : Float} : x < 0 → E.atan2 0 x = Scalar.pi
  atan2_below {x : Float} : x < 0 → E.atan2 (-0) x = -Scalar.pi
  atan2_up {y x : Float} : 0 < y → x == 0 → E.atan2 y x = Scalar.pi / 2
  atan2_down {y x : Float} : y < 0 → x == 0 → E.atan2 y x = -(Scalar.pi / 2)

/-- Elementary functions that have the values of the machine's on the axes and at the quarters of a
turn; elsewhere they keep to the ranges only. -/
def onAxes : Elementary Float where
  hypot := Binary.hypot
  cos a :=
    if a == 0 then 1
    else if a.abs == Scalar.pi / 2 then 6.123233995736766e-17
    else if a.abs == Scalar.pi then -1
    else 0
  sin a :=
    if a == Scalar.pi / 2 then 1
    else if a == -(Scalar.pi / 2) then -1
    else if a == Scalar.pi then 1.2246467991473532e-16
    else if a == -Scalar.pi then -1.2246467991473532e-16
    else 0
  atan2 y x :=
    if y == 0 then if x < 0 then if y = 0 then Scalar.pi else -Scalar.pi else y
    else if 0 < y then Scalar.pi / 2
    else -(Scalar.pi / 2)

theorem finite_of_binary_hypot {x y : Float} (h : (Binary.hypot x y).isFinite = true) :
    x.isFinite = true ∧ y.isFinite = true := by
  have hnan : ¬ (Float.ofModel (.pack .notANumber)).isFinite = true :=
    Bool.eq_false_iff.mp (isFinite_pack_of_not rfl)
  have hinf : ¬ (Float.ofModel (.pack (.infinity .positive))).isFinite = true :=
    Bool.eq_false_iff.mp (isFinite_pack_of_not rfl)
  change x.toModel.unpack.isFinite = true ∧ y.toModel.unpack.isFinite = true
  unfold Binary.hypot at h
  cases hx : x.toModel.unpack <;> cases hy : y.toModel.unpack <;> rw [hx, hy] at h <;>
    first
      | exact ⟨rfl, rfl⟩
      | exact absurd h hinf
      | exact absurd h hnan

theorem onAxes_atan2 (y x : Float) : onAxes.atan2 y x =
    if y == 0 then if x < 0 then if y = 0 then Scalar.pi else -Scalar.pi else y
    else if 0 < y then Scalar.pi / 2
    else -(Scalar.pi / 2) := rfl

theorem onAxes_lawful : onAxes.LawfulAtZero where
  finite_of_hypot := finite_of_binary_hypot
  cos_range _ := by
    unfold onAxes
    dsimp only
    split_ifs <;> decide
  sin_range _ := by
    unfold onAxes
    dsimp only
    split_ifs <;> decide
  atan2_range {y x} _ _ := by
    unfold onAxes
    dsimp only
    split_ifs with hy
    · decide
    · decide
    · rcases eq_zero_of_beq hy with rfl | rfl <;> decide
    · decide
    · decide
  hypot_zero hx hy := by
    rcases eq_zero_of_beq hx with rfl | rfl <;> rcases eq_zero_of_beq hy with rfl | rfl <;> rfl
  atan2_pos hy hx := by
    rw [onAxes_atan2, if_pos hy, if_neg (not_lt_of_lt hx)]
  atan2_above hx := by
    rw [onAxes_atan2, if_pos (by decide), if_pos hx, if_pos rfl]
  atan2_below hx := by
    rw [onAxes_atan2, if_pos (by decide), if_pos hx, if_neg (by decide)]
  atan2_up hy _ := by
    rw [onAxes_atan2, if_neg (not_beq_of_gt hy), if_pos hy]
  atan2_down hy _ := by
    rw [onAxes_atan2, if_neg (not_beq_of_lt hy), if_neg (not_lt_of_lt hy)]

end Toolpath.Elementary
