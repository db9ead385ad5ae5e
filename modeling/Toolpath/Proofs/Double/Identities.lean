import Toolpath.Proofs.Double.Functions

/-! # Results that are exact

A product with one, a number divided by itself and a zero divided are not rounded at all. Packing is
undone by unpacking for every double, since there is one double only that is not a number.
-/
namespace Toolpath.Double
open Float.Model Float.Model.UnpackedFloat

theorem pack_unpack (x : Float) : Float.ofModel (.pack x.toModel.unpack) = x := by
  obtain ⟨bits, hvalid⟩ := x
  have hbits : UnpackedFloat.pack .binary64 (UnpackedFloat.unpack .binary64 bits.toBitVec) =
      bits.toBitVec := by
    rw [UnpackedFloat.pack_unpack]
    split_ifs with hnan
    · obtain ⟨he, hm⟩ := of_decide_eq_true hnan
      exact (hvalid.eq_packedNaN he hm).symm
    · rfl
  simp only [Float.Model.pack, Float.Model.unpack, hbits]

theorem neg_neg_eq (x : Float) : - -x = x := by
  rw [← pack_unpack (- -x), unpack_neg, unpack_neg]
  conv_rhs => rw [← pack_unpack x]
  cases x.toModel.unpack with
  | notANumber => rfl
  | zero s => cases s <;> rfl
  | infinity s => cases s <;> rfl
  | finite s m e hm => cases s <;> rfl

theorem mul_one_eq (x : Float) : x * 1 = x := by
  by_cases hx : x.isFinite = true ∧ toReal x ≠ 0
  · have hr := isRounded_mul hx.1 isFinite_one
    rw [toReal_one, mul_one] at hr
    have hfin := hr.isFinite_of_le (isGrid_toReal x) le_rfl
    have heq : toReal (x * 1) = toReal x :=
      (hr.toReal_eq hfin).trans (isGrid_toReal x).signedNearest_eq
    exact eq_of_toReal_eq hfin hx.1 heq (heq.trans_ne hx.2)
  · -- zeros, infinities and what is not a number are kept before any rounding
    have hu : UnpackedFloat.mul .binary64 x.toModel.unpack (1 : Float).toModel.unpack =
        x.toModel.unpack := by
      change ¬ (x.toModel.unpack.isFinite = true ∧ realOf x.toModel.unpack ≠ 0) at hx
      cases hu : x.toModel.unpack with
      | notANumber => rfl
      | zero s => cases s <;> rfl
      | infinity s => cases s <;> rfl
      | finite s m e hm =>
        rw [hu] at hx
        have hp : (m : ℝ) * 2 ^ e ≠ 0 := by positivity
        refine absurd ⟨rfl, ?_⟩ hx
        cases s
        · exact neg_ne_zero.mpr hp
        · exact hp
    change Float.ofModel (.pack (UnpackedFloat.mul .binary64 x.toModel.unpack _)) = x
    rw [hu, pack_unpack]

theorem div_self_eq {x : Float} (hx : x.isFinite = true) (h0 : toReal x ≠ 0) : x / x = 1 := by
  have hr := isRounded_div hx hx h0
  rw [div_self h0] at hr
  have hfin := hr.isFinite_of_le isGrid_one le_rfl
  have hone : toReal (x / x) = 1 := (hr.toReal_eq hfin).trans isGrid_one.signedNearest_eq
  exact eq_of_toReal_eq hfin isFinite_one (hone.trans toReal_one.symm) (hone.trans_ne one_ne_zero)

theorem zero_div_eq {y : Float} (hy : 0 < y) : (0 : Float) / y = 0 := by
  obtain ⟨-, hn, hv⟩ := lt_iff.mp hy
  change (0 : EReal) < valueOf y.toModel.unpack at hv
  have hu : UnpackedFloat.div .binary64 (.zero .positive) y.toModel.unpack = .zero .positive := by
    cases hf : y.toModel.unpack with
    | notANumber =>
      change y.toModel.unpack.isNaN = false at hn
      rw [hf] at hn
      cases hn
    | zero s =>
      rw [hf] at hv
      exact absurd hv (lt_irrefl _)
    | infinity s =>
      rw [hf] at hv
      cases s with
      | positive => rfl
      | negative => exact absurd hv not_lt_bot
    | finite s m e hm =>
      rw [hf] at hv
      cases s with
      | positive => rfl
      | negative =>
        have hp : (0 : ℝ) < m * 2 ^ e := by positivity
        have hneg : (0 : ℝ) < -(m * 2 ^ e) := EReal.coe_lt_coe_iff.mp hv
        linarith
  change Float.ofModel (.pack (UnpackedFloat.div .binary64 (.zero .positive) y.toModel.unpack)) = 0
  rw [hu]
  rfl

end Toolpath.Double
