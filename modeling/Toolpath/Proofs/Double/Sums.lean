import Toolpath.Proofs.Double.Identities
import Toolpath.Proofs.Double.Nonnegative

/-! # Sums in their order

Rounding keeps the order of the reals, with infinities at its ends. So a finite number that is not
negative can be added on both sides of an inequality, and adding it to one number only makes that
larger, also where a sum is already infinite.
-/
namespace Toolpath.Double
open Float.Model Float.Model.UnpackedFloat

theorem rounded_mono {r t : ℝ} (h : r ≤ t) : rounded r ≤ rounded t := by
  have hpos := overflow_pos
  unfold rounded
  split_ifs
  all_goals first
    | exact le_top
    | exact bot_le
    | exact EReal.coe_le_coe_iff.mpr (signedNearest_mono h)
    | (exfalso; linarith)

theorem IsRounded.le {x y : Float} {r t : ℝ} (hx : IsRounded x r) (hy : IsRounded y t)
    (h : r ≤ t) : x ≤ y := by
  refine le_iff.mpr ⟨hx.not_nan, hy.not_nan, ?_⟩
  rw [hx.value_eq, hy.value_eq]
  exact rounded_mono h

theorem isRounded_toReal {x : Float} (h : x.isFinite = true) : IsRounded x (toReal x) := by
  have hx := (settled_unpack h).rounds.isRounded
  rwa [pack_unpack] at hx

theorem le_infinity {x : Float} (h : x.isNaN = false) :
    x ≤ .ofModel (.pack (.infinity .positive)) := by
  refine le_iff.mpr ⟨h, by decide, ?_⟩
  unfold value
  rw [unpack_pack (u := .infinity .positive) trivial]
  exact le_top

theorem infinity_add {x d : Float} (hx : x.toModel.unpack = .infinity .positive)
    (hd : d.isFinite = true) : x + d = .ofModel (.pack (.infinity .positive)) := by
  change Float.ofModel (.pack (UnpackedFloat.add .binary64 _ _)) = _
  rw [hx, unpackedInfinity_add hd]

theorem trans_le {x y z : Float} (hxy : x ≤ y) (hyz : y ≤ z) : x ≤ z :=
  le_iff.mpr ⟨(le_iff.mp hxy).1, (le_iff.mp hyz).2.1,
    (le_iff.mp hxy).2.2.trans (le_iff.mp hyz).2.2⟩

section
variable {x y d : Float} (hx : 0 ≤ x) (hd : d.isFinite = true) (h0 : 0 ≤ d)
include hx hd h0

theorem le_add_of_finite : x ≤ x + d := by
  rcases cases_of_zero_le hx with ⟨hfx, -⟩ | hux
  · refine (isRounded_toReal hfx).le (isRounded_add hfx hd) ?_
    rw [le_iff_toReal isFinite_zero hd, toReal_zero] at h0
    exact le_add_of_nonneg_right h0
  · rw [infinity_add hux hd]
    exact le_infinity (zero_le_iff_value.mp hx).1

theorem add_le_add_of_finite (h : x ≤ y) : x + d ≤ y + d := by
  rcases cases_of_zero_le (trans_le hx h) with ⟨hfy, -⟩ | huy
  · have hfx := isFinite_of_between isFinite_zero hfy hx h
    refine (isRounded_add hfx hd).le (isRounded_add hfy hd) ?_
    exact add_le_add_left ((le_iff_toReal hfx hfy).mp h) _
  · rw [infinity_add huy hd]
    exact le_infinity (zero_le_iff_value.mp (zero_le_add hx h0)).1

end
end Toolpath.Double
