import Toolpath.Proofs.Double.Nonnegative
import Toolpath.Proofs.Double.Relative

/-! # The sign of a difference of squares

Squares of doubles are apart if the doubles are, so the sign of their difference tells which double
is the larger one. It fails where the smaller square is already infinite: then both are, and their
difference is not a number.
-/
namespace Toolpath.Double
open Float.Model Float.Model.UnpackedFloat

theorem of_unpack_infinity {x : Float} (h : x.toModel.unpack = .infinity .positive) :
    value x = ⊤ ∧ x.isNaN = false ∧ x.isFinite = false := by
  refine ⟨?_, ?_, ?_⟩
  · unfold value
    rw [h]
    rfl
  · change x.toModel.unpack.isNaN = false
    rw [h]
    rfl
  · change x.toModel.unpack.isFinite = false
    rw [h]
    rfl

theorem sub_infinity {x y : Float} (hx : x.isFinite = true)
    (hy : y.toModel.unpack = .infinity .positive) :
    x - y = .ofModel (.pack (.infinity .negative)) := by
  have hneg : (-y).toModel.unpack = .infinity .negative := by
    rw [unpack_neg, hy]
    rfl
  rw [sub_eq_add_neg']
  change Float.ofModel (.pack (UnpackedFloat.add .binary64 _ _)) = _
  rw [hneg, unpackedAdd_infinity hx]

theorem infinity_sub {x y : Float} (hx : x.toModel.unpack = .infinity .positive)
    (hy : y.isFinite = true) : x - y = .ofModel (.pack (.infinity .positive)) := by
  rw [sub_eq_add_neg']
  change Float.ofModel (.pack (UnpackedFloat.add .binary64 _ _)) = _
  rw [hx, unpackedInfinity_add (by rwa [← isFinite_neg] at hy)]

theorem infinity_sub_infinity {x y : Float} (hx : x.toModel.unpack = .infinity .positive)
    (hy : y.toModel.unpack = .infinity .positive) : x - y = .ofModel (.pack .notANumber) := by
  change Float.ofModel (.pack (UnpackedFloat.sub .binary64 _ _)) = _
  rw [hx, hy]
  rfl

/-- The difference of two numbers that are not negative has the sign it should have, unless both are
infinite. -/
theorem sub_sign_iff {x y : Float} (hx : 0 ≤ x) (hy : 0 ≤ y) :
    (x - y < 0 ↔ x < y ∧ x.isFinite = true) ∧ (0 < x - y ↔ y < x ∧ y.isFinite = true) := by
  rcases cases_of_zero_le hx with ⟨hfx, hx0⟩ | hux
  · rcases cases_of_zero_le hy with ⟨hfy, hy0⟩ | huy
    · have hr := isRounded_sub hfx hfy
      have hgx := isGrid_toReal x
      have hgy := isGrid_toReal y
      have hfin : (x - y).isFinite = true := by
        rw [hr.isFinite_iff]
        have hbx := hgx.lt_overflow
        have hby := hgy.lt_overflow
        rw [abs_of_nonneg hx0] at hbx
        rw [abs_of_nonneg hy0] at hby
        rw [abs_lt]
        constructor <;> linarith
      have hneg : x < y → toReal (x - y) < 0 := by
        intro h
        have hpos := hgy.signedNearest_sub_pos hgx ((lt_iff_toReal hfx hfy).mp h)
        rw [hr.toReal_eq hfin, ← neg_sub, signedNearest_neg]
        linarith
      have hpos : y < x → 0 < toReal (x - y) := by
        intro h
        rw [hr.toReal_eq hfin]
        exact hgx.signedNearest_sub_pos hgy ((lt_iff_toReal hfy hfx).mp h)
      have hzero : toReal x = toReal y → toReal (x - y) = 0 := by
        intro h
        rw [hr.toReal_eq hfin, h, sub_self, isGrid_zero.signedNearest_eq]
      rw [lt_iff_toReal hfin isFinite_zero, lt_iff_toReal isFinite_zero hfin, toReal_zero,
        and_iff_left hfx, and_iff_left hfy]
      rw [lt_iff_toReal hfx hfy] at hneg ⊢
      rw [lt_iff_toReal hfy hfx] at hpos ⊢
      rcases lt_trichotomy (toReal x) (toReal y) with h | h | h
      · exact ⟨iff_of_true (hneg h) h, iff_of_false (hneg h).not_gt h.not_gt⟩
      · exact ⟨iff_of_false (hzero h).not_lt h.not_lt, iff_of_false (hzero h).not_gt h.not_gt⟩
      · exact ⟨iff_of_false (hpos h).not_gt h.not_gt, iff_of_true (hpos h) h⟩
    · obtain ⟨hvy, hny, hiy⟩ := of_unpack_infinity huy
      have hlt : x < y := by
        rw [lt_iff, value_of_isFinite hfx, hvy]
        exact ⟨isNaN_of_isFinite hfx, hny, EReal.coe_lt_top _⟩
      rw [sub_infinity hfx huy]
      exact ⟨iff_of_true (by decide) ⟨hlt, hfx⟩, iff_of_false (by decide) (by simp [hiy])⟩
  · obtain ⟨hvx, hnx, hix⟩ := of_unpack_infinity hux
    rcases cases_of_zero_le hy with ⟨hfy, hy0⟩ | huy
    · have hlt : y < x := by
        rw [lt_iff, value_of_isFinite hfy, hvx]
        exact ⟨isNaN_of_isFinite hfy, hnx, EReal.coe_lt_top _⟩
      rw [infinity_sub hux hfy]
      exact ⟨iff_of_false (by decide) (by simp [hix]), iff_of_true (by decide) ⟨hlt, hfy⟩⟩
    · obtain ⟨-, -, hiy⟩ := of_unpack_infinity huy
      rw [infinity_sub_infinity hux huy]
      exact ⟨iff_of_false (by decide) (by simp [hix]), iff_of_false (by decide) (by simp [hiy])⟩

/-- The order of two squares is that of the numbers, as long as the smaller square is finite. -/
theorem mul_self_lt_iff {x y : Float} (hx : 0 ≤ x) (hy : 0 ≤ y)
    (hlow : x < y → y.isFinite = true → 2 ^ (-510 : ℤ) ≤ toReal y) :
    x * x < y * y ↔ x < y ∧ (x * x).isFinite = true := by
  have hnx := (zero_le_iff_value.mp hx).1
  have hny := (zero_le_iff_value.mp hy).1
  have hxx := zero_le_mul_self hnx
  have hyy := zero_le_mul_self hny
  constructor
  · intro h
    have hfxx : (x * x).isFinite = true := by
      rcases cases_of_zero_le hxx with ⟨hf, -⟩ | hu
      · exact hf
      · have htop := (lt_iff.mp h).2.2
        rw [(of_unpack_infinity hu).1] at htop
        exact absurd htop not_top_lt
    refine ⟨?_, hfxx⟩
    have hfx := (isFinite_of_mul hfxx).1
    by_contra hnot
    have hle := (not_lt_iff_le hnx hny).mp hnot
    have hfy := isFinite_of_between isFinite_zero hfx hy hle
    rw [le_iff_toReal isFinite_zero hfy, toReal_zero] at hy
    have hsquares := mul_self_le_mul_self hy ((le_iff_toReal hfy hfx).mp hle)
    have hrx := isRounded_mul hfx hfx
    have hry := isRounded_mul hfy hfy
    have hfyy : (y * y).isFinite = true := by
      rw [hry.isFinite_iff, abs_of_nonneg (mul_self_nonneg _)]
      have hbound := hrx.isFinite_iff.mp hfxx
      rw [abs_of_nonneg (mul_self_nonneg _)] at hbound
      exact hsquares.trans_lt hbound
    rw [lt_iff_toReal hfxx hfyy, hrx.toReal_eq hfxx, hry.toReal_eq hfyy] at h
    exact absurd (signedNearest_mono hsquares) h.not_ge
  · rintro ⟨hlt, hfxx⟩
    rcases cases_of_zero_le hyy with ⟨hfyy, -⟩ | hu
    · have hfx := (isFinite_of_mul hfxx).1
      have hfy := (isFinite_of_mul hfyy).1
      have hbound := hlow hlt hfy
      rw [le_iff_toReal isFinite_zero hfx, toReal_zero] at hx
      rw [lt_iff_toReal hfxx hfyy, (isRounded_mul hfx hfx).toReal_eq hfxx,
        (isRounded_mul hfy hfy).toReal_eq hfyy, signedNearest_of_nonneg (mul_self_nonneg _),
        signedNearest_of_nonneg (mul_self_nonneg _)]
      exact nearest_mul_self_lt (isGrid_toReal x) (isGrid_toReal y) hx
        ((lt_iff_toReal hfx hfy).mp hlt) hbound
    · obtain ⟨hv, hn, -⟩ := of_unpack_infinity hu
      rw [lt_iff, value_of_isFinite hfxx, hv]
      exact ⟨isNaN_of_isFinite hfxx, hn, EReal.coe_lt_top _⟩

theorem not_lt_of_isNaN {x : Float} (h : x.isNaN = true) (y : Float) : ¬ x < y ∧ ¬ y < x := by
  constructor
  · intro hlt
    cases h.symm.trans (lt_iff.mp hlt).1
  · intro hlt
    cases h.symm.trans (lt_iff.mp hlt).2.1

theorem isNaN_sub_mul_self {x : Float} (h : x.isNaN = true) (y : Float) :
    (x * x - y).isNaN = true := by
  have hx : x.toModel.unpack = .notANumber := by
    change x.toModel.unpack.isNaN = true at h
    cases hu : x.toModel.unpack <;> rw [hu] at h <;> first | rfl | cases h
  have hxx : x * x = .ofModel (.pack .notANumber) := by
    change Float.ofModel (.pack (UnpackedFloat.mul .binary64 _ _)) = _
    rw [hx]
    rfl
  change (Float.Model.pack (UnpackedFloat.sub .binary64 (x * x).toModel.unpack _)).unpack.isNaN = _
  rw [hxx]
  change (Float.Model.pack (UnpackedFloat.sub .binary64 (Float.Model.pack .notANumber).unpack
    _)).unpack.isNaN = _
  rw [unpack_pack (u := .notANumber) trivial]
  change (Float.Model.pack .notANumber).unpack.isNaN = true
  rw [unpack_pack (u := .notANumber) trivial]
  rfl

/-- Which of two numbers is larger is the sign of the difference of their squares, unless the square
of the smaller one is infinite. The first number may be none at all, and then there is no sign. -/
theorem sub_mul_self_sign_iff {x y : Float} (hx : x.isNaN = true ∨ 0 ≤ x) (hy : 0 ≤ y)
    (hlow : y.isFinite = true → 2 ^ (-510 : ℤ) ≤ toReal y) :
    (x * x - y * y < 0 ↔ x < y ∧ (x * x).isFinite = true) ∧
    (0 < x * x - y * y ↔ y < x ∧ (y * y).isFinite = true) := by
  rcases hx with hnan | hx
  · have hsub := not_lt_of_isNaN (isNaN_sub_mul_self hnan (y * y)) 0
    have hno := not_lt_of_isNaN hnan y
    exact ⟨iff_of_false hsub.1 fun h => hno.1 h.1, iff_of_false hsub.2 fun h => hno.2 h.1⟩
  · have hnx := (zero_le_iff_value.mp hx).1
    have hny := (zero_le_iff_value.mp hy).1
    have hlow' : y < x → x.isFinite = true → 2 ^ (-510 : ℤ) ≤ toReal x := by
      intro hlt hfx
      have hle := (not_lt_iff_le hnx hny).mp (not_lt_of_lt hlt)
      have hfy := isFinite_of_between isFinite_zero hfx hy hle
      exact (hlow hfy).trans ((lt_iff_toReal hfy hfx).mp hlt).le
    obtain ⟨hneg, hpos⟩ := sub_sign_iff (zero_le_mul_self hnx) (zero_le_mul_self hny)
    rw [hneg, hpos, mul_self_lt_iff hx hy (fun _ => hlow), mul_self_lt_iff hy hx hlow', and_assoc,
      and_self, and_assoc, and_self]
    exact ⟨Iff.rfl, Iff.rfl⟩

end Toolpath.Double
