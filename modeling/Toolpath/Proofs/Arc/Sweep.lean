import Toolpath.Proofs.Arc.Elementary
import Toolpath.Proofs.Arc.Resolution

/-! # The sweep of an arc

The difference of two angles lies within a full turn of zero, and `Turn.sweep` brings it to the side
of the direction by adding or taking a full turn. It fails to do so in one case: if the difference
is a full turn against the direction already, nothing of it is left.
-/
namespace Toolpath

open Double

theorem tau_finite : (Scalar.tau : Float).isFinite = true := rfl

theorem pi_finite : (Scalar.pi : Float).isFinite = true := rfl

theorem toReal_pi : toReal Scalar.pi = (7074237752028440 : ℕ) * 2 ^ (-51 : ℤ) := rfl

theorem toReal_pi_pos : 0 < toReal Scalar.pi := by
  rw [toReal_pi]
  positivity

/-- A full turn is two half turns, also when they are rounded. -/
theorem toReal_tau : toReal Scalar.tau = 2 * toReal Scalar.pi := by
  rw [toReal_pi]
  change ((7074237752028440 : ℕ) : ℝ) * 2 ^ (-50 : ℤ) = _
  norm_num

namespace Turn

structure WithinTurn (x : Float) : Prop where
  finite : x.isFinite = true
  lower : -toReal Scalar.tau ≤ toReal x
  upper : toReal x ≤ toReal Scalar.tau

def Admits : Turn → Float → Prop
  | clockwise, sweep => -Scalar.tau ≤ sweep ∧ sweep < 0
  | counterclockwise, sweep => 0 < sweep ∧ sweep ≤ Scalar.tau

def fullTurnBack : Turn → Float
  | clockwise => Scalar.tau
  | counterclockwise => -Scalar.tau

theorem sweep_clockwise (delta : Float) :
    clockwise.sweep delta = if 0 ≤ delta then delta - Scalar.tau else delta := rfl

theorem sweep_counterclockwise (delta : Float) :
    counterclockwise.sweep delta = if delta ≤ 0 then delta + Scalar.tau else delta := rfl

theorem sweep_fullTurnBack (t : Turn) : t.sweep t.fullTurnBack = 0 := by
  cases t <;> decide

section
variable {delta : Float} (h : WithinTurn delta)
include h

theorem sub_tau (h0 : 0 ≤ toReal delta) : WithinTurn (delta - Scalar.tau) ∧
    toReal (delta - Scalar.tau) ≤ 0 ∧
    (delta ≠ Scalar.tau → toReal (delta - Scalar.tau) < 0) := by
  have hr := isRounded_sub h.finite tau_finite
  have hpos : 0 < toReal Scalar.tau := by
    rw [toReal_tau]
    linarith [toReal_pi_pos]
  have hgrid := isGrid_toReal Scalar.tau
  have hfin : (delta - Scalar.tau).isFinite = true := by
    apply hr.isFinite_of_le hgrid
    rw [abs_of_nonpos (by linarith [h.upper]), abs_of_pos hpos]
    linarith
  have hle : toReal (delta - Scalar.tau) ≤ 0 :=
    hr.le_of_le hfin isGrid_zero (by linarith [h.upper])
  refine ⟨⟨hfin, hr.ge_of_ge hfin hgrid.neg (by linarith), hle.trans hpos.le⟩, hle, ?_⟩
  intro hne
  have hlt : toReal delta < toReal Scalar.tau := by
    refine lt_of_le_of_ne h.upper fun heq => hne ?_
    exact (eq_of_toReal_eq tau_finite h.finite heq.symm hpos.ne').symm
  rw [hr.toReal_eq hfin, ← neg_sub, signedNearest_neg]
  linarith [hgrid.signedNearest_sub_pos (isGrid_toReal delta) hlt]

theorem add_tau (h0 : toReal delta ≤ 0) : WithinTurn (delta + Scalar.tau) ∧
    0 ≤ toReal (delta + Scalar.tau) ∧
    (delta ≠ -Scalar.tau → 0 < toReal (delta + Scalar.tau)) := by
  have hr := isRounded_add h.finite tau_finite
  have hpos : 0 < toReal Scalar.tau := by
    rw [toReal_tau]
    linarith [toReal_pi_pos]
  have hgrid := isGrid_toReal Scalar.tau
  have hfin : (delta + Scalar.tau).isFinite = true := by
    apply hr.isFinite_of_le hgrid
    rw [abs_of_nonneg (by linarith [h.lower]), abs_of_pos hpos]
    linarith
  have hge : 0 ≤ toReal (delta + Scalar.tau) :=
    hr.ge_of_ge hfin isGrid_zero (by linarith [h.lower])
  refine ⟨⟨hfin, by linarith, hr.le_of_le hfin hgrid (by linarith)⟩, hge, ?_⟩
  intro hne
  have hlt : -toReal delta < toReal Scalar.tau := by
    refine lt_of_le_of_ne (by linarith [h.lower]) fun heq => hne ?_
    refine (eq_of_toReal_eq ((isFinite_neg _).trans tau_finite) h.finite ?_ ?_).symm
    · rw [toReal_neg]
      linarith
    · rw [toReal_neg]
      exact neg_ne_zero.mpr hpos.ne'
  rw [hr.toReal_eq hfin, add_comm, ← sub_neg_eq_add]
  exact hgrid.signedNearest_sub_pos (isGrid_toReal delta).neg hlt

theorem admits_clockwise_iff : clockwise.Admits delta ↔ toReal delta < 0 := by
  change (-Scalar.tau ≤ delta ∧ delta < 0) ↔ _
  rw [le_iff_toReal ((isFinite_neg _).trans tau_finite) h.finite, toReal_neg,
    lt_iff_toReal h.finite isFinite_zero, toReal_zero]
  exact and_iff_right h.lower

theorem admits_counterclockwise_iff : counterclockwise.Admits delta ↔ 0 < toReal delta := by
  change (0 < delta ∧ delta ≤ Scalar.tau) ↔ _
  rw [le_iff_toReal h.finite tau_finite, lt_iff_toReal isFinite_zero h.finite, toReal_zero]
  exact and_iff_left h.upper

theorem sweep_withinTurn (t : Turn) : WithinTurn (t.sweep delta) := by
  cases t with
  | clockwise =>
    rw [sweep_clockwise]
    split_ifs with h0
    · rw [le_iff_toReal isFinite_zero h.finite, toReal_zero] at h0
      exact (sub_tau h h0).1
    · exact h
  | counterclockwise =>
    rw [sweep_counterclockwise]
    split_ifs with h0
    · rw [le_iff_toReal h.finite isFinite_zero, toReal_zero] at h0
      exact (add_tau h h0).1
    · exact h

/-- The sweep is on the side of its direction, unless the difference is a full turn back. -/
theorem sweep_admits (t : Turn) (hne : delta ≠ t.fullTurnBack) : t.Admits (t.sweep delta) := by
  have hw := sweep_withinTurn h t
  cases t with
  | clockwise =>
    rw [admits_clockwise_iff hw, sweep_clockwise]
    split_ifs with h0
    · rw [le_iff_toReal isFinite_zero h.finite, toReal_zero] at h0
      exact (sub_tau h h0).2.2 hne
    · rw [le_iff_toReal isFinite_zero h.finite, toReal_zero, not_le] at h0
      exact h0
  | counterclockwise =>
    rw [admits_counterclockwise_iff hw, sweep_counterclockwise]
    split_ifs with h0
    · rw [le_iff_toReal h.finite isFinite_zero, toReal_zero] at h0
      exact (add_tau h h0).2.2 hne
    · rw [le_iff_toReal h.finite isFinite_zero, toReal_zero, not_le] at h0
      exact h0

end

theorem not_admits_zero (t : Turn) : ¬ t.Admits 0 := by
  intro h
  cases t with
  | clockwise => exact absurd h.2 (by decide)
  | counterclockwise => exact absurd h.1 (by decide)

theorem sweep_admits_iff (t : Turn) {delta : Float} (h : WithinTurn delta) :
    t.Admits (t.sweep delta) ↔ delta ≠ t.fullTurnBack := by
  constructor
  · intro hadmits heq
    rw [heq, sweep_fullTurnBack] at hadmits
    exact not_admits_zero t hadmits
  · exact sweep_admits h t

end Turn

theorem Plane.project_finite (p : Plane) {q : Position Float} (h : q.isFinite = true) :
    (p.project q).1.isFinite = true ∧ (p.project q).2.1.isFinite = true ∧
      (p.project q).2.2.isFinite = true := by
  obtain ⟨⟨hx, hy⟩, hz⟩ : (_ ∧ _) ∧ _ := by
    simpa only [Position.isFinite, Bool.and_eq_true] using h
  cases p with
  | xy => exact ⟨hx, hy, hz⟩
  | xz => exact ⟨hz, hx, hy⟩
  | yz => exact ⟨hy, hz, hx⟩

namespace Arc
variable {E : Elementary Float} {a : Arc Float}

/-- Whether the target lies over the start in the plane of the arc. -/
def Closed (a : Arc Float) : Prop :=
  ((a.plane.project a.target).1 == (a.plane.project a.start).1) = true ∧
    ((a.plane.project a.target).2.1 == (a.plane.project a.start).2.1) = true

/-- Whether start and target lie on the cut of the angles, on its two sides, so that the turn from
one to the other is a full one against the direction of the arc. -/
def CrossesCut (a : Arc Float) : Prop :=
  (a.offset a.start).1 < 0 ∧ match a.turn with
    | .clockwise => (a.offset a.start).2 = -0 ∧ (a.offset a.target).2 = 0
    | .counterclockwise => (a.offset a.start).2 = 0 ∧ (a.offset a.target).2 = -0

section
variable (hE : E.Lawful) (hw : a.WellFormed E)
include hE hw

theorem offset_finite : (a.offset a.start).1.isFinite = true ∧
    (a.offset a.start).2.isFinite = true :=
  hE.finite_of_hypot (hw.radius_eq ▸ hw.radius_finite)

theorem center_finite : (a.plane.project a.center).1.isFinite = true ∧
    (a.plane.project a.center).2.1.isFinite = true :=
  ⟨(isFinite_of_sub (offset_finite hE hw).1).2, (isFinite_of_sub (offset_finite hE hw).2).2⟩

theorem angle_range {p : Position Float} (hp : p.isFinite = true) :
    (a.angleOf E p).isFinite = true ∧ -toReal Scalar.pi ≤ toReal (a.angleOf E p) ∧
      toReal (a.angleOf E p) ≤ toReal Scalar.pi := by
  obtain ⟨hp1, hp2, -⟩ := a.plane.project_finite hp
  obtain ⟨hc1, hc2⟩ := center_finite hE hw
  obtain ⟨hlower, hupper⟩ := hE.atan2_range (isRounded_sub hp2 hc2).not_nan
    (isRounded_sub hp1 hc1).not_nan
  have hneg : (-Scalar.pi : Float).isFinite = true := (isFinite_neg _).trans pi_finite
  have hfin := isFinite_of_between hneg pi_finite hlower hupper
  rw [← toReal_neg]
  exact ⟨hfin, (le_iff_toReal hneg hfin).mp hlower, (le_iff_toReal hfin pi_finite).mp hupper⟩

variable (hs : a.start.isFinite = true)
include hs

theorem rawSweep_withinTurn : Turn.WithinTurn (a.rawSweep E) := by
  obtain ⟨hfe, hle, hue⟩ := angle_range hE hw hw.target_finite
  obtain ⟨hfs, hls, hus⟩ := angle_range hE hw hs
  have hr := isRounded_sub hfe hfs
  have hgrid := isGrid_toReal Scalar.tau
  have hfin : (a.angleOf E a.target - a.angleOf E a.start).isFinite = true := by
    apply hr.isFinite_of_le hgrid
    rw [toReal_tau, abs_of_pos (by linarith [toReal_pi_pos] : 0 < 2 * toReal Scalar.pi), abs_le]
    constructor <;> linarith
  refine ⟨hfin, hr.ge_of_ge hfin hgrid.neg ?_, hr.le_of_le hfin hgrid ?_⟩
  · rw [toReal_tau]
    linarith
  · rw [toReal_tau]
    linarith

theorem withinTurn_sweep : Turn.WithinTurn a.sweep := by
  rw [hw.sweep_eq]
  exact Turn.sweep_withinTurn (rawSweep_withinTurn hE hw hs) a.turn

end
section
variable (hE : E.LawfulAtZero) (hw : a.WellFormed E) (hs : a.start.isFinite = true)
include hE hw hs

/-- Equal coordinates have equal offsets, except for the signs of zeros. -/
theorem offset_of_closed (hc : a.Closed) :
    (a.offset a.target).1.isFinite = true ∧ (a.offset a.target).2.isFinite = true ∧
    toReal (a.offset a.target).1 = toReal (a.offset a.start).1 ∧
    toReal (a.offset a.target).2 = toReal (a.offset a.start).2 := by
  obtain ⟨hs1, hs2, -⟩ := a.plane.project_finite hs
  obtain ⟨ht1, ht2, -⟩ := a.plane.project_finite hw.target_finite
  obtain ⟨hc1, hc2⟩ := center_finite hE.toLawful hw
  obtain ⟨ho1, ho2⟩ := offset_finite hE.toLawful hw
  have heq {x y c : Float} (hx : x.isFinite = true) (hy : y.isFinite = true)
      (hc : c.isFinite = true) (hyc : (y - c).isFinite = true) (hxy : (x == y) = true) :
      (x - c).isFinite = true ∧ toReal (x - c) = toReal (y - c) := by
    have hr := isRounded_sub hx hc
    have hr' := isRounded_sub hy hc
    rw [(beq_iff_toReal hx hy).mp hxy] at hr
    have hfin := hr.isFinite_iff.mpr (hr'.isFinite_iff.mp hyc)
    exact ⟨hfin, (hr.toReal_eq hfin).trans (hr'.toReal_eq hyc).symm⟩
  obtain ⟨h1, h1'⟩ := heq ht1 hs1 hc1 ho1 hc.1
  obtain ⟨h2, h2'⟩ := heq ht2 hs2 hc2 ho2 hc.2
  exact ⟨h1, h2, h1', h2'⟩

end

/-- Points of equal coordinates are seen at equal angles, unless they lie on the two sides of the
cut along the negative axis. -/
theorem atan2_of_equal (hE : E.LawfulAtZero) {x y x' y' : Float} (hx : x.isFinite = true)
    (hy : y.isFinite = true) (hx' : x'.isFinite = true) (hy' : y'.isFinite = true)
    (hxx : toReal x' = toReal x) (hyy : toReal y' = toReal y)
    (hne : ¬ (toReal x = 0 ∧ toReal y = 0)) :
    (toReal (E.atan2 y' x') = toReal (E.atan2 y x) ∧ (x < 0 → y' = y)) ∨
    (x < 0 ∧ y = 0 ∧ y' = -0 ∧ E.atan2 y x = Scalar.pi ∧ E.atan2 y' x' = -Scalar.pi) ∨
    (x < 0 ∧ y = -0 ∧ y' = 0 ∧ E.atan2 y x = -Scalar.pi ∧ E.atan2 y' x' = Scalar.pi) := by
  have hz {z : Float} (hz : z.isFinite = true) : (z == 0) = true ↔ toReal z = 0 := by
    rw [beq_iff_toReal hz isFinite_zero, toReal_zero]
  by_cases hy0 : toReal y = 0
  · have hx0 : toReal x ≠ 0 := fun h => hne ⟨h, hy0⟩
    obtain rfl : x = x' := eq_of_toReal_eq hx hx' hxx.symm hx0
    by_cases hneg : x < 0
    · -- on the cut: the sign of the zero decides
      rcases eq_zero_or hy hy0 with rfl | rfl <;>
        rcases eq_zero_or hy' (hyy.trans hy0) with rfl | rfl
      · exact .inl ⟨rfl, fun _ => rfl⟩
      · exact .inr (.inl ⟨hneg, rfl, rfl, hE.atan2_above hneg, hE.atan2_below hneg⟩)
      · exact .inr (.inr ⟨hneg, rfl, rfl, hE.atan2_below hneg, hE.atan2_above hneg⟩)
      · exact .inl ⟨rfl, fun _ => rfl⟩
    · have hpos : 0 < x := by
        rw [lt_iff_toReal hx isFinite_zero, toReal_zero, not_lt] at hneg
        rw [lt_iff_toReal isFinite_zero hx, toReal_zero]
        exact lt_of_le_of_ne hneg hx0.symm
      rw [hE.atan2_pos ((hz hy).mpr hy0) hpos, hE.atan2_pos ((hz hy').mpr (hyy.trans hy0)) hpos]
      exact .inl ⟨hyy, fun h => absurd h hneg⟩
  · obtain rfl : y = y' := eq_of_toReal_eq hy hy' hyy.symm hy0
    refine .inl ⟨?_, fun _ => rfl⟩
    by_cases hx0 : toReal x = 0
    · have hx0' := (hz hx').mpr (hxx.trans hx0)
      have hx0 := (hz hx).mpr hx0
      rcases lt_or_gt_of_ne hy0 with h | h
      · have hlt : y < 0 := (lt_iff_toReal hy isFinite_zero).mpr (by rwa [toReal_zero])
        rw [hE.atan2_down hlt hx0, hE.atan2_down hlt hx0']
      · have hlt : 0 < y := (lt_iff_toReal isFinite_zero hy).mpr (by rwa [toReal_zero])
        rw [hE.atan2_up hlt hx0, hE.atan2_up hlt hx0']
    · rw [eq_of_toReal_eq hx' hx hxx (hxx.trans_ne hx0)]

section
variable (hE : E.LawfulAtZero) (hw : a.WellFormed E)
include hE hw

theorem offset_ne_zero : ¬ (toReal (a.offset a.start).1 = 0 ∧ toReal (a.offset a.start).2 = 0) := by
  rintro ⟨h1, h2⟩
  obtain ⟨ho1, ho2⟩ := offset_finite hE.toLawful hw
  have hz {x : Float} (hx : x.isFinite = true) (h : toReal x = 0) : (x == 0) = true :=
    (beq_iff_toReal hx isFinite_zero).mpr (h.trans toReal_zero.symm)
  have hr := hw.radius_eq
  rw [hE.hypot_zero (hz ho1 h1) (hz ho2 h2)] at hr
  apply hw.not_small
  rw [hr]
  decide

variable (hs : a.start.isFinite = true) (hc : a.Closed)
include hs hc

/-- A closed arc has no raw sweep, or it crosses the cut and the raw sweep is a full turn. -/
theorem rawSweep_of_closed :
    (toReal (a.rawSweep E) = 0 ∧
      ((a.offset a.start).1 < 0 → (a.offset a.target).2 = (a.offset a.start).2)) ∨
    ((a.offset a.start).1 < 0 ∧ (a.offset a.start).2 = 0 ∧ (a.offset a.target).2 = -0 ∧
      a.rawSweep E = -Scalar.tau) ∨
    ((a.offset a.start).1 < 0 ∧ (a.offset a.start).2 = -0 ∧ (a.offset a.target).2 = 0 ∧
      a.rawSweep E = Scalar.tau) := by
  obtain ⟨ht1, ht2, h1, h2⟩ := offset_of_closed hE hw hs hc
  obtain ⟨ho1, ho2⟩ := offset_finite hE.toLawful hw
  rcases atan2_of_equal hE ho1 ho2 ht1 ht2 h1 h2 (offset_ne_zero hE hw) with
    ⟨hangle, hsame⟩ | ⟨hneg, hy, hy', ha, ha'⟩ | ⟨hneg, hy, hy', ha, ha'⟩
  · refine .inl ⟨?_, hsame⟩
    have hfs := (angle_range hE.toLawful hw hs).1
    have hfe := (angle_range hE.toLawful hw hw.target_finite).1
    have hr := isRounded_sub hfe hfs
    have hzero : toReal (a.angleOf E a.target) - toReal (a.angleOf E a.start) = 0 :=
      sub_eq_zero.mpr hangle
    rw [hzero] at hr
    have hfin := (rawSweep_withinTurn hE.toLawful hw hs).finite
    exact (hr.toReal_eq hfin).trans isGrid_zero.signedNearest_eq
  · refine .inr (.inl ⟨hneg, hy, hy', ?_⟩)
    change E.atan2 _ _ - E.atan2 _ _ = _
    rw [ha, ha']
    decide
  · refine .inr (.inr ⟨hneg, hy, hy', ?_⟩)
    change E.atan2 _ _ - E.atan2 _ _ = _
    rw [ha, ha']
    decide +kernel

/-- A closed arc is a full turn, unless it crosses the cut: then nothing is left of it. -/
theorem sweep_of_closed : (a.sweep.abs = Scalar.tau ↔ ¬ a.CrossesCut) ∧
    (a.CrossesCut → a.sweep = 0) := by
  have h0 : (0 : Float) ≠ -0 := by decide
  have hfull (habs : a.sweep.abs = Scalar.tau) (hno : ¬ a.CrossesCut) :
      (a.sweep.abs = Scalar.tau ↔ ¬ a.CrossesCut) ∧ (a.CrossesCut → a.sweep = 0) :=
    ⟨iff_of_true habs hno, fun h => absurd h hno⟩
  have hnone (hsweep : a.sweep = 0) (hcross : a.CrossesCut) :
      (a.sweep.abs = Scalar.tau ↔ ¬ a.CrossesCut) ∧ (a.CrossesCut → a.sweep = 0) := by
    refine ⟨iff_of_false ?_ (not_not.mpr hcross), fun _ => hsweep⟩
    rw [hsweep]
    decide
  rw [hw.sweep_eq] at hfull hnone
  rw [hw.sweep_eq]
  unfold CrossesCut at hfull hnone ⊢
  rcases rawSweep_of_closed hE hw hs hc with
    ⟨hraw, hsame⟩ | ⟨hneg, hy, hy', hraw⟩ | ⟨hneg, hy, hy', hraw⟩
  · have hfin := (rawSweep_withinTurn hE.toLawful hw hs).finite
    have habs : (a.turn.sweep (a.rawSweep E)).abs = Scalar.tau := by
      rcases eq_zero_or hfin hraw with hraw | hraw <;> rw [hraw] <;> cases a.turn <;> decide
    apply hfull habs
    rintro ⟨hneg, hzeros⟩
    rw [hsame hneg] at hzeros
    cases hturn : a.turn <;> rw [hturn] at hzeros
    case clockwise => exact h0 (hzeros.2.symm.trans hzeros.1)
    case counterclockwise => exact h0 (hzeros.1.symm.trans hzeros.2)
  · rw [hraw, hy, hy'] at hfull hnone ⊢
    cases hturn : a.turn <;> rw [hturn] at hfull hnone
    case clockwise => exact hfull (by decide) fun h => h0 h.2.1
    case counterclockwise => exact hnone (by decide) ⟨hneg, rfl, rfl⟩
  · rw [hraw, hy, hy'] at hfull hnone ⊢
    cases hturn : a.turn <;> rw [hturn] at hfull hnone
    case clockwise => exact hnone (by decide) ⟨hneg, rfl, rfl⟩
    case counterclockwise => exact hfull (by decide) fun h => h0 h.2.1.symm

end

/-- The sweep of an arc that a line resolves to is on the side of its direction and no more than a
full turn, and a full turn if the target lies over the start. There is one exception: where the
angles differ by a full turn against the direction, which the two zeros make of a closed arc, the
sweep is zero. -/
theorem resolve_sweep (hE : E.LawfulAtZero) {s : Sampling Float} {turn : Turn}
    {start : Position Float} {words : AxisWords Float} {frame : Frame} {fitted : Fitted Float}
    (hs : start.isFinite = true) (h : resolve E s turn start words frame = .ok fitted) :
    (turn.Admits fitted.arc.sweep ↔ fitted.arc.rawSweep E ≠ turn.fullTurnBack) ∧
    (fitted.arc.rawSweep E = turn.fullTurnBack → fitted.arc.sweep = 0) ∧
    (fitted.arc.Closed →
      (fitted.arc.sweep.abs = Scalar.tau ↔ ¬ fitted.arc.CrossesCut) ∧
      (fitted.arc.CrossesCut → fitted.arc.sweep = 0)) := by
  obtain ⟨hw, hturn, -, hstart, -⟩ := resolve_ok h
  rw [← hstart] at hs
  have hraw := rawSweep_withinTurn hE.toLawful hw hs
  refine ⟨?_, ?_, sweep_of_closed hE hw hs⟩
  · rw [hw.sweep_eq, hturn]
    exact Turn.sweep_admits_iff turn hraw
  · intro hback
    rw [hw.sweep_eq, hback, hturn]
    exact Turn.sweep_fullTurnBack turn

/-- A circle about `(1, 0)` from the origin, which lies on the cut. -/
theorem resolve_sweep_circle : ∃ fitted, resolve Elementary.onAxes (.of 90 4 1e-9) .clockwise .origin
      { x := some 0, i := some 1 } {} = .ok fitted ∧
    Turn.clockwise.Admits fitted.arc.sweep := by
  have hrun : (match resolve Elementary.onAxes (.of 90 4 1e-9) .clockwise .origin
      { x := some 0, i := some 1 } {} with
    | .ok f => decide (f.arc.rawSweep Elementary.onAxes ≠ Scalar.tau)
    | .error _ => false) = true := by decide +kernel
  split at hrun
  next fitted h =>
    exact ⟨fitted, h, (resolve_sweep Elementary.onAxes_lawful rfl h).1.mpr (of_decide_eq_true hrun)⟩
  next => cases hrun

end Arc
end Toolpath
