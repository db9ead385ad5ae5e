import Toolpath.Proofs.Exact.Angles

/-! # The points of an arc over the reals

Over the reals the sweep starts at the start, keeps to the circle and turns through to the direction
of the target. So what its end misses the target by is what the target is off the circle, and that
decides whether the target is shown by itself.
-/
namespace Toolpath

/-- The points shown are those of the sweep, and the target behind them if it is shown by itself,
where their number fits in a machine word. -/
theorem Arc.toList_samples {α : Type} [Scalar α] (E : Elementary α) {a : Arc α}
    (h : a.samples.total < UInt64.size) : a.samples.toList E =
      (List.range a.count).map
        (fun k => a.pointAt E (Scalar.ofNat (k + 1) / Scalar.ofNat a.count)) ++
        if a.closes then [a.target] else [] := by
  have hsize : a.samples.remaining = a.count + if a.closes then 1 else 0 := Nat.mod_eq_of_lt h
  have hsweep : (List.range' 0 a.count).map (a.samples.point E) =
      (List.range a.count).map
        (fun k => a.pointAt E (Scalar.ofNat (k + 1) / Scalar.ofNat a.count)) := by
    rw [← List.range_eq_range']
    exact List.map_congr_left fun k hk => if_pos (List.mem_range.mp hk)
  change (List.range' 0 a.samples.remaining).map (a.samples.point E) = _
  rw [hsize]
  cases a.closes with
  | false =>
    rw [← hsweep]
    exact (List.append_nil _).symm
  | true =>
    have hend : a.samples.point E a.count = a.target := if_neg (lt_irrefl _)
    change (List.range' 0 (a.count + 1)).map _ = _ ++ [a.target]
    rw [List.range'_concat, List.map_append, hsweep]
    simp [hend]

namespace Exact

open Real

theorem pointAt_eq (a : Arc ℝ) (t : ℝ) : pointAt a t = a.plane.unproject
    ((a.plane.project a.center).1 + a.radius * cos (a.startAngle + a.sweep * t))
    ((a.plane.project a.center).2.1 + a.radius * sin (a.startAngle + a.sweep * t))
    (a.plane.level a.start + (a.plane.level a.target - a.plane.level a.start) * t) := rfl

theorem vector_pointAt (a : Arc ℝ) (t : ℝ) : vector a (pointAt a t) =
    ⟨a.radius * cos (a.startAngle + a.sweep * t), a.radius * sin (a.startAngle + a.sweep * t)⟩ := by
  rw [pointAt_eq, vector, Plane.project_unproject]
  simp only [add_sub_cancel_left]

theorem level_pointAt (a : Arc ℝ) (t : ℝ) : a.plane.level (pointAt a t) =
    a.plane.level a.start + (a.plane.level a.target - a.plane.level a.start) * t := by
  rw [pointAt_eq, Plane.level, Plane.project_unproject]

/-- The distance in space is the one in the plane and the difference of levels at a right angle. -/
theorem distance_eq (a : Arc ℝ) (p q : Position ℝ) : distance p q =
    √(‖vector a p - vector a q‖ ^ 2 + (a.plane.level p - a.plane.level q) ^ 2) := by
  change √((p.x - q.x) * (p.x - q.x) + (p.y - q.y) * (p.y - q.y) + (p.z - q.z) * (p.z - q.z)) = _
  rw [Complex.sq_norm, Complex.normSq_apply]
  congr 1
  unfold vector Plane.level
  cases a.plane <;> simp only [Plane.project, Complex.sub_re, Complex.sub_im] <;> ring

section
variable {s : Sampling ℝ} {a : Arc ℝ} (h : Fits s a)
include h

theorem pointAt_zero : pointAt a 0 = a.start := by
  have hcos : a.radius * cos a.startAngle = (vector a a.start).re := by
    rw [h.radius_eq, h.startAngle_eq, Complex.norm_mul_cos_arg]
  have hsin : a.radius * sin a.startAngle = (vector a a.start).im := by
    rw [h.radius_eq, h.startAngle_eq, Complex.norm_mul_sin_arg]
  rw [pointAt_eq, mul_zero, mul_zero, add_zero, add_zero, hcos, hsin]
  unfold vector
  rw [add_sub_cancel, add_sub_cancel]
  exact Plane.unproject_project ..

theorem distance_pointAt (t : ℝ) : a.plane.distance (pointAt a t) a.center = a.radius := by
  rw [← norm_vector, vector_pointAt, Complex.norm_eq_sqrt_sq_add_sq, mul_pow, mul_pow, ← mul_add,
    cos_sq_add_sin_sq, mul_one, sqrt_sq h.radius_pos.le]

/-- At the end of the sweep the target lies straight ahead, as seen from the centre. -/
theorem vector_pointAt_one : vector a (pointAt a 1) =
    ⟨a.radius * cos (Complex.arg (vector a a.target)),
      a.radius * sin (Complex.arg (vector a a.target))⟩ := by
  have hangle : ((a.startAngle + a.sweep * 1 : ℝ) : Angle) =
      (Complex.arg (vector a a.target) : ℝ) := by
    rw [mul_one, Angle.coe_add, h.sweep_eq, coe_sweep, h.startAngle_eq, Angle.coe_sub,
      add_sub_cancel]
  rw [vector_pointAt, ← Angle.cos_coe, ← Angle.sin_coe, hangle, Angle.cos_coe, Angle.sin_coe]

/-- The end of the sweep is as far from the target as the target is from the circle. -/
theorem distance_end : distance (pointAt a 1) a.target =
    |a.plane.distance a.target a.center - a.radius| := by
  have hlevel : a.plane.level (pointAt a 1) - a.plane.level a.target = 0 := by
    rw [level_pointAt]
    ring
  have hcos := Complex.norm_mul_cos_arg (vector a a.target)
  have hsin := Complex.norm_mul_sin_arg (vector a a.target)
  have hgap : ‖vector a (pointAt a 1) - vector a a.target‖ ^ 2 =
      (‖vector a a.target‖ - a.radius) ^ 2 := by
    rw [vector_pointAt_one h, Complex.sq_norm, Complex.normSq_apply, Complex.sub_re, Complex.sub_im]
    dsimp only
    rw [← hcos, ← hsin]
    linear_combination (‖vector a a.target‖ - a.radius) ^ 2 *
      cos_sq_add_sin_sq (Complex.arg (vector a a.target))
  rw [distance_eq a, hgap, hlevel, zero_pow two_ne_zero, add_zero, sqrt_sq_eq_abs, norm_vector]

end

/-- The points of an arc that a line resolves to: the first is the start, all are on the circle and
rise evenly to the target, and the target is shown by itself just if it is farther off the circle
than the tolerance. -/
theorem resolve_points {s : Sampling ℝ} {turn : Turn} {start : Position ℝ} {words : AxisWords ℝ}
    {frame : Frame} {fitted : Arc.Fitted ℝ} (h : resolve s turn start words frame = .ok fitted) :
    pointAt fitted.arc 0 = start ∧
    (∀ t, frame.plane.distance (pointAt fitted.arc t) fitted.arc.center = fitted.arc.radius ∧
      frame.plane.level (pointAt fitted.arc t) = frame.plane.level start +
        (frame.plane.level (target frame start words) - frame.plane.level start) * t) ∧
    (fitted.arc.closes = true ↔ s.tolerance <
      |frame.plane.distance (target frame start words) fitted.arc.center - fitted.arc.radius|) ∧
    (0 ≤ s.tolerance →
      frame.plane.distance (target frame start words) fitted.arc.center = fitted.arc.radius →
      fitted.arc.closes = false) ∧
    (fitted.arc.samples.total < UInt64.size → points fitted.arc =
      (List.range fitted.arc.count).map
        (fun k => pointAt fitted.arc (((k + 1 : ℕ) : ℝ) / fitted.arc.count)) ++
      if fitted.arc.closes then [target frame start words] else []) := by
  obtain ⟨hfits, -, hplane, hstart, htarget⟩ := resolve_fits h
  rw [← hplane, ← htarget, ← hstart]
  have hcloses : fitted.arc.closes = true ↔ s.tolerance <
      |fitted.arc.plane.distance fitted.arc.target fitted.arc.center - fitted.arc.radius| := by
    rw [hfits.closes_iff, distance_end hfits]
  refine ⟨pointAt_zero hfits, fun t => ⟨distance_pointAt hfits t, level_pointAt _ t⟩, hcloses, ?_,
    @Arc.toList_samples ℝ Scalar.real .real fitted.arc⟩
  intro htol hon
  rw [hon, sub_self, abs_zero] at hcloses
  exact Bool.eq_false_iff.mpr fun hc => not_lt.mpr htol (hcloses.mp hc)

/-- About a centre at a distance of one, to a target at a distance of two from it. -/
theorem resolve_points_beyond : ∃ fitted,
    resolve ⟨10, 6, by decide, 0⟩ .clockwise ⟨0, 0, 0⟩ { x := some 3, i := some 1 } {} =
      .ok fitted ∧
    pointAt fitted.arc 0 = ⟨0, 0, 0⟩ ∧ fitted.arc.radius = 1 ∧ fitted.arc.closes = true := by
  have htarget : target {} ⟨0, 0, 0⟩ { x := some 3, i := some 1 } = ⟨3, 0, 0⟩ := by
    change (⟨toMm .millimeters 3, 0, 0⟩ : Position ℝ) = _
    rw [toMm_millimeters]
  have hcenter : @Arc.centerOf ℝ Scalar.real .real .clockwise (0, 0) (3, 0)
      { x := some 3, i := some 1 } {} = .ok ⟨1, 0, none⟩ := by
    change Except.ok (⟨0 + toMm .millimeters 1, 0 + toMm .millimeters (0 : ℕ), none⟩ : Center ℝ) = _
    rw [toMm_millimeters, toMm_millimeters]
    norm_num
  have hdistance (x y : ℝ) : Plane.distance .xy ⟨x, 0, 0⟩ ⟨y, 0, 0⟩ = |x - y| := by
    change √((x - y) ^ 2 + (0 - 0) ^ 2) = _
    rw [sub_zero, zero_pow two_ne_zero, add_zero, sqrt_sq_eq_abs]
  have hradius : Plane.distance .xy ⟨0, 0, 0⟩ ⟨1, 0, 0⟩ = 1 := by
    rw [hdistance]
    norm_num
  obtain ⟨fitted, h⟩ := (@exists_resolve_iff ⟨10, 6, by decide, 0⟩ .clockwise ⟨0, 0, 0⟩
      { x := some 3, i := some 1 } {}).mpr ⟨⟨1, 0, none⟩, htarget ▸ hcenter, by
    change _ < ‖complex (Plane.xy.planar ⟨0, 0, 0⟩) - complex (Plane.xy.planar ⟨1, 0, 0⟩)‖
    rw [norm_complex_sub, hradius]
    norm_num⟩
  obtain ⟨hstart, hcircle, hcloses, -, -⟩ := resolve_points h
  have hfrom (q : Position ℝ) : Plane.distance .xy q fitted.arc.center =
      Plane.distance .xy q ⟨1, 0, 0⟩ := by
    obtain ⟨c, hc, hplace⟩ := resolve_center h
    rw [htarget] at hc
    obtain rfl := Except.ok.inj (hcenter.symm.trans hc)
    rw [← norm_complex_sub, ← norm_complex_sub]
    exact congrArg (fun c => ‖complex (Plane.xy.planar q) - complex c‖) hplace
  have hone : fitted.arc.radius = 1 := by
    rw [← (hcircle 0).1, hstart]
    exact (hfrom _).trans hradius
  refine ⟨fitted, h, hstart, hone, hcloses.mpr ?_⟩
  rw [htarget, hone]
  change (0 : ℝ) < |Plane.distance .xy _ fitted.arc.center - 1|
  rw [hfrom, hdistance]
  norm_num

end Exact
end Toolpath
