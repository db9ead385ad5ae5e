import Toolpath.Proofs.Arc.Choice
import Toolpath.Proofs.Arc.Sweep
import Toolpath.Proofs.Double.Opposites

/-! # A radius and its opposite

Both signs of a radius have the same two centres, and each takes another one. Where the shorter arcs
about the two turn to different sides, the opposite radius does what the opposite direction does. So
a clockwise line and a counterclockwise line with the opposite radius go around one centre, between
the same points: their sweeps are a full turn apart, unless start and target are seen from the centre
at one angle, and then each of them is a full turn.
-/
namespace Toolpath

open Double

namespace Center
variable {E : Elementary Float} {turn : Turn} {start target : Float × Float} {r : Float}

theorem discriminant_neg (r : Float) :
    discriminant E start target (-r) = discriminant E start target r := by
  unfold discriminant
  change (-r).abs * (-r).abs - _ = r.abs * r.abs - _
  rw [abs_neg_eq]

theorem choices_neg (r : Float) : choices E start target (-r) = choices E start target r := by
  unfold choices
  rw [discriminant_neg]

theorem shortRadius?_neg (r : Float) :
    shortRadius? E start target (-r) = shortRadius? E start target r := by
  unfold shortRadius?
  have habs : Scalar.abs (-r) = Scalar.abs r := abs_neg_eq r
  rw [discriminant_neg, habs]

theorem takesFirst_neg (hr : r < 0 ∨ 0 < r) :
    takesFirst E turn start target (-r) = !takesFirst E turn start target r := by
  have hsign : decide (-r < 0) = !decide (r < 0) := by
    rw [decide_eq_decide.mpr (neg_lt_zero_iff r)]
    rcases hr with hr | hr
    · rw [decide_eq_true hr, decide_eq_false (not_lt_of_lt hr)]
      rfl
    · rw [decide_eq_true hr, decide_eq_false (not_lt_of_lt hr)]
      rfl
  unfold takesFirst
  rw [choices_neg, hsign, Bool.bne_not]

theorem takesFirst_opposite (h : Opposed E start target (choices E start target r)) :
    takesFirst E turn.opposite start target r = !takesFirst E turn start target r := by
  unfold takesFirst
  rw [prefersFirst_opposite h, Bool.not_bne]

theorem ofRadius_neg_eq (hr : r < 0 ∨ 0 < r)
    (h : Opposed E start target (choices E start target r)) :
    ofRadius E turn start target (-r) = ofRadius E turn.opposite start target r := by
  rw [ofRadius_eq, ofRadius_eq, choices_neg, shortRadius?_neg, takesFirst_neg hr,
    takesFirst_opposite h]

/-- A radius and its opposite have one clamp, and each takes another one of the two centres. -/
theorem ofRadius_takeBoth (hr : r < 0 ∨ 0 < r)
    (h : ofRadius E turn start target r ≠ .error .zeroLengthChord) :
    ∃ c c', ofRadius E turn start target r = .ok c ∧ ofRadius E turn start target (-r) = .ok c' ∧
      c'.clamped = c.clamped ∧
      ((c.place, c'.place) = choices E start target r ∨
        (c'.place, c.place) = choices E start target r) := by
  have hlong := epsilon_lt_of_ne h
  rw [ofRadius_eq, ofRadius_eq, if_pos hlong, if_pos hlong]
  refine ⟨_, _, rfl, rfl, shortRadius?_neg r, ?_⟩
  rw [choices_neg, takesFirst_neg hr]
  cases takesFirst E turn start target r
  · exact .inr rfl
  · exact .inl rfl

end Center

namespace Turn

/-- The counterclockwise sweep is a full turn above the clockwise one, as one of the two is computed
from the other. -/
def FullTurnApart (clockwise counterclockwise : Float) : Prop :=
  clockwise = counterclockwise - Scalar.tau ∨ counterclockwise = clockwise + Scalar.tau

instance (clockwise counterclockwise : Float) :
    Decidable (FullTurnApart clockwise counterclockwise) := inferInstanceAs (Decidable (_ ∨ _))

theorem sweeps_apart {delta : Float} (h : (delta == 0) = false) :
    FullTurnApart (clockwise.sweep delta) (counterclockwise.sweep delta) := by
  rw [sweep_clockwise, sweep_counterclockwise]
  split_ifs with hpos hneg hneg
  · exact absurd (beq_zero_of_le hpos hneg) (Bool.eq_false_iff.mp h)
  · exact .inl rfl
  · exact .inr rfl
  · exact .inr (add_of_isNaN (isNaN_of_not_le hpos hneg) _).symm

/-- No difference at all is a full turn either way. -/
theorem sweeps_of_zero {delta : Float} (h : (delta == 0) = true) :
    clockwise.sweep delta = -Scalar.tau ∧ counterclockwise.sweep delta = Scalar.tau := by
  rcases eq_zero_of_beq h with rfl | rfl <;> decide

end Turn

def AxisWords.withRadius {α : Type} (w : AxisWords α) (raw : α) : AxisWords α :=
  { w with r := some raw }

theorem Plane.offsets_withRadius {α : Type} (p : Plane) (w : AxisWords α) (raw : α) :
    p.offsets (w.withRadius raw) = p.offsets w := by
  cases p <;> rfl

namespace Arc
variable (E : Elementary Float)

structure OnOneCircle (a b : Arc Float) : Prop where
  turn : a.turn = .clockwise
  turn' : b.turn = .counterclockwise
  plane : b.plane = a.plane
  start : b.start = a.start
  target : b.target = a.target
  center : b.center = a.center
  radius : b.radius = a.radius
  rawSweep : b.rawSweep E = a.rawSweep E

/-- What a clockwise and a counterclockwise line come to that go around one circle. -/
inductive AroundOneCircle :
    Except Refusal (Fitted Float) → Except Refusal (Fitted Float) → Prop where
  | refused (why : Refusal) : AroundOneCircle (.error why) (.error why)
  | made {f g : Fitted Float} (circle : OnOneCircle E f.arc g.arc) (clamped : g.clamped = f.clamped)
      (apart : (f.arc.rawSweep E == 0) = false → Turn.FullTurnApart f.arc.sweep g.arc.sweep)
      (full : (f.arc.rawSweep E == 0) = true →
        f.arc.sweep = -Scalar.tau ∧ g.arc.sweep = Scalar.tau) : AroundOneCircle (.ok f) (.ok g)

theorem fit_aroundOneCircle (s : Sampling Float) (plane : Plane) (start target : Position Float)
    (c : Center Float) : AroundOneCircle E (fit E s .clockwise plane start target c)
      (fit E s .counterclockwise plane start target c) := by
  unfold fit
  dsimp only
  split
  · exact .refused _
  split
  · exact .refused _
  -- both arcs have the difference of angles that the clockwise one has
  have hcw := sweep_about E s .clockwise plane start target c.first c.second
    (radiusAbout E plane start c)
  have hccw := sweep_about E s .counterclockwise plane start target c.first c.second
    (radiusAbout E plane start c)
  refine .made ⟨rfl, rfl, rfl, rfl, rfl, rfl, rfl, rfl⟩ rfl (fun h => ?_) (fun h => ?_)
  · have happart := Turn.sweeps_apart h
    exact (congrArg₂ Turn.FullTurnApart hcw hccw).mpr happart
  · obtain ⟨hback, hforth⟩ := Turn.sweeps_of_zero h
    exact ⟨hcw.trans hback, hccw.trans hforth⟩

theorem centerOf_withRadius {turn : Turn} {start target : Float × Float} {words : AxisWords Float}
    {frame : Frame} (h : frame.plane.offsets words = (none, none)) (raw : Float) :
    centerOf E turn start target (words.withRadius raw) frame =
      Center.ofRadius E turn start target (frame.units.toMm raw) := by
  rw [← Plane.offsets_withRadius _ _ raw] at h
  exact centerOf_eq_ofRadius E turn start target h rfl

/-- A clockwise line and a counterclockwise one with the opposite radius, whose centres turn to
different sides, go around one circle. -/
theorem resolve_aroundOneCircle {s : Sampling Float} {start : Position Float}
    {words : AxisWords Float} {frame : Frame} {raw : Float}
    (hoffsets : frame.plane.offsets words = (none, none))
    (hr : frame.units.toMm raw < 0 ∨ 0 < frame.units.toMm raw)
    (h : Center.Opposed E (frame.plane.planar start) (frame.plane.planar (frame.target start words))
      (Center.choices E (frame.plane.planar start) (frame.plane.planar (frame.target start words))
        (frame.units.toMm raw))) :
    AroundOneCircle E (resolve E s .clockwise start (words.withRadius (-raw)) frame)
      (resolve E s .counterclockwise start (words.withRadius raw) frame) := by
  have hneg : frame.units.toMm (-raw) = -frame.units.toMm raw := neg_mul_eq raw _
  have htarget (raw : Float) : frame.target start (words.withRadius raw) =
      frame.target start words := rfl
  rw [resolve_eq_bind, resolve_eq_bind, htarget, htarget, centerOf_withRadius E hoffsets,
    centerOf_withRadius E hoffsets, hneg, Center.ofRadius_neg_eq hr h]
  change AroundOneCircle E ((Center.ofRadius E .counterclockwise _ _ _).bind _)
    ((Center.ofRadius E .counterclockwise _ _ _).bind _)
  cases Center.ofRadius E .counterclockwise (frame.plane.planar start)
      (frame.plane.planar (frame.target start words)) (frame.units.toMm raw) with
  | error why => exact .refused why
  | ok c => exact fit_aroundOneCircle E s frame.plane start (frame.target start words) c

end Arc

/-- A radius and its opposite have one clamp and take different ones of two centres. Where the
shorter arcs about these turn to different sides, a positive radius takes the one that turns as it
is asked to, the opposite radius does what the opposite direction does, and a clockwise line with the
one goes around one circle with a counterclockwise line with the other. -/
theorem Center.ofRadius_selects {E : Elementary Float} {turn : Turn} {start target : Float × Float}
    {r : Float} (hn : r.isNaN = false) (h0 : (r == 0) = false)
    (h : ofRadius E turn start target r ≠ .error .zeroLengthChord) :
    (∃ c c', ofRadius E turn start target r = .ok c ∧ ofRadius E turn start target (-r) = .ok c' ∧
      c'.clamped = c.clamped ∧
      ((c.place, c'.place) = choices E start target r ∨
        (c'.place, c.place) = choices E start target r)) ∧
    (Opposed E start target (choices E start target r) →
      (0 < r → ∀ c, ofRadius E turn start target r = .ok c →
        shorterIsClockwise E start target c.place = (turn == .clockwise)) ∧
      ofRadius E turn start target (-r) = ofRadius E turn.opposite start target r ∧
      ∀ (s : Sampling Float) (p : Position Float) (words : AxisWords Float) (frame : Frame)
        (raw : Float), frame.plane.offsets words = (none, none) →
        frame.plane.planar p = start → frame.plane.planar (frame.target p words) = target →
        frame.units.toMm raw = r →
        Arc.AroundOneCircle E (Arc.resolve E s .clockwise p (words.withRadius (-raw)) frame)
          (Arc.resolve E s .counterclockwise p (words.withRadius raw) frame)) := by
  have hr := sign_cases hn h0
  refine ⟨ofRadius_takeBoth hr h, fun hopposed => ⟨?_, ofRadius_neg_eq hr hopposed, ?_⟩⟩
  · intro hpos c hc
    rw [shorterIsClockwise_of_ofRadius hopposed hc, decide_eq_false (not_lt_of_lt hpos),
      Bool.bne_false]
  · rintro s p words frame raw hoffsets rfl rfl rfl
    exact Arc.resolve_aroundOneCircle E hoffsets hr hopposed

def Elementary.tabulated (angles : List ((Float × Float) × Float)) : Elementary Float where
  hypot := onAxes.hypot
  sin := onAxes.sin
  cos := onAxes.cos
  atan2 y x := (angles.lookup (y, x)).getD (onAxes.atan2 y x)

/-- The angles of the diagonals of a rectangle with the sides six and eight. -/
def Elementary.onDiagonals : Elementary Float := tabulated
  [((-4, -3), -2.214297435588181), ((-4, 3), -0.9272952180016122),
    ((4, -3), 2.214297435588181), ((4, 3), 0.9272952180016122)]

/-- Between the ends of a chord of six, a radius of five. -/
theorem Center.ofRadius_selects_diagonals :
    ofRadius .onDiagonals .clockwise (0, 0) (6, 0) 5 ≠ .error .zeroLengthChord ∧
    Opposed .onDiagonals (0, 0) (6, 0) (choices .onDiagonals (0, 0) (6, 0) 5) ∧
    ofRadius .onDiagonals .clockwise (0, 0) (6, 0) (-5) =
      ofRadius .onDiagonals .counterclockwise (0, 0) (6, 0) 5 ∧
    Arc.AroundOneCircle .onDiagonals
      (Arc.resolve .onDiagonals (.of 10 6 1e-9) .clockwise .origin
        (AxisWords.withRadius { x := some 6 } (-5)) {})
      (Arc.resolve .onDiagonals (.of 10 6 1e-9) .counterclockwise .origin
        (AxisWords.withRadius { x := some 6 } 5) {}) := by
  have hok : (ofRadius .onDiagonals .clockwise (0, 0) (6, 0) 5).isOk = true := by decide +kernel
  have hne : ofRadius .onDiagonals .clockwise (0, 0) (6, 0) 5 ≠ .error .zeroLengthChord := by
    intro h
    rw [h] at hok
    cases hok
  have hopposed : Opposed .onDiagonals (0, 0) (6, 0) (choices .onDiagonals (0, 0) (6, 0) 5) := by
    decide +kernel
  have hn : (5 : Float).isNaN = false := by decide +kernel
  have h0 : ((5 : Float) == 0) = false := by decide +kernel
  obtain ⟨-, hneg, haround⟩ := (ofRadius_selects hn h0 hne).2 hopposed
  have hstart : Plane.planar .xy (Position.origin : Position Float) = (0, 0) := by decide +kernel
  have htarget : Plane.planar .xy (Frame.target {} .origin { x := some (6 : Float) }) = (6, 0) := by
    decide +kernel
  have hradius : Units.toMm .millimeters (5 : Float) = 5 := by decide +kernel
  exact ⟨hne, hopposed, hneg, haround (.of 10 6 1e-9) .origin { x := some 6 } {} 5 rfl hstart htarget
    hradius⟩

/-- The angles of four directions close to the axis on which the cut lies. -/
def Elementary.nearCut : Elementary Float := tabulated
  [((-1073741823.5, -1152921504606846976), -3.1415926526584705),
    ((-1073741824.5, -1152921504606846976), -3.1415926526584705),
    ((1073741824.5, 1152921504606846976), 9.313225750491594e-10),
    ((1073741823.5, 1152921504606846976), 9.313225741817976e-10)]

theorem Arc.exists_of_sweep {e : Except Refusal (Fitted Float)} {x : Float}
    (h : e.toOption.map (·.arc.sweep) = some x) : ∃ f, e = .ok f ∧ f.arc.sweep = x := by
  cases e with
  | error why => cases h
  | ok f => exact ⟨f, rfl, Option.some.inj h⟩

/-- About a centre so far away that start and target are seen at one angle, both lines go around the
whole circle. The other centre lies to the side where angles are fine enough to tell them apart. -/
theorem Arc.resolve_both_full :
    Center.Opposed .nearCut (0, 0) (9.31322574615478515625e-10, -1)
      (Center.choices .nearCut (0, 0) (9.31322574615478515625e-10, -1) 1152921504606846976) ∧
    ∃ f g, resolve .nearCut (.of 10 6 1e-9) .clockwise .origin (AxisWords.withRadius
        { x := some 9.31322574615478515625e-10, y := some (-1) } (-1152921504606846976)) {} = .ok f ∧
      resolve .nearCut (.of 10 6 1e-9) .counterclockwise .origin (AxisWords.withRadius
        { x := some 9.31322574615478515625e-10, y := some (-1) } 1152921504606846976) {} = .ok g ∧
      f.arc.sweep = -Scalar.tau ∧ g.arc.sweep = Scalar.tau ∧
      ¬ Turn.FullTurnApart f.arc.sweep g.arc.sweep := by
  refine ⟨by decide +kernel, ?_⟩
  obtain ⟨f, hf, hback⟩ := exists_of_sweep (e := resolve .nearCut (.of 10 6 1e-9) .clockwise .origin
    (AxisWords.withRadius { x := some 9.31322574615478515625e-10, y := some (-1) }
      (-1152921504606846976)) {}) (x := -Scalar.tau) (by decide +kernel)
  obtain ⟨g, hg, hforth⟩ := exists_of_sweep (e := resolve .nearCut (.of 10 6 1e-9) .counterclockwise
    .origin (AxisWords.withRadius { x := some 9.31322574615478515625e-10, y := some (-1) }
      1152921504606846976) {}) (x := Scalar.tau) (by decide +kernel)
  refine ⟨f, g, hf, hg, hback, hforth, ?_⟩
  rw [hback, hforth]
  decide +kernel

end Toolpath
