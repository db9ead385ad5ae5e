import Toolpath.Proofs.Arc.Elementary
import Toolpath.Proofs.Double.Decimal
import Toolpath.Proofs.Machine.Distance
import Toolpath.Proofs.Machine.Findings
import Toolpath.Proofs.Machine.Words

/-! # How far straight moves reach

A straight move is refused if its target leaves the range of numbers, if it takes too long, or if
the square of its distance is too large. The last is where a move can be refused although target,
distance and time are all in range.
-/
namespace Toolpath

open Double

theorem isFinite_of_lastNumber {letter : Char} {words : List Word} {v : Float}
    (h : lastNumber letter words = some v) : v.isFinite = true := by
  obtain ⟨w, -, hw⟩ := List.mem_filterMap.mp (List.mem_of_getLast? h)
  exact (Option.filter_eq_some_iff.mp hw).2

namespace Frame

/-- Whether the coordinate that a number asks for is out of range, be it in the number itself or in
the sum that incremental mode makes of it. -/
def Leaves (f : Frame) (current : Float) : Option Float → Prop
  | none => False
  | some raw => overflow ≤ |toReal raw * toReal f.units.factor| ∨
      (f.distance = .incremental ∧ overflow ≤ |toReal current + toReal (f.units.toMm raw)|)

theorem coordinate_isFinite_iff (f : Frame) {current : Float} {number : Option Float}
    (hc : current.isFinite = true) (hn : ∀ raw, number = some raw → raw.isFinite = true) :
    (f.coordinate current number).isFinite = true ↔ ¬ f.Leaves current number := by
  cases number with
  | none => exact iff_of_true hc not_false
  | some raw =>
    have hfactor : (f.units.factor : Float).isFinite = true := by
      cases f.units <;> decide +kernel
    have hmm : (f.units.toMm raw).isFinite = true ↔ |toReal raw * toReal f.units.factor| < overflow :=
      (isRounded_mul (hn raw rfl) hfactor).isFinite_iff
    unfold coordinate Leaves
    rw [not_or, not_le, ← hmm]
    cases f.distance with
    | absolute => simp
    | incremental =>
      constructor
      · intro hfin
        have hraw := (isFinite_of_add hfin).2
        refine ⟨hraw, fun hover => ?_⟩
        exact ((isRounded_add hc hraw).isFinite_iff.mp hfin).not_ge hover.2
      · rintro ⟨hraw, hover⟩
        rw [(isRounded_add hc hraw).isFinite_iff]
        exact not_le.mp fun h => hover ⟨rfl, h⟩

def TargetLeaves (f : Frame) (p : Position Float) (words : AxisWords Float) : Prop :=
  f.Leaves p.x words.x ∨ f.Leaves p.y words.y ∨ f.Leaves p.z words.z

end Frame

namespace Machine
variable {E : Elementary Float} {s : Sampling Float} {m : Machine} {line : List Char} {b : Block}

/-- The target of a block is finite just if none of its coordinates is out of range. -/
theorem target_isFinite_iff (hm : m.position.isFinite = true) (hb : m.blockOf? line = some b) :
    (b.modal.target m.position b.words).isFinite = true ↔
      ¬ b.modal.TargetLeaves m.position b.words := by
  obtain ⟨text, -, rfl⟩ := Option.map_eq_some_iff.mp hb
  obtain ⟨hx, hy, hz⟩ := Block.scan_axes m.modal (Word.split text)
  obtain ⟨hmx, hmy, hmz⟩ := Position.isFinite_iff.mp hm
  rw [Position.isFinite_iff, Frame.TargetLeaves, not_or, not_or]
  refine and_congr ?_ (and_congr ?_ ?_)
  · exact Frame.coordinate_isFinite_iff _ hmx fun raw hraw => isFinite_of_lastNumber (hx ▸ hraw)
  · exact Frame.coordinate_isFinite_iff _ hmy fun raw hraw => isFinite_of_lastNumber (hy ▸ hraw)
  · exact Frame.coordinate_isFinite_iff _ hmz fun raw hraw => isFinite_of_lastNumber (hz ▸ hraw)

/-- What makes a straight move of a block too long for a limit. -/
def Overreaches (m : Machine) (b : Block) (kind : Motion) (limit : ℝ) : Prop :=
  b.modal.TargetLeaves m.position b.words ∨
  Exceeds m.position (b.modal.target m.position b.words) (b.modal.feedOf kind) limit

variable {kind : Motion}

theorem refused_iff (hb : m.blockOf? line = some b) (hperforms : b.performs = some kind)
    (hstraight : kind.isArc = false) :
    .refused .coordinateOverflow ∈ (m.step E s line).findings ↔
      ((b.modal.target m.position b.words).isFinite &&
        isRepresentable (m.position.distanceTo (b.modal.target m.position b.words))
          (b.modal.feedOf kind)) = false := by
  rcases step_cases E s m line with
    ⟨hidle, -⟩ | ⟨b', kind', travel, findings, hb', hperforms', hmakes, hstep⟩
  · rw [hb, Option.bind_some, hperforms] at hidle
    cases hidle
  · obtain rfl : b = b' := Option.some.inj (hb.symm.trans hb')
    obtain rfl : kind = kind' := Option.some.inj (hperforms.symm.trans hperforms')
    rw [hstep]
    change _ ∈ findings ↔ _
    cases hmakes with
    | straight _ target_finite fits =>
      refine iff_of_false (refused_notMem_feedFindings _ _) ?_
      simpa using ⟨target_finite, fits⟩
    | straightRefused _ too_far => exact iff_of_true (List.mem_singleton_self _) too_far
    | along => cases hstraight
    | arcRefused => cases hstraight
    | arcTooLong => cases hstraight

/-- A straight move is refused just if it overreaches the range of numbers, where the square of the
distance stands for the distance, and the limit is told within eight units. -/
theorem step_refused (hm : m.position.isFinite = true) (hb : m.blockOf? line = some b)
    (hperforms : b.performs = some kind) (hstraight : kind.isArc = false) :
    (m.Overreaches b kind (overflow * (1 + 8 * unit)) →
      .refused .coordinateOverflow ∈ (m.step E s line).findings) ∧
    (.refused .coordinateOverflow ∈ (m.step E s line).findings →
      m.Overreaches b kind (overflow * (1 - 8 * unit))) := by
  rw [refused_iff hb hperforms hstraight, Bool.and_eq_false_iff, ← Bool.not_eq_true,
    target_isFinite_iff hm hb, not_not]
  constructor
  · rintro (hleaves | hexceeds)
    · exact .inl hleaves
    · by_cases hleaves : b.modal.TargetLeaves m.position b.words
      · exact .inl hleaves
      · have htarget := (target_isFinite_iff hm hb).mpr hleaves
        exact .inr ((isRepresentable_distanceTo hm htarget _).1 hexceeds)
  · rintro (hleaves | hrefused)
    · exact .inl hleaves
    · by_cases hleaves : b.modal.TargetLeaves m.position b.words
      · exact .inl hleaves
      · have htarget := (target_isFinite_iff hm hb).mpr hleaves
        exact .inr ((isRepresentable_distanceTo hm htarget _).2 hrefused)

theorem square_origin {t : Position Float} (h : t.isFinite = true) (hy : (t.y == 0) = true)
    (hz : (t.z == 0) = true) : √(Position.origin.square t) = |toReal t.x| := by
  obtain ⟨-, hfy, hfz⟩ := Position.isFinite_iff.mp h
  have hy0 : toReal t.y = 0 := (beq_iff_toReal hfy isFinite_zero).mp hy
  have hz0 : toReal t.z = 0 := (beq_iff_toReal hfz isFinite_zero).mp hz
  have horigin : toReal (Position.origin : Position Float).x = 0 ∧
      toReal (Position.origin : Position Float).y = 0 ∧
      toReal (Position.origin : Position Float).z = 0 := ⟨rfl, rfl, rfl⟩
  rw [Position.square, horigin.1, horigin.2.1, horigin.2.2, hy0, hz0]
  simp [Real.sqrt_mul_self_eq_abs]

/-- A move of `10 ^ 200` millimeters along an axis is refused for its square, although its target,
its distance and its time are in range. -/
theorem step_refused_square :
    ∃ b, (Machine.mk default .origin).blockOf? ("G1 X1".toList ++ List.replicate 200 '0') = some b ∧
      b.performs = some .linear ∧
      Overreaches ⟨default, .origin⟩ b .linear (overflow * (1 - 8 * unit)) ∧
      ¬ b.modal.TargetLeaves .origin b.words ∧
      √(Position.origin.square (b.modal.target .origin b.words)) /
        toReal (b.modal.feedOf .linear) * 60 < overflow := by
  have hrun : (match (Machine.mk default .origin).blockOf?
        ("G1 X1".toList ++ List.replicate 200 '0') with
    | some b => b.performs == some .linear && (b.modal.target .origin b.words).isFinite &&
        decide (0 ≤ (b.modal.target .origin b.words).x) &&
        decide ((b.modal.target .origin b.words).x ≤ 1e201) &&
        (b.modal.feedOf .linear).isFinite && decide (1 ≤ b.modal.feedOf .linear) &&
        (b.modal.target .origin b.words).y == 0 && (b.modal.target .origin b.words).z == 0
    | none => false) = true := by decide +kernel
  have hrefused : .refused .coordinateOverflow ∈
      ((Machine.mk default .origin).step .onAxes (.of 10 6 1e-9)
        ("G1 X1".toList ++ List.replicate 200 '0')).findings := by decide +kernel
  split at hrun
  next b hb =>
    simp only [Bool.and_eq_true, beq_iff_eq, decide_eq_true_eq] at hrun
    obtain ⟨⟨⟨⟨⟨⟨⟨hperforms, htarget⟩, hx0⟩, hx⟩, hfeed⟩, hfeed1⟩, hy⟩, hz⟩ := hrun
    have horigin : (Position.origin : Position Float).isFinite = true := rfl
    have hover := (step_refused (m := ⟨default, .origin⟩) horigin hb hperforms rfl).2 hrefused
    have hleaves := (target_isFinite_iff (m := ⟨default, .origin⟩) horigin hb).mp htarget
    refine ⟨b, hb, hperforms, hover, hleaves, ?_⟩
    have hfx := (Position.isFinite_iff.mp htarget).1
    have hfar : (1e201 : Float).isFinite = true := by decide +kernel
    have hbound : toReal 1e201 ≤ 2 ^ (670 : ℤ) := by
      refine (isRounded_ofScientific 1 false 201).le_of_le hfar
        (isGrid_zpow (by norm_num) (by norm_num)) ?_
      change ((1 : ℕ) : ℝ) * 10 ^ ((3 * 67 : ℕ) : ℤ) ≤ 2 ^ ((10 * 67 : ℕ) : ℤ)
      rw [Nat.cast_one, one_mul, zpow_natCast, zpow_natCast, pow_mul, pow_mul]
      exact pow_le_pow_left₀ (by norm_num) (by norm_num) 67
    have hD : |toReal (b.modal.target .origin b.words).x| ≤ 2 ^ (670 : ℤ) := by
      rw [abs_of_nonneg ((le_iff_toReal isFinite_zero hfx).mp hx0)]
      exact ((le_iff_toReal hfx hfar).mp hx).trans hbound
    have hone : 1 ≤ toReal (b.modal.feedOf .linear) := by
      rw [← toReal_one]
      exact (le_iff_toReal isFinite_one hfeed).mp hfeed1
    rw [square_origin htarget hy hz]
    refine mul_sixty_lt (((div_le_self (abs_nonneg _) hone).trans hD).trans ?_)
    exact zpow_le_zpow_right₀ one_le_two (by norm_num)
  next => cases hrun

end Machine
end Toolpath
