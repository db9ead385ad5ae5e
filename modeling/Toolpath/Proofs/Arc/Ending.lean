import Toolpath.Proofs.Arc.Points
import Toolpath.Proofs.Double.Identities
import Toolpath.Proofs.Double.Nonnegative

/-! # Where the points shown of an arc end

The last sample is taken at the very end of the sweep, for a number divided by itself is one. The
same point decides whether the target follows. So the points end with the target or with a point
within the tolerance of it; that the distance of the two is a number is where the laws of the
elementary functions come in.
-/
namespace Toolpath

open Double

theorem Position.zero_le_distanceTo {p q : Position Float} (hp : p.IsNumber)
    (hq : q.isFinite = true) : 0 ≤ p.distanceTo q := by
  obtain ⟨hx, hy, hz⟩ := Position.isFinite_iff.mp hq
  have hsq {a b : Float} (ha : a.isNaN = false) (hb : b.isFinite = true) :
      0 ≤ (a - b) * (a - b) := zero_le_mul_self (isNaN_sub_of_isFinite ha hb)
  exact zero_le_sqrt (zero_le_add (zero_le_add (hsq hp.x hx) (hsq hp.y hy)) (hsq hp.z hz))

/-- A path ends at a position, or within the tolerance of it. -/
def Reaches (tolerance : Float) (path : List (Position Float)) (p : Position Float) : Prop :=
  ∃ last, path.getLast? = some last ∧ (last = p ∨ last.distanceTo p ≤ tolerance)

namespace Reaches
variable {tolerance : Float} {path more : List (Position Float)} {p : Position Float}

theorem singleton : Reaches tolerance [p] p := ⟨p, rfl, .inl rfl⟩

theorem ne_nil (h : Reaches tolerance path p) : path ≠ [] := by
  obtain ⟨last, hlast, -⟩ := h
  rintro rfl
  cases hlast

theorem append (h : Reaches tolerance more p) : Reaches tolerance (path ++ more) p := by
  obtain ⟨last, hlast, hnear⟩ := h
  exact ⟨last, by simp [List.getLast?_append, hlast], hnear⟩

end Reaches

theorem fraction_last {n : ℕ} (h0 : 0 < n) (hn : n ≤ 2 ^ 64) : fraction (n - 1) n = 1 := by
  obtain ⟨hfin, hone, -⟩ := ofNat_range h0 hn
  unfold fraction
  rw [Nat.sub_add_cancel h0]
  exact div_self_eq hfin (zero_lt_one.trans_le hone).ne'

theorem Samples.getLast?_toList {α : Type} [Scalar α] (E : Elementary α) {s : Samples α}
    (h : s.next < s.size) : (s.toList E).getLast? = some (s.point E (s.size - 1)) := by
  have hne : s.remaining ≠ 0 := by
    unfold remaining
    omega
  have hend : s.next + s.remaining - 1 = s.size - 1 := by
    unfold remaining
    omega
  rw [toList, List.getLast?_map, List.getLast?_range', if_neg hne, hend]
  rfl

namespace Arc
variable {E : Elementary Float} {a : Arc Float}

/-- Whether the number of all points is one more than a machine word holds. -/
def Wraps {α : Type} (a : Arc α) : Prop := a.closes = true ∧ a.count = Sampling.maxCount

theorem size_samples_of_wraps {α : Type} {a : Arc α} (h : a.Wraps) : a.samples.size = 0 := by
  change (a.count + if a.closes then 1 else 0) % UInt64.size = 0
  rw [h.1, h.2]
  rfl

theorem size_samples {α : Type} {a : Arc α} (h : a.count ≤ Sampling.maxCount) (hw : ¬ a.Wraps) :
    a.samples.size = a.count + if a.closes then 1 else 0 := by
  have hmax : Sampling.maxCount < UInt64.size := by decide
  apply Nat.mod_eq_of_lt
  change a.count + (if a.closes then 1 else 0) < UInt64.size
  split
  next hc =>
    have hne : a.count ≠ Sampling.maxCount := fun hcount => hw ⟨hc, hcount⟩
    omega
  next => omega

theorem not_wraps_of_lt {α : Type} {a : Arc α} (h : a.count < Sampling.maxCount) : ¬ a.Wraps :=
  fun hw => h.ne hw.2

theorem getLast?_samples (h0 : 0 < a.count) (hn : a.count < Sampling.maxCount) :
    (a.samples.toList E).getLast? = some (if a.closes then a.target else a.pointAt E 1) := by
  have hsize := size_samples hn.le (not_wraps_of_lt hn)
  have hnext : a.samples.next < a.samples.size := by
    change 0 < _
    omega
  rw [Samples.getLast?_toList E hnext]
  change some (if a.samples.size - 1 < a.count then
    a.pointAt E (fraction (a.samples.size - 1) a.count) else a.target) = _
  cases hc : a.closes with
  | true =>
    have hlast : a.samples.size - 1 = a.count := by simp [hsize, hc]
    simp [hlast]
  | false =>
    have hlast : a.samples.size - 1 = a.count - 1 := by simp [hsize, hc]
    have hlt : a.count - 1 < a.count := by omega
    have hle : a.count ≤ 2 ^ 64 := hn.le.trans (by decide)
    simp [hlast, hlt, fraction_last h0 hle]

/-- The points shown of an arc that a line resolves to end near its target. -/
theorem resolve_reaches (hE : E.Lawful) {s : Sampling Float} {turn : Turn} {start : Position Float}
    {words : AxisWords Float} {frame : Frame} {fitted : Fitted Float} (hs : start.isFinite = true)
    (hmin : s.minimum ≤ 2 ^ 64) (htol : 0 ≤ s.tolerance)
    (h : resolve E s turn start words frame = .ok fitted)
    (hroom : fitted.arc.count < Sampling.maxCount) :
    Reaches s.tolerance (fitted.arc.samples.toList E) fitted.arc.target := by
  obtain ⟨hw, -, -, hstart, -, hcount⟩ := resolve_ok h
  have hcloses := resolve_closes h
  have h0 : 0 < fitted.arc.count := hcount ▸ (s.count_range hmin fitted.arc.sweep).1
  refine ⟨_, getLast?_samples h0 hroom, ?_⟩
  by_cases hlt : s.tolerance < (fitted.arc.pointAt E 1).distanceTo fitted.arc.target
  · left
    simp [hcloses, hlt]
  · right
    have hnumber := pointAt_isNumber hE hw (hstart ▸ hs) isFinite_one (by simp) (by simp)
    have hdist := Position.zero_le_distanceTo hnumber hw.target_finite
    simp only [hcloses, hlt, decide_false, Bool.false_eq_true, ↓reduceIte]
    exact (not_lt_iff_le (le_iff.mp htol).2.1 (le_iff.mp hdist).2.1).mp hlt

end Arc
end Toolpath
