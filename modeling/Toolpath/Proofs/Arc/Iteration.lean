import Toolpath.Evaluation
import Toolpath.Proofs.Arc.Ending

/-! # The points of an arc, one after the other

Whoever shows an arc asks for the next point until there is none. The number of points passed never
exceeds that of all points, so what is left can be told without a call. The number of all points is
a machine word: with the most points that a sweep can have, the target behind them turns it to zero,
and then nothing is shown.
-/
namespace Toolpath

namespace Samples
variable {α : Type} [Scalar α] (E : Elementary α)

def advance (s : Samples α) : Samples α := ((s.next? E).map Prod.snd).getD s

inductive Drains : Samples α → List (Position α) → Prop where
  | stop {s : Samples α} (exhausted : s.next? E = none) : Drains s []
  | point {s rest : Samples α} {p : Position α} {points : List (Position α)}
      (yields : s.next? E = some (p, rest)) (drains : Drains rest points) : Drains s (p :: points)

variable {E} {s : Samples α}

theorem next?_of_lt (h : s.next < s.size) :
    s.next? E = some (s.point E s.next, { s with next := s.next + 1 }) := if_pos h

theorem next?_of_le (h : s.size ≤ s.next) : s.next? E = none := if_neg h.not_gt

theorem advance_of_lt (h : s.next < s.size) : s.advance E = { s with next := s.next + 1 } := by
  simp [advance, next?_of_lt h]

theorem advance_of_le (h : s.size ≤ s.next) : s.advance E = s := by
  simp [advance, next?_of_le h]

theorem drains_toList (s : Samples α) : s.Drains E (s.toList E) := by
  induction hn : s.remaining generalizing s with
  | zero =>
    have hle : s.size ≤ s.next := Nat.sub_eq_zero_iff_le.mp hn
    have hnil : s.toList E = [] := List.length_eq_zero_iff.mp (by rw [length_toList, hn])
    rw [hnil]
    exact .stop (next?_of_le hle)
  | succ n ih =>
    have hlt : s.next < s.size := Nat.lt_of_sub_eq_succ hn
    have hnext := next?_of_lt (E := E) hlt
    have hrest : ({ s with next := s.next + 1 } : Samples α).remaining = n := by
      change s.size - s.next = n + 1 at hn
      change s.size - (s.next + 1) = n
      omega
    rw [toList_eq_of_next? E hnext]
    exact .point hnext (ih _ hrest)

theorem Drains.eq_toList {points : List (Position α)} (h : s.Drains E points) :
    points = s.toList E := by
  induction h with
  | @stop s exhausted =>
    have hle : s.size ≤ s.next := by
      by_contra hlt
      cases exhausted.symm.trans (next?_of_lt (not_le.mp hlt))
    symm
    apply List.length_eq_zero_iff.mp
    rw [length_toList]
    exact Nat.sub_eq_zero_of_le hle
  | point yields _ ih =>
    rw [ih]
    exact (toList_eq_of_next? E yields).symm

/-- The points passed are as many as the calls, until all have been passed. -/
theorem iterate_advance (h : s.next ≤ s.size) (k : ℕ) :
    (advance E)^[k] s = { s with next := min (s.next + k) s.size } := by
  induction k with
  | zero => rw [Function.iterate_zero_apply, Nat.add_zero, min_eq_left h]
  | succ k ih =>
    rw [Function.iterate_succ_apply', ih]
    by_cases hlt : s.next + k < s.size
    · have hmin : min (s.next + k) s.size = s.next + k := by omega
      have hmin' : min (s.next + (k + 1)) s.size = s.next + k + 1 := by omega
      rw [hmin, hmin']
      exact advance_of_lt hlt
    · have hmin : min (s.next + k) s.size = s.size := by omega
      have hmin' : min (s.next + (k + 1)) s.size = s.size := by omega
      rw [hmin, hmin']
      exact advance_of_le le_rfl

theorem toList_advance (s : Samples α) : (s.advance E).toList E = (s.toList E).tail := by
  by_cases hlt : s.next < s.size
  · rw [toList_eq_of_next? E (next?_of_lt hlt), advance_of_lt hlt, List.tail_cons]
  · have hle := not_lt.mp hlt
    have hnil : s.toList E = [] := (Drains.stop (next?_of_le hle)).eq_toList.symm
    rw [advance_of_le hle, hnil, List.tail_nil]

theorem toList_iterate_advance (s : Samples α) (k : ℕ) :
    ((advance E)^[k] s).toList E = (s.toList E).drop k := by
  induction k with
  | zero => rfl
  | succ k ih => rw [Function.iterate_succ_apply', toList_advance, ih, List.tail_drop]

end Samples

namespace Arc

/-- Calls for the points of an arc give `n` points: those of the sweep, evenly spaced, and the
target behind them. What is left is known at any time, and the arc can be iterated anew. -/
structure Iterates (E : Elementary Float) (a : Arc Float) (n : ℕ) : Prop where
  length : (a.samples.toList E).length = n
  drains (points : List (Position Float)) :
    a.samples.Drains E points ↔ points = a.samples.toList E
  anew (k : ℕ) : ((Samples.advance E)^[k] a.samples).arc.samples = a.samples
  within (k : ℕ) :
    ((Samples.advance E)^[k] a.samples).next ≤ ((Samples.advance E)^[k] a.samples).size
  remaining (k : ℕ) : ((Samples.advance E)^[k] a.samples).remaining = n - k
  rest (k : ℕ) : ((Samples.advance E)^[k] a.samples).Drains E ((a.samples.toList E).drop k)
  yields (k : ℕ) : (((Samples.advance E)^[k] a.samples).next? E).map Prod.fst =
    if k < n then some (if k < a.count then a.pointAt E (fraction k a.count) else a.target)
    else none

theorem iterates (E : Elementary Float) (a : Arc Float) : a.Iterates E a.samples.size := by
  have hafter (k : ℕ) : (Samples.advance E)^[k] a.samples = ⟨a, min k a.samples.size⟩ := by
    have h := Samples.iterate_advance (E := E) (s := a.samples) (Nat.zero_le _) k
    rwa [show a.samples.next + k = k from Nat.zero_add k] at h
  constructor
  case length => exact Samples.length_toList E a.samples
  case drains =>
    intro points
    constructor
    · exact Samples.Drains.eq_toList
    · rintro rfl
      exact Samples.drains_toList _
  case anew =>
    intro k
    rw [hafter, samples]
  case within =>
    intro k
    rw [hafter]
    exact min_le_right _ _
  case remaining =>
    intro k
    rw [hafter]
    change a.samples.size - min k a.samples.size = _
    omega
  case rest =>
    intro k
    rw [← Samples.toList_iterate_advance]
    exact Samples.drains_toList _
  case yields =>
    intro k
    rw [hafter]
    by_cases hk : k < a.samples.size
    · rw [min_eq_left hk.le, Samples.next?_of_lt hk, if_pos hk]
      rfl
    · have hle := not_lt.mp hk
      rw [min_eq_right hle, Samples.next?_of_le le_rfl, if_neg hk]
      rfl

end Arc

theorem Sampling.count_settings (s : Settings) (sweep : Float) :
    1 ≤ s.sampling.count sweep ∧ s.sampling.count sweep ≤ maxCount := by
  have hmin : max s.minSamples.toNat 1 ≤ maxCount := by
    have h := s.minSamples.toNat_lt
    change max s.minSamples.toNat 1 ≤ 2 ^ 64 - 1
    omega
  exact ⟨le_max_of_le_right s.sampling.one_le_minimum, max_le (min_le_right _ _) hmin⟩

/-- The points of an arc that a line resolves to are those of the sweep, at least one, and the
target behind them, unless the word for their number wraps, and then there is none. -/
theorem Arc.resolve_iterates {E : Elementary Float} {s : Settings} {turn : Turn}
    {start : Position Float} {words : AxisWords Float} {frame : Frame} {fitted : Fitted Float}
    (h : resolve E s.sampling turn start words frame = .ok fitted) :
    1 ≤ fitted.arc.count ∧ fitted.arc.count ≤ Sampling.maxCount ∧
    (¬ fitted.arc.Wraps →
      fitted.arc.Iterates E (fitted.arc.count + if fitted.arc.closes then 1 else 0)) ∧
    (fitted.arc.Wraps → fitted.arc.Iterates E 0) := by
  obtain ⟨-, -, -, -, -, hcount⟩ := resolve_ok h
  obtain ⟨h1, hmax⟩ := Sampling.count_settings s fitted.arc.sweep
  rw [← hcount] at h1 hmax
  have hall := fitted.arc.iterates E
  refine ⟨h1, hmax, ?_, ?_⟩
  · intro hw
    rwa [size_samples hmax hw] at hall
  · intro hw
    rwa [size_samples_of_wraps hw] at hall

/-- With the most points that settings can ask for, half a circle that ends off its target is not
shown at all. -/
theorem Arc.resolve_iterates_most :
    Settings.violation? { minSamples := 18446744073709551615 } = none ∧
    ∃ fitted, resolve .onAxes (Settings.sampling { minSamples := 18446744073709551615 }) .clockwise
      .origin { x := some 3, i := some 1 } {} = .ok fitted ∧
      fitted.arc.Wraps ∧ fitted.arc.Iterates .onAxes 0 := by
  have hrun : (match resolve .onAxes (Settings.sampling { minSamples := 18446744073709551615 })
      .clockwise .origin { x := some 3, i := some 1 } {} with
    | .ok f => f.arc.closes && f.arc.count == Sampling.maxCount
    | .error _ => false) = true := by decide +kernel
  refine ⟨by decide +kernel, ?_⟩
  split at hrun
  next fitted h =>
    have hw : fitted.arc.Wraps := by simpa [Wraps] using hrun
    exact ⟨fitted, h, hw, (resolve_iterates h).2.2.2 hw⟩
  next => cases hrun

end Toolpath
