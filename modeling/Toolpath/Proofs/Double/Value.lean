import Toolpath.Proofs.Double.Arithmetic

/-! # Values of doubles

`toReal` is the real number that a finite double is, and `value` adds the infinities. Arithmetic on
finite doubles gives the rounded exact result, `IsRounded`, and comparison is comparison of values.
What follows of computed numbers is read off the reals: whether they are finite, and their bounds.
-/
namespace Toolpath.Double
open Float.Model Float.Model.UnpackedFloat

/-- The real number that a finite double is; zero for all others. -/
noncomputable def toReal (x : Float) : ℝ := realOf x.toModel.unpack

noncomputable def value (x : Float) : EReal := valueOf x.toModel.unpack

theorem settled_unpack {x : Float} (h : x.isFinite = true) : Settled x.toModel.unpack :=
  ⟨canonical_unpack _, settle_unpack _, h⟩

theorem isGrid_toReal (x : Float) : IsGrid (toReal x) :=
  isGrid_realOf (canonical_unpack _) (settle_unpack _)

theorem value_of_isFinite {x : Float} (h : x.isFinite = true) : value x = (toReal x : EReal) := by
  unfold value toReal
  change x.toModel.unpack.isFinite = true at h
  cases hx : x.toModel.unpack with
  | infinity s => rw [hx] at h; cases h
  | _ => rfl

theorem isNaN_of_isFinite {x : Float} (h : x.isFinite = true) : x.isNaN = false := by
  change x.toModel.unpack.isFinite = true at h
  change x.toModel.unpack.isNaN = false
  cases hx : x.toModel.unpack with
  | notANumber => rw [hx] at h; cases h
  | _ => rfl

theorem isFinite_of_value {x : Float} (h : x.isNaN = false) {r : ℝ} (hr : value x = r) :
    x.isFinite = true := by
  change x.toModel.unpack.isNaN = false at h
  unfold value at hr
  change x.toModel.unpack.isFinite = true
  cases hx : x.toModel.unpack with
  | notANumber => rw [hx] at h; cases h
  | infinity s =>
    rw [hx] at hr
    cases s
    · exact absurd hr.symm (EReal.coe_ne_bot r)
    · exact absurd hr.symm (EReal.coe_ne_top r)
  | _ => rfl

structure IsRounded (z : Float) (r : ℝ) : Prop where
  not_nan : z.isNaN = false
  value_eq : value z = rounded r

theorem Rounds.isRounded {u : UnpackedFloat} {r : ℝ} (h : Rounds u r) :
    IsRounded (.ofModel (.pack u)) r := by
  have hpack : (Float.ofModel (.pack u)).toModel.unpack = settle u := unpack_pack h.canonical
  constructor
  · change (Float.ofModel (.pack u)).toModel.unpack.isNaN = false
    rw [hpack]
    have hf := h.isFinite
    cases u with
    | notANumber => cases hf
    | finite s m e hm =>
      change (if e ≤ 971 then finite s m e hm else infinity s).isNaN = false
      split_ifs <;> rfl
    | _ => rfl
  · unfold value
    rw [hpack]
    exact valueOf_settle h.canonical h.isFinite h.realOf_eq

theorem isRounded_infinity {r : ℝ} (h : overflow ≤ r) :
    IsRounded (.ofModel (.pack (.infinity .positive))) r where
  not_nan := by
    change (Float.Model.pack (.infinity .positive)).unpack.isNaN = false
    rw [unpack_pack (u := .infinity .positive) trivial]
    rfl
  value_eq := by
    unfold value
    change valueOf (Float.Model.pack (.infinity .positive)).unpack = _
    rw [unpack_pack (u := .infinity .positive) trivial, rounded, if_pos h]
    rfl

theorem IsRounded.isFinite_iff {z : Float} {r : ℝ} (h : IsRounded z r) :
    z.isFinite = true ↔ |r| < overflow := by
  constructor
  · intro hz
    have hv := (value_of_isFinite hz).symm.trans h.value_eq
    rw [abs_lt]
    constructor
    · by_contra hle
      have hr : r ≤ -overflow := not_lt.mp hle
      have hnot : ¬ overflow ≤ r := by linarith [overflow_pos]
      rw [rounded, if_neg hnot, if_pos hr] at hv
      exact EReal.coe_ne_bot _ hv
    · by_contra hle
      rw [rounded, if_pos (not_lt.mp hle)] at hv
      exact EReal.coe_ne_top _ hv
  · intro hr
    exact isFinite_of_value h.not_nan (h.value_eq.trans (rounded_of_lt hr))

theorem IsRounded.toReal_eq {z : Float} {r : ℝ} (h : IsRounded z r) (hz : z.isFinite = true) :
    toReal z = signedNearest r := by
  have hv := (value_of_isFinite hz).symm.trans h.value_eq
  rw [rounded_of_lt (h.isFinite_iff.mp hz)] at hv
  exact EReal.coe_injective hv

section
variable {x y : Float} (hx : x.isFinite = true) (hy : y.isFinite = true)
include hx hy

theorem isRounded_add : IsRounded (x + y) (toReal x + toReal y) :=
  (rounds_add (settled_unpack hx) (settled_unpack hy)).isRounded

theorem isRounded_sub : IsRounded (x - y) (toReal x - toReal y) :=
  (rounds_sub (settled_unpack hx) (settled_unpack hy)).isRounded

theorem isRounded_mul : IsRounded (x * y) (toReal x * toReal y) :=
  (rounds_mul (settled_unpack hx) (settled_unpack hy)).isRounded

theorem isRounded_div (h0 : toReal y ≠ 0) : IsRounded (x / y) (toReal x / toReal y) :=
  (rounds_div (settled_unpack hx) (settled_unpack hy) h0).isRounded

end

/-- Bounds by doubles survive rounding. -/
theorem IsRounded.le_of_le {z : Float} {r b : ℝ} (h : IsRounded z r) (hz : z.isFinite = true)
    (hb : IsGrid b) (hr : r ≤ b) : toReal z ≤ b := by
  rw [h.toReal_eq hz, ← hb.signedNearest_eq]
  exact signedNearest_mono hr

theorem IsRounded.ge_of_ge {z : Float} {r b : ℝ} (h : IsRounded z r) (hz : z.isFinite = true)
    (hb : IsGrid b) (hr : b ≤ r) : b ≤ toReal z := by
  rw [h.toReal_eq hz, ← hb.signedNearest_eq]
  exact signedNearest_mono hr

theorem IsRounded.isFinite_of_le {z : Float} {r b : ℝ} (h : IsRounded z r) (hb : IsGrid b)
    (hr : |r| ≤ |b|) : z.isFinite = true :=
  h.isFinite_iff.mpr (hr.trans_lt hb.lt_overflow)

end Toolpath.Double
