import Mathlib

/-! # Rounding real numbers to doubles

Around a positive number the doubles are the multiples of a power of two, at least `2 ^ -1074`, that
leaves 53 bits in front of the point. `nearest` takes the nearest multiple, `rounded` extends it
to both signs and to the infinities. All bounds on computed numbers come from two facts: rounding is
monotone, and it leaves the doubles themselves alone.
-/
namespace Toolpath.Double

/-- The nearest integer; a half goes to the even neighbour. -/
noncomputable def nearestInt (x : ℝ) : ℤ :=
  if Int.fract x < 1 / 2 ∨ (Int.fract x = 1 / 2 ∧ Even ⌊x⌋) then ⌊x⌋ else ⌊x⌋ + 1

theorem floor_le_nearestInt (x : ℝ) : ⌊x⌋ ≤ nearestInt x := by
  unfold nearestInt
  split_ifs <;> omega

theorem nearestInt_le_floor_add_one (x : ℝ) : nearestInt x ≤ ⌊x⌋ + 1 := by
  unfold nearestInt
  split_ifs <;> omega

@[simp] theorem nearestInt_intCast (n : ℤ) : nearestInt (n : ℝ) = n := by
  simp [nearestInt]

@[simp] theorem nearestInt_natCast (n : ℕ) : nearestInt (n : ℝ) = n := by
  exact_mod_cast nearestInt_intCast n

theorem nearestInt_mono {x y : ℝ} (h : x ≤ y) : nearestInt x ≤ nearestInt y := by
  have hf : ⌊x⌋ ≤ ⌊y⌋ := Int.floor_mono h
  rcases hf.lt_or_eq with hlt | heq
  · have hx := nearestInt_le_floor_add_one x
    have hy := floor_le_nearestInt y
    omega
  · have hfract : Int.fract x ≤ Int.fract y := by
      unfold Int.fract
      rw [heq]
      linarith
    unfold nearestInt
    rw [heq]
    split_ifs with hx hy hy
    · exact le_rfl
    · omega
    · -- the larger number stays at the floor, so the smaller one does too
      exfalso
      apply hx
      rcases hy with hy | ⟨hy, heven⟩
      · exact .inl (hfract.trans_lt hy)
      · rcases hfract.lt_or_eq with hlt | hsame
        · exact .inl (hlt.trans_eq hy)
        · exact .inr ⟨hsame.trans hy, heven⟩
    · exact le_rfl

/-- The exponent of the distance between the doubles around a positive number. -/
noncomputable def gridExponent (x : ℝ) : ℤ := max (Int.log 2 x - 52) (-1074)

theorem le_gridExponent (x : ℝ) : -1074 ≤ gridExponent x := le_max_right _ _

theorem gridExponent_mono {x y : ℝ} (hx : 0 < x) (h : x ≤ y) : gridExponent x ≤ gridExponent y :=
  max_le_max_right _ (sub_le_sub_right (Int.log_mono_right hx h) _)

theorem lt_of_gridExponent (x : ℝ) : x < 2 ^ (gridExponent x + 53) := by
  have h := Int.lt_zpow_succ_log_self (R := ℝ) (b := 2) (by norm_num) x
  have he : Int.log 2 x + 1 ≤ gridExponent x + 53 := by
    have := le_max_left (Int.log 2 x - 52) (-1074)
    unfold gridExponent
    omega
  calc x < (2 : ℝ) ^ (Int.log 2 x + 1) := by exact_mod_cast h
    _ ≤ 2 ^ (gridExponent x + 53) := zpow_le_zpow_right₀ (by norm_num) he

/-- Above the least exponent a number fills all 53 bits. -/
theorem le_of_lt_gridExponent {x : ℝ} (hx : 0 < x) (h : -1074 < gridExponent x) :
    2 ^ (gridExponent x + 52) ≤ x := by
  have he : gridExponent x + 52 = Int.log 2 x := by
    unfold gridExponent at h ⊢
    omega
  rw [he]
  exact_mod_cast Int.zpow_log_le_self (R := ℝ) (b := 2) (by norm_num) hx

theorem gridExponent_le {x : ℝ} {e : ℤ} (hx : 0 < x) (he : -1074 ≤ e) (h : x < 2 ^ (e + 53)) :
    gridExponent x ≤ e := by
  have hlog : Int.log 2 x < e + 53 :=
    (Int.lt_zpow_iff_log_lt (by norm_num) hx).mp (by exact_mod_cast h)
  unfold gridExponent
  omega

noncomputable def nearest (x : ℝ) : ℝ := nearestInt (x / 2 ^ gridExponent x) * 2 ^ gridExponent x

@[simp] theorem nearest_zero : nearest 0 = 0 := by
  have h := nearestInt_intCast 0
  simp only [Int.cast_zero] at h
  simp [nearest, h]

theorem nearest_nonneg {x : ℝ} (hx : 0 ≤ x) : 0 ≤ nearest x := by
  have h0 : 0 ≤ x / 2 ^ gridExponent x := by positivity
  have h := (Int.floor_nonneg.mpr h0).trans (floor_le_nearestInt _)
  have hc : (0 : ℝ) ≤ nearestInt (x / 2 ^ gridExponent x) := by exact_mod_cast h
  unfold nearest
  positivity

/-- Numbers below a power of two at the end of their grid are not rounded beyond it. -/
theorem nearestInt_le_of_lt {x : ℝ} : nearestInt (x / 2 ^ gridExponent x) ≤ 2 ^ 53 := by
  have hlt : x / 2 ^ gridExponent x < ((2 ^ 53 : ℤ) : ℝ) := by
    rw [div_lt_iff₀ (by positivity)]
    have h := lt_of_gridExponent x
    rw [zpow_add₀ (by norm_num), mul_comm] at h
    push_cast
    exact_mod_cast h
  have h := nearestInt_mono hlt.le
  rwa [nearestInt_intCast] at h

theorem le_nearestInt_of_lt {x : ℝ} (hx : 0 < x) (h : -1074 < gridExponent x) :
    2 ^ 52 ≤ nearestInt (x / 2 ^ gridExponent x) := by
  have hle : ((2 ^ 52 : ℤ) : ℝ) ≤ x / 2 ^ gridExponent x := by
    rw [le_div_iff₀ (by positivity)]
    have h := le_of_lt_gridExponent hx h
    rw [zpow_add₀ (by norm_num), mul_comm] at h
    push_cast
    exact_mod_cast h
  have h := nearestInt_mono hle
  rwa [nearestInt_intCast] at h

theorem nearest_mono {x y : ℝ} (hx : 0 ≤ x) (h : x ≤ y) : nearest x ≤ nearest y := by
  rcases hx.eq_or_lt with rfl | hpos
  · rw [nearest_zero]
    exact nearest_nonneg h
  rcases (gridExponent_mono hpos h).eq_or_lt with heq | hlt
  · unfold nearest
    rw [heq]
    have hdiv : x / (2 : ℝ) ^ gridExponent y ≤ y / 2 ^ gridExponent y :=
      div_le_div_of_nonneg_right h (by positivity)
    have hint : (nearestInt (x / 2 ^ gridExponent y) : ℝ) ≤ nearestInt (y / 2 ^ gridExponent y) := by
      exact_mod_cast nearestInt_mono hdiv
    exact mul_le_mul_of_nonneg_right hint (by positivity)
  · -- the power of two between the two grids separates the results
    have hx' : (nearestInt (x / 2 ^ gridExponent x) : ℝ) ≤ 2 ^ 53 := by
      exact_mod_cast nearestInt_le_of_lt
    have hy' : (2 : ℝ) ^ 52 ≤ nearestInt (y / 2 ^ gridExponent y) := by
      exact_mod_cast le_nearestInt_of_lt (hpos.trans_le h) ((le_gridExponent x).trans_lt hlt)
    calc nearest x ≤ 2 ^ 53 * 2 ^ gridExponent x :=
          mul_le_mul_of_nonneg_right hx' (by positivity)
      _ = 2 ^ 52 * 2 ^ (gridExponent x + 1) := by
          rw [zpow_add₀ (by norm_num)]
          norm_num
          ring
      _ ≤ 2 ^ 52 * 2 ^ gridExponent y :=
          mul_le_mul_of_nonneg_left (zpow_le_zpow_right₀ (by norm_num) hlt) (by positivity)
      _ ≤ nearest y := mul_le_mul_of_nonneg_right hy' (by positivity)

theorem nearest_grid {m : ℕ} {e : ℤ} (hm : m < 2 ^ 53) (he : -1074 ≤ e) :
    nearest (m * 2 ^ e) = m * 2 ^ e := by
  rcases Nat.eq_zero_or_pos m with rfl | hpos
  · simp
  have hx : (0 : ℝ) < m * 2 ^ e := by positivity
  have hle : gridExponent (m * 2 ^ e) ≤ e := by
    apply gridExponent_le hx he
    rw [zpow_add₀ (by norm_num), mul_comm]
    have : (m : ℝ) < 2 ^ (53 : ℤ) := by exact_mod_cast hm
    exact mul_lt_mul_of_pos_left this (by positivity)
  obtain ⟨k, hk⟩ := Int.le.dest hle
  have hint : (m : ℝ) * 2 ^ e / 2 ^ gridExponent (m * 2 ^ e) = ((m * 2 ^ k : ℕ) : ℝ) := by
    rw [div_eq_iff (by positivity)]
    conv_lhs => rw [← hk]
    rw [zpow_add₀ (by norm_num), zpow_natCast]
    push_cast
    ring
  unfold nearest
  rw [hint, nearestInt_natCast, Int.cast_natCast, ← hint]
  exact div_mul_cancel₀ _ (by positivity)

theorem nearestInt_eq {x : ℝ} {n : ℤ} (hlow : n - 1 / 2 ≤ x) (hhigh : x ≤ n + 1 / 2)
    (heven : x = n - 1 / 2 ∨ x = n + 1 / 2 → Even n) : nearestInt x = n := by
  rcases lt_or_ge x n with hx | hx
  · have hfloor : ⌊x⌋ = n - 1 := Int.floor_eq_iff.mpr ⟨by push_cast; linarith, by push_cast; linarith⟩
    have hfract : Int.fract x = x - n + 1 := by
      rw [Int.fract, hfloor]
      push_cast
      ring
    rw [nearestInt, hfract, hfloor, if_neg, sub_add_cancel]
    rintro (hlt | ⟨heq, hodd⟩)
    · linarith
    · have hn := heven (.inl (by linarith))
      rw [Int.even_sub_one] at hodd
      exact hodd hn
  · have hfloor : ⌊x⌋ = n := Int.floor_eq_iff.mpr ⟨hx, by linarith⟩
    have hfract : Int.fract x = x - n := by rw [Int.fract, hfloor]
    rw [nearestInt, hfract, hfloor, if_pos]
    rcases hhigh.lt_or_eq with hlt | heq
    · exact .inl (by linarith)
    · exact .inr ⟨by linarith, heven (.inr heq)⟩

theorem nearestInt_le_of_lt_half {x : ℝ} {n : ℤ} (h : x < n + 1 / 2) : nearestInt x ≤ n := by
  by_cases hn : x < n
  · have h1 := Int.floor_lt.mpr hn
    have h2 := nearestInt_le_floor_add_one x
    omega
  · have hf : ⌊x⌋ = n := Int.floor_eq_iff.mpr ⟨not_lt.mp hn, by linarith⟩
    have hfract : Int.fract x < 1 / 2 := by
      unfold Int.fract
      rw [hf]
      linarith
    rw [nearestInt, if_pos (.inl hfract), hf]

/-- A number below half the least double is rounded to zero. -/
theorem nearest_of_small {r : ℝ} (hr : 0 ≤ r) (h : r < 2 ^ (-1075 : ℤ)) : nearest r = 0 := by
  rcases hr.eq_or_lt with rfl | hpos
  · exact nearest_zero
  have hgrid : gridExponent r = -1074 :=
    le_antisymm (gridExponent_le hpos le_rfl (h.trans (zpow_lt_zpow_right₀ (by norm_num) (by norm_num))))
      (le_gridExponent r)
  have hhalf : r / 2 ^ (-1074 : ℤ) < (0 : ℤ) + 1 / 2 := by
    rw [div_lt_iff₀ (by positivity)]
    refine h.trans_eq ?_
    rw [show (-1075 : ℤ) = -1 + -1074 from rfl, zpow_add₀ two_ne_zero]
    norm_num
  have hle := nearestInt_le_of_lt_half hhalf
  have hge : 0 ≤ nearestInt (r / 2 ^ (-1074 : ℤ)) :=
    (Int.floor_nonneg.mpr (by positivity)).trans (floor_le_nearestInt _)
  rw [nearest, hgrid, le_antisymm hle hge]
  simp

theorem gridExponent_eq {x : ℝ} {e : ℤ} (he : -1074 ≤ e) (hlow : e = -1074 ∨ 2 ^ (e + 52) ≤ x)
    (hx : 0 < x) (hhigh : x < 2 ^ (e + 53)) : gridExponent x = e := by
  refine le_antisymm (gridExponent_le hx he hhigh) ?_
  rcases hlow with rfl | hlow
  · exact le_gridExponent x
  · have h := hlow.trans_lt (lt_of_gridExponent x)
    rw [zpow_lt_zpow_iff_right₀ (by norm_num)] at h
    omega

/-- Half the distance from one to the next double. -/
noncomputable def unit : ℝ := 2 ^ (-53 : ℤ)

noncomputable def underflow : ℝ := 2 ^ (-1075 : ℤ)

/-- Half a step above the largest double, where rounding to infinity begins. -/
noncomputable def overflow : ℝ := 2 ^ (1024 : ℤ) - 2 ^ (970 : ℤ)

theorem zpow_971 : (2 : ℝ) ^ (971 : ℤ) = 2 * 2 ^ (970 : ℤ) := by
  rw [show (971 : ℤ) = 1 + 970 from rfl, zpow_add₀ (by norm_num), zpow_one]

theorem zpow_1024 : (2 : ℝ) ^ (1024 : ℤ) = 2 ^ 54 * 2 ^ (970 : ℤ) := by
  rw [show (1024 : ℤ) = 54 + 970 from rfl, zpow_add₀ (by norm_num)]
  rfl

theorem overflow_eq : overflow = (2 ^ 54 - 1) * 2 ^ (970 : ℤ) := by
  rw [overflow, zpow_1024]
  ring

theorem overflow_pos : 0 < overflow := by
  rw [overflow_eq]
  exact mul_pos (by norm_num) (by positivity)

theorem overflow_lt : overflow < 2 ^ (1024 : ℤ) := sub_lt_self _ (by positivity)

theorem overflow_div : overflow / 2 ^ (971 : ℤ) = ((2 ^ 53 - 1 : ℤ) : ℝ) + 1 / 2 := by
  rw [div_eq_iff (by positivity), overflow_eq, zpow_971]
  push_cast
  ring

theorem zpow_lt_overflow {e : ℤ} (he : e ≤ 1023) : (2 : ℝ) ^ e < overflow := by
  have hpow : (2 : ℝ) ^ (1023 : ℤ) = 2 ^ 53 * 2 ^ (970 : ℤ) := by
    rw [show (1023 : ℤ) = 53 + 970 from rfl, zpow_add₀ (by norm_num)]
    rfl
  refine (zpow_le_zpow_right₀ (by norm_num) he).trans_lt ?_
  rw [hpow, overflow_eq]
  exact mul_lt_mul_of_pos_right (by norm_num) (by positivity)

theorem gridExponent_overflow : gridExponent overflow = 971 := by
  have hlow : (2 : ℝ) ^ (1023 : ℤ) ≤ overflow := (zpow_lt_overflow le_rfl).le
  have hlog : 1023 ≤ Int.log 2 overflow :=
    (Int.zpow_le_iff_le_log (by norm_num) overflow_pos).mp (by exact_mod_cast hlow)
  have hle : gridExponent overflow ≤ 971 :=
    gridExponent_le overflow_pos (by norm_num) overflow_lt
  unfold gridExponent at hle ⊢
  omega

theorem nearest_overflow : nearest overflow = 2 ^ (1024 : ℤ) := by
  have hfloor : ⌊overflow / 2 ^ (971 : ℤ)⌋ = 2 ^ 53 - 1 := by
    rw [overflow_div, Int.floor_intCast_add]
    norm_num
  have hfract : Int.fract (overflow / 2 ^ (971 : ℤ)) = 1 / 2 := by
    unfold Int.fract
    rw [hfloor, overflow_div]
    ring
  have hint : nearestInt (overflow / 2 ^ (971 : ℤ)) = 2 ^ 53 := by
    have hodd : ¬ Even (2 ^ 53 - 1 : ℤ) := by decide
    rw [nearestInt, hfract, hfloor, if_neg]
    · norm_num
    · rintro (h | ⟨-, h⟩)
      · exact lt_irrefl _ h
      · exact hodd h
  rw [nearest, gridExponent_overflow, hint, zpow_971, zpow_1024]
  push_cast
  ring

/-- A number rounds to a double exactly if it stays below the overflow. -/
theorem nearest_lt_iff {x : ℝ} (hx : 0 ≤ x) : nearest x < 2 ^ (1024 : ℤ) ↔ x < overflow := by
  constructor
  · intro h
    by_contra hover
    have h1 := nearest_mono overflow_pos.le (not_lt.mp hover)
    rw [nearest_overflow] at h1
    exact absurd h (not_lt.mpr h1)
  · intro h
    rcases hx.eq_or_lt with rfl | hpos
    · rw [nearest_zero]
      positivity
    have hg : gridExponent x ≤ 971 :=
      gridExponent_le hpos (by norm_num) (h.trans overflow_lt)
    rw [zpow_1024]
    have hp : (0 : ℝ) < 2 ^ (970 : ℤ) := by positivity
    rcases hg.eq_or_lt with heq | hlt
    · have hv : x / 2 ^ (971 : ℤ) < ((2 ^ 53 - 1 : ℤ) : ℝ) + 1 / 2 := by
        rw [← overflow_div]
        exact div_lt_div_of_pos_right h (by positivity)
      have hn : (nearestInt (x / 2 ^ (971 : ℤ)) : ℝ) ≤ ((2 ^ 53 - 1 : ℤ) : ℝ) := by
        exact_mod_cast nearestInt_le_of_lt_half hv
      rw [nearest, heq]
      calc _ ≤ ((2 ^ 53 - 1 : ℤ) : ℝ) * 2 ^ (971 : ℤ) :=
            mul_le_mul_of_nonneg_right hn (by positivity)
        _ = (2 ^ 54 - 2) * 2 ^ (970 : ℤ) := by
            rw [zpow_971]
            push_cast
            ring
        _ < 2 ^ 54 * 2 ^ (970 : ℤ) := mul_lt_mul_of_pos_right (by norm_num) hp
    · have hn : (nearestInt (x / 2 ^ gridExponent x) : ℝ) ≤ 2 ^ 53 := by
        exact_mod_cast nearestInt_le_of_lt
      have hstep : (2 : ℝ) ^ gridExponent x ≤ 2 ^ (970 : ℤ) :=
        zpow_le_zpow_right₀ (by norm_num) (by omega)
      calc nearest x ≤ 2 ^ 53 * 2 ^ (970 : ℤ) :=
            mul_le_mul hn hstep (by positivity) (by positivity)
        _ < 2 ^ 54 * 2 ^ (970 : ℤ) := mul_lt_mul_of_pos_right (by norm_num) hp

noncomputable def signedNearest (x : ℝ) : ℝ := if 0 ≤ x then nearest x else -nearest (-x)

@[simp] theorem signedNearest_neg (x : ℝ) : signedNearest (-x) = -signedNearest x := by
  rcases lt_trichotomy x 0 with h | rfl | h
  · simp [signedNearest, h.le, h.not_ge]
  · simp [signedNearest]
  · simp [signedNearest, h.le, h]

theorem signedNearest_of_nonneg {x : ℝ} (h : 0 ≤ x) : signedNearest x = nearest x := if_pos h

theorem abs_signedNearest (x : ℝ) : |signedNearest x| = nearest |x| := by
  rcases le_or_gt 0 x with h | h
  · rw [signedNearest_of_nonneg h, abs_of_nonneg h, abs_of_nonneg (nearest_nonneg h)]
  · have hn : 0 ≤ -x := by linarith
    rw [← neg_neg x, signedNearest_neg, abs_neg, abs_neg, signedNearest_of_nonneg hn,
      abs_of_nonneg hn, abs_of_nonneg (nearest_nonneg hn)]

theorem signedNearest_mono {x y : ℝ} (h : x ≤ y) : signedNearest x ≤ signedNearest y := by
  unfold signedNearest
  split_ifs with hx hy hy
  · exact nearest_mono hx h
  · linarith
  · have h1 := nearest_nonneg (by linarith : 0 ≤ -x)
    have h2 := nearest_nonneg hy
    linarith
  · have := nearest_mono (by linarith : 0 ≤ -y) (by linarith : -y ≤ -x)
    linarith

/-- A real number as a double: the nearest one, or an infinity. -/
noncomputable def rounded (x : ℝ) : EReal :=
  if overflow ≤ x then ⊤ else if x ≤ -overflow then ⊥ else (signedNearest x : ℝ)

theorem rounded_of_lt {x : ℝ} (h : |x| < overflow) : rounded x = (signedNearest x : ℝ) := by
  obtain ⟨h1, h2⟩ := abs_lt.mp h
  rw [rounded, if_neg (not_le.mpr h2), if_neg (not_le.mpr h1)]

noncomputable abbrev scaled (m : ℕ) (e : ℤ) : ℝ := m * 2 ^ e

/-- A real number that is a double: at most 53 bits, and an exponent in range. -/
def IsGrid (x : ℝ) : Prop :=
  ∃ (m : ℕ) (e : ℤ), |x| = m * 2 ^ e ∧ m < 2 ^ 53 ∧ -1074 ≤ e ∧ e ≤ 971

theorem IsGrid.neg {x : ℝ} (h : IsGrid x) : IsGrid (-x) := by
  obtain ⟨m, e, hx, hrest⟩ := h
  exact ⟨m, e, by rw [abs_neg, hx], hrest⟩

theorem isGrid_zpow {e : ℤ} (he : -1074 ≤ e) (he' : e ≤ 971) : IsGrid (2 ^ e) :=
  ⟨1, e, by rw [abs_of_pos (by positivity), Nat.cast_one, one_mul], by norm_num, he, he'⟩

theorem IsGrid.lt_overflow {x : ℝ} (h : IsGrid x) : |x| < overflow := by
  obtain ⟨m, e, hx, hm, he, he'⟩ := h
  rw [hx, ← nearest_lt_iff (by positivity), nearest_grid hm he, zpow_1024]
  have h1 : (m : ℝ) < 2 ^ 53 := by exact_mod_cast hm
  have h2 : (2 : ℝ) ^ e ≤ 2 * 2 ^ (970 : ℤ) := by
    rw [← zpow_971]
    exact zpow_le_zpow_right₀ (by norm_num) he'
  calc (m : ℝ) * 2 ^ e < 2 ^ 53 * 2 ^ e := mul_lt_mul_of_pos_right h1 (by positivity)
    _ ≤ 2 ^ 53 * (2 * 2 ^ (970 : ℤ)) := mul_le_mul_of_nonneg_left h2 (by positivity)
    _ = 2 ^ 54 * 2 ^ (970 : ℤ) := by ring

theorem IsGrid.signedNearest_eq {x : ℝ} (h : IsGrid x) : signedNearest x = x := by
  obtain ⟨m, e, hx, hm, he, -⟩ := h
  rcases le_or_gt 0 x with h0 | h0
  · rw [abs_of_nonneg h0] at hx
    rw [signedNearest_of_nonneg h0, hx, nearest_grid hm he]
  · rw [abs_of_neg h0] at hx
    rw [← neg_neg x, signedNearest_neg, hx, signedNearest_of_nonneg (by positivity),
      nearest_grid hm he]

/-- All doubles are multiples of the least one. -/
theorem IsGrid.exists_int {x : ℝ} (h : IsGrid x) : ∃ k : ℤ, x = k * 2 ^ (-1074 : ℤ) := by
  obtain ⟨m, e, hx, -, he, -⟩ := h
  have hpow : (2 : ℝ) ^ e = ((2 ^ (e + 1074).toNat : ℕ) : ℝ) * 2 ^ (-1074 : ℤ) := by
    rw [Nat.cast_pow, Nat.cast_ofNat, ← zpow_natCast, ← zpow_add₀ two_ne_zero]
    congr 1
    omega
  rw [hpow, ← mul_assoc] at hx
  rcases abs_choice x with habs | habs
  · exact ⟨m * (2 ^ (e + 1074).toNat : ℕ), by rw [← habs, hx]; push_cast; ring⟩
  · exact ⟨-(m * (2 ^ (e + 1074).toNat : ℕ)), by rw [← neg_neg x, ← habs, hx]; push_cast; ring⟩

theorem IsGrid.least_le {x : ℝ} (h : IsGrid x) (h0 : 0 < x) : 2 ^ (-1074 : ℤ) ≤ x := by
  obtain ⟨k, hk⟩ := h.exists_int
  have hp : (0 : ℝ) < 2 ^ (-1074 : ℤ) := by positivity
  rw [hk] at h0 ⊢
  have hk1 : (1 : ℝ) ≤ k := by
    have hpos : (0 : ℝ) < k := (mul_pos_iff_of_pos_right hp).mp h0
    exact_mod_cast hpos
  exact le_mul_of_one_le_left hp.le hk1

/-- The difference of two doubles is not lost in rounding. -/
theorem IsGrid.signedNearest_sub_pos {x y : ℝ} (hx : IsGrid x) (hy : IsGrid y) (h : y < x) :
    0 < signedNearest (x - y) := by
  obtain ⟨j, rfl⟩ := hx.exists_int
  obtain ⟨k, rfl⟩ := hy.exists_int
  have hp : (0 : ℝ) < 2 ^ (-1074 : ℤ) := by positivity
  have hjk : k + 1 ≤ j := by
    have h' : (k : ℝ) < j := lt_of_mul_lt_mul_right h hp.le
    exact_mod_cast h'
  have hle : (2 : ℝ) ^ (-1074 : ℤ) ≤ j * 2 ^ (-1074 : ℤ) - k * 2 ^ (-1074 : ℤ) := by
    have hone : (1 : ℝ) ≤ j - k := by
      have h' : ((k + 1 : ℤ) : ℝ) ≤ j := by exact_mod_cast hjk
      push_cast at h'
      linarith
    calc (2 : ℝ) ^ (-1074 : ℤ) = 1 * 2 ^ (-1074 : ℤ) := (one_mul _).symm
      _ ≤ (j - k) * 2 ^ (-1074 : ℤ) := mul_le_mul_of_nonneg_right hone hp.le
      _ = j * 2 ^ (-1074 : ℤ) - k * 2 ^ (-1074 : ℤ) := sub_mul ..
  have hgrid : IsGrid (2 ^ (-1074 : ℤ)) := isGrid_zpow le_rfl (by norm_num)
  calc (0 : ℝ) < 2 ^ (-1074 : ℤ) := hp
    _ = signedNearest (2 ^ (-1074 : ℤ)) := hgrid.signedNearest_eq.symm
    _ ≤ _ := signedNearest_mono hle

end Toolpath.Double
