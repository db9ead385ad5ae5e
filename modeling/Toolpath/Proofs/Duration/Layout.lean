import Toolpath.Proofs.Duration.Tenths
import Toolpath.Proofs.Number.Writing
import Toolpath.Proofs.Text.Lines

/-! # Durations read back

The text of a duration has hours, two digits of minutes, two of seconds and one of tenths. Its marks
part it into these places again, so the number of tenths is read off it, and no two numbers of
tenths are shown alike.
-/
namespace Toolpath.Duration
open Literal

/-! ## The form of a duration -/

structure Digits (count : ℕ) (ds : List Char) : Prop where
  length : ds.length = count
  isDigit : ∀ c ∈ ds, c.isDigit = true

structure Sixtieth (ds : List Char) : Prop extends Digits 2 ds where
  lt_sixty : digitsValue ds < 60

/-- A text of the form `H:MM:SS.t`, with the number of tenths that its places make. -/
inductive Shows : List Char → ℕ → Prop
  | intro {hours minutes seconds tenth : List Char} (whole : Whole hours)
    (minute : Sixtieth minutes) (second : Sixtieth seconds) (digit : Digits 1 tenth) :
    Shows (hours ++ ':' :: (minutes ++ ':' :: (seconds ++ '.' :: tenth)))
      (digitsValue hours * 36000 + digitsValue minutes * 600 + digitsValue seconds * 10 +
        digitsValue tenth)

def read? (text : List Char) : Option ℕ :=
  match (pieces ':' text).flatMap (pieces '.') with
  | [hours, minutes, seconds, tenth] =>
    some (digitsValue hours * 36000 + digitsValue minutes * 600 + digitsValue seconds * 10 +
      digitsValue tenth)
  | _ => none

theorem pieces_of_not_mem {sep : Char} {text : List Char} (h : sep ∉ text) :
    pieces sep text = [text] := by
  rw [pieces_eq_splitOn]
  refine List.splitOnP_eq_singleton fun c hc => ?_
  exact beq_eq_false_iff_ne.mpr fun hsep => h (hsep ▸ hc)

/-- Digits have no mark among them. -/
theorem not_mem_of_isDigit {sep : Char} (hsep : sep.isDigit = false) {ds : List Char}
    (h : ∀ c ∈ ds, c.isDigit = true) : sep ∉ ds := by
  intro hmem
  rw [h sep hmem] at hsep
  cases hsep

/-- A mark ends the digits before it. -/
theorem pieces_append_mark {sep : Char} {ds : List Char} (h : sep ∉ ds) (rest : List Char) :
    pieces sep (ds ++ sep :: rest) = ds :: pieces sep rest := by
  rw [pieces_append, pieces_of_not_mem h, List.singleton_append]

/-- A duration is read as the tenths that it shows. -/
theorem read?_of_shows {text : List Char} {n : ℕ} (h : Shows text n) : read? text = some n := by
  obtain ⟨whole, minute, second, digit⟩ := h
  rename_i hours minutes seconds tenth
  have hcolon {ds : List Char} (h : ∀ c ∈ ds, c.isDigit = true) : ':' ∉ ds :=
    not_mem_of_isDigit rfl h
  have hpoint {ds : List Char} (h : ∀ c ∈ ds, c.isDigit = true) : '.' ∉ ds :=
    not_mem_of_isDigit rfl h
  have hlast : ':' ∉ seconds ++ '.' :: tenth := by
    simp [hcolon second.isDigit, hcolon digit.isDigit]
  unfold read?
  rw [pieces_append_mark (hcolon whole.isDigit), pieces_append_mark (hcolon minute.isDigit),
    pieces_of_not_mem hlast, List.flatMap_cons, List.flatMap_cons, List.flatMap_singleton,
    pieces_of_not_mem (hpoint whole.isDigit), pieces_of_not_mem (hpoint minute.isDigit),
    pieces_append_mark (hpoint second.isDigit), pieces_of_not_mem (hpoint digit.isDigit)]
  rfl

/-! ## The text of a duration -/

theorem digits_toDigits {n : ℕ} (hn : n < 10) : Digits 1 (Nat.toDigits 10 n) where
  length := by rw [Nat.toDigits_of_lt_base hn, List.length_singleton]
  isDigit _ := isDigit_of_mem_toDigits

theorem digitsValue_twoDigits (n : ℕ) : digitsValue (twoDigits n).toList = n := by
  unfold twoDigits
  split_ifs
  · rw [String.toList_append, toList_toString]
    exact digitsValue_toDigits n
  · rw [toList_toString, digitsValue_toDigits]

theorem sixtieth_twoDigits {n : ℕ} (hn : n < 60) : Sixtieth (twoDigits n).toList where
  length := by
    unfold twoDigits
    split_ifs with hsmall
    · rw [String.toList_append, List.length_append, toList_toString,
        (digits_toDigits hsmall).length]
      rfl
    · have htens : n / 10 < 10 := by omega
      rw [toList_toString, Nat.toDigits_of_base_le (by norm_num) (by omega), List.length_append,
        (digits_toDigits htens).length, List.length_singleton]
  isDigit := by
    intro c hc
    unfold twoDigits at hc
    split_ifs at hc
    · rw [String.toList_append, toList_toString] at hc
      rcases List.mem_append.mp hc with hc | hc
      · obtain rfl : c = '0' := by simpa using hc
        rfl
      · exact isDigit_of_mem_toDigits hc
    · exact isDigit_of_mem_toDigits (toList_toString n ▸ hc)
  lt_sixty := by rwa [digitsValue_twoDigits]

/-- Hours, minutes, seconds and tenths make up the tenths again. -/
theorem places_eq (n : ℕ) :
    n / 36000 * 36000 + n / 600 % 60 * 600 + n / 10 % 60 * 10 + n % 10 = n := by
  omega

/-- A number of tenths is shown by its text. -/
theorem shows_layout (n : ℕ) : Shows (layout n).toList n := by
  have hminutes : n / 600 % 60 < 60 := Nat.mod_lt _ (by norm_num)
  have hseconds : n / 10 % 60 < 60 := Nat.mod_lt _ (by norm_num)
  have hplaces := Shows.intro (whole_toDigits (n / 36000)) (sixtieth_twoDigits hminutes)
    (sixtieth_twoDigits hseconds) (digits_toDigits (Nat.mod_lt n (by norm_num)))
  rw [digitsValue_toDigits, digitsValue_toDigits, digitsValue_twoDigits, digitsValue_twoDigits,
    places_eq] at hplaces
  have htext : (layout n).toList = Nat.toDigits 10 (n / 36000) ++ ':' ::
      ((twoDigits (n / 600 % 60)).toList ++ ':' ::
        ((twoDigits (n / 10 % 60)).toList ++ '.' :: Nat.toDigits 10 (n % 10))) := by
    simp [layout]
  rwa [htext]

theorem layout_injective : Function.Injective layout := by
  intro m n h
  have hm := read?_of_shows (shows_layout m)
  rw [h, read?_of_shows (shows_layout n)] at hm
  exact (Option.some.inj hm).symm

/-- Every double is shown as a duration, with the tenths that it has. The text is read as these
tenths, it differs where they differ, and a longer duration shows no fewer of them. -/
theorem text_faithful (x y : Float) :
    IsTenths x (tenths x) ∧ Shows (text x).toList (tenths x) ∧
    read? (text x).toList = some (tenths x) ∧ (text x = text y ↔ tenths x = tenths y) ∧
    (x ≤ y → tenths x ≤ tenths y) := by
  have hshows : Shows (text x).toList (tenths x) := shows_layout _
  exact ⟨isTenths_tenths x, hshows, read?_of_shows hshows, layout_injective.eq_iff, tenths_mono⟩

/-- A carry runs through all places, and what is out of range is shown as the most tenths. -/
theorem text_faithful_carry : (3599.97 : Float) ≤ 1.0 / 0.0 ∧
    text 3599.97 = "1:00:00.0" ∧ read? (text 3599.97).toList = some 36000 ∧
    tenths 3599.97 ≤ tenths (1.0 / 0.0) ∧ text (1.0 / 0.0) = "512409557603043:06:01.5" := by
  obtain ⟨-, -, hread, -, hle⟩ := text_faithful 3599.97 (1.0 / 0.0)
  have htenths : tenths 3599.97 = 36000 := by decide +kernel
  have hlong : (3599.97 : Float) ≤ 1.0 / 0.0 := by decide +kernel
  rw [htenths] at hread
  exact ⟨hlong, by decide +kernel, hread, hle hlong, by decide +kernel⟩

end Toolpath.Duration
