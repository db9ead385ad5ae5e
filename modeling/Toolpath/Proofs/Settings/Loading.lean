import Mathlib.Tactic
import Toolpath.Settings.Storage

/-! # Settings that a file holds

A file holds settings if its path names a format, its bytes are those of a text, the text is a
document of that format, and every setting is in its range. Just these settings are loaded.
-/
namespace Toolpath.Settings

variable {read : String → Except FileError ByteArray} {path text : String} {s : Settings}

theorem exists_ok_of_bind {ε α β : Type} {x : Except ε α} {f : α → Except ε β} {b : β}
    (h : x >>= f = .ok b) : ∃ a, x = .ok a ∧ f a = .ok b := by
  cases x with
  | error e => cases h
  | ok a => exact ⟨a, rfl, h⟩

theorem mapError_eq_ok_iff {ε ε' α : Type} {x : Except ε α} {f : ε → ε'} {a : α} :
    x.mapError f = .ok a ↔ x = .ok a := by
  cases x <;> simp [Except.mapError]

/-! ## Texts -/

theorem fromUTF8?_eq_some_iff {bytes : ByteArray} :
    String.fromUTF8? bytes = some text ↔ bytes = text.toUTF8 := by
  unfold String.fromUTF8?
  constructor
  · intro h
    split_ifs at h
    cases h
    rfl
  · rintro rfl
    exact dif_pos text.isValidUTF8

theorem readText_eq_ok_iff : readText read path = .ok text ↔ read path = .ok text.toUTF8 := by
  unfold readText
  constructor
  · intro h
    obtain ⟨bytes, hbytes, htext⟩ := exists_ok_of_bind h
    split at htext
    · next heq =>
      cases htext
      rw [hbytes, fromUTF8?_eq_some_iff.mp heq]
    · cases htext
  · intro h
    have htext : String.fromUTF8? text.toUTF8 = some text := fromUTF8?_eq_some_iff.mpr rfl
    rw [h]
    simp only [bind, Except.bind, htext]

/-! ## Ranges -/

theorem violation?_eq_none_iff : s.violation? = none ↔ ∀ setting : Setting, setting.holds s := by
  unfold violation?
  rw [List.find?_eq_none]
  constructor
  · intro h setting
    simpa using h setting (by cases setting <;> decide)
  · intro h setting _
    simp [h setting]

theorem validate_eq_ok_iff : s.validate = .ok () ↔ ∀ setting : Setting, setting.holds s := by
  rw [← violation?_eq_none_iff]
  unfold validate
  split <;> simp_all

/-- The defaults are in range. -/
theorem validate_default : ({} : Settings).validate = .ok () := by
  have hrange : ({} : Settings).violation? = none := by decide +kernel
  rw [validate, hrange]

/-! ## Files -/

inductive HeldBy (read : String → Except FileError ByteArray) (path : String) (s : Settings) : Prop
  | intro (f : Format) (text : String) (format : Format.ofPath path = .ok f)
      (read : read path = .ok text.toUTF8) (parse : parse f text = .ok s)
      (range : ∀ setting : Setting, setting.holds s)

theorem load_eq_ok_iff : load read path = .ok s ↔ HeldBy read path s := by
  unfold load
  constructor
  · intro h
    obtain ⟨f, hformat, h⟩ := exists_ok_of_bind h
    obtain ⟨text, htext, h⟩ := exists_ok_of_bind h
    obtain ⟨s', hparse, h⟩ := exists_ok_of_bind h
    obtain ⟨u, hvalidate, h⟩ := exists_ok_of_bind h
    rw [mapError_eq_ok_iff] at hformat htext hparse hvalidate
    cases h
    exact ⟨f, text, hformat, readText_eq_ok_iff.mp htext, hparse, validate_eq_ok_iff.mp hvalidate⟩
  · rintro ⟨f, text, hformat, hread, hparse, hrange⟩
    rw [hformat, readText_eq_ok_iff.mpr hread]
    simp [bind, Except.bind, Except.mapError, hparse, validate_eq_ok_iff.mpr hrange, pure,
      Except.pure]

end Toolpath.Settings
