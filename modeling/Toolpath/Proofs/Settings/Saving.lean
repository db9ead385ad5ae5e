import Toolpath.Proofs.FileStore.Changes
import Toolpath.Proofs.Settings.RoundTrip

/-! # What saving settings changes

Settings are refused for one of three reasons, each of which is found before anything is written,
and then the files are what they were. Settings that are saved are in range, and they change the
file and the missing directories on the way to it alone.
-/
namespace Toolpath

/-- The error as it would be if the reader or the writer gave another reason. -/
def ConfigError.withReason (reason : String) : ConfigError → ConfigError
  | parse format _ => parse format reason
  | serialize format _ => serialize format reason
  | e => e

namespace Settings

variable {s : Settings} {path : String}

/-- Why settings are not written in a file. What the writer says of a count is left open. -/
inductive Refuses (s : Settings) (path : String) : ConfigError → Prop
  | range {setting : Setting} (first : s.violation? = some setting) :
    Refuses s path (.invalidValue setting.key setting.demand)
  | extension (range : ∀ setting : Setting, setting.holds s)
    (json : FileStore.extension? path ≠ some "json")
    (toml : FileStore.extension? path ≠ some "toml") :
    Refuses s path (.unsupportedFormat ((FileStore.extension? path).getD ""))
  | count {reason : String} (range : ∀ setting : Setting, setting.holds s)
    (toml : FileStore.extension? path = some "toml")
    (large : UInt64.size / 2 ≤ s.minSamples.toNat) :
    Refuses s path (.serialize "TOML" reason)

theorem refuses_withReason_iff {e : ConfigError} {reason : String} :
    s.Refuses path (e.withReason reason) ↔ s.Refuses path e := by
  cases e with
  | invalidValue | unsupportedFormat => rfl
  | parse => exact iff_of_false nofun nofun
  | serialize =>
    constructor
    · rintro (_ | _ | ⟨range, toml, large⟩)
      exact .count range toml large
    · rintro (_ | _ | ⟨range, toml, large⟩)
      exact .count range toml large

inductive Names (path : String) : Except ConfigError Format → Prop
  | json (h : FileStore.extension? path = some "json") : Names path (.ok .json)
  | toml (h : FileStore.extension? path = some "toml") : Names path (.ok .toml)
  | neither (json : FileStore.extension? path ≠ some "json")
    (toml : FileStore.extension? path ≠ some "toml") :
    Names path (.error (.unsupportedFormat ((FileStore.extension? path).getD "")))

theorem ofPath_eq_iff {r : Except ConfigError Format} : Format.ofPath path = r ↔ Names path r := by
  constructor
  · rintro rfl
    unfold Format.ofPath
    split
    · next h => exact .json h
    · next h => exact .toml h
    · next hjson htoml => exact .neither hjson htoml
  · intro h
    unfold Format.ofPath
    cases h with
    | json h => simp [h]
    | toml h => simp [h]
    | neither json toml => split <;> simp_all

theorem render_of_range (range : ∀ setting : Setting, setting.holds s) :
    s.render path = (Format.ofPath path).bind fun f => serialize f s := by
  rw [render, validate_eq_ok_iff.mpr range]
  rfl

theorem render_of_violation {setting : Setting} (h : s.violation? = some setting) :
    s.render path = .error (.invalidValue setting.key setting.demand) := by
  rw [render, validate, h]
  rfl

theorem refuses_of_render {e : ConfigError} (h : s.render path = .error e) : s.Refuses path e := by
  cases hviolation : s.violation? with
  | some setting =>
    rw [render_of_violation hviolation] at h
    cases h
    exact .range hviolation
  | none =>
    have range := violation?_eq_none_iff.mp hviolation
    obtain ⟨r, hr⟩ : ∃ r, Format.ofPath path = r := ⟨_, rfl⟩
    rw [render_of_range range, hr] at h
    cases ofPath_eq_iff.mp hr with
    | json => cases h
    | toml toml =>
      change serialize .toml s = .error e at h
      unfold serialize at h
      dsimp only at h
      split_ifs at h with hsize
      cases h
      exact .count range toml (not_lt.mp hsize)
    | neither json toml =>
      cases h
      exact .extension range json toml

/-- Settings have no text just if they are refused. -/
theorem exists_render_eq_error_iff {e : ConfigError} :
    (∃ reason, s.render path = .error (e.withReason reason)) ↔ s.Refuses path e := by
  constructor
  · rintro ⟨reason, h⟩
    exact refuses_withReason_iff.mp (refuses_of_render h)
  · intro h
    cases h with
    | range first => exact ⟨"", render_of_violation first⟩
    | extension range json toml =>
      refine ⟨"", ?_⟩
      rw [render_of_range range, ofPath_eq_iff.mpr (.neither json toml)]
      rfl
    | count range toml large =>
      rw [render_of_range range, ofPath_eq_iff.mpr (.toml toml)]
      exact ⟨_, if_neg (not_lt.mpr large)⟩

theorem save_of_render_error {e : ConfigError} (fs : FileStore) (h : s.render path = .error e) :
    s.save path fs = (.error (.config e), fs) := by
  unfold save
  rw [h]

/-- A save is refused by its text; what goes wrong behind that is a matter of files. -/
theorem save_eq_config_iff {fs : FileStore} {e : ConfigError} :
    (s.save path fs).1 = .error (.config e) ↔ s.render path = .error e := by
  constructor
  · intro h
    cases hrender : s.render path with
    | error e' =>
      rw [save_of_render_error fs hrender] at h
      cases h
      rfl
    | ok text =>
      unfold save at h
      rw [hrender] at h
      dsimp only at h
      cases hresult : (fs.write path text.toUTF8).1 <;> rw [hresult] at h <;> cases h
  · intro h
    rw [save_of_render_error fs h]

/-- A save is refused just for one of the three reasons, and then it leaves the files as they were.
Settings that are saved are in range, and only their file and the missing directories on the way to
it have changed. -/
theorem save_changes (s : Settings) (path : String) (fs : FileStore) :
    (∀ e, (∃ reason, (s.save path fs).1 = .error (.config (e.withReason reason))) ↔
      s.Refuses path e) ∧
    (∀ e, (s.save path fs).1 = .error (.config e) → (s.save path fs).2 = fs) ∧
    ((s.save path fs).1 = .ok () → (∀ setting : Setting, setting.holds s) ∧
      ∃ f text, Format.ofPath path = .ok f ∧ serialize f s = .ok text ∧
        FileStore.Wrote fs path text.toUTF8 (s.save path fs).2) := by
  refine ⟨fun e => ?_, fun e h => ?_, fun h => ?_⟩
  · simp only [save_eq_config_iff]
    exact exists_render_eq_error_iff
  · rw [save_of_render_error fs (save_eq_config_iff.mp h)]
  · obtain ⟨f, text, hviolation, hformat, htext, hwrite⟩ := save_eq_ok (Prod.ext h rfl)
    exact ⟨violation?_eq_none_iff.mp hviolation, f, text, hformat, htext,
      FileStore.wrote_of_write hwrite⟩

/-- A count that TOML cannot hold leaves an older file alone. As JSON it is saved, in a directory
that is made for it. -/
theorem save_changes_count :
    let s : Settings := { minSamples := 9223372036854775808 }
    let fs := FileStore.ofFiles [] [("c.toml", "rapid_feed = 2.0".toUTF8)]
    (∃ reason, (s.save "c.toml" fs).1 = .error (.config (.serialize "TOML" reason))) ∧
    (s.save "c.toml" fs).2 = fs ∧ (s.save "a/c.json" fs).1 = .ok () ∧
    FileStore.entry? (s.save "a/c.json" fs).2 ["a"] = some .directory ∧
    FileStore.entry? (s.save "a/c.json" fs).2 ["c.toml"] = fs.entry? ["c.toml"] := by
  intro s fs
  have range : ∀ setting : Setting, setting.holds s :=
    violation?_eq_none_iff.mp (by decide +kernel)
  have hrefuses : s.Refuses "c.toml" (.serialize "TOML" "") :=
    .count range (by decide +kernel) (by decide +kernel)
  obtain ⟨hrefused, hkept, -⟩ := save_changes s "c.toml" fs
  obtain ⟨reason, hreason⟩ := (hrefused _).mpr hrefuses
  have hsaved : (s.save "a/c.json" fs).1 = .ok () := by decide +kernel
  obtain ⟨-, _, text, -, -, hwrote⟩ := (save_changes s "a/c.json" fs).2.2 hsaved
  exact ⟨⟨reason, hreason⟩, hkept _ hreason, hsaved, (hwrote.parents (by decide +kernel)).2,
    hwrote.others (by decide +kernel) (by decide +kernel)⟩

end Settings
end Toolpath
