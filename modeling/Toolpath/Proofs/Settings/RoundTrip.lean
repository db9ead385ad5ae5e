import Toolpath.Proofs.FileStore.Writing
import Toolpath.Proofs.Json.Document
import Toolpath.Proofs.Settings.Loading
import Toolpath.Proofs.Toml.Document

/-! # Settings that were saved are loaded

Of the two formats TOML keeps whatever is in range. JSON keeps the numbers that are read as
themselves, and an infinite tolerance is not one of them: it is in range and is written as null,
which is no tolerance to read.
-/
namespace Toolpath.Settings

variable {s : Settings} {path : String}

def numbers (s : Settings) : List Float :=
  [s.defaultFeed, s.rapidFeed, s.degreesPerSample, s.endpointTolerance]

def datum (s : Settings) : Setting → Datum
  | .defaultFeed => .number (some s.defaultFeed)
  | .rapidFeed => .number (some s.rapidFeed)
  | .degreesPerSample => .number (some s.degreesPerSample)
  | .minSamples => .integer false s.minSamples
  | .endpointTolerance => .number (some s.endpointTolerance)

theorem ofKey?_key (setting : Setting) : Setting.ofKey? setting.key = some setting := by
  cases setting <;> decide

theorem known_map (l : List Setting) (d : Setting → Datum) :
    known (l.map fun setting => (setting.key, d setting)) =
      l.map fun setting => (setting, d setting) := by
  induction l with
  | nil => rfl
  | cons setting l ih => simp_all [known, ofKey?_key]

/-- Data for all settings, in the order of declaration, leave nothing of the defaults. -/
theorem overlay?_all (d : Setting → Datum) :
    overlay? (Setting.all.map fun setting => (setting, d setting)) =
      (d .defaultFeed).float?.bind fun feed => (d .rapidFeed).float?.bind fun rapid =>
        (d .degreesPerSample).float?.bind fun angle => (d .minSamples).count?.bind fun count =>
          (d .endpointTolerance).float?.map fun tolerance =>
            ⟨feed, rapid, angle, count, tolerance⟩ := by
  simp [overlay?, Setting.all, set?, Option.bind_map]

theorem overlay?_datum_reverse (s : Settings) :
    overlay? (Setting.all.map fun setting => (setting, s.datum setting)).reverse = some s := by
  rfl

/-! ## TOML -/

def line (s : Settings) (setting : Setting) : Toml.Line where
  key := setting.key
  text := match setting with
    | .defaultFeed => (Toml.numberText s.defaultFeed).toList
    | .rapidFeed => (Toml.numberText s.rapidFeed).toList
    | .degreesPerSample => (Toml.numberText s.degreesPerSample).toList
    | .minSamples => (toString s.minSamples.toNat).toList
    | .endpointTolerance => (Toml.numberText s.endpointTolerance).toList
  datum := s.datum setting

theorem toList_tomlLine (s : Settings) (setting : Setting) :
    (s.tomlLine setting).toList = (s.line setting).chars := by
  cases setting <;> simp [tomlLine, line, Toml.Line.chars]

theorem bareKey (setting : Setting) : Toml.BareKey setting.key where
  ne_nil := by cases setting <;> decide
  bare := List.all_eq_true.mp (by cases setting <;> decide)

theorem valid_line (hsize : s.minSamples.toNat < UInt64.size / 2) (setting : Setting) :
    (s.line setting).Valid where
  bare := bareKey setting
  reads := by
    cases setting with
    | minSamples => simpa [line, datum] using Toml.readsAs_toString hsize
    | _ => exact Toml.readsAs_numberText _

theorem ofToml?_tomlText (hsize : s.minSamples.toNat < UInt64.size / 2) :
    ofToml? s.tomlText.toList = some s := by
  have htext : s.tomlText.toList = (Setting.all.map s.line).flatMap Toml.Line.chars := by
    simp [tomlText, String.toList_join, toList_tomlLine, List.flatMap_def, Function.comp_def]
  have hvalid : ∀ l ∈ Setting.all.map s.line, l.Valid := by
    intro l hl
    obtain ⟨setting, -, rfl⟩ := List.mem_map.mp hl
    exact valid_line hsize setting
  have hkeys : ((Setting.all.map s.line).map Toml.Line.key).Nodup := by
    rw [List.map_map]
    exact (by decide : (Setting.all.map Setting.key).Nodup)
  have hroot := Toml.document?_valid hvalid hkeys
  obtain ⟨d, hd, hpairs⟩ := Option.map_eq_some_iff.mp hroot
  rw [ofToml?, htext, hd, Option.bind_some, hpairs, List.map_map, ← List.map_reverse]
  refine Eq.trans (congrArg overlay? (known_map Setting.all.reverse s.datum)) ?_
  exact overlay?_datum_reverse s

/-! ## JSON -/

theorem plainKey (setting : Setting) : Json.PlainKey setting.key.toList := by
  have h : setting.key.toList.all fun c => 0x20 ≤ c.toNat ∧ c ≠ '"' ∧ c ≠ '\\' := by
    cases setting <;> decide
  intro c hc
  exact of_decide_eq_true (List.all_eq_true.mp h c hc)

theorem flat_member (s : Settings) (setting : Setting) : Json.Flat (s.member setting) where
  plain := plainKey setting
  reads := by
    cases setting with
    | minSamples => exact Json.readsAs_natural s.minSamples.toNat_lt
    | _ => exact Json.readsAs_number _

theorem ofJson?_text (s : Settings) : ofJson? (s.document.text .pretty).toList =
    overlay? (Setting.all.map fun setting => (setting, (s.member setting).2.datum)) := by
  have hflat : ∀ f ∈ Setting.all.map s.member, Json.Flat f := by
    intro f hf
    obtain ⟨setting, -, rfl⟩ := List.mem_map.mp hf
    exact flat_member s setting
  rw [ofJson?, document, Json.layer?_text hflat (by simp [Setting.all]), List.map_map]
  exact congrArg overlay? (known_map Setting.all fun setting => (s.member setting).2.datum)

/-- The data of a JSON document make the settings they were written for just if every number is
read as itself. -/
theorem overlay?_member (s : Settings) :
    overlay? (Setting.all.map fun setting => (setting, (s.member setting).2.datum)) = some s ↔
      ∀ x ∈ s.numbers, Json.ReadsBack x := by
  have hcount : (s.member .minSamples).2.datum.count? = some s.minSamples :=
    congrArg some UInt64.ofNat_toNat
  obtain ⟨feed, rapid, angle, count, tolerance⟩ := s
  rw [overlay?_all, hcount]
  simp [member, Json.datum, numbers, Json.ReadsBack, Option.bind_eq_some_iff]

theorem overlay?_member_infinite (h : s.endpointTolerance.isFinite = false) :
    overlay? (Setting.all.map fun setting => (setting, (s.member setting).2.datum)) = none := by
  have htolerance : (s.member .endpointTolerance).2.datum.float? = none :=
    congrArg Datum.float? (Json.reading_of_not_isFinite h)
  simp [overlay?_all, htolerance]

/-! ## Files -/

theorem parse_toml {text : String} (h : serialize .toml s = .ok text) :
    parse .toml text = .ok s := by
  unfold serialize at h
  dsimp only at h
  split_ifs at h with hsize
  cases h
  simp [parse, ofToml?_tomlText hsize]

theorem parse_json {text : String} (h : serialize .json s = .ok text) :
    (parse .json text = .ok s ↔ ∀ x ∈ s.numbers, Json.ReadsBack x) ∧
    (s.endpointTolerance.isFinite = false →
      ∃ reason, parse .json text = .error (.parse "JSON" reason)) := by
  cases h
  rw [parse, ofJson?_text]
  constructor
  · rw [← overlay?_member]
    split <;> simp_all
  · intro htolerance
    rw [overlay?_member_infinite htolerance]
    exact ⟨_, rfl⟩

/-- What it takes to save settings. -/
theorem save_eq_ok {fs after : FileStore} (h : s.save path fs = (.ok (), after)) :
    ∃ f text, s.violation? = none ∧ Format.ofPath path = .ok f ∧ serialize f s = .ok text ∧
      fs.write path text.toUTF8 = (.ok (), after) := by
  unfold save at h
  cases hrender : s.render path with
  | error e =>
    rw [hrender] at h
    cases h
  | ok text =>
    obtain ⟨u, hvalidate, hrest⟩ := exists_ok_of_bind hrender
    obtain ⟨f, hformat, htext⟩ := exists_ok_of_bind hrest
    refine ⟨f, text, ?_, hformat, htext, ?_⟩
    · unfold validate at hvalidate
      split at hvalidate
      · cases hvalidate
      · assumption
    · rw [hrender] at h
      rcases hwrite : fs.write path text.toUTF8 with ⟨result, after'⟩
      simp only [hwrite] at h
      cases result <;> cases h
      rfl

theorem load_eq {read : String → Except FileError ByteArray} {f : Format} {text : String}
    (hformat : Format.ofPath path = .ok f) (hread : read path = .ok text.toUTF8) :
    load read path = ((parse f text).mapError .config).bind
      fun s => (s.validate.mapError .config).map fun _ => s := by
  have htext : readText read path = .ok text := readText_eq_ok_iff.mpr hread
  unfold load
  rw [hformat, htext]
  rfl

/-- Settings that were saved are loaded from a TOML file, and from a JSON file just if each of their
numbers is read there as itself. An infinite tolerance is no number there, and then nothing is
loaded. -/
theorem load_of_save {fs after : FileStore} (hsave : s.save path fs = (.ok (), after)) :
    (load after.read path = .ok s ↔
      (Format.ofPath path = .ok .json → ∀ x ∈ s.numbers, Json.ReadsBack x)) ∧
    (Format.ofPath path = .ok .json → s.endpointTolerance.isFinite = false →
      ∃ reason, load after.read path = .error (.config (.parse "JSON" reason))) := by
  obtain ⟨f, text, hrange, hformat, htext, hwrite⟩ := save_eq_ok hsave
  have hload := load_eq hformat (FileStore.read_of_write hwrite)
  have hvalidate : s.validate = .ok () := by rw [validate, hrange]
  have hparse : load after.read path = .ok s ↔ parse f text = .ok s := by
    rw [hload]
    cases hparse : parse f text with
    | error e => simp [Except.mapError, Except.bind]
    | ok s' =>
      rw [Except.ok.injEq]
      constructor
      · intro h
        cases hvalidate' : s'.validate with
        | error e => simp [Except.mapError, Except.bind, Except.map, hvalidate'] at h
        | ok u => simpa [Except.mapError, Except.bind, Except.map, hvalidate'] using h
      · rintro rfl
        simp [Except.mapError, Except.bind, Except.map, hvalidate]
  rw [hparse, hformat, hload]
  cases f with
  | toml => simp [parse_toml htext]
  | json =>
    obtain ⟨hnumbers, hinfinite⟩ := parse_json htext
    refine ⟨by simpa using hnumbers, fun _ htolerance => ?_⟩
    obtain ⟨reason, hreason⟩ := hinfinite htolerance
    rw [hreason]
    exact ⟨reason, rfl⟩

/-- An infinite tolerance is lost on the way through JSON, and is kept by TOML. -/
theorem load_of_save_infinite :
    let s : Settings := { endpointTolerance := 1.0 / 0.0 }
    let json := s.save "c.json" (.empty [])
    let toml := s.save "c.toml" (.empty [])
    json.1 = .ok () ∧
    (∃ reason, load json.2.read "c.json" = .error (.config (.parse "JSON" reason))) ∧
    toml.1 = .ok () ∧ load toml.2.read "c.toml" = .ok s := by
  intro s json toml
  have hjson : json.1 = .ok () := by decide +kernel
  have htoml : toml.1 = .ok () := by decide +kernel
  refine ⟨hjson, ?_, htoml, ?_⟩
  · exact (load_of_save (Prod.ext hjson rfl)).2 (by decide +kernel) (by decide +kernel)
  · exact (load_of_save (Prod.ext htoml rfl)).1.mpr fun h => absurd h (by decide +kernel)

end Toolpath.Settings
