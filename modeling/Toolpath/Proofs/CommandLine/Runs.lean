import Toolpath.CommandLine
import Toolpath.Proofs.Arc.Elementary
import Toolpath.Proofs.Number.Writing
import Toolpath.Proofs.Settings.Loading

/-! # What a run comes to

A run fails of its settings or else of its program file, and of nothing else. Which settings it has
to use is a matter of the arguments and of what stands at the default path. A file named in the
arguments is all that counts, and the default one counts as soon as anything stands there. The text
of the program has no say in whether the run fails.
-/
namespace Toolpath.CommandLine

variable {read : String → Except FileError ByteArray} {stands : String → Bool}
  {configHome : Option String} {o : Options}

/-! ## Arguments -/

def Options.arguments (o : Options) : List String :=
  (o.config.map ("--config=" ++ ·)).toList ++
    ((if o.json then ["--json"] else []) ++
      (("--recent=" ++ toString o.recent) ::
        ((if o.logJson then ["--log-json"] else []) ++ ["--", o.file])))

theorem read_value (g : Given) {name : String} (hname : name = "--config" ∨ name = "--recent")
    (value : String) (rest : List String) :
    CommandLine.read g ((name ++ "=" ++ value) :: rest) =
      (g.setValue name value).bind (CommandLine.read · rest) := by
  have htext : (name ++ "=" ++ value).toList = name.toList ++ '=' :: value.toList := by simp
  have hoption : isOption (name ++ "=" ++ value) = true := by
    rcases hname with rfl | rfl <;> simp [isOption, String.ext_iff]
  have hne : name ++ "=" ++ value ≠ "--" := by
    rcases hname with rfl | rfl <;> simp [String.ext_iff]
  have hplain : ∀ c ∈ name.toList, decide (c ≠ '=') = true := by
    rw [← List.all_eq_true]
    rcases hname with rfl | rfl <;> decide
  rw [read.eq_def]
  split
  · next h => cases h
  · next h => exact absurd (List.cons.inj h).1 hne
  · next h =>
    cases h
    simp only [hoption, htext, List.takeWhile_append_of_pos hplain,
      List.dropWhile_append_of_pos hplain]
    simp

theorem read_flag (g : Given) {name : String} (hname : name = "--json" ∨ name = "--log-json")
    (rest : List String) :
    CommandLine.read g (name :: rest) = (g.setFlag name).bind (CommandLine.read · rest) := by
  rw [read.eq_def]
  rcases hname with rfl | rfl <;> rfl

theorem count?_toString {n : Nat} (h : n < UInt64.size) : Given.count? (toString n) = some n := by
  have hdigits : (Nat.toDigits 10 n).all Char.isDigit = true :=
    List.all_eq_true.mpr fun _ => isDigit_of_mem_toDigits
  unfold Given.count?
  rw [toList_toString]
  split
  · next rest hplus =>
    rw [hplus] at hdigits
    exact absurd (List.all_eq_true.mp hdigits '+' List.mem_cons_self) (by decide)
  · simp [hdigits, Nat.toDigits_ne_nil, h]

/-- All options can be asked for that have a name for each file and no more moves to list than a
count of 64 bits holds. -/
theorem ofArguments?_arguments (hfile : o.file ≠ "") (hconfig : o.config ≠ some "")
    (hrecent : o.recent < UInt64.size) : Options.ofArguments? o.arguments = some o := by
  obtain ⟨file, config, json, recent, logJson⟩ := o
  dsimp only at hfile hconfig hrecent
  have hnamed (g : Given) (path : String) (rest : List String) :
      CommandLine.read g (("--config=" ++ path) :: rest) =
        (g.setConfig path).bind (CommandLine.read · rest) := read_value g (.inl rfl) path rest
  have hcounted (g : Given) (hg : g.recent = none) (rest : List String) :
      CommandLine.read g (("--recent=" ++ toString recent) :: rest) =
        CommandLine.read { g with recent := some recent } rest := by
    refine (read_value g (.inr rfl) (toString recent) rest).trans ?_
    simp only [Given.setValue, Given.setRecent, hg, count?_toString hrecent]
    rfl
  have hjson (g : Given) := read_flag g (.inl rfl)
  have hlog (g : Given) := read_flag g (.inr rfl)
  have hlast (g : Given) : CommandLine.read g ["--", file] = g.setFile file := by
    simp [CommandLine.read]
  cases config <;> cases json <;> cases logJson <;>
    simp_all [Options.arguments, Options.ofArguments?, Given.setConfig, Given.setFlag, Given.setFile]

/-! ## Settings -/

inductive SettingsFile (stands : String → Bool) (configHome : Option String) (o : Options) :
    String → Prop
  | named {path : String} (h : o.config = some path) : SettingsFile stands configHome o path
  | standing {home : String} (hconfig : o.config = none) (hhome : configHome = some home)
      (hstands : stands (defaultConfigPath home) = true) :
      SettingsFile stands configHome o (defaultConfigPath home)

/-- The settings that a run comes by: those that its settings file holds, or the defaults if there
is no such file. -/
inductive Resolves (read : String → Except FileError ByteArray) (stands : String → Bool)
    (configHome : Option String) (o : Options) : Settings → Prop
  | file {path : String} {s : Settings} (hfile : SettingsFile stands configHome o path)
      (hs : s.HeldBy read path) : Resolves read stands configHome o s
  | builtIn (h : ∀ path, ¬ SettingsFile stands configHome o path) :
      Resolves read stands configHome o {}

theorem settingsFile_iff {path : String} :
    o.config.or (Surroundings.of read stands configHome).defaultConfig = some path ↔
      SettingsFile stands configHome o path := by
  constructor
  · intro h
    rcases Option.or_eq_some_iff.mp h with hconfig | ⟨hconfig, hdefault⟩
    · exact .named hconfig
    · obtain ⟨hpath, hstands⟩ := Option.filter_eq_some_iff.mp hdefault
      obtain ⟨home, hhome, rfl⟩ := Option.map_eq_some_iff.mp hpath
      exact .standing hconfig hhome hstands
  · rintro (hconfig | ⟨hconfig, hhome, hstands⟩)
    · simp [hconfig]
    · simp [hconfig, hhome, hstands, Surroundings.of]

theorem not_settingsFile_iff :
    o.config.or (Surroundings.of read stands configHome).defaultConfig = none ↔
      ∀ path, ¬ SettingsFile stands configHome o path := by
  simp only [← @settingsFile_iff read, Option.eq_none_iff_forall_not_mem, Option.mem_def]

theorem settings_of_file {path : String} (h : SettingsFile stands configHome o path) :
    settings (.of read stands configHome) o =
      (Settings.load read path).mapError fun _ => "failed to load config " ++ path := by
  unfold settings
  rw [settingsFile_iff.mpr h]
  cases hload : Settings.load read path with
  | error e => simp [Surroundings.of, hload, Except.mapError, bind, Except.bind]
  | ok s =>
    -- what was loaded was checked before, so the second check changes nothing
    obtain ⟨-, -, -, -, -, hrange⟩ := Settings.load_eq_ok_iff.mp hload
    have hvalidate : s.validate = .ok () := Settings.validate_eq_ok_iff.mpr hrange
    simp [Surroundings.of, hload, hvalidate, Except.mapError, bind, Except.bind, pure, Except.pure]

theorem settings_of_no_file (h : ∀ path, ¬ SettingsFile stands configHome o path) :
    settings (.of read stands configHome) o = .ok {} := by
  unfold settings
  rw [not_settingsFile_iff.mpr h]
  simp [Settings.validate_default, Except.mapError, bind, Except.bind, pure, Except.pure]

theorem settings_eq_ok_iff {s : Settings} :
    settings (.of read stands configHome) o = .ok s ↔ Resolves read stands configHome o s := by
  constructor
  · intro h
    by_cases hfile : ∃ path, SettingsFile stands configHome o path
    · obtain ⟨path, hpath⟩ := hfile
      rw [settings_of_file hpath, Settings.mapError_eq_ok_iff, Settings.load_eq_ok_iff] at h
      exact .file hpath h
    · have hnone := not_exists.mp hfile
      rw [settings_of_no_file hnone] at h
      cases h
      exact .builtIn hnone
  · rintro (⟨hfile, hs⟩ | hnone)
    · rw [settings_of_file hfile, Settings.load_eq_ok_iff.mpr hs]
      rfl
    · exact settings_of_no_file hnone

/-- Only a settings file makes a run fail of its settings, and it is named then. -/
theorem settings_eq_error {message : String}
    (h : settings (.of read stands configHome) o = .error message) :
    ∃ path, SettingsFile stands configHome o path ∧
      message = "failed to load config " ++ path := by
  by_cases hfile : ∃ path, SettingsFile stands configHome o path
  · obtain ⟨path, hpath⟩ := hfile
    rw [settings_of_file hpath] at h
    refine ⟨path, hpath, ?_⟩
    cases hload : Settings.load read path with
    | error e =>
      rw [hload] at h
      exact (Except.error.inj h).symm
    | ok s =>
      rw [hload] at h
      cases h
  · rw [settings_of_no_file (not_exists.mp hfile)] at h
    cases h

/-! ## The program -/

theorem program_eq_ok_iff {around : Surroundings} {text : String} :
    program around o = .ok text ↔ around.read o.file = .ok text.toUTF8 := by
  rw [program, Settings.mapError_eq_ok_iff, Settings.readText_eq_ok_iff]

theorem program_eq_error {around : Surroundings} {message : String}
    (h : program around o = .error message) :
    message = "failed to read G-code file " ++ o.file := by
  unfold program at h
  cases hread : Settings.readText around.read o.file with
  | error e =>
    rw [hread] at h
    exact (Except.error.inj h).symm
  | ok text =>
    rw [hread] at h
    cases h

/-! ## Runs -/

inductive Outcome (E : Elementary Float) (read : String → Except FileError ByteArray)
    (stands : String → Bool) (configHome : Option String) (o : Options) : Result → Prop
  | evaluated {s : Settings} {text : String} (hs : Resolves read stands configHome o s)
      (htext : read o.file = .ok text.toUTF8) :
      Outcome E read stands configHome o { exit := 0, output := report o (evaluate E s text) }
  | noSettings {path : String} (hfile : SettingsFile stands configHome o path)
      (hs : ∀ s, ¬ Resolves read stands configHome o s) :
      Outcome E read stands configHome o (failed ("failed to load config " ++ path))
  | noProgram {s : Settings} (hs : Resolves read stands configHome o s)
      (htext : ∀ text : String, read o.file ≠ .ok text.toUTF8) :
      Outcome E read stands configHome o (failed ("failed to read G-code file " ++ o.file))

theorem perform_outcome (E : Elementary Float) :
    Outcome E read stands configHome o (perform E (.of read stands configHome) o) := by
  unfold perform
  cases hs : settings (.of read stands configHome) o with
  | error message =>
    obtain ⟨path, hfile, rfl⟩ := settings_eq_error hs
    refine .noSettings hfile fun s hresolves => ?_
    rw [settings_eq_ok_iff.mpr hresolves] at hs
    cases hs
  | ok s =>
    have hresolves := settings_eq_ok_iff.mp hs
    cases hprogram : program (.of read stands configHome) o with
    | error message =>
      obtain rfl := program_eq_error hprogram
      refine .noProgram hresolves fun text htext => ?_
      rw [program_eq_ok_iff.mpr htext] at hprogram
      cases hprogram
    | ok text => exact .evaluated hresolves (program_eq_ok_iff.mp hprogram)

theorem Resolves.unique {s t : Settings} (hs : Resolves read stands configHome o s)
    (ht : Resolves read stands configHome o t) : s = t :=
  Except.ok.inj ((settings_eq_ok_iff.mpr hs).symm.trans (settings_eq_ok_iff.mpr ht))

theorem SettingsFile.unique {path path' : String} (h : SettingsFile stands configHome o path)
    (h' : SettingsFile stands configHome o path') : path = path' := by
  cases h with
  | named hconfig =>
    cases h' with
    | named hconfig' => exact Option.some.inj (hconfig.symm.trans hconfig')
    | standing hnone => cases hconfig.symm.trans hnone
  | standing hnone hhome =>
    cases h' with
    | named hconfig => cases hnone.symm.trans hconfig
    | standing _ hhome' => rw [Option.some.inj (hhome.symm.trans hhome')]

theorem Resolves.heldBy {s : Settings} {path : String}
    (h : Resolves read stands configHome o s) (hconfig : o.config = some path) :
    s.HeldBy read path := by
  have hnamed : SettingsFile stands configHome o path := .named hconfig
  cases h with
  | builtIn hnone => exact absurd hnamed (hnone path)
  | file hfile hs => rwa [hfile.unique hnamed] at hs

/-- A run whose arguments are understood succeeds just if it comes by settings and its program file
holds a text, and then it prints the evaluation of that text, whatever the text is. A run that fails
prints nothing. It complains of the settings file if it comes by no settings, whether or not there is
a program, and else of the program file. A settings file named in the arguments is the only one that
settings can come from. -/
theorem run_outcome (E : Elementary Float) (read : String → Except FileError ByteArray)
    (stands : String → Bool) (configHome : Option String) {arguments : List String} {o : Options}
    (harguments : Options.ofArguments? arguments = some o) :
    let result := run E (.of read stands configHome) arguments
    (result.exit = 0 ↔ (∃ s, Resolves read stands configHome o s) ∧
      ∃ text : String, read o.file = .ok text.toUTF8) ∧
    (∀ s (text : String), Resolves read stands configHome o s → read o.file = .ok text.toUTF8 →
      result = { exit := 0, output := report o (evaluate E s text), message := none }) ∧
    (result.exit ≠ 0 → result.exit = 1 ∧ result.output = "") ∧
    ((¬ ∃ s, Resolves read stands configHome o s) →
      ∃ path, SettingsFile stands configHome o path ∧
        result.message = some ("failed to load config " ++ path)) ∧
    ((∃ s, Resolves read stands configHome o s) → (¬ ∃ text : String, read o.file = .ok text.toUTF8) →
      result.message = some ("failed to read G-code file " ++ o.file)) ∧
    (∀ path, o.config = some path → result.exit = 0 → ∃ s text, s.HeldBy read path ∧
      read o.file = .ok text.toUTF8 ∧ result.output = report o (evaluate E s text)) := by
  intro result
  have hresult : Outcome E read stands configHome o result := by
    change Outcome E read stands configHome o (run E (.of read stands configHome) arguments)
    rw [run, harguments]
    exact perform_outcome E
  clear_value result
  cases hresult with
  | @evaluated s text hs htext =>
    refine ⟨iff_of_true rfl ⟨⟨s, hs⟩, text, htext⟩, ?_, fun h => absurd rfl h,
      fun h => absurd ⟨s, hs⟩ h, fun _ h => absurd ⟨text, htext⟩ h,
      fun path hconfig _ => ⟨s, text, hs.heldBy hconfig, htext, rfl⟩⟩
    intro s' text' hs' htext'
    have hbytes : text'.toUTF8 = text.toUTF8 := Except.ok.inj (htext'.symm.trans htext)
    rw [hs'.unique hs, String.toByteArray_inj.mp hbytes]
  | @noSettings path hfile hs =>
    exact ⟨iff_of_false Nat.one_ne_zero fun h => hs _ h.1.choose_spec, fun s _ h => absurd h (hs s),
      fun _ => ⟨rfl, rfl⟩, fun _ => ⟨path, hfile, rfl⟩, fun h => absurd h (not_exists.mpr hs),
      fun _ _ h => absurd h Nat.one_ne_zero⟩
  | @noProgram s hs htext =>
    exact ⟨iff_of_false Nat.one_ne_zero fun h => htext _ h.2.choose_spec,
      fun _ text _ h => absurd h (htext text), fun _ => ⟨rfl, rfl⟩, fun h => absurd ⟨s, hs⟩ h,
      fun _ _ => rfl, fun _ _ h => absurd h Nat.one_ne_zero⟩

/-- A settings file that is named and missing is complained of, although the program is missing too
and default settings are there. A malformed program is evaluated. -/
theorem run_outcome_missing :
    let fs := FileStore.ofFiles [] [("u/gcodetrace/config.toml", "rapid_feed = 30.0".toUTF8),
      ("part.nc", "G2 X1".toUTF8)]
    let missing := run .onAxes (.of fs.read fs.holds (some "u")) ["--config", "c.toml", "absent.nc"]
    let malformed := run .onAxes (.of fs.read fs.holds none) ["part.nc"]
    (missing.exit = 1 ∧ missing.output = "" ∧
      missing.message = some "failed to load config c.toml") ∧
    malformed.exit = 0 := by
  intro fs missing malformed
  constructor
  · have harguments : Options.ofArguments? ["--config", "c.toml", "absent.nc"] =
        some ⟨"absent.nc", some "c.toml", false, 10, false⟩ := by decide +kernel
    have hread : fs.read "c.toml" = .error .notFound := by decide +kernel
    obtain ⟨hexit, -, hfails, hmessage, -⟩ :=
      run_outcome .onAxes fs.read fs.holds (some "u") harguments
    have hnone : ¬ ∃ s, Resolves fs.read fs.holds (some "u")
        ⟨"absent.nc", some "c.toml", false, 10, false⟩ s := by
      rintro ⟨s, hs⟩
      obtain ⟨-, text, -, htext, -, -⟩ := hs.heldBy rfl
      rw [hread] at htext
      cases htext
    obtain ⟨path, hfile, hpath⟩ := hmessage hnone
    obtain ⟨hone, hsilent⟩ := hfails fun h => hnone (hexit.mp h).1
    refine ⟨hone, hsilent, ?_⟩
    rwa [hfile.unique (.named rfl)] at hpath
  · have harguments : Options.ofArguments? ["part.nc"] =
        some ⟨"part.nc", none, false, 10, false⟩ := by decide +kernel
    have htext : fs.read "part.nc" = .ok "G2 X1".toUTF8 := by decide +kernel
    obtain ⟨hexit, -⟩ := run_outcome .onAxes fs.read fs.holds none harguments
    refine hexit.mpr ⟨⟨{}, .builtIn ?_⟩, "G2 X1", htext⟩
    rintro path (hconfig | ⟨-, hhome, -⟩)
    · cases hconfig
    · cases hhome

end Toolpath.CommandLine
