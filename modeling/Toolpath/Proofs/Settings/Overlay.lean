import Mathlib.Data.Finset.Basic
import Toolpath.Proofs.Settings.RoundTrip

/-! # Settings that a file lists

A file may list any of the settings, in any order and among other keys. Those that it lists are
taken from it, all others are the defaults. If one of them is out of its range, the file is not
loaded, and that setting is the one complained of.
-/
namespace Toolpath

/-! ## Values of settings -/

namespace Settings

inductive Value where
  | number (x : Float)
  | count (n : UInt64)

def value (s : Settings) : Setting → Value
  | .defaultFeed => .number s.defaultFeed
  | .rapidFeed => .number s.rapidFeed
  | .degreesPerSample => .number s.degreesPerSample
  | .minSamples => .count s.minSamples
  | .endpointTolerance => .number s.endpointTolerance

def value? (setting : Setting) (d : Datum) : Option Value :=
  match setting with
  | .minSamples => d.count?.map .count
  | _ => d.float?.map .number

/-- Data that list just the given settings, each of them once and with its value. Other keys may
stand among them. -/
structure Lists (data : List (String × Datum)) (s : Settings) (listed : Finset Setting) :
    Prop where
  once (setting : Setting) :
    (data.map Prod.fst).count setting.key = if setting ∈ listed then 1 else 0
  value {setting : Setting} {d : Datum} (h : (setting.key, d) ∈ data) :
    value? setting d = some (s.value setting)

variable {s t : Settings} {setting : Setting} {d : Datum}

/-- Replacing a setting gives it the value of the datum, and leaves all others. -/
theorem exists_set?_eq {v : Value} (h : value? setting d = some v) :
    ∃ t, s.set? setting d = some t ∧ t.value setting = v ∧
      ∀ other ≠ setting, t.value other = s.value other := by
  cases setting
  case minSamples =>
    obtain ⟨n, hn, rfl⟩ := Option.map_eq_some_iff.mp h
    exact ⟨{ s with minSamples := n }, by simp [set?, hn], rfl, fun other hne => by
      cases other <;> first | rfl | exact absurd rfl hne⟩
  all_goals
    obtain ⟨x, hx, rfl⟩ := Option.map_eq_some_iff.mp h
    refine ⟨_, by rw [set?, hx]; rfl, rfl, fun other hne => ?_⟩
    cases other <;> first | rfl | exact absurd rfl hne

/-- Whether a setting is in its range depends on its value. -/
theorem holds_congr (h : s.value setting = t.value setting) :
    setting.holds s = setting.holds t := by
  cases setting <;> (injection h with h; simp only [Setting.holds, h])

/-- Data laid over settings, one after another. -/
theorem exists_foldlM_set?_eq {data : List (Setting × Datum)} (s : Settings)
    (h : ∀ p ∈ data, value? p.1 p.2 = some (t.value p.1)) :
    ∃ r, data.foldlM (fun s d => s.set? d.1 d.2) s = some r ∧ ∀ setting, r.value setting =
      if setting ∈ data.map Prod.fst then t.value setting else s.value setting := by
  induction data generalizing s with
  | nil => exact ⟨s, rfl, fun _ => rfl⟩
  | cons p data ih =>
    obtain ⟨first, hset, hvalue, hother⟩ := exists_set?_eq (s := s) (h p List.mem_cons_self)
    obtain ⟨r, hr, hrest⟩ := ih first fun q hq => h q (List.mem_cons_of_mem _ hq)
    refine ⟨r, by rw [List.foldlM_cons, hset]; exact hr, fun setting => ?_⟩
    rw [hrest setting, List.map_cons]
    by_cases hmore : setting ∈ data.map Prod.fst
    · rw [if_pos hmore, if_pos (List.mem_cons_of_mem _ hmore)]
    · rw [if_neg hmore]
      by_cases hfirst : setting = p.1
      · rw [if_pos (hfirst ▸ List.mem_cons_self), hfirst, hvalue]
      · rw [if_neg (List.mem_cons.not.mpr (not_or.mpr ⟨hfirst, hmore⟩)), hother _ hfirst]

/-! ## Keys -/

theorem ofKey?_eq_some_iff {key : String} :
    Setting.ofKey? key = some setting ↔ key = setting.key := by
  constructor
  · intro h
    have hkey := List.find?_some h
    exact (beq_iff_eq.mp hkey).symm
  · rintro rfl
    exact ofKey?_key setting

theorem mem_known_iff {data : List (String × Datum)} :
    (setting, d) ∈ known data ↔ (setting.key, d) ∈ data := by
  unfold known
  rw [List.mem_filterMap]
  constructor
  · rintro ⟨⟨key, datum⟩, hmem, h⟩
    obtain ⟨found, hfound, h⟩ := Option.map_eq_some_iff.mp h
    cases h
    rwa [← ofKey?_eq_some_iff.mp hfound]
  · intro h
    exact ⟨_, h, by rw [ofKey?_key]; rfl⟩

theorem count_known (data : List (String × Datum)) (setting : Setting) :
    ((known data).map Prod.fst).count setting = (data.map Prod.fst).count setting.key := by
  have hkeys : (known data).map Prod.fst = (data.map Prod.fst).filterMap Setting.ofKey? := by
    simp [known, List.map_filterMap, List.filterMap_map, Function.comp_def]
  rw [hkeys, List.count_filterMap, List.count_eq_countP]
  refine List.countP_congr fun key _ => ?_
  simp [ofKey?_eq_some_iff]

theorem count_key_map {order : List Setting} (h : order.Nodup) (datum : Setting → Datum) :
    ((order.map fun setting => (setting.key, datum setting)).map Prod.fst).count setting.key =
      if setting ∈ order then 1 else 0 := by
  rw [← count_known, known_map, List.map_map, Function.comp_def, List.map_id', h.count]

/-- Settings in any order, each with a datum of its value, and other keys anywhere among them. -/
theorem lists_of_perm {data others : List (String × Datum)} {order : List Setting}
    {datum : Setting → Datum} (hperm : data.Perm
      ((order.map fun setting => (setting.key, datum setting)) ++ others))
    (hnodup : order.Nodup) (hothers : ∀ p ∈ others, Setting.ofKey? p.1 = none)
    (hvalue : ∀ setting ∈ order, value? setting (datum setting) = some (s.value setting)) :
    Lists data s order.toFinset where
  once setting := by
    have hother : (others.map Prod.fst).count setting.key = 0 := by
      rw [List.count_eq_zero]
      intro hmem
      obtain ⟨p, hp, hkey⟩ := List.mem_map.mp hmem
      have hnone := hothers p hp
      rw [hkey, ofKey?_key] at hnone
      cases hnone
    rw [(hperm.map Prod.fst).count_eq, List.map_append, List.count_append, hother,
      count_key_map hnodup, Nat.add_zero]
    simp only [List.mem_toFinset]
  value := by
    intro setting d h
    rcases List.mem_append.mp (hperm.mem_iff.mp h) with h | h
    · obtain ⟨found, hfound, heq⟩ := List.mem_map.mp h
      obtain ⟨hkey, rfl⟩ := Prod.mk.inj heq
      cases (ofKey?_key found).symm.trans (ofKey?_eq_some_iff.mpr hkey)
      exact hvalue _ hfound
    · have hnone := hothers _ h
      rw [ofKey?_key] at hnone
      cases hnone

/-- Data that list settings are the defaults with these settings laid over them. -/
theorem exists_overlay?_eq {data : List (String × Datum)} {listed : Finset Setting}
    (h : Lists data t listed) : ∃ r, overlay? (known data) = some r ∧ ∀ setting, r.value setting =
      if setting ∈ listed then t.value setting else ({} : Settings).value setting := by
  have hcount (setting : Setting) := (count_known data setting).trans (h.once setting)
  have hnodup : ((known data).map Prod.fst).Nodup := by
    rw [List.nodup_iff_count_le_one]
    intro setting
    rw [hcount]
    split <;> omega
  have hmem (setting : Setting) : setting ∈ (known data).map Prod.fst ↔ setting ∈ listed := by
    rw [← List.count_pos_iff, hcount]
    split <;> simp_all
  obtain ⟨r, hr, hvalue⟩ := exists_foldlM_set?_eq (t := t) {} fun p hp =>
    h.value (mem_known_iff.mp hp)
  refine ⟨r, by rw [overlay?, if_pos hnodup, hr], fun setting => ?_⟩
  rw [hvalue setting]
  simp only [hmem]

end Settings

/-! ## Files -/

/-- The data that a text of a format gives under the keys of its outermost level. -/
inductive Format.Gives (text : String) (data : List (String × Datum)) : Format → Prop
  | json (h : Json.layer? text.toList = some (.object data)) : Gives text data .json
  | toml {d : Toml.Definitions} (h : Toml.document? text.toList = some d) (root : d.root = data) :
    Gives text data .toml

namespace Settings

variable {read : String → Except FileError ByteArray} {path text : String} {f : Format}
  {data : List (String × Datum)} {s t c : Settings} {listed : Finset Setting}

theorem parse_of_gives (hgives : f.Gives text data) (hoverlay : overlay? (known data) = some s) :
    parse f text = .ok s := by
  cases hgives with
  | json h => simp [parse, ofJson?, h, hoverlay]
  | toml h root => simp [parse, ofToml?, h, root, hoverlay]

theorem violation?_eq_some {setting : Setting} (hout : ¬ setting.holds s)
    (hother : ∀ other ≠ setting, other.holds s) : s.violation? = some setting := by
  cases hviolation : s.violation? with
  | none => exact absurd (violation?_eq_none_iff.mp hviolation setting) hout
  | some found =>
    have hfound : ¬ found.holds s := by simpa using List.find?_some hviolation
    exact congrArg some (not_imp_comm.mp (hother found) hfound)

theorem default_holds (setting : Setting) : setting.holds {} :=
  violation?_eq_none_iff.mp (by decide +kernel) setting

/-- Laid over the defaults, settings in range stay in range. -/
theorem holds_of_overlay {setting : Setting} (h : s.value setting =
    if setting ∈ listed then t.value setting else ({} : Settings).value setting)
    (ht : setting ∈ listed → setting.holds t) : setting.holds s := by
  by_cases hmem : setting ∈ listed
  · rw [holds_congr (h.trans (if_pos hmem))]
    exact ht hmem
  · rw [holds_congr (h.trans (if_neg hmem))]
    exact default_holds setting

theorem load_of_overlay (hformat : Format.ofPath path = .ok f) (hread : read path = .ok text.toUTF8)
    (hgives : f.Gives text data) (hoverlay : overlay? (known data) = some s) :
    load read path = (s.validate.mapError .config).map fun _ => s := by
  rw [load_eq hformat hread, parse_of_gives hgives hoverlay]
  rfl

/-- A file that lists settings in range is loaded, and what it does not list is left at the default.
If one of those that it lists is out of range, that one is complained of. -/
theorem load_of_lists (hformat : Format.ofPath path = .ok f)
    (hread : read path = .ok text.toUTF8) (hgives : f.Gives text data)
    (hrange : ∀ setting : Setting, setting.holds c) :
    (Lists data c listed → ∃ s, load read path = .ok s ∧ ∀ setting, s.value setting =
      if setting ∈ listed then c.value setting else ({} : Settings).value setting) ∧
    (∀ (changed : Settings) (setting : Setting), setting ∈ listed → Lists data changed listed →
      (∀ other ≠ setting, changed.value other = c.value other) → ¬ setting.holds changed →
      load read path = .error (.config (.invalidValue setting.key setting.demand))) := by
  constructor
  · intro hlists
    obtain ⟨s, hoverlay, hvalue⟩ := exists_overlay?_eq hlists
    refine ⟨s, ?_, hvalue⟩
    have hvalid : ∀ setting : Setting, setting.holds s := fun setting =>
      holds_of_overlay (hvalue setting) fun _ => hrange setting
    rw [load_of_overlay hformat hread hgives hoverlay, validate_eq_ok_iff.mpr hvalid]
    rfl
  · intro changed setting hmem hlists hsame hout
    obtain ⟨s, hoverlay, hvalue⟩ := exists_overlay?_eq hlists
    have hother : ∀ other ≠ setting, other.holds s := fun other hne =>
      holds_of_overlay (hvalue other) fun _ => by
        rw [holds_congr (hsame other hne)]
        exact hrange other
    have hinvalid : ¬ setting.holds s := by
      rwa [holds_congr ((hvalue setting).trans (if_pos hmem))]
    rw [load_of_overlay hformat hread hgives hoverlay, validate, violation?_eq_some hinvalid hother]
    rfl

/-! ## Files that list settings -/

/-- TOML lines of settings in any order, with lines of other keys anywhere among them. -/
theorem gives_lines {lines others : List Toml.Line} {order : List Setting}
    (htext : text.toList = lines.flatMap Toml.Line.chars)
    (hperm : lines.Perm (order.map c.line ++ others)) (hvalid : ∀ l ∈ lines, l.Valid)
    (hkeys : (lines.map Toml.Line.key).Nodup)
    (hothers : ∀ l ∈ others, Setting.ofKey? l.key = none) :
    ∃ data, Format.toml.Gives text data ∧ Lists data c order.toFinset := by
  obtain ⟨d, hd, hroot⟩ := Option.map_eq_some_iff.mp (Toml.document?_valid hvalid hkeys)
  refine ⟨_, .toml (htext ▸ hd) hroot, ?_⟩
  have hpairs := (List.reverse_perm _).trans (hperm.map fun l => (l.key, l.datum))
  rw [List.map_append, List.map_map] at hpairs
  refine lists_of_perm hpairs ?_ ?_ fun setting _ => ?_
  · have hnodup := (hperm.map Toml.Line.key).nodup_iff.mp hkeys
    rw [List.map_append, List.map_map] at hnodup
    exact (List.Nodup.of_append_left hnodup).of_map _
  · intro p hp
    obtain ⟨l, hl, rfl⟩ := List.mem_map.mp hp
    exact hothers l hl
  · cases setting <;> rfl

/-- A JSON object of settings in any order, with other keys anywhere among them. Its numbers must be
read as themselves. -/
theorem gives_members {fields others : List (String × Json)} {order : List Setting}
    (hperm : fields.Perm (order.map c.member ++ others)) (hflat : ∀ f ∈ fields, Json.Flat f)
    (hne : fields ≠ []) (hnodup : order.Nodup) (hothers : ∀ f ∈ others, Setting.ofKey? f.1 = none)
    (hback : ∀ x ∈ c.numbers, Json.ReadsBack x) :
    ∃ data, Format.json.Gives ((Json.object fields).text .pretty) data ∧
      Lists data c order.toFinset := by
  refine ⟨_, .json (Json.layer?_text hflat hne), ?_⟩
  have hpairs := hperm.map fun f => (f.1, f.2.datum)
  rw [List.map_append, List.map_map] at hpairs
  refine lists_of_perm hpairs hnodup ?_ fun setting _ => ?_
  · intro p hp
    obtain ⟨f, hf, rfl⟩ := List.mem_map.mp hp
    exact hothers f hf
  · cases setting with
    | minSamples => exact congrArg (fun n => some (Value.count n)) UInt64.ofNat_toNat
    | _ => exact congrArg (Option.map Value.number) (hback _ (by simp [numbers]))

/-- A JSON file that lists two settings behind another key is loaded with the defaults of the rest.
A TOML file that lists a step of more than a turn is not loaded. -/
theorem load_of_lists_partial :
    let c : Settings := { rapidFeed := 3000, minSamples := 12 }
    let json :=
      "\x7b\n  \"unit\": null,\n  \"arc_min_samples\": 12,\n  \"rapid_feed\": 3000.0\n\x7d"
    let toml := "unit = 25\nrapid_feed = 3000.0\narc_degrees_per_sample = 400.0\n"
    let read := fun path : String =>
      if path = "c.json" then .ok json.toUTF8
      else if path = "c.toml" then .ok toml.toUTF8 else .error FileError.notFound
    (∀ setting : Setting, setting.holds c) ∧
    (∃ s, load read "c.json" = .ok s ∧ s.value .rapidFeed = .number 3000 ∧
      s.value .minSamples = .count 12 ∧ s.value .defaultFeed = .number 1000) ∧
    load read "c.toml" =
      .error (.config (.invalidValue "arc_degrees_per_sample" "must be in (0, 360]")) := by
  intro c json toml read
  have hrange : ∀ setting : Setting, setting.holds c :=
    violation?_eq_none_iff.mp (by decide +kernel)
  refine ⟨hrange, ?_, ?_⟩
  · have hformat : Format.ofPath "c.json" = .ok .json := by decide +kernel
    have hread : read "c.json" = .ok json.toUTF8 := if_pos rfl
    have htext : (Json.object [("unit", .null), c.member .minSamples, c.member .rapidFeed]).text
        .pretty = json := by decide +kernel
    have hflat : ∀ f ∈ [("unit", .null), c.member .minSamples, c.member .rapidFeed], Json.Flat f :=
      List.forall_mem_cons.mpr ⟨⟨by simp [Json.PlainKey], Json.readsAs_null⟩,
        List.forall_mem_cons.mpr ⟨flat_member c _, List.forall_mem_singleton.mpr (flat_member c _)⟩⟩
    have hperm : [("unit", .null), c.member .minSamples, c.member .rapidFeed].Perm
        ([Setting.minSamples, .rapidFeed].map c.member ++ [("unit", .null)]) :=
      (List.perm_append_singleton _ _).symm
    obtain ⟨data, hgives, hlists⟩ := gives_members hperm hflat (by simp) (by decide)
      (by simp; decide) (by decide +kernel)
    obtain ⟨s, hload, hvalue⟩ :=
      (load_of_lists hformat hread (htext ▸ hgives) hrange).1 hlists
    exact ⟨s, hload, hvalue _, hvalue _, hvalue _⟩
  · let changed : Settings := { c with degreesPerSample := 400 }
    let unit : Toml.Line := ⟨"unit", "25".toList, .integer false 25⟩
    have hformat : Format.ofPath "c.toml" = .ok .toml := by decide +kernel
    have hread : read "c.toml" = .ok toml.toUTF8 := (if_neg (by decide)).trans (if_pos rfl)
    have htext : toml.toList = [unit, changed.line .rapidFeed,
        changed.line .degreesPerSample].flatMap Toml.Line.chars := by decide +kernel
    have hunit : unit.Valid :=
      ⟨⟨by decide, by simp [unit]; decide⟩, Toml.readsAs_toString (n := 25) (by decide)⟩
    have hvalid : ∀ l ∈ [unit, changed.line .rapidFeed, changed.line .degreesPerSample], l.Valid :=
      List.forall_mem_cons.mpr ⟨hunit, List.forall_mem_cons.mpr ⟨valid_line (by decide) _,
        List.forall_mem_singleton.mpr (valid_line (by decide) _)⟩⟩
    have hperm : [unit, changed.line .rapidFeed, changed.line .degreesPerSample].Perm
        ([Setting.rapidFeed, .degreesPerSample].map changed.line ++ [unit]) :=
      (List.perm_append_singleton _ _).symm
    obtain ⟨data, hgives, hlists⟩ := gives_lines htext hperm hvalid (by decide) (by simp; decide)
    have hsame : ∀ other ≠ .degreesPerSample, changed.value other = c.value other := by
      intro other hother
      cases other <;> first | exact absurd rfl hother | simp only [value, changed]
    exact (load_of_lists hformat hread hgives hrange).2 changed .degreesPerSample (by decide) hlists
      hsame (by decide +kernel)

end Settings
end Toolpath
