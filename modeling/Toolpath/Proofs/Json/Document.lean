import Toolpath.Proofs.Json.Number

/-! # Objects of numbers read back

An object over many lines, with keys that need no escapes and with values that are numbers or null,
is read as what was written, member by member.
-/
namespace Toolpath.Json

theorem skipSpace_of_stops {text : List Char} (h : Stops isSpace text) : skipSpace text = text :=
  dropWhile_of_stops h

/-! ## Keys -/

def PlainKey (key : List Char) : Prop := ∀ c ∈ key, 0x20 ≤ c.toNat ∧ c ≠ '"' ∧ c ≠ '\\'

theorem quotedText?_append {key : List Char} (hkey : PlainKey key) (rest : List Char) :
    quotedText? (key ++ '"' :: rest) = some (key, rest) := by
  induction key with
  | nil => simp [quotedText?]
  | cons c key ih =>
    obtain ⟨hcontrol, hquote, hslash⟩ := hkey c (by simp)
    have hmore := ih fun d hd => hkey d (by simp [hd])
    rw [List.cons_append, quotedText?]
    · rw [if_neg (by omega), hmore]
      rfl
    · exact hquote
    all_goals
      intros
      exact hslash ‹_›

theorem toList_quoted {key : String} (hkey : PlainKey key.toList) :
    (quoted key).toList = '"' :: (key.toList ++ ['"']) := by
  have hescape : key.toList.map escape = key.toList.map String.singleton := by
    refine List.map_congr_left fun c hc => ?_
    obtain ⟨hcontrol, hquote, hslash⟩ := hkey c hc
    unfold escape
    split
    · exact absurd rfl hquote
    · exact absurd rfl hslash
    · exact absurd hcontrol (by decide)
    · exact absurd hcontrol (by decide)
    · exact absurd hcontrol (by decide)
    · exact absurd hcontrol (by decide)
    · exact absurd hcontrol (by decide)
    · rw [if_neg (by omega)]
  have hjoin (cs : List Char) : (String.join (cs.map String.singleton)).toList = cs := by
    induction cs with
    | nil => rfl
    | cons c cs ih => simp_all [String.toList_join]
  simp [quoted, hescape, hjoin]

/-! ## Values -/

def datum : Json → Datum
  | natural n => .integer false (UInt64.ofNat n)
  | number x => reading x
  | _ => .other

/-- A text that ends where a number ends is read as a datum. -/
structure ReadsAs (text : List Char) (d : Datum) : Prop where
  start {rest : List Char} (hrest : Stops inNumber rest) : Stops isSpace (text ++ rest)
  value {rest : List Char} (hrest : Stops inNumber rest) : datum? (text ++ rest) = some (d, rest)

theorem stops_of_number? {text : List Char} {r : Datum × List Char} (h : number? text = some r) :
    Stops isSpace text := by
  intro c hc
  obtain ⟨rest, rfl⟩ := List.head?_eq_some_iff.mp hc
  by_contra hspace
  have hdigit : c.isDigit = false ∧ c ≠ '-' := by
    simp only [isSpace, Bool.or_eq_false_iff, decide_eq_false_iff_not, not_and_or,
      not_not] at hspace
    rcases hspace with ((rfl | rfl) | rfl) | rfl <;> decide
  unfold number? at h
  split at h
  next after hsplit =>
  split at hsplit
  · next heq => cases heq; exact hdigit.2 rfl
  · cases hsplit
    simp [digits?, hdigit.1] at h

theorem readsAs_of_number? {text : List Char} {d : Datum}
    (h : ∀ rest, Stops inNumber rest → number? (text ++ rest) = some (d, rest)) :
    ReadsAs text d where
  start hrest := stops_of_number? (h _ hrest)
  value hrest := by rw [datum?, h _ hrest]

theorem readsAs_natural {n : Nat} (hn : n < UInt64.size) :
    ReadsAs (toString n).toList (natural n).datum :=
  readsAs_of_number? fun _ hrest => number?_toString hn hrest

theorem readsAs_null : ReadsAs "null".toList .other where
  start _ := stops_cons.mpr rfl
  value _ := by simp [datum?, number?, digits?, skip?, fuel]

theorem readsAs_number (x : Float) : ReadsAs (numberText x).toList (number x).datum := by
  cases hx : x.isFinite with
  | true => exact readsAs_of_number? fun _ hrest => number?_reading hx hrest
  | false =>
    rw [datum, numberText_of_not_isFinite hx, reading_of_not_isFinite hx]
    exact readsAs_null

/-! ## Members -/

def memberText (f : String × Json) : List Char :=
  '"' :: (f.1.toList ++ '"' :: ':' :: ' ' :: (f.2.write .pretty 1).toList)

/-- A member with a key that needs no escapes, and a value that is read as its datum. -/
structure Flat (f : String × Json) : Prop where
  plain : PlainKey f.1.toList
  reads : ReadsAs (f.2.write .pretty 1).toList f.2.datum

/-- Behind a member there are more of them, or the end of the object. -/
theorem members?_cons {f : String × Json} (hf : Flat f) (fuel : Nat) {rest more : List Char}
    (hrest : Stops inNumber rest) :
    (skipSpace rest = ',' :: more → members? (fuel + 1) (memberText f ++ rest) =
      (members? fuel (skipSpace more)).map fun r => ((f.1, f.2.datum) :: r.1, r.2)) ∧
    (skipSpace rest = '}' :: more → members? (fuel + 1) (memberText f ++ rest) =
      some ([(f.1, f.2.datum)], more)) := by
  generalize hvalue : (f.2.write .pretty 1).toList = value
  have hreads := hvalue ▸ hf.reads
  have hkey := quotedText?_append hf.plain (':' :: ' ' :: (value ++ rest))
  have hspace : ([' '] ++ (value ++ rest)).dropWhile isSpace = value ++ rest :=
    dropWhile_run (by simp [isSpace]) (hreads.start hrest)
  change skipSpace (' ' :: (value ++ rest)) = _ at hspace
  have hcolon : skipSpace (':' :: ' ' :: (value ++ rest)) = ':' :: ' ' :: (value ++ rest) :=
    skipSpace_of_stops (stops_cons.mpr rfl)
  have htext : memberText f ++ rest =
      '"' :: (f.1.toList ++ '"' :: ':' :: ' ' :: (value ++ rest)) := by
    simp [memberText, hvalue]
  rw [htext, members?]
  constructor <;> intro hmore <;> simp [hkey, hcolon, hspace, hreads.value hrest, hmore]

def membersText : List (String × Json) → List Char
  | [] => []
  | [f] => memberText f ++ ['\n', '}']
  | f :: g :: fs => memberText f ++ ',' :: '\n' :: ' ' :: ' ' :: membersText (g :: fs)

theorem exists_membersText {fs : List (String × Json)} (hne : fs ≠ []) :
    ∃ rest, membersText fs = '"' :: rest := by
  cases fs with
  | nil => exact absurd rfl hne
  | cons f fs => cases fs <;> exact ⟨_, rfl⟩

theorem skipSpace_membersText {fs : List (String × Json)} (hne : fs ≠ []) :
    skipSpace ('\n' :: ' ' :: ' ' :: membersText fs) = membersText fs := by
  obtain ⟨rest, hrest⟩ := exists_membersText hne
  simp [hrest, skipSpace, isSpace]

theorem members?_membersText {fs : List (String × Json)} (hfs : ∀ f ∈ fs, Flat f) (hne : fs ≠ [])
    {fuel : Nat} (hfuel : fs.length ≤ fuel) :
    members? fuel (membersText fs) = some (fs.map fun f => (f.1, f.2.datum), []) := by
  -- the last member is read by itself: a brace stands behind it, and no comma
  induction fs generalizing fuel with
  | nil => exact absurd rfl hne
  | cons f fs ih =>
    obtain ⟨fuel, rfl⟩ := Nat.exists_eq_add_of_le' (Nat.one_le_of_lt hfuel)
    have hf := hfs f (by simp)
    cases fs with
    | nil =>
      exact (members?_cons hf fuel (stops_cons.mpr rfl)).2 rfl
    | cons g fs =>
      have hmore := ih (fun f hf => hfs f (by simp [hf])) (by simp) (Nat.le_of_succ_le_succ hfuel)
      have hspace := skipSpace_membersText (List.cons_ne_nil g fs)
      rw [membersText, (members?_cons hf fuel (stops_cons.mpr rfl)).1 rfl, hspace, hmore]
      rfl

theorem length_le_membersText (fs : List (String × Json)) :
    fs.length ≤ (membersText fs).length := by
  induction fs with
  | nil => simp
  | cons f fs ih =>
    cases fs with
    | nil => simp [membersText]
    | cons g fs =>
      rw [membersText, List.length_append, List.length_cons (a := f)]
      simp only [List.length_cons] at ih ⊢
      omega

/-! ## Objects -/

theorem layer?_membersText {fs : List (String × Json)} (hfs : ∀ f ∈ fs, Flat f) (hne : fs ≠ []) :
    layer? ('{' :: '\n' :: ' ' :: ' ' :: membersText fs) =
      some (.object (fs.map fun f => (f.1, f.2.datum))) := by
  have hbrace (text : List Char) : skipSpace ('{' :: text) = '{' :: text :=
    skipSpace_of_stops (stops_cons.mpr rfl)
  have hspace := skipSpace_membersText hne
  have hend : skipSpace [] = [] := rfl
  have hfuel : fs.length ≤ (membersText fs).length + 1 + 1 + 1 + 1 := by
    have := length_le_membersText fs
    omega
  have hmembers := members?_membersText hfs hne hfuel
  obtain ⟨rest, hrest⟩ := exists_membersText hne
  rw [hrest] at hspace hmembers ⊢
  unfold layer?
  rw [hbrace]
  simp_all

theorem intercalate_memberText {fs : List (String × Json)} (hne : fs ≠ []) :
    List.intercalate [',', '\n', ' ', ' '] (fs.map memberText) ++ ['\n', '}'] = membersText fs := by
  induction fs with
  | nil => exact absurd rfl hne
  | cons f fs ih =>
    cases fs with
    | nil => simp [membersText]
    | cons g fs =>
      rw [membersText, ← ih (by simp)]
      simp [List.intercalate]

theorem writeFields_pretty (fs : List (String × Json)) : writeFields .pretty 1 fs =
    fs.map fun f => quoted f.1 ++ colon .pretty ++ f.2.write .pretty 1 := by
  induction fs with
  | nil => rfl
  | cons f fs ih => rw [writeFields, ih, List.map_cons]

theorem toList_text {fs : List (String × Json)} (hfs : ∀ f ∈ fs, PlainKey f.1.toList)
    (hne : fs ≠ []) : ((object fs).text .pretty).toList =
      '{' :: '\n' :: ' ' :: ' ' :: membersText fs := by
  have hparts : (fs.map fun f => quoted f.1 ++ colon .pretty ++ f.2.write .pretty 1).map
      String.toList = fs.map memberText := by
    rw [List.map_map]
    refine List.map_congr_left fun f hf => ?_
    simp [toList_quoted (hfs f hf), memberText, colon]
  unfold text write
  rw [writeFields_pretty, ← intercalate_memberText hne, ← hparts]
  simp [bracketed, hne, String.toList_intercalate]

/-- An object is read as what was written, member by member. -/
theorem layer?_text {fs : List (String × Json)} (hfs : ∀ f ∈ fs, Flat f) (hne : fs ≠ []) :
    layer? ((object fs).text .pretty).toList =
      some (.object (fs.map fun f => (f.1, f.2.datum))) := by
  rw [toList_text (fun f hf => (hfs f hf).plain) hne, layer?_membersText hfs hne]

end Toolpath.Json
