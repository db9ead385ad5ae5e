import Toolpath.Proofs.FileStore.Writing

/-! # What a write changes

Writing a file makes the directories on the way to it that are missing, and puts the file at the
place to which its path leads. Everything else in the store stays what it was.
-/
namespace Toolpath.FileStore

/-! ## Places -/

/-- The place to which names lead from a directory. -/
def locate (here : List String) (names : List String) : List String :=
  names.foldl (fun here name => if name = ".." then here.dropLast else here ++ [name]) here

/-- The places of the directories that names lead into, one after another. -/
def passed (here : List String) : List String → List (List String)
  | [] => []
  | name :: rest =>
    if name = ".." then passed here.dropLast rest
    else (here ++ [name]) :: passed (here ++ [name]) rest

def place (fs : FileStore) (path : String) : List String := locate (fs.start path) (names path)

def parents (fs : FileStore) (path : String) : List (List String) :=
  passed (fs.start path) (names path).dropLast

/-- A walk that goes all its way comes to the place of its steps, idle ones left out. -/
theorem eq_locate_of_walk {fs : FileStore} {here there : List String} {steps : List String}
    (h : fs.walk here steps = .ok there) : there = locate here (steps.filter (!isIdle ·)) := by
  induction steps generalizing here with
  | nil =>
    cases h
    rfl
  | cons step rest ih =>
    rw [walk] at h
    by_cases hidle : isIdle step = true
    · rw [if_pos hidle] at h
      rw [ih h, List.filter_cons_of_neg (by simp [hidle])]
    rw [if_neg hidle] at h
    rw [List.filter_cons_of_pos (by simp [hidle])]
    by_cases hup : step = ".."
    · rw [if_pos hup] at h
      rw [ih h, locate, locate, List.foldl_cons, if_pos hup]
    rw [if_neg hup] at h
    dsimp only at h
    rw [locate, List.foldl_cons, if_neg hup]
    split at h
    · cases h
    · exact ih h
    · -- a file is the last step
      split_ifs at h with hempty
      cases h
      rw [List.isEmpty_iff.mp hempty]
      rfl

theorem locate_concat (here before : List String) {name : String} (h : name ≠ "..") :
    locate here (before ++ [name]) = locate here before ++ [name] := by
  simp [locate, h]

theorem target_eq_place {fs : FileStore} {path : String} {place : List String}
    (h : fs.target path = .ok place) :
    place = fs.place path ∧ fs.entry? place ≠ some .directory := by
  obtain ⟨before, name, here, hsteps, rfl, hidle, hdots, hwalk, -, hplace⟩ := target_eq_ok h
  refine ⟨?_, hplace⟩
  rw [FileStore.place, names, hsteps, List.filter_append, List.filter_cons_of_pos (by simp [hidle]),
    List.filter_nil, locate_concat _ _ hdots, ← eq_locate_of_walk hwalk]

/-! ## Directories that are made -/

def Passable (fs : FileStore) (p : List String) : Prop :=
  fs.entry? p = none ∨ fs.entry? p = some .directory

/-- The store with the directories at some places made where there was nothing. -/
structure Extends (places : List (List String)) (fs after : FileStore) : Prop where
  directory : after.directory = fs.directory
  kept {p : List String} : p ∉ places → after.entry? p = fs.entry? p
  made {p : List String} : p ∈ places → fs.Passable p ∧ after.entry? p = some .directory

/-- One more place, where there is a directory from the start or since the first step. -/
theorem Extends.cons {places : List (List String)} {fs first after : FileStore}
    {next : List String} (h : Extends places first after)
    (hdirectory : first.directory = fs.directory) (hbefore : fs.Passable next)
    (hnext : first.entry? next = some .directory)
    (hother : ∀ p ≠ next, first.entry? p = fs.entry? p) :
    Extends (next :: places) fs after where
  directory := h.directory.trans hdirectory
  kept := by
    intro p hp
    obtain ⟨hne, hp⟩ := not_or.mp (mt List.mem_cons.mpr hp)
    rw [h.kept hp, hother p hne]
  made := by
    intro p hp
    by_cases hne : p = next
    · subst hne
      refine ⟨hbefore, ?_⟩
      by_cases hmore : p ∈ places
      · exact (h.made hmore).2
      · rw [h.kept hmore, hnext]
    · obtain ⟨hfirst, hafter⟩ := h.made ((List.mem_cons.mp hp).resolve_left hne)
      rw [Passable, hother p hne] at hfirst
      exact ⟨hfirst, hafter⟩

theorem extends_makeDirectories {fs after : FileStore} {here names : List String}
    (h : fs.makeDirectories here names = (.ok (), after)) :
    Extends (passed here names) fs after := by
  induction names generalizing fs here with
  | nil =>
    cases h
    exact ⟨rfl, fun _ => rfl, fun h => absurd h List.not_mem_nil⟩
  | cons name rest ih =>
    by_cases hup : name = ".."
    · subst hup
      rw [makeDirectories] at h
      rw [passed, if_pos rfl]
      exact ih h
    rw [makeDirectories] at h
    · rw [passed, if_neg hup]
      split at h
      · next hnone =>
        exact (ih h).cons rfl (.inl hnone) (entry?_set_self _ _ _) fun p hp =>
          entry?_set_of_ne _ _ hp
      · next hdirectory => exact (ih h).cons rfl (.inr hdirectory) hdirectory fun _ _ => rfl
      · cases h
    · exact hup

/-! ## Files that are written -/

/-- The store behind the writing of a file. No directory gives way to it, and on the way to it there
was nothing but directories. -/
structure Wrote (fs : FileStore) (path : String) (bytes : ByteArray) (after : FileStore) :
    Prop where
  directory : after.directory = fs.directory
  file : after.entry? (fs.place path) = some (.file bytes)
  free : fs.entry? (fs.place path) ≠ some .directory
  parents {p : List String} : p ∈ fs.parents path →
    fs.Passable p ∧ after.entry? p = some .directory
  others {p : List String} : p ≠ fs.place path → p ∉ fs.parents path →
    after.entry? p = fs.entry? p

theorem wrote_of_write {fs after : FileStore} {path : String} {bytes : ByteArray}
    (h : fs.write path bytes = (.ok (), after)) : Wrote fs path bytes after := by
  unfold write at h
  split at h
  · cases h
  · next made hmade =>
    have hextends : Extends (fs.parents path) fs made := extends_makeDirectories hmade
    split at h
    · cases h
    · next place htarget =>
      cases h
      obtain ⟨hplace, hfree⟩ := target_eq_place htarget
      have hsame : made.place path = fs.place path := by
        rw [FileStore.place, FileStore.place, start, start, hextends.directory]
      rw [hsame] at hplace
      subst hplace
      have hparent : fs.place path ∉ fs.parents path := fun hmem => hfree (hextends.made hmem).2
      refine ⟨hextends.directory, entry?_set_self _ _ _, ?_, ?_, ?_⟩
      · rwa [← hextends.kept hparent]
      · intro p hp
        have hne : p ≠ fs.place path := by
          rintro rfl
          exact hparent hp
        rw [entry?_set_of_ne _ _ hne]
        exact hextends.made hp
      · intro p hne hp
        rw [entry?_set_of_ne _ _ hne]
        exact hextends.kept hp

end Toolpath.FileStore
