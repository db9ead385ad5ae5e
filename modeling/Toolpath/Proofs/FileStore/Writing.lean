import Mathlib.Tactic
import Toolpath.FileStore

/-! # A file that was written can be read

A walk that ends in a directory does not come upon the place of a new file, since nothing that stood
there was walked through. So the same walk leads to the same directory once the file is there, and
one more step leads to the file.
-/
namespace Toolpath.FileStore

@[simp] theorem entry?_set_self (fs : FileStore) (place : List String) (e : Entry) :
    FileStore.entry? (fs.set place e) place = some e := if_pos rfl

theorem entry?_set_of_ne (fs : FileStore) {place other : List String} (e : Entry)
    (h : other ≠ place) : FileStore.entry? (fs.set place e) other = fs.entry? other := if_neg h

@[simp] theorem start_set (fs : FileStore) (place : List String) (e : Entry) (path : String) :
    (fs.set place e).start path = fs.start path := rfl

/-- A walk to a directory goes on as before where a file takes the place of no directory. -/
theorem walk_set_append {fs : FileStore} {here there place : List String} {before : List String}
    {e : Entry} (hwalk : fs.walk here before = .ok there)
    (hthere : fs.entry? there = some .directory) (hplace : fs.entry? place ≠ some .directory)
    (after : List String) :
    (fs.set place e).walk here (before ++ after) = (fs.set place e).walk there after := by
  induction before generalizing here with
  | nil =>
    obtain rfl : here = there := by simpa [walk] using hwalk
    rfl
  | cons step before ih =>
    rw [walk] at hwalk
    rw [List.cons_append, walk]
    by_cases hidle : isIdle step = true
    · rw [if_pos hidle] at hwalk ⊢
      exact ih hwalk
    by_cases hup : step = ".."
    · rw [if_neg hidle, if_pos hup] at hwalk ⊢
      exact ih hwalk
    rw [if_neg hidle, if_neg hup] at hwalk ⊢
    dsimp only at hwalk ⊢
    split at hwalk
    · cases hwalk
    · next hdirectory =>
      have hne : here ++ [step] ≠ place := by
        rintro rfl
        exact hplace hdirectory
      rw [entry?_set_of_ne fs e hne, hdirectory]
      exact ih hwalk
    · next hfile =>
      -- a file ends the walk, and there is a directory at its end
      split_ifs at hwalk
      cases hwalk
      rw [hfile] at hthere
      cases hthere

/-- What it takes for a path to lead to the place of a new file. -/
theorem target_eq_ok {fs : FileStore} {path : String} {place : List String}
    (h : fs.target path = .ok place) : ∃ before name here,
    steps path = before ++ [name] ∧ place = here ++ [name] ∧ isIdle name = false ∧ name ≠ ".." ∧
    fs.walk (fs.start path) before = .ok here ∧ fs.entry? here = some .directory ∧
    fs.entry? place ≠ some .directory := by
  unfold target at h
  dsimp only at h
  split at h
  · cases h
  · next name before hbackwards =>
    split at h
    · cases h
    · next here hwalk =>
      split at h
      · next hhere =>
        split at h
        · cases h
        · next hplace =>
          split_ifs at h with hname
          simp only [not_or] at hname
          obtain ⟨hdot, hdots, hslash⟩ := hname
          cases h
          have hfirst : (steps path).reverse = name :: before ∧ name ≠ "" := by
            cases hreverse : (steps path).reverse with
            | nil =>
              rw [hreverse] at hbackwards
              cases hbackwards
            | cons last more =>
              rw [hreverse] at hbackwards hslash
              have hlast : last ≠ "" := by simpa using hslash
              rw [List.dropWhile_cons_of_neg (by simpa using hlast)] at hbackwards
              cases hbackwards
              exact ⟨rfl, hlast⟩
          obtain ⟨hsteps, hne⟩ := hfirst
          refine ⟨before.reverse, name, here, ?_, rfl, ?_, hdots, hwalk, hhere, hplace⟩
          · rw [← List.reverse_reverse (steps path), hsteps, List.reverse_cons]
          · simp [isIdle, hne, hdot]
      · cases h

/-- The bytes written are read. -/
theorem read_of_write {fs after : FileStore} {path : String} {bytes : ByteArray}
    (h : fs.write path bytes = (.ok (), after)) : after.read path = .ok bytes := by
  unfold write at h
  split at h
  · cases h
  · next made _ =>
    split at h
    · cases h
    · next place htarget =>
      cases h
      obtain ⟨before, name, here, hsteps, rfl, hidle, hdots, hwalk, hhere, hplace⟩ :=
        target_eq_ok htarget
      have hpath : path ≠ "" := by
        rintro rfl
        have hempty : steps "" = [""] := by decide
        rw [hempty] at hsteps
        obtain ⟨-, rfl⟩ : before = [] ∧ name = "" := by
          cases before with
          | nil => simpa using hsteps.symm
          | cons step before => simp at hsteps
        cases hidle
      unfold read
      rw [if_neg hpath, start_set, hsteps, walk_set_append hwalk hhere hplace]
      simp [walk, hidle, hdots]

end Toolpath.FileStore
