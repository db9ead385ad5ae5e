import Mathlib.Logic.Relation
import Toolpath.Proofs.Evaluation.Lines

/-! # Layout

The layout of a program may be edited: the case of its letters, the blanks around its lines, their
numbers, remarks behind them, and how they end. No such edit changes what a line says. Only a remark
is to be made with care, as a semicolon is no more than a letter within open parentheses: there the
remark must not close what the line leaves open.
-/
namespace Toolpath
open Cleaner

inductive LineEdit : List Char → List Char → Prop where
  | case {line line' : List Char} (same : line.map Char.toUpper = line'.map Char.toUpper) :
      LineEdit line line'
  | blanks {before behind : List Char} (line : List Char) (blank_before : AllBlank before)
      (blank_behind : AllBlank behind) : LineEdit line (before ++ line ++ behind)
  | number {digits blanks : List Char} (line : List Char) (some_digits : digits ≠ [])
      (decimal : ∀ d ∈ digits, isDecimal d = true) (blank : AllBlank blanks) :
      LineEdit line ('N' :: (digits ++ (blanks ++ line)))
  | remark {line text : List Char} (stays : ¬ Reopens line text) :
      LineEdit line (line ++ ';' :: text)

/-- An edit of a program: of one of its lines, or of the ends of all lines or of the last one. -/
inductive Edit : List Char → List Char → Prop where
  | line {text text' line line' : List Char} {before after : List (List Char)}
      (old : pieces '\n' text = before ++ line :: after)
      (new : pieces '\n' text' = before ++ line' :: after) (edit : LineEdit line line') :
      Edit text text'
  | returns (text : List Char) : Edit text (withReturns text)
  | feed (text : List Char) : Edit text (text ++ ['\n'])

theorem lineSays_map_toUpper (line : List Char) :
    lineSays (line.map Char.toUpper) = lineSays line := by
  rw [lineSays_eq, lineSays_eq, upper_map_toUpper]

theorem LineEdit.lineSays_eq {line line' : List Char} (h : LineEdit line line') :
    lineSays line' = lineSays line := by
  cases h with
  | case same => rw [← lineSays_map_toUpper, ← same, lineSays_map_toUpper]
  | blanks line blank_before blank_behind => exact lineSays_padded line blank_before blank_behind
  | number line some_digits decimal blank => exact lineSays_numbered line (.inl rfl) decimal blank
  | remark stays =>
    rw [← lineSays_outsideComments, outsideComments_remark stays, lineSays_outsideComments]

theorem lineSays_withReturns (text : List Char) :
    (pieces '\n' (withReturns text)).map lineSays = (pieces '\n' text).map lineSays := by
  have hall := pieces_withReturns text
  generalize pieces '\n' text = old at hall
  generalize pieces '\n' (withReturns text) = new at hall
  induction hall with
  | nil => rfl
  | cons hpiece _ ih =>
    rw [List.map_cons, List.map_cons, ih]
    rcases hpiece with rfl | rfl
    · rfl
    · rw [lineSays_return]

section
variable (E : Elementary Float) (s : Settings)

theorem Edit.evaluateLines_eq {text text' : List Char} (h : Edit text text') :
    evaluateLines E s (pieces '\n' text') = evaluateLines E s (pieces '\n' text) := by
  cases h with
  | line old new edit =>
    apply evaluateLines_congr
    rw [old, new, List.map_append, List.map_append, List.map_cons, List.map_cons, edit.lineSays_eq]
  | returns => exact evaluateLines_congr E s (lineSays_withReturns text)
  | feed =>
    rw [pieces_append]
    exact evaluateLines_silent E s _ lineSays_nil

/-- However the layout of a program is edited, the program is evaluated as before. -/
theorem evaluate_edited {p q : String} (h : Relation.EqvGen Edit p.toList q.toList) :
    evaluate E s q = evaluate E s p := by
  rw [evaluate_pieces, evaluate_pieces]
  generalize p.toList = text at h
  generalize q.toList = text' at h
  induction h with
  | rel text text' edit => exact edit.evaluateLines_eq E s
  | refl => rfl
  | symm text text' _ ih => exact ih.symm
  | trans text text' text'' _ _ ih ih' => exact ih'.trans ih

end

/-- A line that ends in an open comment, with all the edits one after the other. -/
theorem evaluate_edited_open : evaluate .onAxes {} "\tN7 g1 x1 (A;B\r\nY2\r\n" =
    evaluate .onAxes {} "G1 X1 (a\nY2" := by
  have hopen : ¬ Reopens "G1 X1 (a".toList ['b'] := not_reopens (by decide) _
  have hdigits : ∀ d ∈ ['7'], isDecimal d = true := List.forall_mem_singleton.mpr rfl
  have hspace : AllBlank [' '] := List.forall_mem_singleton.mpr rfl
  have htab : AllBlank ['\t'] := List.forall_mem_singleton.mpr rfl
  have hremark : LineEdit "G1 X1 (a".toList "G1 X1 (a;b".toList := .remark hopen
  have hnumber : LineEdit "G1 X1 (a;b".toList "N7 G1 X1 (a;b".toList :=
    .number _ (List.cons_ne_nil _ _) hdigits hspace
  have hcase : LineEdit "N7 G1 X1 (a;b".toList "N7 g1 x1 (A;B".toList := .case (by decide)
  have hblanks : LineEdit "N7 g1 x1 (A;B".toList "\tN7 g1 x1 (A;B".toList :=
    .blanks _ htab allBlank_nil
  have hfirst {text text' line line' : List Char} (h : LineEdit line line')
      (hold : pieces '\n' text = [] ++ line :: [['Y', '2']])
      (hnew : pieces '\n' text' = [] ++ line' :: [['Y', '2']]) : Relation.EqvGen Edit text text' :=
    .rel _ _ (.line hold hnew h)
  apply evaluate_edited
  refine .trans _ "G1 X1 (a;b\nY2".toList _ (hfirst hremark (by decide) (by decide)) ?_
  refine .trans _ "N7 G1 X1 (a;b\nY2".toList _ (hfirst hnumber (by decide) (by decide)) ?_
  refine .trans _ "N7 g1 x1 (A;B\nY2".toList _ (hfirst hcase (by decide) (by decide)) ?_
  refine .trans _ "\tN7 g1 x1 (A;B\nY2".toList _ (hfirst hblanks (by decide) (by decide)) ?_
  exact .trans _ _ _ (.rel _ _ (.feed _)) (.rel _ _ (.returns _))

/-- A semicolon in an open comment is a letter of it, and the line goes on behind the comment. -/
theorem evaluate_remark_reopens :
    evaluate .onAxes {} ("G1 X1 (a" ++ ";" ++ ") X2") ≠ evaluate .onAxes {} "G1 X1 (a" := by
  intro h
  have hposition := congrArg (fun e => decide (e.position.x = 2)) h
  revert hposition
  decide +kernel

end Toolpath
