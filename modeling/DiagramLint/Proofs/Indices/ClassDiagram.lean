import DiagramLint.ClassDiagram.Reader
import DiagramLint.Proofs.Indices.Basic

/-!
Class diagrams with checked indices. The annotations and members in the body of a class look up the class, and so does
the end of the diagram if the body is open there.
-/
namespace DiagramLint.ClassDiagram

open Text Checked

/-! ### Lines -/

instance : Keeps Draft Definition where
  entries := Draft.classes
  current := Draft.body
  keep classes body d := { d with classes := classes, body := body }
  entries_keep _ _ _ := rfl
  current_keep _ _ _ := rfl
  keep_keep _ _ _ _ _ := rfl
  keep_self _ := rfl

/-- The class with the annotation that a line of its body is. -/
def annotate (c : Definition) (line : Line) : Taken Definition :=
  match stereotype? line.text with
  | none => pass
  | some (stereotype, []) => take { c with stereotype := some stereotype }
  | some _ => .error (line.fail .annotationOwned)

/-- The class with the member that a line of its body is. -/
def addMember (c : Definition) (line : Line) : Taken Definition :=
  (member line line.text).map fun m => some { c with members := c.members ++ [m] }

/-- The checked rules for the next line. The lines of a body look up the class. -/
def checkedRules (x : Indexed Draft) : List (CheckedRule (Indexed Draft)) :=
  if x.openAt.isSome then
    [Indexed.closing "\x7d" ['}'], Indexed.filling "annotation" annotate, Indexed.filling "member" addMember]
  else (outerRules.map LineRule.checked).map Indexed.outer

variable {d : Draft} {c : Definition}

theorem bodyAnnotationLine_eq (opened : d.body = some c) (line : Line) : bodyAnnotationLine d line =
    (annotate c line).map (Option.map fun c => { d with body := some c }) := by
  unfold bodyAnnotationLine annotate
  rw [opened]
  cases stereotype? line.text with
  | none => rfl
  | some found =>
    obtain ⟨stereotype, rest⟩ := found
    cases rest <;> rfl

theorem bodyMemberLine_eq (opened : d.body = some c) (line : Line) : bodyMemberLine d line =
    (addMember c line).map (Option.map fun c => { d with body := some c }) := by
  unfold bodyMemberLine addMember
  rw [opened]
  cases member line line.text <;> rfl

theorem mirroring : Mirroring Indexed.ofDraft rules checkedRules fun _ => True where
  mirrors {d} _ line := by
    unfold rules checkedRules
    cases opened : d.body with
    | none =>
      rw [Indexed.ofDraft_of_closed opened]
      exact Indexed.mirrors_outers opened (mirrors_all_checked d line outerRules)
    | some c =>
      rw [Indexed.ofDraft_of_open opened]
      refine .cons (Indexed.mirrors_closing opened ?_) (.cons (Indexed.mirrors_filling opened ?_)
        (.cons (Indexed.mirrors_filling opened ?_) .nil))
      · show closeLine d line = _
        rw [closeLine, opened]
        rfl
      · exact bodyAnnotationLine_eq opened line
      · exact bodyMemberLine_eq opened line
  keeps _ _ := trivial

/-! ### Sources -/

/-- The class diagram of a source. Behind all lines the class whose body is open is looked up. -/
def readChecked (s : Source) : Checked ClassDiagram := do
  let header ← s.bareHeader "classDiagram"
  let x ← readLinesChecked checkedRules ⟨{}, none⟩ s.body
  match ← x.openEntry with
  | some c => throw ((Fault.classUnclosed c.id).at c.position)
  | none =>
    let d := x.draft
    pure ⟨s.header .classDiagram header, d.direction, d.classes, d.members, d.relationships, d.annotations, d.notes⟩

/-- Class diagrams with checked indices. -/
def checkedReader : CheckedReader Draft (Indexed Draft) ClassDiagram where
  Starts d := d = {}
  rules := rules
  read := read
  view := Indexed.ofDraft
  checkedRules := checkedRules
  readChecked := readChecked

theorem readChecked_eq (s : Source) : readChecked s = hit (read s) := by
  refine hit_bind ?_
  intro header
  refine mirroring.behind_lines (s := {}) trivial ?_ s.body
  intro d _
  rw [Indexed.openEntry_ofDraft, hit_ok_bind]
  cases opened : d.body with
  | some c =>
    rw [show Keeps.current d = some c from opened]
    rfl
  | none =>
    rw [show Keeps.current d = none from opened, Indexed.ofDraft_of_closed opened]
    rfl

theorem neverMisses : checkedReader.NeverMisses fun x => ∀ i ∈ x.openAt, i < x.draft.classes.length := by
  refine mirroring.neverMisses (fun _ _ => trivial) ?_ readChecked_eq
  intro d _
  exact Indexed.openAt_ofDraft d

end DiagramLint.ClassDiagram
