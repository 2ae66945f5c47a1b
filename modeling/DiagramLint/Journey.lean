import DiagramLint.Finding
import DiagramLint.Section

/-!
User journeys: sections of tasks, each with a score and the actors who take part.
-/
namespace DiagramLint

open Text

namespace Journey

/-- A task of a journey. -/
structure Task where
  name : Text
  score : Int
  actors : List Text
  position : Position
  deriving DecidableEq, Repr

end Journey

/-- A user journey. -/
structure Journey where
  header : Header
  title : Option Text
  sections : List (Section Journey.Task)
  deriving DecidableEq, Repr

namespace Journey

/-- What has been read of a journey. -/
structure Draft where
  title : Option Text := none
  sections : List (Section Task) := []
  deriving DecidableEq, Repr

/-- A title; the last one counts. -/
def titleLine (d : Draft) (line : Line) : Taken Draft :=
  match afterKeywordColon? "title" line.text with
  | none => pass
  | some rest => take { d with title := trimmed? rest }

/-- The beginning of a section. -/
def sectionLine (d : Draft) (line : Line) : Taken Draft :=
  match afterKeyword? "section" line.text with
  | none => pass
  | some rest =>
    (Section.ofLine line rest).map fun s => some { d with sections := d.sections ++ [s] }

/-- The name, the score and the actors between the first two colons of a line. -/
def taskParts? (t : Text) : Option (Text × Text × Option Text) :=
  (cut? [':'] t).map fun (name, rest) =>
    match cut? [':'] rest with
    | some (score, actors) => (trim name, trim score, some (trim actors))
    | none => (trim name, trim rest, none)

/-- A name, a score and optional actors between colons. -/
def taskLine (d : Draft) (line : Line) : Taken Draft :=
  match taskParts? line.text with
  | none => pass
  | some (name, score, actors) =>
    if name.isEmpty then pass
    else match Integer.read? score with
      | none => .error (line.fail (.scoreInvalid score))
      | some n =>
        let actors := (actors.map fun a => (pieces ',' a).filterMap trimmed?).getD []
        match Section.addToLast? ⟨name, n, actors, line.position⟩ d.sections with
        | some sections => take { d with sections := sections }
        | none => .error (line.fail (.taskOutsideSection name))

/-- The rules for the lines of a journey. -/
def rules : List (LineRule Draft) :=
  [⟨"title", titleLine⟩, ⟨"section", sectionLine⟩, ⟨"task", taskLine⟩]

/-- The journey of a source. -/
def read (s : Source) : Except ParseError Journey := do
  let header ← s.bareHeader "journey"
  let d ← readLines (fun _ => rules) {} s.body
  .ok ⟨s.header .journey header, d.title, d.sections⟩

/-- The finding for a score out of range. -/
def scoreFinding (t : Task) : Finding :=
  ((Finding.ofMessage .error
    s!"task {quote t.name} has score {t.score}, expected 1 to 5").withCode .e303).withLabel
    t.position "score out of range"

/-- Tasks with a score that is not one of one to five. -/
def scoreRange (journey : Journey) : List Finding :=
  ((Section.allItems journey.sections).filter fun t => t.score < 1 || 5 < t.score).map scoreFinding

end Journey
end DiagramLint
