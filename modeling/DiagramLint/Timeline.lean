import DiagramLint.Check.Duplicates
import DiagramLint.Section

/-!
Timelines: periods with events, before the first section or inside the sections. A line that begins
with a colon adds events to the period before it.
-/
namespace DiagramLint

open Text

namespace Timeline

/-- A period and its events. -/
structure Period where
  label : Text
  events : List Text
  position : Position
  deriving DecidableEq, Repr

end Timeline

/-- A timeline. -/
structure Timeline where
  header : Header
  title : Option Text
  sections : List (Section Timeline.Period)
  /-- The periods before the first section. -/
  periods : List Timeline.Period
  deriving DecidableEq, Repr

namespace Timeline

/-- What has been read of a timeline. -/
structure Draft where
  title : Option Text := none
  sections : List (Section Period) := []
  periods : List Period := []
  deriving DecidableEq, Repr

/-- The periods that a line may add to: those of the last section, or those before the sections. -/
def openPeriods (d : Draft) : List Period :=
  match d.sections.getLast? with
  | some s => s.items
  | none => d.periods

/-- The draft with other periods to add to. -/
def setOpenPeriods (d : Draft) (periods : List Period) : Draft :=
  match changeLast? (fun s => { s with items := periods }) d.sections with
  | some sections => { d with sections := sections }
  | none => { d with periods := periods }

/-- The events between colons. -/
def events (t : Text) : List Text := (pieces ':' t).filterMap trimmed?

/-- A title; the last one counts. -/
def titleLine (d : Draft) (line : Line) : Taken Draft :=
  match afterKeywordColon? "title" line.text with
  | none => pass
  | some rest => take { d with title := trimmed? rest }

/-- The beginning of a section. -/
def sectionLine (d : Draft) (line : Line) : Taken Draft :=
  match afterKeyword? "section" line.text with
  | none => pass
  | some rest =>
    (Section.ofLine line rest).map fun s => some { d with sections := d.sections ++ [s] }

/-- Further events of the last period. -/
def continuationLine (d : Draft) (line : Line) : Taken Draft :=
  match dropStart? [':'] line.text with
  | none => pass
  | some rest =>
    let addEvents (p : Period) : Period := { p with events := p.events ++ events rest }
    match changeLast? addEvents (openPeriods d) with
    | some periods => take (setOpenPeriods d periods)
    | none => .error (line.fail .eventWithoutPeriod)

/-- A label, a colon and the first events of a period. -/
def periodLine (d : Draft) (line : Line) : Taken Draft :=
  match cut? [':'] line.text with
  | none => pass
  | some (label, rest) =>
    match trimmed? label with
    | none => pass
    | some label =>
      take (setOpenPeriods d (openPeriods d ++ [⟨label, events rest, line.position⟩]))

/-- The rules for the lines of a timeline. -/
def rules : List (LineRule Draft) :=
  [⟨"title", titleLine⟩, ⟨"section", sectionLine⟩, ⟨"continuation", continuationLine⟩,
   ⟨"period", periodLine⟩]

/-- The timeline of a source. -/
def read (s : Source) : Except ParseError Timeline := do
  let header ← s.bareHeader "timeline"
  let d ← readLines (fun _ => rules) {} s.body
  .ok ⟨s.header .timeline header, d.title, d.sections, d.periods⟩

/-- Sections with a name that an earlier section has. -/
def duplicateSections (t : Timeline) : List Finding :=
  (Duplicates.empty "section").findings (t.sections.map fun s => (s.name, s.position))

end Timeline
end DiagramLint
