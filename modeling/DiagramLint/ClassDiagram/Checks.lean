import DiagramLint.Check.Duplicates
import DiagramLint.Check.References
import DiagramLint.ClassDiagram.Basic

/-!
What can be wrong with a class diagram that was read. Relations introduce classes, as long as the
diagram declares none; notes, annotations and members may name classes of either sort.
-/
namespace DiagramLint.ClassDiagram

open Text

/-- The declarations of classes. -/
def declarations (diagram : ClassDiagram) : List (Text × Position) :=
  diagram.classes.map fun c => (c.id, c.position)

/-- Classes that are declared more than once. -/
def duplicateClasses (diagram : ClassDiagram) : List Finding :=
  (Duplicates.empty "class").findings diagram.declarations

/-- All members in the order in which they are written. -/
def allMembers (diagram : ClassDiagram) : List OuterMember :=
  ((diagram.classes.flatMap fun c => c.members.map (OuterMember.mk c.id)) ++
    diagram.members).mergeSort fun a b => a.member.position.le b.member.position

/-- What tells the members of all classes apart: methods of one name may differ in parameters. -/
def OuterMember.signature (m : OuterMember) : Text :=
  m.owner ++ '.' :: m.member.name ++
    match m.member.parameters with
    | some parameters => '(' :: parameters ++ [')']
    | none => []

/-- Members that a class has more than once. -/
def duplicateMembers (diagram : ClassDiagram) : List Finding :=
  (Duplicates.empty "member").findings
    (diagram.allMembers.map fun m => (m.signature, m.member.position))

/-- The ends of the relations. -/
def relationEnds (diagram : ClassDiagram) : List (Text × Position) :=
  diagram.relationships.flatMap fun r => [(r.source, r.position), (r.target, r.position)]

/-- Classes that are named but neither declared nor introduced. -/
def undefinedClasses (diagram : ClassDiagram) : List Finding :=
  let declared := (References.empty "class").declareAll diagram.declarations
  let known := declared.declareAll diagram.relationEnds
  (if declared.isEmpty then []
   else diagram.relationEnds.filterMap fun (id, position) =>
     declared.check id position "relationship") ++
  (diagram.notes.filterMap fun n => n.target.bind fun id => known.check id n.position "note") ++
  (diagram.annotations.filterMap fun a => known.check a.owner a.position "annotation") ++
  diagram.members.filterMap fun m => known.check m.owner m.member.position "member"

end DiagramLint.ClassDiagram
