import DiagramLint.Proofs.Bodies.ClassDiagram
import DiagramLint.Proofs.Bodies.EntityDiagram

/-!
The bodies of class diagrams and of entity-relationship diagrams.
-/
namespace DiagramLint

/-- The members of a class and the attributes of an entity are the lines between the line that begins its body and
the next closing brace, and others have none; the annotations among the lines of a class are no members, and the last
of them is that of the class. Where all lines can be read and a body is open behind them, reading stops for the line
that begins it. -/
theorem bodies_of_lines (s : Source) :
    ClassDiagram.bodies.Describes (ClassDiagram.Begins s) s.body (ClassDiagram.read s) ClassDiagram.classes ∧
    EntityDiagram.bodies.Describes (EntityDiagram.Begins s) s.body (EntityDiagram.read s) EntityDiagram.entities :=
  ⟨ClassDiagram.bodies_describe s, EntityDiagram.bodies_describe s⟩

/-- A class that is declared three times, with lines in its bodies that mean something else outside. -/
def repeatedClass : Text :=
  "classDiagram\nclass A \x7b\n<<one>>\nclass B \x7b\n<<two>>\nB : f\n\x7d\nclass A\nclass A \x7b\n\x7d".toList

/-- An entity that is named three times, and the line of a relationship in its body. -/
def repeatedEntity : Text :=
  "erDiagram\nA \x7b\nA ||--o\x7b B\ntext name PK\n\x7d\nA \x7b\x7d\nA".toList

/-- Two bodies that are not closed, the second one in the first. -/
def unclosedClass : Text := "classDiagram\nclass A\n class B \x7b\nclass C \x7b".toList

theorem bodies_of_lines_repeated :
    (∃ diagram, ClassDiagram.read (Source.ofText repeatedClass 0) = .ok diagram ∧
      ClassDiagram.bodies.Fills (Source.ofText repeatedClass 0).body diagram.classes) ∧
    (∃ diagram, EntityDiagram.read (Source.ofText repeatedEntity 0) = .ok diagram ∧
      EntityDiagram.bodies.Fills (Source.ofText repeatedEntity 0).body diagram.entities) ∧
    ∃ e, ClassDiagram.read (Source.ofText unclosedClass 0) = .error e ∧ e.code = .e200 ∧ e.position = ⟨3, 2⟩ := by
  refine ⟨?_, ?_, ?_⟩
  · obtain ⟨diagram, accepted⟩ := exists_of_isOk (x := ClassDiagram.read (Source.ofText repeatedClass 0)) (by decide +kernel)
    exact ⟨diagram, accepted, (bodies_of_lines (Source.ofText repeatedClass 0)).1.fills diagram accepted⟩
  · obtain ⟨diagram, accepted⟩ := exists_of_isOk (x := EntityDiagram.read (Source.ofText repeatedEntity 0)) (by decide +kernel)
    exact ⟨diagram, accepted, (bodies_of_lines (Source.ofText repeatedEntity 0)).2.fills diagram accepted⟩
  · have headed := exists_of_isOk (x := (Source.ofText unclosedClass 0).bareHeader "classDiagram") (by decide +kernel)
    have read := exists_of_isOk (x := readLines ClassDiagram.rules {} (Source.ofText unclosedClass 0).body) (by decide +kernel)
    have unclosed : (unclosed? ClassDiagram.opensBody (Source.ofText unclosedClass 0).body).map Line.position =
      some ⟨3, 2⟩ := by decide +kernel
    exact ((bodies_of_lines (Source.ofText unclosedClass 0)).1.unclosed_iff ⟨3, 2⟩).mpr
      ⟨⟨{}, ⟨headed, rfl⟩, read⟩, unclosed⟩

end DiagramLint
