import DiagramLint.Proofs.Bodies.Diagram
import DiagramLint.Proofs.C4Diagram.Balance
import DiagramLint.Proofs.C4Diagram.Ids
import DiagramLint.Proofs.C4Diagram.QuotedArguments
import DiagramLint.Proofs.ClassDiagram.Declarations
import DiagramLint.Proofs.ClassDiagram.MemberLayouts
import DiagramLint.Proofs.ClassDiagram.Members
import DiagramLint.Proofs.ClassDiagram.Relations
import DiagramLint.Proofs.ClassDiagram.Uses
import DiagramLint.Proofs.Coverage.C4Diagram
import DiagramLint.Proofs.Coverage.Diagram
import DiagramLint.Proofs.EntityDiagram.AttributeLines
import DiagramLint.Proofs.EntityDiagram.Attributes
import DiagramLint.Proofs.EntityDiagram.Relationships
import DiagramLint.Proofs.FirstFault
import DiagramLint.Proofs.Flowchart.Directives
import DiagramLint.Proofs.Flowchart.FirstArrow
import DiagramLint.Proofs.Flowchart.Gathering
import DiagramLint.Proofs.Flowchart.QuotedLabels
import DiagramLint.Proofs.Flowchart.Subgraphs
import DiagramLint.Proofs.FrontMatter
import DiagramLint.Proofs.Gantt.Dependencies
import DiagramLint.Proofs.Gantt.Tasks
import DiagramLint.Proofs.GitGraph.BranchNames
import DiagramLint.Proofs.GitGraph.Quotes
import DiagramLint.Proofs.HeaderMismatch
import DiagramLint.Proofs.HeaderTables
import DiagramLint.Proofs.Indices.Diagram
import DiagramLint.Proofs.Labels.Diagram
import DiagramLint.Proofs.Mindmap.Shapes
import DiagramLint.Proofs.PieChart.Slices
import DiagramLint.Proofs.QuadrantChart.Keywords
import DiagramLint.Proofs.SankeyDiagram.Links
import DiagramLint.Proofs.SankeyDiagram.Rows
import DiagramLint.Proofs.Sections
import DiagramLint.Proofs.SequenceDiagram.Activity
import DiagramLint.Proofs.SequenceDiagram.Blocks
import DiagramLint.Proofs.SequenceDiagram.Messages
import DiagramLint.Proofs.Settings
import DiagramLint.Proofs.SilentLines
import DiagramLint.Proofs.StateDiagram.Composites
import DiagramLint.Proofs.StateDiagram.Notes
import DiagramLint.Proofs.Text.QuotedFields
import DiagramLint.Proofs.Text.WordCuts
import DiagramLint.Proofs.Timeline.Periods
import DiagramLint.Proofs.XyChart.Completeness
import DiagramLint.Proofs.XyChart.QuotedTitles
