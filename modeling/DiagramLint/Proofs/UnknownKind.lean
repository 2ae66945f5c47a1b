import DiagramLint.Proofs.FrontMatter
import DiagramLint.Proofs.Reading.Diagram
import DiagramLint.Proofs.Results
import DiagramLint.RuleSet

/-!
Diagrams of no known kind. The warning about such a diagram looks for the header in the text once more and
knows nothing of front matters: it names the header line that the reader found if the text has none, and the
fence where it begins if the text has one (`findings_of_unknown`).
-/
namespace DiagramLint

open Text

/-- The warning about a header that begins with no known word. -/
def unrecognisedHeader (name : Text) (position : Position) : Finding where
  severity := .warning
  code := some .e304
  message := s!"unrecognised diagram kind {quote name}"
  labels := [⟨.primary, position, "no parser for this header"⟩]
  help := some "the diagram was captured without structural checks"

variable {text : Text} {offset : Nat} {raws : List Text} {d : UnknownDiagram} {s : Source} {kind : Kind}

/-! ### The first line that says something -/

theorem firstLine_eq (raws : List Text) :
    Rule.firstLine raws = ((raws.find? fun raw => ¬ IsSilent raw).map trim).getD [] := by
  have loud (raw : Text) : (!(trim raw).isEmpty && !isComment (trim raw)) = decide (¬ IsSilent raw) := by
    rw [← Bool.not_or, decide_not, Bool.eq_iff_iff]
    simp [← isSilent_iff]
  rw [Rule.firstLine, List.find?_map]
  congr 3
  exact funext loud

/-- Where it is no fence, the first line that says something is kept in front of all others. -/
theorem head?_significantLines (number : Nat) (plain : (raws.find? fun raw => ¬ IsSilent raw).map trim ≠ some fence) :
    (significantLines .start number raws).head?.map Line.text =
      (raws.find? fun raw => ¬ IsSilent raw).map trim := by
  induction raws generalizing number with
  | nil => rfl
  | cons raw rest ih =>
    by_cases silent : IsSilent raw
    · rw [List.find?_cons_of_neg (by simpa using silent)] at plain ⊢
      rw [significantLines_of_silent silent, ih _ plain]
    · rw [List.find?_cons_of_pos (by simpa using silent)] at plain ⊢
      have unfenced : trim raw ≠ fence := fun fenced => plain (congrArg some fenced)
      have kept : Zone.start.line? number raw = some (.ofRaw number raw) := by simp [Zone.line?, unfenced, silent]
      rw [significantLines_cons, kept]
      rfl

/-- The first line that says something is the fence in front of a front matter, or else the header line. -/
theorem firstLine_of_header {header : Line} (found : (Source.ofText text offset).header? = some header) :
    ((∃ i, InFrontMatter (Text.lines text) i) → Rule.firstLine (Text.lines text) = fence) ∧
    ((¬ ∃ i, InFrontMatter (Text.lines text) i) → Rule.firstLine (Text.lines text) = header.text) := by
  rw [exists_inFrontMatter_iff, firstLine_eq]
  constructor
  · intro fenced
    rw [fenced]
    rfl
  · intro plain
    have same := head?_significantLines (offset + 1) plain
    rw [show (significantLines .start (offset + 1) (Text.lines text)).head? = some header from found] at same
    rw [← same]
    rfl

/-! ### Diagrams of no known kind -/

/-- The readers of the families make diagrams of known kinds. -/
theorem Family.read_ne_unknown (family : Family) : family.read s ≠ .ok (.unknown d) := by
  intro made
  cases family
  all_goals
    obtain ⟨known, -, same⟩ := exists_of_map_ok made
    cases same

/-- A diagram of no known kind records its header line and the lines of its text. -/
theorem eq_of_made_unknown (made : Diagram.ofSource kind s = .ok (.unknown d)) :
    ∃ header, s.header? = some header ∧ d = .ofSource s header := by
  obtain ⟨header, found, made⟩ := exists_of_bind_ok made
  refine ⟨header, ?_, ?_⟩
  · unfold Source.headerLine at found
    split at found
    · next line present => rw [present, Except.ok.inj found]
    · cases found
  · split at made
    · next family _ => exact absurd made family.read_ne_unknown
    · exact (Diagram.unknown.inj (Except.ok.inj made)).symm

theorem made_of_header {header : Line} (found : s.header? = some header) :
    Diagram.ofSource .unknown s = .ok (.unknown (.ofSource s header)) := by
  rw [Diagram.ofSource, Source.headerLine, found]
  rfl

theorem findings_of_ofSource (s : Source) (header : Line) :
    (Diagram.unknown (.ofSource s header)).findings =
      [unrecognisedHeader (Rule.firstLine (Text.lines s.text)) header.position] := rfl

/-- The one finding about a diagram of no known kind is a warning at its header line. It names this line if the
text has no front matter, and otherwise the fence in which the front matter begins. -/
theorem findings_of_unknown
    (made : Diagram.read text offset = .ok (.unknown d) ∨
      ∃ kind, Diagram.readAs kind text offset = .ok (.unknown d)) :
    ∃ header, (Source.ofText text offset).header? = some header ∧ d.header.position = header.position ∧
      ((¬ ∃ i, InFrontMatter (Text.lines text) i) →
        (Diagram.unknown d).findings = [unrecognisedHeader header.text header.position]) ∧
      ((∃ i, InFrontMatter (Text.lines text) i) →
        (Diagram.unknown d).findings = [unrecognisedHeader fence header.position]) := by
  obtain ⟨kind, made⟩ : ∃ kind, Diagram.ofSource kind (Source.ofText text offset) = .ok (.unknown d) := by
    rcases made with detected | ⟨kind, asked⟩
    · exact ⟨_, detected⟩
    · exact ⟨kind, asked⟩
  obtain ⟨header, found, rfl⟩ := eq_of_made_unknown made
  obtain ⟨fenced, plain⟩ := firstLine_of_header found
  refine ⟨header, found, rfl, ?_, ?_⟩
  · intro without
    rw [findings_of_ofSource]
    exact congrArg (fun name => [unrecognisedHeader name header.position]) (plain without)
  · intro inside
    rw [findings_of_ofSource]
    exact congrArg (fun name => [unrecognisedHeader name header.position]) (fenced inside)

/-- A header of no known kind behind a front matter. -/
def fencedHeader : Text := "---\ntitle: a\n---\nblock-beta".toList

theorem fencedHeader_header : (Source.ofText fencedHeader 0).header? = some (.ofRaw 4 "block-beta".toList) := by decide

theorem fencedHeader_read : Diagram.read fencedHeader 0 =
    .ok (.unknown (.ofSource (Source.ofText fencedHeader 0) (.ofRaw 4 "block-beta".toList))) := by
  have unknown : (Source.ofText fencedHeader 0).kind = .unknown := by decide
  rw [Diagram.read, unknown]
  exact made_of_header fencedHeader_header

theorem findings_of_unknown_fenced : ∃ d, Diagram.read fencedHeader 0 = .ok (.unknown d) ∧
    (Diagram.unknown d).findings = [unrecognisedHeader fence ⟨4, 1⟩] := by
  obtain ⟨header, found, -, -, fenced⟩ := findings_of_unknown (.inl fencedHeader_read)
  obtain rfl := Option.some.inj (fencedHeader_header.symm.trans found)
  exact ⟨_, fencedHeader_read, fenced ⟨0, by decide⟩⟩

/-- Behind a front matter the warning does not name the header line. -/
theorem fencedHeader_unnamed : ∃ d header, Diagram.read fencedHeader 0 = .ok (.unknown d) ∧
    (Source.ofText fencedHeader 0).header? = some header ∧ d.header.position = header.position ∧
      (Diagram.unknown d).findings ≠ [unrecognisedHeader header.text header.position] := by
  refine ⟨_, _, fencedHeader_read, fencedHeader_header, rfl, ?_⟩
  rw [findings_of_ofSource]
  decide

end DiagramLint
