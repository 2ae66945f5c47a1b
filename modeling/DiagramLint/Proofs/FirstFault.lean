import DiagramLint.Proofs.Positions
import Mathlib.Data.List.Basic

/-!
The first line at fault is the one that is reported, whatever stands behind it (`fault_regardless_of_rest`).
C4 diagrams are the exception, as their scopes are closed by lines further down, and so are the errors that
something is missing at the end.
-/
namespace DiagramLint

open Text

variable {here there : Text} {offset n : Nat} {before after : List Line} {line : Line} {e : ParseError}

/-- The lines up to some number are those of the text up to there. -/
theorem lines_cut (text : Text) (offset : Nat) {n : Nat} (inside : n ≤ (Text.lines text).length) :
    ∃ rest, (Source.ofText text offset).lines =
        significantLines .start (offset + 1) ((Text.lines text).take n) ++ rest ∧
      ∀ line ∈ rest, offset + n < line.number := by
  have length : ((Text.lines text).take n).length = n := List.length_take_of_le inside
  have cut := significantLines_append .start (offset + 1) ((Text.lines text).take n) ((Text.lines text).drop n)
  rw [List.take_append_drop, length] at cut
  refine ⟨_, cut, ?_⟩
  intro line member
  have bound := number_le_of_mem_significantLines member
  omega

/-- Texts that agree up to a line have the same lines that say something up to there. -/
theorem lines_agree (agree : (Text.lines there).take n = (Text.lines here).take n)
    (lines : (Source.ofText here offset).lines = before ++ line :: after) (number : line.number = offset + n) :
    ∃ rest, (Source.ofText there offset).lines = before ++ line :: rest := by
  have bounds : line ∈ (Source.ofText here offset).lines := by simp [lines]
  have inside := number_of_mem_significantLines bounds
  have length := congrArg List.length agree
  rw [List.length_take, List.length_take] at length
  obtain ⟨behind, cut, later⟩ := lines_cut here offset (n := n) (by omega)
  obtain ⟨others, cut_there, -⟩ := lines_cut there offset (n := n) (by omega)
  rw [cut] at lines
  rw [agree] at cut_there
  rcases List.append_eq_append_iff.mp lines with ⟨more, -, reached⟩ | ⟨more, first, reached⟩
  · -- The line would be behind those that agree.
    have bound := later line (by simp [reached])
    omega
  · cases more with
    | nil =>
      obtain rfl : line :: after = behind := reached
      have bound := later line List.mem_cons_self
      omega
    | cons next more =>
      obtain ⟨rfl, -⟩ := List.cons.inj reached
      refine ⟨more ++ others, ?_⟩
      rw [cut_there, first, List.append_assoc, List.cons_append]

theorem detect_of_lines {offset : Nat} {lines : List Line} (cut : (Source.ofText here offset).lines = lines) :
    Kind.detect here = Source.kind ⟨[], 0, lines⟩ := by
  rw [← kind_ofText here offset, ofText_of_lines cut]
  rfl

/-- A line at fault is reported in every text that has the same lines up to this one, for all kinds but
those of C4 diagrams, unless the error is that something is missing. -/
theorem fault_regardless_of_rest (other : (Kind.detect here).isC4 = false)
    (failed : Diagram.read here offset = .error e)
    (present : e.code ≠ .e001 ∧ e.code ≠ .e200 ∧ e.code ≠ .e204)
    (agree : (Text.lines there).take (e.position.line - offset) = (Text.lines here).take (e.position.line - offset)) :
    Diagram.read there offset = .error e := by
  obtain ⟨headed, closed, given⟩ := present
  rw [read_eq_ofSource_detect] at failed
  cases found : (Source.ofText here offset).lines with
  | nil =>
    rw [ofSource_of_no_lines found] at failed
    obtain rfl := Except.error.inj failed
    exact absurd rfl headed
  | cons first body =>
    rw [ofText_of_lines found] at failed
    obtain ⟨before, line, after, lines, position, always⟩ :=
      ((ofSource_stops other failed).resolve_left closed).resolve_left given
    have number : e.position.line = line.number := by rw [position]; rfl
    have bound : offset < line.number := (number_of_ofText found (by simp [lines])).1
    rw [lines] at found
    obtain ⟨rest, lines_there⟩ := lines_agree agree found (by omega)
    have detected : Kind.detect there = Kind.detect here := by
      rw [detect_of_lines found, detect_of_lines lines_there]
      cases before <;> rfl
    rw [read_eq_ofSource_detect, detected, ofText_of_lines lines_there]
    exact always there offset rest

/-- An arrow without ends on the fourth line, inside a block that is closed, and the same lines in front of
a block that is not. -/
def looseArrow : Text := "sequenceDiagram\nloop a\n\n -- x\nend".toList

def looseArrowInBlock : Text := "sequenceDiagram\nloop a\n\n -- x\nloop b\nend".toList

theorem fault_regardless_of_rest_looseArrow :
    let e : ParseError := { (Line.ofRaw 4 " -- x".toList).fail (.lineUnrecognised "-- x".toList) with
      expected := SequenceDiagram.rules.map LineRule.name }
    (Kind.detect looseArrow).isC4 = false ∧ (e.code ≠ .e001 ∧ e.code ≠ .e200 ∧ e.code ≠ .e204) ∧
      Diagram.read looseArrow 0 = .error e ∧ Diagram.read looseArrowInBlock 0 = .error e := by
  intro e
  have other : (Kind.detect looseArrow).isC4 = false := by decide +kernel
  have present : e.code ≠ .e001 ∧ e.code ≠ .e200 ∧ e.code ≠ .e204 := by decide
  have failed : Diagram.read looseArrow 0 = .error e := eq_error_of_seen (by decide +kernel)
  exact ⟨other, present, failed, fault_regardless_of_rest other failed present (by decide +kernel)⟩

end DiagramLint
