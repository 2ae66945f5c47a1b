import DiagramLint.Proofs.Offset.Linter
import DiagramLint.Proofs.Positions

/-!
Silent lines. A blank line or a comment anywhere in a text only moves the lines behind it: what is read
and what is found stays the same, one line further down from there (`read_with_silent_line`).
-/
namespace DiagramLint

open Text
open Placed (shift)

variable {k : Move} {here there : Text} {before after : List Text} {line : Text} {d : Diagram} {e : ParseError}

/-! ### Lines -/

/-- Lines in front of the first one that goes down stay where they are. -/
theorem significantLines_stay (zone : Zone) {number : Nat} {raws : List Text}
    (front : number + raws.length ≤ k.start) :
    shift k (significantLines zone number raws) = significantLines zone number raws := by
  refine (List.map_congr_left ?_).trans (List.map_id _)
  intro line member
  have bounds := number_of_mem_significantLines member
  show Line.mk (line.number + k.distance line.number) _ _ _ _ = line
  rw [Move.distance_of_lt (by omega)]
  rfl

/-- A silent line moves the lines behind it and nothing else. -/
theorem significantLines_with_silent (silent : IsSilent line) (zone : Zone) (number : Nat)
    (before after : List Text) : significantLines zone number (before ++ line :: after) =
      shift ⟨1, 1, number + before.length⟩ (significantLines zone number (before ++ after)) := by
  have behind : significantLines (zone.behind before) (number + before.length + 1) after =
      shift ⟨1, 1, number + before.length⟩ (significantLines (zone.behind before) (number + before.length) after) :=
    significantLines_shift (k := ⟨1, 1, number + before.length⟩) (zone.behind before) (Nat.le_refl _) after
  rw [significantLines_append, significantLines_append, significantLines_of_silent silent, shift_append, behind,
    significantLines_stay zone le_rfl]

theorem lines_with_silent (cut : Text.lines here = before ++ after) (inserted : Text.lines there = before ++ line :: after)
    (silent : IsSilent line) (offset : Nat) : (Source.ofText there offset).lines =
      shift ⟨1, 1, offset + 1 + before.length⟩ (Source.ofText here offset).lines := by
  show significantLines .start (offset + 1) (Text.lines there) =
    shift _ (significantLines .start (offset + 1) (Text.lines here))
  rw [cut, inserted, significantLines_with_silent silent]

/-! ### Recorded texts -/

theorem withSource_shift (text : Text) (d : Diagram) : (shift k d).withSource text = shift k (d.withSource text) := by
  cases d <;> rfl

/-- A diagram that is read from a text records the text. -/
theorem withSource_of_ofSource {kind : Kind} {text : Text} {offset : Nat} {lines : List Line}
    (made : Diagram.ofSource kind ⟨text, offset, lines⟩ = .ok d) : d.withSource text = d := by
  cases lines with
  | nil => cases made
  | cons first body =>
    have same := (ofSource_readsLines kind).anywhere text text offset offset first body
    rw [made] at same
    exact (Except.ok.inj same).symm

/-- The rules for the known kinds do not look at the text that is recorded. -/
theorem check_withSource (family : Family) (text : Text) (d : Diagram) :
    ∀ rule ∈ family.rules, rule.check (d.withSource text) = rule.check d := by
  cases family
  all_goals
    cases d
    all_goals
      repeat refine List.forall_mem_cons.mpr ⟨rfl, ?_⟩
      exact List.forall_mem_nil _

/-- A diagram of no known kind is told by the first line that says something. -/
theorem check_unknown_withSource (same : Rule.firstLine (Text.lines there) = Rule.firstLine (Text.lines here))
    (d : Diagram) : ∀ rule ∈ Rule.unknown, rule.check (d.withSource there) = rule.check (d.withSource here) := by
  refine List.forall_mem_cons.mpr ⟨?_, List.forall_mem_nil _⟩
  cases d
  case unknown d =>
    show Rule.unknownKind ⟨_, Text.lines there⟩ = Rule.unknownKind ⟨_, Text.lines here⟩
    unfold Rule.unknownKind
    dsimp only
    rw [same]
    rfl
  all_goals rfl

theorem findings_withSource (same : Rule.firstLine (Text.lines there) = Rule.firstLine (Text.lines here))
    (d : Diagram) : (d.withSource there).findings = (d.withSource here).findings := by
  have kind (text : Text) : (d.withSource text).kind = d.kind := by
    cases d <;> rfl
  rw [Diagram.findings, Diagram.findings, kind, kind]
  refine List.flatMap_congr ?_
  intro rule member
  unfold RuleSet.ofKind at member
  dsimp only at member
  split at member
  · next family _ => rw [check_withSource family there d rule member, check_withSource family here d rule member]
  · exact check_unknown_withSource same d rule member

/-- What is found in a diagram that is moved down is moved down. -/
theorem Diagram.findings_shift (d : Diagram) : (shift k d).findings = shift k d.findings := by
  rw [findings, findings, kind_shift]
  exact checks_shift (ofKind_rules_move d.kind) d

theorem firstLine_with_silent (silent : IsSilent line) (before after : List Text) :
    Rule.firstLine (before ++ line :: after) = Rule.firstLine (before ++ after) := by
  have passed : (!(trim line).isEmpty && !isComment (trim line)) = false := by
    rcases silent with blank | comment
    · simp [blank]
    · simp [comment]
  simp [Rule.firstLine, List.find?_append, passed]

/-! ### Reading -/

theorem detect_with_silent (cut : Text.lines here = before ++ after)
    (inserted : Text.lines there = before ++ line :: after) (silent : IsSilent line) :
    Kind.detect there = Kind.detect here := by
  have lines := lines_with_silent cut inserted silent 0
  unfold Kind.detect Source.kind Source.header?
  rw [lines]
  cases (Source.ofText here 0).lines <;> rfl

/-- Texts with the same lines, some of them further down, are read alike. -/
theorem ofSource_of_moved (kind : Kind) {offset : Nat}
    (moved : (Source.ofText there offset).lines = shift k (Source.ofText here offset).lines)
    (quoting : k.quoted = k.lines) :
    (∀ d, Diagram.ofSource kind (Source.ofText here offset) = .ok d →
      Diagram.ofSource kind (Source.ofText there offset) = .ok (shift k (d.withSource there))) ∧
    ∀ e, Diagram.ofSource kind (Source.ofText here offset) = .error e →
      Diagram.ofSource kind (Source.ofText there offset) = .error (if e.code = .e001 then e else shift k e) := by
  cases found : (Source.ofText here offset).lines with
  | nil =>
    rw [found, shift_nil] at moved
    rw [ofSource_of_no_lines found, ofSource_of_no_lines moved]
    constructor
    · intro d made
      cases made
    · intro e failed
      obtain rfl := Except.error.inj failed
      simp [Fault.code]
  | cons first body =>
    rw [found, shift_cons] at moved
    have alike : Diagram.ofSource kind (Source.ofText there offset) =
        (shift k (Diagram.ofSource kind (Source.ofText here offset))).map (Diagram.withSource there) := by
      rw [ofText_of_lines moved, ← ofSource_shift fun _ => quoting, ofText_of_lines found]
      exact (ofSource_readsLines kind).anywhere here there _ offset (shift k first) (shift k body)
    rw [alike]
    constructor
    · intro d made
      rw [made]
      exact congrArg Except.ok (withSource_shift there d)
    · intro e failed
      have headed : e.code ≠ .e001 := by
        rcases refused_of_ofSource failed with ⟨empty, -⟩ | ⟨headed, -⟩
        · rw [found] at empty
          cases empty
        · exact headed
      rw [failed, if_neg headed]
      rfl

/-- A blank line or a comment that is put in somewhere leaves the kind of a text as it is, and what is
read and found: only positions at the lines behind are one further down, and the number of such a line
where an error quotes it. An error for want of a header line stays at the first line. -/
theorem read_with_silent_line (cut : Text.lines here = before ++ after)
    (inserted : Text.lines there = before ++ line :: after) (silent : IsSilent line) (offset : Nat) :
    let k : Move := ⟨1, 1, offset + 1 + before.length⟩
    Kind.detect there = Kind.detect here ∧
      (∀ d, Diagram.read here offset = .ok d →
        Diagram.read there offset = .ok (shift k (d.withSource there)) ∧
          (shift k (d.withSource there)).findings = shift k d.findings) ∧
      ∀ e, Diagram.read here offset = .error e →
        Diagram.read there offset = .error (if e.code = .e001 then e else shift k e) := by
  intro k
  have detected := detect_with_silent cut inserted silent
  have same : Rule.firstLine (Text.lines there) = Rule.firstLine (Text.lines here) := by
    rw [cut, inserted, firstLine_with_silent silent]
  obtain ⟨made, failed⟩ := ofSource_of_moved (Kind.detect here) (k := k)
    (lines_with_silent cut inserted silent offset) rfl
  rw [read_eq_ofSource_detect, read_eq_ofSource_detect, detected]
  refine ⟨rfl, ?_, failed⟩
  intro d read
  refine ⟨made d read, ?_⟩
  calc (shift k (d.withSource there)).findings
    _ = shift k (d.withSource there).findings := Diagram.findings_shift _
    _ = shift k (d.withSource here).findings := by rw [findings_withSource same]
    _ = shift k d.findings := by rw [withSource_of_ofSource read]

/-- A boundary with its brace on the line behind it, without and with a comment in between. -/
def braceBelow : Text := "C4Context\nBoundary(b, \"B\")\n\x7b\nPerson(b, \"P\")\n\x7d".toList

def braceBelowComment : Text :=
  "C4Context\nBoundary(b, \"B\")\n %% people\n\x7b\nPerson(b, \"P\")\n\x7d".toList

theorem read_with_silent_line_braceBelow : IsSilent " %% people".toList ∧
    Kind.detect braceBelowComment = Kind.detect braceBelow ∧
    ∃ d, Diagram.read braceBelow 3 = .ok d ∧
      Diagram.read braceBelowComment 3 = .ok (shift ⟨1, 1, 6⟩ (d.withSource braceBelowComment)) ∧
      (shift ⟨1, 1, 6⟩ (d.withSource braceBelowComment) : Diagram).findings = shift ⟨1, 1, 6⟩ d.findings := by
  have silent : IsSilent " %% people".toList := by decide +kernel
  have cut : Text.lines braceBelow = (Text.lines braceBelow).take 2 ++ (Text.lines braceBelow).drop 2 := by
    rw [List.take_append_drop]
  have inserted : Text.lines braceBelowComment =
      (Text.lines braceBelow).take 2 ++ " %% people".toList :: (Text.lines braceBelow).drop 2 := by
    decide +kernel
  obtain ⟨detected, made, -⟩ := read_with_silent_line cut inserted silent 3
  obtain ⟨d, read⟩ := exists_of_isOk (x := Diagram.read braceBelow 3) (by decide +kernel)
  exact ⟨silent, detected, d, read, made d read⟩

end DiagramLint
