import DiagramLint.C4Diagram.Reader
import DiagramLint.Proofs.Results
import DiagramLint.Proofs.Text.Keywords

/-!
What a line with a call begins with, and what tells the keywords of calls apart.
-/
namespace DiagramLint.C4Diagram

open Text

/-! ### Keywords -/

theorem ElementKind.eq_keyword {t : Text} {kind : ElementKind} (found : ElementKind.ofKeyword? t = some kind) :
    t = kind.keyword.toList := by
  have same : kind.keyword.toList = t := by simpa using List.find?_some found
  exact same.symm

theorem BoundaryKind.eq_keyword {t : Text} {kind : BoundaryKind} (found : BoundaryKind.ofKeyword? t = some kind) :
    t = kind.keyword.toList := by
  have same : kind.keyword.toList = t := by simpa using List.find?_some found
  exact same.symm

theorem StyleKind.eq_keyword {t : Text} {kind : StyleKind} (found : StyleKind.ofKeyword? t = some kind) :
    t = kind.keyword.toList := by
  have same : kind.keyword.toList = t := by simpa using List.find?_some found
  exact same.symm

theorem RelationshipKind.mem_keywords {t : Text} {kind : RelationshipKind}
    (found : RelationshipKind.ofKeyword? t = some kind) : ∃ k ∈ kind.keywords, t = k.toList := by
  have listed : ∃ k ∈ kind.keywords, k.toList = t := by simpa using List.find?_some found
  obtain ⟨k, member, same⟩ := listed
  exact ⟨k, member, same.symm⟩

/-- No keyword is one of an element and of a relationship or a style. -/
theorem element_keyword_apart {t : Text} {kind : ElementKind} (found : ElementKind.ofKeyword? t = some kind) :
    RelationshipKind.ofKeyword? t = none ∧ StyleKind.ofKeyword? t = none := by
  rw [ElementKind.eq_keyword found]
  cases kind <;> decide

/-- No keyword is one of a relationship and of a style. -/
theorem relationship_keyword_apart {t : Text} {kind : RelationshipKind}
    (found : RelationshipKind.ofKeyword? t = some kind) : StyleKind.ofKeyword? t = none := by
  obtain ⟨k, listed, rfl⟩ := RelationshipKind.mem_keywords found
  revert k
  cases kind <;> decide

/-- The text begins with a capital letter, as all keywords do. -/
def beginsUpper (t : Text) : Bool := t.head?.any Char.isUpper

theorem beginsUpper_keyword (kind : ElementKind) : beginsUpper kind.keyword.toList := by cases kind <;> decide

theorem beginsUpper_of_boundary {t : Text} {kind : BoundaryKind} (found : BoundaryKind.ofKeyword? t = some kind) :
    beginsUpper t := by
  rw [BoundaryKind.eq_keyword found]
  cases kind <;> decide

/-- The name of a call that adds something is a keyword. -/
theorem beginsUpper_of_readCall {d mid : Draft} {line : Line} {c : Call} (made : readCall d line c = .ok mid) :
    beginsUpper c.name := by
  unfold readCall at made
  split at made
  · next kind found =>
    rw [ElementKind.eq_keyword found]
    exact beginsUpper_keyword kind
  · split at made
    · next kind found =>
      obtain ⟨k, listed, same⟩ := RelationshipKind.mem_keywords found
      rw [same]
      clear same
      revert k
      cases kind <;> decide
    · split at made
      · next kind found =>
        rw [StyleKind.eq_keyword found]
        cases kind <;> decide
      · exact nomatch made

/-! ### Calls -/

/-- What a call adds does not depend on what has been read before. -/
theorem exists_readCall {d mid : Draft} {line : Line} {c : Call} (made : readCall d line c = .ok mid)
    (d' : Draft) : ∃ mid', readCall d' line c = .ok mid' := by
  unfold readCall at made ⊢
  split at made
  · obtain ⟨e, built, _⟩ := exists_of_map_ok made
    exact ⟨_, by rw [built]; rfl⟩
  · split at made
    · obtain ⟨r, built, _⟩ := exists_of_map_ok made
      exact ⟨_, by rw [built]; rfl⟩
    · split at made
      · obtain ⟨s, built, _⟩ := exists_of_map_ok made
        exact ⟨_, by rw [built]; rfl⟩
      · exact nomatch made

/-! ### Positions -/

theorem position_of_frame {c : Call} {line : Line} {kind : BoundaryKind} {frame : Frame}
    (framed : c.frame line kind = .ok frame) : frame.position = line.position := by
  obtain ⟨b, _, framed⟩ := exists_of_bind_ok framed
  obtain ⟨id, _, framed⟩ := exists_of_bind_ok framed
  exact congrArg Frame.position (Except.ok.inj framed).symm

theorem position_of_element {c : Call} {line : Line} {kind : ElementKind} {e : Element}
    (made : c.element line kind = .ok e) : e.position = line.position := by
  obtain ⟨b, _, made⟩ := exists_of_bind_ok made
  obtain ⟨id, _, made⟩ := exists_of_bind_ok made
  exact congrArg Element.position (Except.ok.inj made).symm

theorem position_of_relationship {c : Call} {line : Line} {kind : RelationshipKind} {r : Relationship}
    (made : c.relationship line kind = .ok r) : r.position = line.position := by
  obtain ⟨b, _, made⟩ := exists_of_bind_ok made
  obtain ⟨source, _, made⟩ := exists_of_bind_ok made
  obtain ⟨target, _, made⟩ := exists_of_bind_ok made
  exact congrArg Relationship.position (Except.ok.inj made).symm

theorem position_of_addArgument {c : Call} {argument : Text} {s s' : Style}
    (added : s.addArgument c argument = .ok s') : s'.position = s.position := by
  unfold Style.addArgument at added
  split at added
  · obtain rfl := Except.ok.inj added
    rfl
  · split at added
    · obtain rfl := Except.ok.inj added
      rfl
    · split at added
      · obtain rfl := Except.ok.inj added
        rfl
      · cases added

theorem position_of_arguments {c : Call} {arguments : List Text} {s s' : Style}
    (added : arguments.foldlM (fun (s : Style) argument => s.addArgument c argument) s = .ok s') :
    s'.position = s.position := by
  induction arguments generalizing s with
  | nil => exact congrArg Style.position (Except.ok.inj added).symm
  | cons argument rest ih =>
    obtain ⟨mid, first, later⟩ := exists_of_bind_ok added
    rw [ih later]
    exact position_of_addArgument first

theorem position_of_style {c : Call} {line : Line} {kind : StyleKind} {s : Style}
    (made : c.style line kind = .ok s) : s.position = line.position := by
  obtain ⟨style, folded, made⟩ := exists_of_bind_ok made
  split at made
  · cases made
  · obtain rfl := Except.ok.inj made
    unfold Except.mapError at folded
    split at folded
    · cases folded
    · next added =>
      obtain rfl := Except.ok.inj folded
      exact position_of_arguments added

/-! ### The text of a call -/

theorem name_of_callStart? {t name rest : Text} (start : callStart? t = some (name, rest)) : name <+: t := by
  unfold callStart? at start
  dsimp only [spanWhile] at start
  split at start
  · split at start
    · cases start
    · obtain ⟨rfl, _⟩ := Prod.mk.inj (Option.some.inj start)
      exact List.takeWhile_prefix isNameChar
  · cases start

theorem trimEnd_begins (t : Text) : trimEnd t <+: t := by
  rw [trimEnd, ← List.reverse_suffix, List.reverse_reverse]
  exact List.dropWhile_suffix isBlank

/-- What a call says about its line: the line begins with its name, and its body is announced at the
end of the line or below. -/
theorem call_inv {line : Line} {below : Bool} {c : Call} (called : call line below = .ok c) :
    c.name <+: line.text ∧ c.hasBody = (opens line || below) := by
  unfold call at called
  split at called
  next t hasBody cut =>
    have written : t <+: line.text ∧ hasBody = (opens line || below) := by
      unfold opens endsWith
      split at cut
      · next before ending =>
        obtain ⟨rfl, rfl⟩ := Prod.mk.inj cut
        rw [ending, append_of_dropEnd? ending]
        exact ⟨(trimEnd_begins before).trans (List.prefix_append before _), rfl⟩
      · next ending =>
        obtain ⟨rfl, rfl⟩ := Prod.mk.inj cut
        rw [ending]
        exact ⟨List.prefix_refl _, rfl⟩
    split at called
    · cases called
    · next name rest start =>
      split at called
      · cases called
      · split at called
        · cases called
        · obtain rfl := Except.ok.inj called
          exact ⟨(name_of_callStart? start).trans written.1, written.2⟩

theorem not_closes_of_not_prefix {line : Line} (other : ¬ ['}'] <+: line.text) : closes line = false := by
  rw [closes, startsWith, Option.isSome_eq_false_iff, Option.isNone_iff_eq_none]
  cases start : dropStart? ['}'] line.text with
  | none => rfl
  | some behind => exact absurd (prefix_of_dropStart? start) other

/-- A line that begins with a keyword is no title and begins with no brace. -/
theorem apart_of_call {line : Line} {below : Bool} {c : Call} (called : call line below = .ok c) (upper : beginsUpper c.name) :
    closes line = false ∧ afterKeywordColon? "title" line.text = none ∧ line.text ≠ ['{'] := by
  obtain ⟨named, _⟩ := call_inv called
  obtain ⟨letter, more, name⟩ : ∃ letter more, c.name = letter :: more := by
    cases start : c.name with
    | nil => rw [start] at upper; exact nomatch upper
    | cons letter more => exact ⟨letter, more, rfl⟩
  rw [name] at named upper
  have capital : letter.isUpper = true := by simpa [beginsUpper] using upper
  have apart : ∀ (mark : Char) (t : Text), mark.isUpper = false → ¬ (mark :: t) <+: line.text := by
    intro mark t small begins
    have same : letter = mark := by
      rcases List.prefix_or_prefix_of_prefix named begins with inside | inside
      · exact (List.cons_prefix_cons.mp inside).1
      · exact (List.cons_prefix_cons.mp inside).1.symm
    rw [same, small] at capital
    exact nomatch capital
  refine ⟨?_, ?_, ?_⟩
  · exact not_closes_of_not_prefix (apart _ _ (by decide))
  · cases titled : afterKeywordColon? "title" line.text with
    | none => rfl
    | some title => exact absurd (prefix_of_afterKeywordColon? titled) (apart _ _ (by decide))
  · intro lone
    exact apart '{' [] (by decide) (lone ▸ List.prefix_refl ['{'])

end DiagramLint.C4Diagram
