import DiagramLint.Proofs.Reading.Line

/-!
How diagrams are read: first the header line, then the lines behind it in turn, and at last what they
make. So a source is refused for its first line at fault, whatever stands behind it, or for what is
missing at the end, and what a diagram holds is in the order of its lines.
-/
namespace DiagramLint

open Text

variable {α β : Type} {e : ParseError} {text : Text} {offset : Nat} {first : Line} {body : List Line}

/-! ### Headers -/

/-- A header is refused for its word. -/
def Mismatched (x : Except ParseError α) : Prop := ∃ e, x = .error e ∧ e.code = .e002

@[simp] theorem mismatched_map {x : Except ParseError α} {f : α → β} : Mismatched (x.map f) ↔ Mismatched x := by
  cases x <;> simp [Mismatched, Except.map]

/-- One of the words is in front of the text, alone or with a blank behind it. -/
def Text.BeginsWith (words : List String) (t : Text) : Prop := ∃ word ∈ words, (afterKeyword? word t).isSome

/-- A refusal is one of the header line, for its word just if the line does not fit, and a result is one of a
line that fits and as it should be. -/
def OfHeader (fits : Prop) (line : Line) (x : Except ParseError α) (good : α → Prop) : Prop :=
  match x with
  | .error e => e.position = line.position ∧ e.code ≠ .e001 ∧ (e.code = .e002 ↔ ¬ fits)
  | .ok a => fits ∧ good a

namespace OfHeader

variable {fits : Prop} {line : Line} {good : α → Prop} {better : β → Prop} {x : Except ParseError α}

theorem of_error (given : OfHeader fits line x good) (failed : x = .error e) :
    e.position = line.position ∧ e.code ≠ .e001 ∧ (e.code = .e002 ↔ ¬ fits) := by
  rw [failed] at given
  exact given

theorem of_ok {a : α} (given : OfHeader fits line x good) (made : x = .ok a) : fits ∧ good a := by
  rw [made] at given
  exact given

/-- What is refused behind the word of a header is not refused for the word. -/
theorem of_ofLine (fine : fits) (given : OfLine line x good) : OfHeader fits line x good := by
  cases x with
  | error e =>
    obtain ⟨position, headed, fitting⟩ := given
    exact ⟨position, headed, iff_of_false fitting (not_not_intro fine)⟩
  | ok a => exact ⟨fine, given⟩

theorem bind (given : OfHeader fits line x good) {f : α → Except ParseError β}
    (behind : ∀ a, good a → OfLine line (f a) better) : OfHeader fits line (x >>= f) better := by
  cases x with
  | error e => exact given
  | ok a => exact of_ofLine given.1 (behind a given.2)

end OfHeader

theorem headerWith_ofHeader (text : Text) (offset : Nat) (first : Line) (body : List Line)
    (keywords : List String) :
    OfHeader (first.text.BeginsWith keywords) first (Source.headerWith ⟨text, offset, first :: body⟩ keywords)
      fun header => header.1 = first := by
  have here : Source.headerLine ⟨text, offset, first :: body⟩ = .ok first := rfl
  rw [Source.headerWith, here]
  dsimp only [bind, Except.bind]
  split
  · next word rest found =>
    obtain ⟨keyword, member, fits⟩ := List.exists_of_findSome?_eq_some found
    have begun : (afterKeyword? keyword first.text).isSome := by
      rw [← Option.isSome_map, fits]
      rfl
    exact ⟨⟨keyword, member, begun⟩, rfl⟩
  · next missing =>
    refine ⟨rfl, nofun, iff_of_true rfl ?_⟩
    rintro ⟨keyword, member, begun⟩
    have unfit := List.findSome?_eq_none_iff.mp missing keyword member
    rw [Option.map_eq_none_iff.mp unfit] at begun
    cases begun

theorem bareHeader_ofHeader (text : Text) (offset : Nat) (first : Line) (body : List Line) (keyword : String) :
    OfHeader (first.text.BeginsWith [keyword]) first (Source.bareHeader ⟨text, offset, first :: body⟩ keyword)
      (· = first) := by
  refine (headerWith_ofHeader text offset first body [keyword]).bind ?_
  rintro ⟨line, word, rest⟩ rfl
  dsimp only
  split
  · rfl
  · exact ⟨rfl, nofun, nofun⟩

/-- The source that is one line, for the readers of headers. -/
def Line.alone (line : Line) : Source := ⟨[], 0, [line]⟩

/-! ### Diagrams -/

/-- The header with another text recorded. -/
def Header.withSource (source : Text) (h : Header) : Header := { h with source := source }

/-- What is recorded of a source: its header, and lists of things with positions. -/
class Stored (α : Type) where
  header : α → Header
  /-- The same with another text recorded. -/
  withSource : Text → α → α
  /-- The positions of everything but the header, list by list. -/
  columns : α → List (List Position)

/-- A reader goes by the lines of a source. What it reads stands where the lines stand, in their order,
and what it refuses, it refuses for one of them. -/
structure ReadsLines [Stored α] (read : Source → Except ParseError α) : Prop where
  /-- Lines make the same in every text and behind any lines, but for the text that is recorded. -/
  anywhere : ∀ text other offset elsewhere first body, read ⟨other, elsewhere, first :: body⟩ =
    (read ⟨text, offset, first :: body⟩).map (Stored.withSource other)
  ordered : ∀ {text offset first body a}, read ⟨text, offset, first :: body⟩ = .ok a →
    InOrder (body.map Line.position) → (Stored.header a).position = first.position ∧
      ∀ column ∈ Stored.columns a, Along (body.map Line.position) column
  refused : ∀ {text offset first body e}, read ⟨text, offset, first :: body⟩ = .error e →
    InOrder (body.map Line.position) → e.code ≠ .e001 ∧ e.position ∈ (first :: body).map Line.position

/-- The source is refused for a line, whatever stands behind it. -/
def StopsAt (read : Source → Except ParseError α) (lines : List Line) (e : ParseError) : Prop :=
  ∃ before line after, lines = before ++ line :: after ∧ e.position = line.position ∧
    ∀ text offset other, read ⟨text, offset, before ++ line :: other⟩ = .error e

/-- A way to read the lines of a source in turn, and to make a diagram of what they tell. -/
structure Reading (α : Type) where
  /-- What the header line tells. -/
  Head : Type
  State : Type
  head : Line → Except ParseError Head
  /-- The headers that are not refused for their word. -/
  fits : Text → Prop
  /-- The header line. -/
  line : Head → Line
  start : Head → State
  rules : State → List (LineRule State)
  /-- The lines that a line behind the header stands for. -/
  cut : Line → List Line := fun line => [line]
  columns : State → List (List Position)
  /-- What the lines make in a text. -/
  finish : Text → Head → State → Except ParseError α

/-- A reader reads in this way, and each part of it keeps to the places of the lines it is given. Only the header is
refused for its word. -/
structure Reading.Describes [Stored α] (r : Reading α) (read : Source → Except ParseError α) : Prop where
  read_eq : ∀ text offset first body, read ⟨text, offset, first :: body⟩ =
    r.head first >>= fun h => readLines r.rules (r.start h) (body.flatMap r.cut) >>= r.finish text h
  head_ofHeader : ∀ first, OfHeader (r.fits first.text) first (r.head first) fun h => r.line h = first
  start_empty : ∀ h, ∀ column ∈ r.columns (r.start h), column = []
  rules_mark : ∀ s, ∀ rule ∈ r.rules s, ∀ line, Marks r.columns s line (rule.read s line)
  cut_position : ∀ line, ∀ piece ∈ r.cut line, piece.position = line.position := by simp
  finish_error : ∀ {text h s e}, r.finish text h s = .error e → (e.code = .e200 ∨ e.code = .e204) ∧
    (e.position = (r.line h).position ∨ ∃ column ∈ r.columns s, e.position ∈ column)
  finish_ok : ∀ {text h s a}, r.finish text h s = .ok a →
    (Stored.header a).position = (r.line h).position ∧ ∀ column ∈ Stored.columns a, column ∈ r.columns s
  finish_text : ∀ text h s other, r.finish other h s = (r.finish text h s).map (Stored.withSource other)

namespace Reading.Describes

variable [Stored α] {r : Reading α} {read : Source → Except ParseError α} (laws : r.Describes read)
include laws

theorem anywhere (text other : Text) (offset elsewhere : Nat) (first : Line) (body : List Line) :
    read ⟨other, elsewhere, first :: body⟩ = (read ⟨text, offset, first :: body⟩).map (Stored.withSource other) := by
  rw [laws.read_eq, laws.read_eq]
  cases r.head first with
  | error e => rfl
  | ok h =>
    show (readLines r.rules (r.start h) (body.flatMap r.cut) >>= r.finish other h) =
      (readLines r.rules (r.start h) (body.flatMap r.cut) >>= r.finish text h).map (Stored.withSource other)
    cases readLines r.rules (r.start h) (body.flatMap r.cut) with
    | error e => rfl
    | ok s => exact laws.finish_text text h s other

/-! ### Refusals -/

theorem stopsAt_head (failed : r.head first = .error e) (body : List Line) : StopsAt read (first :: body) e := by
  refine ⟨[], first, body, rfl, ((laws.head_ofHeader first).of_error failed).1, ?_⟩
  intro text offset other
  rw [List.nil_append, laws.read_eq, failed]
  rfl

/-- A body is refused in one of its lines, and the lines in front are read as they are without it. -/
theorem stopsAt_body {h : r.Head} (headed : r.head first = .ok h)
    (failed : readLines r.rules (r.start h) (body.flatMap r.cut) = .error e) :
    StopsAt read (first :: body) e ∧ e.code ≠ .e001 ∧ e.code ≠ .e002 := by
  obtain ⟨before, line, after, s, rfl, run, stopped⟩ := exists_line_at_fault failed
  obtain ⟨ahead, piece, behind, s', pieces, -, refused⟩ := readLines_eq_error_iff.mp stopped
  have blamed := (Marks.readLine (laws.rules_mark s')).of_error refused
  have place := laws.cut_position line piece (by simp [pieces])
  refine ⟨⟨first :: before, line, after, rfl, blamed.1.trans place, ?_⟩, blamed.2⟩
  intro text offset other
  have refused_first : readLines r.rules (r.start h) ((before ++ line :: other).flatMap r.cut) = .error e := by
    rw [List.flatMap_append, List.flatMap_cons, readLines_append run, readLines_append_error stopped]
  rw [List.cons_append, laws.read_eq, headed]
  show (readLines r.rules (r.start h) ((before ++ line :: other).flatMap r.cut) >>= r.finish text h) = .error e
  rw [refused_first]
  rfl

/-! ### Results -/

theorem along_of_run {h : r.Head} {s : r.State} (order : InOrder (body.map Line.position))
    (run : readLines r.rules (r.start h) (body.flatMap r.cut) = .ok s) :
    ∀ column ∈ r.columns s, Along (body.map Line.position) column := by
  have pieces : Along (body.map Line.position) ((body.flatMap r.cut).map Line.position) :=
    Along.flatMap ⟨order, fun _ => id⟩ laws.cut_position
  intro column member
  have along := Marks.readLines laws.rules_mark (laws.start_empty h) run pieces.sorted column member
  exact ⟨along.sorted, fun p inside => pieces.within p (along.within p inside)⟩

/-- What is read stands where the lines stand that it is read from, in their order. -/
theorem ordered {a : α} (made : read ⟨text, offset, first :: body⟩ = .ok a)
    (order : InOrder (body.map Line.position)) : (Stored.header a).position = first.position ∧
      ∀ column ∈ Stored.columns a, Along (body.map Line.position) column := by
  rw [laws.read_eq] at made
  obtain ⟨h, headed, made⟩ := exists_of_bind_ok made
  obtain ⟨s, run, finished⟩ := exists_of_bind_ok made
  obtain ⟨header, columns⟩ := laws.finish_ok finished
  refine ⟨header.trans (congrArg Line.position ((laws.head_ofHeader first).of_ok headed).2), ?_⟩
  intro column member
  exact laws.along_of_run order run column (columns column member)

/-- A source with a header line is refused for its first line at fault, or for what is missing at the end. -/
theorem stops (failed : read ⟨text, offset, first :: body⟩ = .error e) :
    e.code = .e200 ∨ e.code = .e204 ∨ StopsAt read (first :: body) e := by
  rw [laws.read_eq] at failed
  rcases bind_error failed with unheaded | ⟨h, headed, failed⟩
  · exact .inr (.inr (laws.stopsAt_head unheaded body))
  · rcases bind_error failed with stopped | ⟨s, run, unfinished⟩
    · exact .inr (.inr (laws.stopsAt_body headed stopped).1)
    · exact (laws.finish_error unfinished).1.imp_right .inl

theorem refused (failed : read ⟨text, offset, first :: body⟩ = .error e)
    (order : InOrder (body.map Line.position)) :
    e.code ≠ .e001 ∧ e.position ∈ (first :: body).map Line.position := by
  have place (stops : StopsAt read (first :: body) e) : e.position ∈ (first :: body).map Line.position := by
    obtain ⟨before, line, after, lines, position, -⟩ := stops
    rw [lines, position]
    simp
  rw [laws.read_eq] at failed
  rcases bind_error failed with unheaded | ⟨h, headed, failed⟩
  · exact ⟨((laws.head_ofHeader first).of_error unheaded).2.1, place (laws.stopsAt_head unheaded body)⟩
  · rcases bind_error failed with stopped | ⟨s, run, unfinished⟩
    · obtain ⟨stops, code, -⟩ := laws.stopsAt_body headed stopped
      exact ⟨code, place stops⟩
    · obtain ⟨code, position⟩ := laws.finish_error unfinished
      constructor
      · rcases code with code | code <;> simp [code]
      · rcases position with header | ⟨column, member, inside⟩
        · rw [header, ((laws.head_ofHeader first).of_ok headed).2]
          exact List.mem_cons_self
        · exact List.mem_cons_of_mem _ ((laws.along_of_run order run column member).within _ inside)

theorem readsLines : ReadsLines read := ⟨laws.anywhere, laws.ordered, laws.refused⟩

/-- Of all lines only the header line is refused for its word. -/
theorem mismatch_iff : Mismatched (read ⟨text, offset, first :: body⟩) ↔ ¬ r.fits first.text := by
  rw [laws.read_eq]
  constructor
  · rintro ⟨e, failed, mismatched⟩
    rcases bind_error failed with unheaded | ⟨h, headed, failed⟩
    · exact ((laws.head_ofHeader first).of_error unheaded).2.2.mp mismatched
    · rcases bind_error failed with stopped | ⟨s, run, unfinished⟩
      · exact absurd mismatched (laws.stopsAt_body headed stopped).2.2
      · rcases (laws.finish_error unfinished).1 with code | code <;> simp [code] at mismatched
  · intro unfit
    cases headed : r.head first with
    | error e => exact ⟨e, rfl, ((laws.head_ofHeader first).of_error headed).2.2.mpr unfit⟩
    | ok h => exact absurd ((laws.head_ofHeader first).of_ok headed).1 unfit

end Reading.Describes

/-! ### Made into something else -/

variable {read : Source → Except ParseError α}

theorem ReadsLines.made [Stored α] [Stored β] (reads : ReadsLines read) {make : α → β}
    (header : ∀ a, Stored.header (make a) = Stored.header a)
    (columns : ∀ a, Stored.columns (make a) = Stored.columns a)
    (withSource : ∀ text a, Stored.withSource text (make a) = make (Stored.withSource text a)) :
    ReadsLines fun s => (read s).map make where
  anywhere text other offset elsewhere first body := by
    rw [reads.anywhere text other offset elsewhere]
    cases read ⟨text, offset, first :: body⟩ with
    | error e => rfl
    | ok a => exact congrArg Except.ok (withSource other a).symm
  ordered made order := by
    obtain ⟨a, found, rfl⟩ := exists_of_map_ok made
    rw [header, columns]
    exact reads.ordered found order
  refused := by
    intro text offset first body e failed order
    cases found : read ⟨text, offset, first :: body⟩ with
    | error e' =>
      rw [found] at failed
      obtain rfl := Except.error.inj failed
      exact reads.refused found order
    | ok a =>
      rw [found] at failed
      cases failed

theorem StopsAt.made {lines : List Line} (stops : StopsAt read lines e) (make : α → β) :
    StopsAt (fun s => (read s).map make) lines e := by
  obtain ⟨before, line, after, split, position, always⟩ := stops
  refine ⟨before, line, after, split, position, ?_⟩
  intro text offset other
  show (read _).map make = .error e
  rw [always text offset other]
  rfl

end DiagramLint
