import DiagramLint.Proofs.Coverage.StateDiagram
import DiagramLint.Proofs.LineNumbers
import DiagramLint.Proofs.Text.Words

/-!
Notes. A note has its text behind a colon, or on the lines between its own and the next end of a note. The lines alone
tell the notes, wherever they stand and whatever the lines of their texts look like (`Noted`), and the rest of a diagram
is what is read without all of these lines (`notes_read`).
-/
namespace DiagramLint.StateDiagram

open Text

/-- The end of a note. -/
abbrev noteEnd : Text := "end note".toList

/-- The side, the target and the text, if it has one, of the note that a line begins. -/
def noteHead? (t : Text) : Option (Side × Text × Option Text) :=
  ((afterKeyword? "note" t).bind side?).map fun (side, rest) =>
    (side, trim (headAndLabel rest).1, (headAndLabel rest).2)

/-- The notes of some lines, and the lines outside them. A note that has no text in its own line has the texts of the
lines up to the next end of a note. -/
inductive Noted : List Line → List Note → List Line → Prop where
  | nil : Noted [] [] []
  | other {lines notes others} (line : Line) (plain : noteHead? line.text = none) (behind : Noted lines notes others) :
      Noted (line :: lines) notes (line :: others)
  | short {lines notes others side target text} (line : Line)
      (head : noteHead? line.text = some (side, target, some text)) (behind : Noted lines notes others) :
      Noted (line :: lines) (⟨side, target, text, line.position⟩ :: notes) others
  | long {lines notes others side target} (line : Line) (inside : List Line) (last : Line)
      (head : noteHead? line.text = some (side, target, none)) (goes_on : ∀ l ∈ inside, l.text ≠ noteEnd)
      (ends : last.text = noteEnd) (behind : Noted lines notes others) :
      Noted (line :: (inside ++ last :: lines))
        (⟨side, target, join ['\n'] (inside.map Line.text), line.position⟩ :: notes) others

/-- The source with other body lines. -/
def withBody (s : Source) (body : List Line) : Source := { s with lines := s.lines.take 1 ++ body }

/-- The draft with other notes. -/
def Draft.withNotes (d : Draft) (notes : List Note) : Draft := { d with notes := notes }

variable {d d' : Draft} {line : Line} {lines others others' : List Line} {notes notes' : List Note} {n : Note}
  {side : Side} {target : Text}

@[simp] theorem withNotes_stack (d : Draft) (notes : List Note) : (d.withNotes notes).stack = d.stack := rfl

@[simp] theorem withNotes_note (d : Draft) (notes : List Note) : (d.withNotes notes).note = d.note := rfl

@[simp] theorem withNotes_notes (d : Draft) (notes : List Note) : (d.withNotes notes).notes = notes := rfl

/-! ### The lines of a note -/

/-- The lines up to the first end of a note are the same, however they are found. -/
theorem eq_of_first_end {inside inside' : List Line} {last last' : Line} {lines' : List Line}
    (goes_on : ∀ l ∈ inside, l.text ≠ noteEnd) (ends : last.text = noteEnd)
    (goes_on' : ∀ l ∈ inside', l.text ≠ noteEnd) (ends' : last'.text = noteEnd)
    (whole : inside ++ last :: lines = inside' ++ last' :: lines') :
    inside = inside' ∧ last = last' ∧ lines = lines' := by
  have front (ls : List Line) (l : Line) (rest : List Line) (others : ∀ l ∈ ls, l.text ≠ noteEnd)
      (finish : l.text = noteEnd) : (ls ++ l :: rest).takeWhile (fun l => l.text ≠ noteEnd) = ls := by
    rw [List.takeWhile_append_of_pos (by simpa using others)]
    simp [finish]
  obtain rfl : inside = inside' := by
    rw [← front inside last lines goes_on ends, whole, front inside' last' lines' goes_on' ends']
  obtain ⟨rfl, rfl⟩ := List.cons.inj (List.append_cancel_left whole)
  exact ⟨rfl, rfl, rfl⟩

/-- The lines alone tell the notes and the lines outside them. -/
theorem Noted.unique (noted : Noted lines notes others) (noted' : Noted lines notes' others') :
    notes = notes' ∧ others = others' := by
  induction noted generalizing notes' others' with
  | nil =>
    cases noted'
    exact ⟨rfl, rfl⟩
  | other line plain behind ih =>
    cases noted' with
    | other _ _ behind' =>
      obtain ⟨rfl, rfl⟩ := ih behind'
      exact ⟨rfl, rfl⟩
    | short _ head | long _ _ _ head => simp [plain] at head
  | short line head behind ih =>
    cases noted' with
    | other _ plain => simp [plain] at head
    | short _ head' behind' =>
      obtain ⟨rfl, rfl, rfl⟩ : _ ∧ _ ∧ _ := by simpa [head] using head'
      obtain ⟨rfl, rfl⟩ := ih behind'
      exact ⟨rfl, rfl⟩
    | long _ _ _ head' => simp [head] at head'
  | long line inside last head goes_on ends behind ih =>
    generalize same : line :: (inside ++ last :: _) = all at noted'
    cases noted' with
    | nil => exact nomatch same
    | other _ plain =>
      obtain ⟨rfl, -⟩ := List.cons.inj same
      simp [head] at plain
    | short _ head' =>
      obtain ⟨rfl, -⟩ := List.cons.inj same
      simp [head] at head'
    | long _ inside' last' head' goes_on' ends' behind' =>
      obtain ⟨rfl, whole⟩ := List.cons.inj same
      obtain ⟨rfl, rfl, rfl⟩ := eq_of_first_end goes_on ends goes_on' ends' whole
      obtain ⟨rfl, rfl⟩ : _ ∧ _ := by simpa [head] using head'
      obtain ⟨rfl, rfl⟩ := ih behind'
      exact ⟨rfl, rfl⟩

theorem addLine_of_filled (filled : n.text ≠ []) (t : Text) :
    n.addLine t = { n with text := n.text ++ '\n' :: t } := by
  simp [Note.addLine, filled]

/-- Lines are put to a text with line feeds between them. -/
theorem foldl_addLine {ts : List Text} (begun : n.text ≠ []) :
    ts.foldl Note.addLine n = { n with text := join ['\n'] (n.text :: ts) } := by
  induction ts generalizing n with
  | nil => simp [join]
  | cons t ts ih =>
    have front : n.text ++ '\n' :: t = (n.text ++ ['\n']) ++ t := by simp
    rw [List.foldl_cons, addLine_of_filled begun, ih (by simp)]
    dsimp only
    rw [front, join_append_head, join_cons (List.cons_ne_nil t ts)]
    simp

/-- The text of a note without text in its line is that of its lines. -/
theorem text_of_lines {ts : List Text} (empty : n.text = []) (filled : ∀ t ∈ ts, t ≠ []) :
    ts.foldl Note.addLine n = { n with text := join ['\n'] ts } := by
  cases ts with
  | nil => simp [join, ← empty]
  | cons t ts =>
    have first : n.addLine t = { n with text := t } := by simp [Note.addLine, empty]
    rw [List.foldl_cons, first, foldl_addLine (List.forall_mem_cons.mp filled).1]

/-- The text of an open note goes on up to the first line that ends it. -/
theorem exists_end (opened : d.note = some n) (run : readLines rules d lines = .ok d') (closed : d'.note = none) :
    ∃ inside last behind, lines = inside ++ last :: behind ∧ (∀ l ∈ inside, l.text ≠ noteEnd) ∧
      last.text = noteEnd ∧ readLines rules { d with
        notes := d.notes ++ [(inside.map Line.text).foldl Note.addLine n]
        note := none } behind = .ok d' := by
  induction lines generalizing d n with
  | nil =>
    obtain rfl : d = d' := Except.ok.inj run
    exact nomatch opened.symm.trans closed
  | cons line lines ih =>
    obtain ⟨between, taken, run⟩ := exists_of_readLines_cons run
    have inside_note : rules d = noteRules := by rw [rules, opened]; rfl
    rw [inside_note, readLine_noteRules] at taken
    obtain rfl := Except.ok.inj taken
    by_cases ends : line.text = noteEnd
    · refine ⟨[], line, lines, rfl, List.forall_mem_nil _, ends, ?_⟩
      rw [if_pos ends, opened] at run
      exact run
    · have still_opened : d.note.map (fun n => n.addLine line.text) = some (n.addLine line.text) := by rw [opened]; rfl
      rw [if_neg ends] at run
      obtain ⟨inside, last, behind, rfl, goes_on, finish, rest⟩ := ih still_opened run
      exact ⟨line :: inside, last, behind, rfl, List.forall_mem_cons.mpr ⟨ends, goes_on⟩, finish, rest⟩

/-! ### Lines outside notes -/

/-- The rule neither looks at the notes nor adds one. -/
def SparesNotes (read : Draft → Line → Taken Draft) (line : Line) : Prop :=
  ∀ d notes, read (d.withNotes notes) line = (read d line).map (Option.map fun d => d.withNotes notes)

theorem declare_withNotes (d : Draft) (notes : List Note) (line : Line) (id : Text) (kind : StateKind)
    (description : Option Text) : declare (d.withNotes notes) line id kind description =
      (declare d line id kind description).map (Option.map fun d => d.withNotes notes) := by
  unfold declare
  split
  · rfl
  · rfl

theorem markedLine_spares (line : Line) : SparesNotes markedLine line := by
  intro d notes
  unfold markedLine
  split
  · rfl
  · exact declare_withNotes ..

theorem stateLine_spares (line : Line) : SparesNotes stateLine line := by
  intro d notes
  unfold stateLine
  split
  · rfl
  · dsimp only
    split
    · rfl
    · exact declare_withNotes ..

theorem closeLine_spares (line : Line) : SparesNotes closeLine line := by
  intro d notes
  unfold closeLine
  rw [withNotes_stack]
  by_cases brace : line.text = ['}']
  · rw [if_pos brace, if_pos brace]
    cases d.stack with
    | nil => rfl
    | cons i stack => rfl
  · rw [if_neg brace, if_neg brace]
    rfl

theorem transitionLine_spares (line : Line) : SparesNotes transitionLine line := by
  intro d notes
  unfold transitionLine
  dsimp only
  split
  · rfl
  · next before after _ =>
    show (transition d line before after _).map _ = ((transition d line before after _).map _).map _
    cases transition d line before after _ with
    | error e => rfl
    | ok t => rfl

theorem directionLine_spares (line : Line) : SparesNotes directionLine line := by
  intro d notes
  unfold directionLine
  split
  · rfl
  · next rest _ =>
    cases line.direction rest with
    | error e => rfl
    | ok direction => rfl

theorem separatorLine_spares (line : Line) : SparesNotes separatorLine line := by
  intro d notes
  unfold separatorLine
  rw [withNotes_stack]
  by_cases hyphens : line.text = ['-', '-']
  · rw [if_pos hyphens, if_pos hyphens]
    cases d.stack with
    | nil => rfl
    | cons i stack => rfl
  · rw [if_neg hyphens, if_neg hyphens]
    rfl

theorem descriptionLine_spares (line : Line) : SparesNotes descriptionLine line := by
  intro d notes
  unfold descriptionLine
  split
  · rfl
  · split
    · rfl
    · rfl

theorem nameLine_spares (line : Line) : SparesNotes nameLine line := by
  intro d notes
  unfold nameLine
  split
  · exact declare_withNotes ..
  · rfl

theorem noteLine_spares (plain : noteHead? line.text = none) : SparesNotes noteLine line := by
  intro d notes
  unfold noteLine
  split
  · rfl
  · next rest after =>
    have sideless : side? rest = none := by simpa [noteHead?, after] using plain
    rw [sideless]
    rfl

theorem outerRules_spare (plain : noteHead? line.text = none) :
    ∀ rule ∈ outerRules, SparesNotes rule.read line := by
  simp only [outerRules, List.forall_mem_cons]
  exact ⟨markedLine_spares line, stateLine_spares line, closeLine_spares line, noteLine_spares plain,
    transitionLine_spares line, directionLine_spares line, separatorLine_spares line, descriptionLine_spares line,
    nameLine_spares line, List.forall_mem_nil _⟩

theorem readLine_withNotes (plain : noteHead? line.text = none) (d : Draft) (notes : List Note) :
    readLine outerRules (d.withNotes notes) line = (readLine outerRules d line).map fun d => d.withNotes notes :=
  readLine_map (f := fun d => d.withNotes notes) fun rule member => outerRules_spare plain rule member d notes

theorem opensNote_eq (t : Text) : opensNote t = (noteHead? t).any fun head => head.2.2.isNone := by
  unfold opensNote noteHead?
  cases (afterKeyword? "note" t).bind side? with
  | none => rfl
  | some parts => rfl

/-- A line that begins no note adds none, and the notes do not matter to it. -/
theorem other_step (closed : d.note = none) (plain : noteHead? line.text = none)
    (taken : readLine (rules d) d line = .ok d') : d'.note = none ∧ d'.notes = d.notes ∧
      ∀ notes, readLine (rules (d.withNotes notes)) (d.withNotes notes) line = .ok (d'.withNotes notes) := by
  have outer (notes : List Note) : rules (d.withNotes notes) = outerRules := by simp [rules, closed]
  have taken : readLine outerRules d line = .ok d' := (outer d.notes) ▸ taken
  have spared (notes : List Note) : readLine outerRules (d.withNotes notes) line = .ok (d'.withNotes notes) := by
    rw [readLine_withNotes plain, taken]
    rfl
  refine ⟨?_, ?_, ?_⟩
  · have unopened := (outer_step closed taken).1
    rw [opensNote_eq, plain] at unopened
    simpa using unopened
  · have same : d' = d'.withNotes d.notes := Except.ok.inj (taken.symm.trans (spared d.notes))
    rw [same, withNotes_notes]
  · intro notes
    rw [outer]
    exact spared notes

/-! ### Lines that begin notes -/

/-- The draft with the note of a line: among the others if it has a text, and open if not. -/
def Draft.noted (d : Draft) (line : Line) (side : Side) (target : Text) : Option Text → Draft
  | some text => { d with notes := d.notes ++ [⟨side, target, text, line.position⟩] }
  | none => { d with note := some ⟨side, target, [], line.position⟩ }

theorem exists_of_noteHead? {text : Option Text} (head : noteHead? line.text = some (side, target, text)) :
    ∃ rest behind, afterKeyword? "note" line.text = some rest ∧ side? rest = some (side, behind) ∧
      trim (headAndLabel behind).1 = target ∧ (headAndLabel behind).2 = text := by
  obtain ⟨⟨other, behind⟩, found, same⟩ := Option.map_eq_some_iff.mp head
  obtain ⟨rest, after, sided⟩ := Option.bind_eq_some_iff.mp found
  obtain ⟨rfl, rfl, rfl⟩ : other = side ∧ _ ∧ _ := by simpa using same
  exact ⟨rest, behind, after, sided, rfl, rfl⟩

theorem noteLine_of_head {text : Option Text} (head : noteHead? line.text = some (side, target, text)) (d : Draft) :
    noteLine d line = (if isIdentifier target then .ok (d.noted line side target text)
      else .error (line.fail (.stateNoteTargetInvalid target)) : Except ParseError Draft).map some := by
  obtain ⟨rest, behind, after, sided, rfl, rfl⟩ := exists_of_noteHead? head
  simp only [noteLine, after, sided]
  split
  · cases (headAndLabel behind).2 with
    | none => rfl
    | some text => rfl
  · rfl

/-- A line that begins a note is for no rule in front of the one for notes. -/
theorem readLine_of_head {text : Option Text} (head : noteHead? line.text = some (side, target, text)) (d : Draft) :
    readLine outerRules d line = if isIdentifier target then .ok (d.noted line side target text)
      else .error (line.fail (.stateNoteTargetInvalid target)) := by
  obtain ⟨rest, -, after, -⟩ := exists_of_noteHead? head
  have first := prefix_of_afterKeyword? after
  have stateless : afterKeyword? "state" line.text = none := afterKeyword?_eq_none first (by decide)
  have other : line.text ≠ ['}'] := by
    intro brace
    rw [brace] at first
    exact absurd first (by decide)
  have unmarked : markedLine d line = pass := by simp [markedLine, stateless]
  have undeclared : stateLine d line = pass := by simp [stateLine, stateless]
  have unclosed : closeLine d line = pass := if_neg other
  have reached : firstTaking d line outerRules = firstTaking d line (⟨"note", noteLine⟩ :: outerRules.drop 4) := by
    rw [outerRules, firstTaking_cons_of_pass unmarked, firstTaking_cons_of_pass undeclared,
      firstTaking_cons_of_pass unclosed]
    rfl
  exact readLine_of_first reached (noteLine_of_head head d)

/-! ### All lines -/

/-- The notes that are read are those of the lines, and all else is read from the lines outside them. -/
structure Reads (lines : List Line) (d d' : Draft) (notes : List Note) (others : List Line) : Prop where
  noted : Noted lines notes others
  added : d'.notes = d.notes ++ notes
  run : readLines rules (d.withNotes []) others = .ok (d'.withNotes [])

variable {between : Draft}

theorem Reads.other (closed : d.note = none) (plain : noteHead? line.text = none)
    (taken : readLine (rules d) d line = .ok between) (reads : Reads lines between d' notes others) :
    Reads (line :: lines) d d' notes (line :: others) := by
  obtain ⟨-, kept, spared⟩ := other_step closed plain taken
  refine ⟨.other line plain reads.noted, ?_, ?_⟩
  · rw [reads.added, kept]
  · rw [readLines_cons_ok (spared [])]
    exact reads.run

theorem Reads.short {text : Text} (head : noteHead? line.text = some (side, target, some text))
    (reads : Reads lines (d.noted line side target (some text)) d' notes others) :
    Reads (line :: lines) d d' (⟨side, target, text, line.position⟩ :: notes) others := by
  refine ⟨.short line head reads.noted, ?_, reads.run⟩
  rw [reads.added]
  simp [Draft.noted]

theorem Reads.long {inside : List Line} {last : Line} (head : noteHead? line.text = some (side, target, none))
    (goes_on : ∀ l ∈ inside, l.text ≠ noteEnd) (ends : last.text = noteEnd)
    (reads : Reads lines (d.noted line side target (some (join ['\n'] (inside.map Line.text)))) d' notes others) :
    Reads (line :: (inside ++ last :: lines)) d d'
      (⟨side, target, join ['\n'] (inside.map Line.text), line.position⟩ :: notes) others := by
  refine ⟨.long line inside last head goes_on ends reads.noted, ?_, reads.run⟩
  rw [reads.added]
  simp [Draft.noted]

/-- Outside notes lines are read as the notes among them and the lines outside say. -/
theorem exists_reads (filled : ∀ l ∈ lines, l.text ≠ []) (closed : d.note = none)
    (run : readLines rules d lines = .ok d') (finished : d'.note = none) :
    ∃ notes others, Reads lines d d' notes others := by
  -- The lines of a note are read at once, so the lines behind are not just one less.
  induction counted : lines.length using Nat.strong_induction_on generalizing lines d with
  | _ count ih =>
    cases lines with
    | nil =>
      obtain rfl : d = d' := Except.ok.inj run
      exact ⟨[], [], .nil, (List.append_nil _).symm, rfl⟩
    | cons line lines =>
      obtain ⟨between, taken, run⟩ := exists_of_readLines_cons run
      have filled := (List.forall_mem_cons.mp filled).2
      have shorter : lines.length < count := by simp [← counted]
      cases head : noteHead? line.text with
      | none =>
        obtain ⟨still_closed, -, -⟩ := other_step closed head taken
        obtain ⟨notes, others, reads⟩ := ih _ shorter filled still_closed run rfl
        exact ⟨notes, line :: others, reads.other closed head taken⟩
      | some parts =>
        obtain ⟨side, target, text⟩ := parts
        have outside : rules d = outerRules := by rw [rules, closed]; rfl
        rw [outside, readLine_of_head head] at taken
        split at taken
        · obtain rfl := Except.ok.inj taken
          cases text with
          | some text =>
            obtain ⟨notes, others, reads⟩ := ih _ shorter filled (by exact closed) run rfl
            exact ⟨_, others, reads.short head⟩
          | none =>
            obtain ⟨inside, last, behind, rfl, goes_on, ends, run⟩ := exists_end rfl run finished
            have texts : ∀ t ∈ inside.map Line.text, t ≠ [] := by
              simpa using fun l member => filled l (by simp [member])
            have filled_behind : ∀ l ∈ behind, l.text ≠ [] := fun l member => filled l (by simp [member])
            have behind_shorter : behind.length < count := by
              rw [List.length_append, List.length_cons] at shorter
              omega
            -- With the texts of its lines the note is read as one that has its text in its own line.
            have run : readLines rules (d.noted line side target (some (join ['\n'] (inside.map Line.text)))) behind =
                .ok d' := by
              rw [text_of_lines rfl texts] at run
              simpa [Draft.noted, closed] using run
            obtain ⟨notes, others, reads⟩ := ih _ behind_shorter filled_behind (by exact closed) run rfl
            exact ⟨_, others, reads.long head goes_on ends⟩
        · cases taken

theorem lines_ne_nil_of_headerWith {s : Source} {keywords : List String} {header : Line × String × Text}
    (headed : s.headerWith keywords = .ok header) : s.lines ≠ [] := by
  intro empty
  have missing : s.header? = none := by rw [Source.header?, empty]; rfl
  rw [Source.headerWith, Source.headerLine, missing] at headed
  exact nomatch headed

theorem headerWith_withBody {s : Source} (begun : s.lines ≠ []) (body : List Line) (keywords : List String) :
    (withBody s body).headerWith keywords = s.headerWith keywords := by
  have same : (withBody s body).header? = s.header? := by
    obtain ⟨first, lines, split⟩ := List.exists_cons_of_ne_nil begun
    simp [Source.header?, withBody, split]
  simp only [Source.headerWith, Source.headerLine, same]
  rfl

theorem body_withBody {s : Source} (begun : s.lines ≠ []) (body : List Line) : (withBody s body).body = body := by
  obtain ⟨first, lines, split⟩ := List.exists_cons_of_ne_nil begun
  simp [Source.body, withBody, split]

/-- The notes of a diagram are those that its lines tell, and no other: a note has the text behind its colon, or else
the lines up to the next end of a note, whatever they look like. What else the diagram holds is what is read without
notes, so the lines of notes add nothing to it. -/
theorem notes_read {text : Text} {offset : Nat} {diagram : StateDiagram}
    (read : StateDiagram.read (Source.ofText text offset) = .ok diagram) :
    ∃ others, (∀ notes lines, Noted (Source.ofText text offset).body notes lines ↔
        notes = diagram.notes ∧ lines = others) ∧
      StateDiagram.read (withBody (Source.ofText text offset) others) = .ok { diagram with notes := [] } := by
  obtain ⟨⟨header, keyword, rest⟩, headed, read⟩ := exists_of_bind_ok read
  dsimp only at read
  split at read
  · next bare =>
    obtain ⟨d, run, read⟩ := exists_of_bind_ok read
    split at read
    · cases read
    · cases read
    · next closed composed =>
      obtain rfl := Except.ok.inj read
      have filled : ∀ l ∈ (Source.ofText text offset).body, l.text ≠ [] := fun l member =>
        text_ne_nil_of_mem_significantLines (List.mem_of_mem_tail member)
      obtain ⟨notes, others, reads⟩ := exists_reads filled rfl run closed
      obtain rfl : d.notes = notes := reads.added
      refine ⟨others, ?_, ?_⟩
      · intro notes lines
        constructor
        · intro noted
          exact noted.unique reads.noted
        · rintro ⟨rfl, rfl⟩
          exact reads.noted
      · have begun := lines_ne_nil_of_headerWith headed
        have run : readLines rules {} (withBody (Source.ofText text offset) others).body = .ok (d.withNotes []) := by
          rw [body_withBody begun]
          exact reads.run
        rw [StateDiagram.read, headerWith_withBody begun, headed]
        dsimp only [bind, Except.bind]
        rw [if_pos bare, run]
        dsimp only
        have closed : (d.withNotes []).note = none := closed
        have composed : (d.withNotes []).innermost? = none := composed
        rw [closed, composed]
        rfl
  · cases read

/-- A note in a composite state, over lines that look like others, a note with a text and one without any. -/
def busyNotes : Text :=
  "stateDiagram\nstate A \x7b\nnote right of A\n b --> c\n\x7d\nnote left of A : x\nend note\nnote left of b : p:q\n\x7d\nnote left of A\nend note".toList

theorem notes_read_busyNotes : ∃ diagram others, StateDiagram.read (Source.ofText busyNotes 0) = .ok diagram ∧
    diagram.notes = [⟨.right, ['A'], "b --> c\n\x7d\nnote left of A : x".toList, ⟨3, 1⟩⟩,
      ⟨.left, ['b'], "p:q".toList, ⟨8, 1⟩⟩, ⟨.left, ['A'], [], ⟨10, 1⟩⟩] ∧
    (∀ notes lines, Noted (Source.ofText busyNotes 0).body notes lines ↔ notes = diagram.notes ∧ lines = others) ∧
    StateDiagram.read (withBody (Source.ofText busyNotes 0) others) = .ok { diagram with notes := [] } := by
  have accepted := eq_ok_get (x := StateDiagram.read (Source.ofText busyNotes 0)) (by decide +kernel)
  obtain ⟨others, told, rest⟩ := notes_read accepted
  exact ⟨_, others, accepted, by decide +kernel, told, rest⟩

end DiagramLint.StateDiagram
