import DiagramLint.Proofs.Coverage.SequenceDiagram
import DiagramLint.Proofs.LineRule

/-!
What the lines of sequence diagrams say about blocks. A line that begins a block, continues one or ends
one is no line of another sort, so what it does depends on the open blocks alone
(`readLine_of_mark`); all other lines leave the blocks as they are.
-/
namespace DiagramLint.SequenceDiagram

open Text

/-! ### Marks -/

/-- The kind of block that a line begins, and what follows. -/
def begun? (t : Text) : Option (BlockKind × Text) :=
  BlockKind.all.findSome? fun kind => (afterKeyword? kind.keyword t).map fun rest => (kind, rest)

/-- What a line says about blocks. -/
inductive BlockMark where
  /-- A block begins. -/
  | opening (kind : BlockKind) (label : Option Text)
  /-- A further section of a block of the kind begins. -/
  | continuation (kind : BlockKind) (keyword : String) (label : Option Text)
  /-- A block ends. -/
  | ending
  deriving DecidableEq, Repr

/-- What a line with the text says about blocks, if it says something about them. -/
def blockMark? (t : Text) : Option BlockMark :=
  match begun? t with
  | some (kind, rest) => some (.opening kind (trimmed? rest))
  | none =>
    match continued? t with
    | some (kind, keyword, rest) => some (.continuation kind keyword (trimmed? rest))
    | none => if t = "end".toList then some .ending else none

/-- The words that begin lines about blocks. -/
def blockWords : List String :=
  BlockKind.all.map BlockKind.keyword ++ BlockKind.all.filterMap BlockKind.sectionKeyword? ++ ["end"]

theorem mem_blockWords_of_begun? {t rest : Text} {kind : BlockKind} (found : begun? t = some (kind, rest)) :
    ∃ word ∈ blockWords, firstWord t = word.toList := by
  obtain ⟨k, -, here⟩ := List.exists_of_findSome?_eq_some found
  obtain ⟨_, after, -⟩ := Option.map_eq_some_iff.mp here
  refine ⟨k.keyword, ?_, firstWord_of_afterKeyword? after ?_⟩
  · cases k <;> decide
  · cases k <;> decide

theorem sectionKeyword?_of_continued? {t rest : Text} {kind : BlockKind} {keyword : String}
    (found : continued? t = some (kind, keyword, rest)) :
    kind.sectionKeyword? = some keyword ∧ afterKeyword? keyword t = some rest := by
  obtain ⟨k, -, here⟩ := List.exists_of_findSome?_eq_some found
  obtain ⟨word, owned, here⟩ := Option.bind_eq_some_iff.mp here
  obtain ⟨_, after, same⟩ := Option.map_eq_some_iff.mp here
  simp only [Prod.mk.injEq] at same
  obtain ⟨rfl, rfl, rfl⟩ := same
  exact ⟨owned, after⟩

theorem mem_blockWords_of_continued? {t rest : Text} {kind : BlockKind} {keyword : String}
    (found : continued? t = some (kind, keyword, rest)) : ∃ word ∈ blockWords, firstWord t = word.toList := by
  obtain ⟨owned, after⟩ := sectionKeyword?_of_continued? found
  have word : keyword ∈ blockWords := by
    refine List.mem_append_left _ (List.mem_append_right _ (List.mem_filterMap.mpr ⟨kind, ?_, owned⟩))
    cases kind <;> decide
  have visible : ∀ word ∈ blockWords, (word.toList.all fun c => !isBlank c) = true := by decide
  exact ⟨keyword, word, firstWord_of_afterKeyword? after (visible keyword word)⟩

theorem mem_blockWords_of_mark {t : Text} {mark : BlockMark} (marked : blockMark? t = some mark) :
    ∃ word ∈ blockWords, firstWord t = word.toList := by
  unfold blockMark? at marked
  split at marked
  · next found => exact mem_blockWords_of_begun? found
  · split at marked
    · next found => exact mem_blockWords_of_continued? found
    · split at marked
      · next finish =>
        subst finish
        exact ⟨"end", by decide, by decide⟩
      · exact nomatch marked

-- Other keywords may begin with a block word, as "participant" does with "par": only the whole first
-- word tells the lines apart.
theorem afterKeyword?_of_mark {t : Text} {mark : BlockMark} {keyword : String} (marked : blockMark? t = some mark)
    (foreign : keyword ∉ blockWords) (visible : keyword.toList.all fun c => !isBlank c) :
    afterKeyword? keyword t = none := by
  obtain ⟨word, member, first⟩ := mem_blockWords_of_mark marked
  refine afterKeyword?_eq_none_of_firstWord ?_ visible
  intro same
  exact foreign (String.toList_injective (first.symm.trans same) ▸ member)

/-- A line about blocks declares no participant, changes no activity by itself and is no note. -/
theorem unspoken_of_mark {t : Text} {mark : BlockMark} (marked : blockMark? t = some mark) :
    participantKind? t = none ∧ activity? t = none ∧ afterNote? t = none := by
  have other (keyword : String) (foreign : keyword ∉ blockWords) (visible : keyword.toList.all fun c => !isBlank c) :
      afterKeyword? keyword t = none := afterKeyword?_of_mark marked foreign visible
  refine ⟨?_, ?_, ?_⟩
  · simp [participantKind?, other "participant" (by decide) (by decide), other "actor" (by decide) (by decide)]
  · simp [activity?, other "activate" (by decide) (by decide), other "deactivate" (by decide) (by decide)]
  · simp [afterNote?, other "note" (by decide) (by decide), other "Note" (by decide) (by decide)]

theorem sectionKeyword?_of_mark {t : Text} {kind : BlockKind} {keyword : String} {label : Option Text}
    (marked : blockMark? t = some (.continuation kind keyword label)) : kind.sectionKeyword? = some keyword := by
  unfold blockMark? at marked
  split at marked
  · exact nomatch marked
  · split at marked
    · next found =>
      simp only [Option.some.injEq, BlockMark.continuation.injEq] at marked
      obtain ⟨rfl, rfl, -⟩ := marked
      exact (sectionKeyword?_of_continued? found).1
    · split at marked
      · exact nomatch marked
      · exact nomatch marked

/-! ### Lines about blocks -/

/-- The draft behind a line about blocks. -/
def Draft.mark (d : Draft) (line : Line) : BlockMark → Except ParseError Draft
  | .opening kind label =>
    .ok { d with
      blocks := d.blocks ++ [⟨kind, label, [], d.stack.length, line.position, line.position⟩]
      stack := d.blocks.length :: d.stack }
  | .continuation kind keyword label =>
    if d.innermost?.any fun b => b.kind = kind then
      .ok { d with
        blocks := d.blocks.modify (d.stack.headD 0) fun b =>
          { b with sections := b.sections ++ [⟨label, line.position⟩] } }
    else .error (line.fail (.blockSectionStray keyword))
  | .ending =>
    match d.stack with
    | [] => .error (line.fail .blockEndStray)
    | i :: stack =>
      .ok { d with blocks := d.blocks.modify i fun b => { b with finish := line.position }, stack := stack }

variable {d d' : Draft} {line : Line} {mark : BlockMark}

theorem blockLine_eq : blockLine d line =
    match begun? line.text with
    | none => pass
    | some (kind, rest) => (d.mark line (.opening kind (trimmed? rest))).map some := rfl

theorem sectionLine_eq : sectionLine d line =
    match continued? line.text with
    | none => pass
    | some (kind, keyword, rest) => (d.mark line (.continuation kind keyword (trimmed? rest))).map some := by
  unfold sectionLine
  cases found : continued? line.text with
  | none => rfl
  | some continued =>
    obtain ⟨kind, keyword, rest⟩ := continued
    simp only [Draft.mark]
    split <;> rfl

theorem endLine_eq : endLine d line = if line.text = "end".toList then (d.mark line .ending).map some else pass := by
  unfold endLine
  simp only [Draft.mark]
  cases d.stack with
  | nil => rfl
  | cons i stack => rfl

/-- A line about blocks is read as what it says about them. -/
theorem readLine_of_mark (marked : blockMark? line.text = some mark) :
    readLine rules d line = d.mark line mark := by
  obtain ⟨undeclared, unchanged, unnoted⟩ := unspoken_of_mark marked
  -- The rules are passed in turn, up to the one that takes the line.
  have blocksFirst : firstTaking d line rules = firstTaking d line (rules.drop 3) := by
    have first : participantLine d line = pass := by simp [participantLine, undeclared]
    have second : activationLine d line = pass := by simp [activationLine, unchanged]
    have third : noteLine d line = pass := by simp [noteLine, unnoted]
    rw [rules, firstTaking_cons_of_pass first, firstTaking_cons_of_pass second, firstTaking_cons_of_pass third]
    rfl
  unfold blockMark? at marked
  split at marked
  · next kind rest found =>
    obtain rfl := Option.some.inj marked
    refine readLine_of_first blocksFirst ?_
    rw [blockLine_eq, found]
  · next unbegun =>
    have sectionsFirst : firstTaking d line rules = firstTaking d line (rules.drop 4) :=
      blocksFirst.trans (firstTaking_cons_of_pass (by rw [blockLine_eq, unbegun]))
    split at marked
    · next kind keyword rest found =>
      obtain rfl := Option.some.inj marked
      refine readLine_of_first sectionsFirst ?_
      rw [sectionLine_eq, found]
    · next uncontinued =>
      have endFirst : firstTaking d line rules = firstTaking d line (rules.drop 5) :=
        sectionsFirst.trans (firstTaking_cons_of_pass (by rw [sectionLine_eq, uncontinued]))
      split at marked
      · next finish =>
        obtain rfl := Option.some.inj marked
        refine readLine_of_first endFirst ?_
        rw [endLine_eq, if_pos finish]
      · cases marked

/-! ### Other lines -/

/-- A keyword begins the line, so it is no message. -/
def isKeyed (t : Text) : Bool :=
  (participantKind? t).isSome || (activity? t).isSome || (afterNote? t).isSome || (blockMark? t).isSome ||
    (afterKeyword? "autonumber" t).isSome || (afterKeywordColon? "title" t).isSome

/-- What a line that says nothing about blocks does to a draft. -/
inductive Draft.Aside (d : Draft) (line : Line) : Draft → Prop where
  /-- A declaration, a note or a setting. -/
  | keyed (keyed : isKeyed line.text = true) (unchanged : activity? line.text = none)
      (participants : List Participant) (notes : List Note) (title : Option Text) (autonumber : Bool) :
      Aside d line { d with participants := participants, notes := notes, title := title, autonumber := autonumber }
  | activation (active : Bool) (id : Text) (changes : activity? line.text = some (active, id)) :
      Aside d line { d with activations := d.activations ++ [⟨id, active, line.position⟩] }
  | message (unkeyed : isKeyed line.text = false) (m : Message) (r : Route)
      (found : routeFrom? [] (headAndLabel line.text).1 = some r) :
      Aside d line { d with
        messages := d.messages ++ [m]
        activations := d.activations ++ (r.activation? line.position).toList }

theorem activity?_of_participantKind? {t rest : Text} {kind : ParticipantKind}
    (declares : participantKind? t = some (kind, rest)) : activity? t = none := by
  have first : firstWord t = "participant".toList ∨ firstWord t = "actor".toList := by
    unfold participantKind? at declares
    split at declares
    · next after => exact .inl (firstWord_of_afterKeyword? after (by decide))
    · obtain ⟨_, after, -⟩ := Option.map_eq_some_iff.mp declares
      exact .inr (firstWord_of_afterKeyword? after (by decide))
  have other (keyword : String) (foreign : keyword.toList ≠ "participant".toList ∧ keyword.toList ≠ "actor".toList)
      (visible : keyword.toList.all fun c => !isBlank c) : afterKeyword? keyword t = none := by
    refine afterKeyword?_eq_none_of_firstWord ?_ visible
    rcases first with first | first
    · exact first ▸ foreign.1.symm
    · exact first ▸ foreign.2.symm
  simp [activity?, other "activate" (by decide) (by decide), other "deactivate" (by decide) (by decide)]

theorem participantLine_aside (taken : participantLine d line = .ok (some d')) : d.Aside line d' := by
  obtain ⟨-, p, -, rfl⟩ := participantLine_taken taken
  cases found : participantKind? line.text with
  | none => simp [participantLine, found, pass] at taken
  | some declared =>
    have keyed : isKeyed line.text = true := by simp [isKeyed, found]
    exact .keyed keyed (activity?_of_participantKind? found) _ d.notes d.title d.autonumber

theorem activationLine_aside (taken : activationLine d line = .ok (some d')) : d.Aside line d' := by
  unfold activationLine at taken
  split at taken
  · exact nomatch taken
  · next active id found =>
    split at taken
    · obtain rfl := eq_of_take taken
      exact .activation active id found
    · exact nomatch taken

theorem activationLine_passed (passed : activationLine d line = .ok none) : activity? line.text = none := by
  unfold activationLine at passed
  split at passed
  · next other => exact other
  · split at passed
    · exact nomatch passed
    · exact nomatch passed

theorem participantLine_passed (passed : participantLine d line = .ok none) : participantKind? line.text = none := by
  unfold participantLine at passed
  split at passed
  · next other => exact other
  · dsimp only at passed
    split at passed
    · split at passed
      · exact nomatch passed
      · exact nomatch passed
    · split at passed
      · exact nomatch passed
      · exact nomatch passed

theorem noteLine_passed (passed : noteLine d line = .ok none) : afterNote? line.text = none := by
  unfold noteLine at passed
  split at passed
  · next other => exact other
  · split at passed
    · exact nomatch passed
    · split at passed
      · exact nomatch passed
      · dsimp only at passed
        split at passed
        · exact nomatch passed
        · exact nomatch passed

theorem noteLine_aside (unchanged : activity? line.text = none) (taken : noteLine d line = .ok (some d')) :
    d.Aside line d' := by
  obtain ⟨-, n, -, rfl⟩ := noteLine_taken taken
  have keyed : isKeyed line.text = true := by
    cases found : afterNote? line.text with
    | none => simp [noteLine, found, pass] at taken
    | some rest => simp [isKeyed, found]
  exact .keyed keyed unchanged d.participants _ d.title d.autonumber

theorem messageLine_aside (unkeyed : isKeyed line.text = false) (taken : messageLine d line = .ok (some d')) :
    d.Aside line d' := by
  unfold messageLine at taken
  dsimp only at taken
  split at taken
  · exact nomatch taken
  · next r found =>
    obtain rfl := eq_of_take taken
    exact .message unkeyed _ r found

theorem passed_of_unmarked (unmarked : blockMark? line.text = none) :
    blockLine d line = pass ∧ sectionLine d line = pass ∧ endLine d line = pass := by
  unfold blockMark? at unmarked
  split at unmarked
  · exact nomatch unmarked
  · next unbegun =>
    split at unmarked
    · exact nomatch unmarked
    · next uncontinued =>
      split at unmarked
      · exact nomatch unmarked
      · next unended =>
        rw [blockLine_eq, sectionLine_eq, endLine_eq, unbegun, uncontinued, if_neg unended]
        exact ⟨rfl, rfl, rfl⟩

/-- What a line does that is read and says nothing about blocks. -/
theorem aside_of_unmarked (unmarked : blockMark? line.text = none) (read : readLine rules d line = .ok d') :
    d.Aside line d' := by
  obtain ⟨unbegun, uncontinued, unended⟩ := passed_of_unmarked (d := d) unmarked
  rw [readLine_eq_ok_iff] at read
  simp only [rules, firstTaking_cons, not_taken_by_none, and_false, or_false, unbegun, uncontinued, unended, pass,
    Except.ok.injEq, reduceCtorEq, true_and, false_or] at read
  rcases read with declared | ⟨undeclared, changed | ⟨unchanged, noted | ⟨unnoted, others⟩⟩⟩
  · exact participantLine_aside declared
  · exact activationLine_aside changed
  · exact noteLine_aside (activationLine_passed unchanged) noted
  · have silent := activationLine_passed unchanged
    rcases others with numbered | ⟨unnumbered, titled | ⟨untitled, sent⟩⟩
    · obtain ⟨-, rfl⟩ := autonumberLine_taken numbered
      have keyed : isKeyed line.text = true := by
        cases found : afterKeyword? "autonumber" line.text with
        | none => simp [autonumberLine, found, pass] at numbered
        | some rest => simp [isKeyed, found]
      exact .keyed keyed silent d.participants d.notes d.title true
    · obtain ⟨-, title, rfl⟩ := titleLine_taken titled
      have keyed : isKeyed line.text = true := by
        cases found : afterKeywordColon? "title" line.text with
        | none => simp [titleLine, found, pass] at titled
        | some rest => simp [isKeyed, found]
      exact .keyed keyed silent d.participants d.notes title d.autonumber
    · refine messageLine_aside ?_ sent
      simp [isKeyed, participantLine_passed undeclared, silent, noteLine_passed unnoted, unmarked,
        autonumberLine_passed unnumbered, titleLine_passed untitled]

theorem blocks_of_aside (aside : d.Aside line d') : d'.blocks = d.blocks ∧ d'.stack = d.stack := by
  cases aside with
  | keyed => exact ⟨rfl, rfl⟩
  | activation => exact ⟨rfl, rfl⟩
  | message => exact ⟨rfl, rfl⟩

/-! ### Lines that are refused -/

theorem code_of_participantLine {e : ParseError} (failed : participantLine d line = .error e) : e.code = .e100 := by
  unfold participantLine at failed
  split at failed
  · exact nomatch failed
  · dsimp only at failed
    split at failed
    · split at failed
      · exact nomatch failed
      · obtain rfl := Except.error.inj failed
        rfl
    · split at failed
      · exact nomatch failed
      · obtain rfl := Except.error.inj failed
        rfl

theorem code_of_activationLine {e : ParseError} (failed : activationLine d line = .error e) : e.code = .e100 := by
  unfold activationLine at failed
  split at failed
  · exact nomatch failed
  · split at failed
    · exact nomatch failed
    · obtain rfl := Except.error.inj failed
      rfl

theorem code_of_noteLine {e : ParseError} (failed : noteLine d line = .error e) : e.code = .e100 := by
  unfold noteLine at failed
  split at failed
  · exact nomatch failed
  · split at failed
    · obtain rfl := Except.error.inj failed
      rfl
    · split at failed
      · obtain rfl := Except.error.inj failed
        rfl
      · dsimp only at failed
        split at failed
        · exact nomatch failed
        · obtain rfl := Except.error.inj failed
          rfl

/-- Numbering, titles and messages are never at fault. -/
theorem lenient {e : ParseError} :
    autonumberLine d line ≠ .error e ∧ titleLine d line ≠ .error e ∧ messageLine d line ≠ .error e := by
  refine ⟨?_, ?_, ?_⟩
  · unfold autonumberLine
    split <;> exact nofun
  · unfold titleLine
    split <;> exact nofun
  · unfold messageLine
    dsimp only
    split <;> exact nofun

/-- A line that says nothing about blocks is refused for its own wording. -/
theorem code_of_unmarked {e : ParseError} (unmarked : blockMark? line.text = none)
    (refused : readLine rules d line = .error e) : e.code = .e100 := by
  obtain ⟨unbegun, uncontinued, unended⟩ := passed_of_unmarked (d := d) unmarked
  rcases refused_by refused with ⟨rule, member, failed⟩ | rfl
  · simp only [rules, List.mem_cons, List.not_mem_nil, or_false] at member
    rcases member with rfl | rfl | rfl | rfl | rfl | rfl | rfl | rfl | rfl
    · exact code_of_participantLine failed
    · exact code_of_activationLine failed
    · exact code_of_noteLine failed
    · cases unbegun.symm.trans failed
    · cases uncontinued.symm.trans failed
    · cases unended.symm.trans failed
    · exact absurd failed lenient.1
    · exact absurd failed lenient.2.1
    · exact absurd failed lenient.2.2
  · rfl

end DiagramLint.SequenceDiagram
