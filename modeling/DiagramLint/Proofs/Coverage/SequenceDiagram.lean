import DiagramLint.Proofs.Coverage.Basic
import DiagramLint.Proofs.Results
import DiagramLint.SequenceDiagram.Reader

/-!
The lines of sequence diagrams: each is a participant, a change of activity, a note, a message, or the
beginning of a block or of a section of one, but for titles, numbering and the ends of blocks. A
message with a marker is a change of activity as well.
-/
namespace DiagramLint.SequenceDiagram

open Text

/-- The places of the messages with a marker. -/
def markedPlaces (messages : List Message) : List Position :=
  (messages.filter fun m => m.marker.isSome).map Message.position

/-- What some lists of entries record, the sections of each block in a list of their own. Messages
with a marker are recorded twice, once among the changes of activity. -/
def accountOf (participants : List Participant) (messages : List Message) (notes : List Note)
    (activations : List Activation) (blocks : List Block) : Account where
  columns :=
    participants.map Participant.position :: messages.map Message.position :: notes.map Note.position ::
      activations.map Activation.position :: blocks.map Block.position ::
      blocks.map fun b => b.sections.map BlockSection.position
  doubled := markedPlaces messages

/-- What a diagram records. -/
def account (diagram : SequenceDiagram) : Account :=
  accountOf diagram.participants diagram.messages diagram.notes diagram.activations diagram.blocks

/-- What a draft records. -/
def Draft.account (d : Draft) : Account := accountOf d.participants d.messages d.notes d.activations d.blocks

/-- The end of a block, numbering, or a title. -/
def isSetting (t : Text) : Bool :=
  t = "end".toList || (afterKeyword? "autonumber" t).isSome || (afterKeywordColon? "title" t).isSome

/-- Settings are passed over. -/
def plan : Plan Unit := ⟨fun _ _ => (), fun _ => isSetting⟩

/-- A line that another keyword begins is no setting. -/
theorem not_isSetting {a t : Text} (first : a <+: t)
    (apart : ∀ keyword ∈ ["end", "autonumber", "title"], ¬ a <+: keyword.toList ∧ ¬ keyword.toList <+: a) :
    isSetting t = false := by
  have unended : t ≠ "end".toList := by
    rintro rfl
    exact (apart "end" (by decide)).1 first
  rw [isSetting, afterKeyword?_eq_none first (apart "autonumber" (by decide)),
    afterKeywordColon?_eq_none first (apart "title" (by decide)), decide_eq_false unended]
  rfl

/-! ### Participants, activity and notes -/

theorem participantLine_taken {d d' : Draft} {line : Line} (taken : participantLine d line = .ok (some d')) :
    isSetting line.text = false ∧
      ∃ p : Participant, p.position = line.position ∧ d' = { d with participants := d.participants ++ [p] } := by
  unfold participantLine at taken
  split at taken
  · cases taken
  · next kind rest found =>
    constructor
    · unfold participantKind? at found
      split at found
      · next after => exact not_isSetting (prefix_of_afterKeyword? after) (by decide)
      · obtain ⟨_, after, -⟩ := Option.map_eq_some_iff.mp found
        exact not_isSetting (prefix_of_afterKeyword? after) (by decide)
    · dsimp only at taken
      split at taken
      · split at taken
        · exact ⟨_, rfl, eq_of_take taken⟩
        · cases taken
      · split at taken
        · exact ⟨_, rfl, eq_of_take taken⟩
        · cases taken

theorem activationLine_taken {d d' : Draft} {line : Line} (taken : activationLine d line = .ok (some d')) :
    isSetting line.text = false ∧
      ∃ a : Activation, a.position = line.position ∧ d' = { d with activations := d.activations ++ [a] } := by
  unfold activationLine at taken
  split at taken
  · cases taken
  · next active id found =>
    constructor
    · unfold activity? at found
      split at found
      · next after => exact not_isSetting (prefix_of_afterKeyword? after) (by decide)
      · obtain ⟨_, after, -⟩ := Option.map_eq_some_iff.mp found
        exact not_isSetting (prefix_of_afterKeyword? after) (by decide)
    · split at taken
      · exact ⟨_, rfl, eq_of_take taken⟩
      · cases taken

theorem noteLine_taken {d d' : Draft} {line : Line} (taken : noteLine d line = .ok (some d')) :
    isSetting line.text = false ∧
      ∃ n : Note, n.position = line.position ∧ d' = { d with notes := d.notes ++ [n] } := by
  unfold noteLine at taken
  split at taken
  · cases taken
  · next rest found =>
    constructor
    · unfold afterNote? at found
      split at found
      · next after => exact not_isSetting (prefix_of_afterKeyword? after) (by decide)
      · exact not_isSetting (prefix_of_afterKeyword? found) (by decide)
    · split at taken
      · cases taken
      · split at taken
        · cases taken
        · dsimp only at taken
          split at taken
          · exact ⟨_, rfl, eq_of_take taken⟩
          · cases taken

/-! ### Blocks -/

theorem blockLine_taken {d d' : Draft} {line : Line} (taken : blockLine d line = .ok (some d')) :
    isSetting line.text = false ∧
      ∃ (b : Block) (stack : List Nat), b.position = line.position ∧ b.sections = [] ∧
        d' = { d with blocks := d.blocks ++ [b], stack := stack } := by
  unfold blockLine at taken
  split at taken
  · exact nomatch taken
  · next kind rest found =>
    refine ⟨?_, _, _, rfl, rfl, eq_of_take taken⟩
    obtain ⟨k, -, here⟩ := List.exists_of_findSome?_eq_some found
    obtain ⟨_, after, -⟩ := Option.map_eq_some_iff.mp here
    refine not_isSetting (prefix_of_afterKeyword? after) ?_
    cases k <;> decide

/-- A section becomes the last one of a block that was there. -/
theorem sectionLine_taken {d d' : Draft} {line : Line} (taken : sectionLine d line = .ok (some d')) :
    isSetting line.text = false ∧
      ∃ (i : Nat) (b : Block) (s : BlockSection), d.blocks[i]? = some b ∧ s.position = line.position ∧
        d' = { d with blocks := d.blocks.modify i fun b => { b with sections := b.sections ++ [s] } } := by
  unfold sectionLine at taken
  split at taken
  · exact nomatch taken
  · next kind keyword rest found =>
    constructor
    · obtain ⟨k, -, here⟩ := List.exists_of_findSome?_eq_some found
      obtain ⟨word, owned, here⟩ := Option.bind_eq_some_iff.mp here
      obtain ⟨_, after, -⟩ := Option.map_eq_some_iff.mp here
      refine not_isSetting (prefix_of_afterKeyword? after) ?_
      cases k <;> simp only [BlockKind.sectionKeyword?, Option.some.injEq, reduceCtorEq] at owned <;>
        subst owned <;> decide
    · split at taken
      · next innermost =>
        obtain ⟨b, found, -⟩ := (Option.any_eq_true _ _).mp innermost
        obtain ⟨i, top, here⟩ := Option.bind_eq_some_iff.mp found
        have same : d.stack.headD 0 = i := by rw [List.headD_eq_head?_getD, top, Option.getD_some]
        rw [same] at taken
        exact ⟨i, b, ⟨trimmed? rest, line.position⟩, here, rfl, eq_of_take taken⟩
      · exact nomatch taken

theorem endLine_taken {d d' : Draft} {line : Line} (taken : endLine d line = .ok (some d')) :
    isSetting line.text = true ∧ ∃ (i : Nat) (stack : List Nat) (p : Position),
      d' = { d with blocks := d.blocks.modify i fun b => { b with finish := p }, stack := stack } := by
  unfold endLine at taken
  split at taken
  · next finish =>
    split at taken
    · exact nomatch taken
    · next i stack _ =>
      refine ⟨?_, i, stack, line.position, eq_of_take taken⟩
      rw [isSetting, decide_eq_true finish]
      rfl
  · exact nomatch taken

theorem endLine_passed {d : Draft} {line : Line} (passed : endLine d line = .ok none) :
    line.text ≠ "end".toList := by
  unfold endLine at passed
  split at passed
  · split at passed
    · exact nomatch passed
    · exact nomatch passed
  · next other => exact other

/-! ### Settings and messages -/

theorem autonumberLine_taken {d d' : Draft} {line : Line} (taken : autonumberLine d line = .ok (some d')) :
    isSetting line.text = true ∧ d' = { d with autonumber := true } := by
  unfold autonumberLine at taken
  split at taken
  · exact nomatch taken
  · next after =>
    refine ⟨?_, eq_of_take taken⟩
    simp [isSetting, after]

theorem autonumberLine_passed {d : Draft} {line : Line} (passed : autonumberLine d line = .ok none) :
    afterKeyword? "autonumber" line.text = none := by
  unfold autonumberLine at passed
  split at passed
  · next other => exact other
  · exact nomatch passed

theorem titleLine_taken {d d' : Draft} {line : Line} (taken : titleLine d line = .ok (some d')) :
    isSetting line.text = true ∧ ∃ title, d' = { d with title := title } := by
  unfold titleLine at taken
  split at taken
  · exact nomatch taken
  · next after =>
    refine ⟨?_, _, eq_of_take taken⟩
    simp [isSetting, after]

theorem titleLine_passed {d : Draft} {line : Line} (passed : titleLine d line = .ok none) :
    afterKeywordColon? "title" line.text = none := by
  unfold titleLine at passed
  split at passed
  · next other => exact other
  · exact nomatch passed

/-- A message is a change of activity as well if it has a marker. -/
theorem messageLine_taken {d d' : Draft} {line : Line} (taken : messageLine d line = .ok (some d')) :
    ∃ m : Message, m.position = line.position ∧
      (m.marker.isSome = false ∧ d' = { d with messages := d.messages ++ [m] } ∨
        m.marker.isSome = true ∧ ∃ a : Activation, a.position = line.position ∧
          d' = { d with messages := d.messages ++ [m], activations := d.activations ++ [a] }) := by
  unfold messageLine at taken
  dsimp only at taken
  split at taken
  · exact nomatch taken
  · next r _ =>
    obtain rfl := eq_of_take taken
    refine ⟨⟨r.sender, r.receiver, r.arrow, r.marker, (headAndLabel line.text).2.bind trimmed?, line.position⟩,
      rfl, ?_⟩
    obtain ⟨sender, arrow, receiver, marker⟩ := r
    cases marker with
    | none => exact .inl ⟨rfl, by simp [Route.activation?]⟩
    | some marker =>
      cases marker with
      | activate => exact .inr ⟨rfl, _, rfl, rfl⟩
      | deactivate => exact .inr ⟨rfl, _, rfl, rfl⟩

theorem markedPlaces_append (messages : List Message) (m : Message) :
    markedPlaces (messages ++ [m]) = markedPlaces messages ++ if m.marker.isSome then [m.position] else [] := by
  unfold markedPlaces
  rw [List.filter_append, List.map_append]
  cases marked : m.marker.isSome with
  | false => simp [marked]
  | true => simp [marked]

/-! ### Lines -/

/-- What a line that is taken does to a draft; settings make no entry. -/
inductive Draft.Step (d : Draft) (p : Position) : Bool → Draft → Prop where
  | participant (e : Participant) (placed : e.position = p) :
      Step d p false { d with participants := d.participants ++ [e] }
  | activation (a : Activation) (placed : a.position = p) :
      Step d p false { d with activations := d.activations ++ [a] }
  | note (n : Note) (placed : n.position = p) : Step d p false { d with notes := d.notes ++ [n] }
  | block (b : Block) (stack : List Nat) (placed : b.position = p) (bare : b.sections = []) :
      Step d p false { d with blocks := d.blocks ++ [b], stack := stack }
  | blockSection (i : Nat) (b : Block) (s : BlockSection) (here : d.blocks[i]? = some b) (placed : s.position = p) :
      Step d p false { d with blocks := d.blocks.modify i fun b => { b with sections := b.sections ++ [s] } }
  | message (m : Message) (placed : m.position = p) (unmarked : m.marker.isSome = false) :
      Step d p false { d with messages := d.messages ++ [m] }
  | markedMessage (m : Message) (a : Activation) (placed : m.position = p) (marked : m.marker.isSome = true)
      (beside : a.position = p) :
      Step d p false { d with messages := d.messages ++ [m], activations := d.activations ++ [a] }
  | blockEnd (i : Nat) (stack : List Nat) (finish : Position) :
      Step d p true { d with blocks := d.blocks.modify i fun b => { b with finish := finish }, stack := stack }
  | setting (title : Option Text) (autonumber : Bool) :
      Step d p true { d with title := title, autonumber := autonumber }

theorem readLine_step {d d' : Draft} {line : Line} (taken : readLine rules d line = .ok d') :
    d.Step line.position (isSetting line.text) d' := by
  rw [readLine_eq_ok_iff] at taken
  simp only [rules, firstTaking_cons, not_taken_by_none, and_false, or_false] at taken
  rcases taken with declared | ⟨_, changed | ⟨_, noted | ⟨_, begun | ⟨_, continued | ⟨_, others⟩⟩⟩⟩⟩
  · obtain ⟨unset, e, placed, rfl⟩ := participantLine_taken declared
    rw [unset]
    exact .participant e placed
  · obtain ⟨unset, a, placed, rfl⟩ := activationLine_taken changed
    rw [unset]
    exact .activation a placed
  · obtain ⟨unset, n, placed, rfl⟩ := noteLine_taken noted
    rw [unset]
    exact .note n placed
  · obtain ⟨unset, b, stack, placed, bare, rfl⟩ := blockLine_taken begun
    rw [unset]
    exact .block b stack placed bare
  · obtain ⟨unset, i, b, s, here, placed, rfl⟩ := sectionLine_taken continued
    rw [unset]
    exact .blockSection i b s here placed
  · rcases others with ended | ⟨unended, numbered | ⟨unnumbered, titled | ⟨untitled, sent⟩⟩⟩
    · obtain ⟨set, i, stack, finish, rfl⟩ := endLine_taken ended
      rw [set]
      exact .blockEnd i stack finish
    · obtain ⟨set, rfl⟩ := autonumberLine_taken numbered
      rw [set]
      exact .setting d.title true
    · obtain ⟨set, title, rfl⟩ := titleLine_taken titled
      rw [set]
      exact .setting title d.autonumber
    · have unset : isSetting line.text = false := by
        rw [isSetting, decide_eq_false (endLine_passed unended), autonumberLine_passed unnumbered,
          titleLine_passed untitled]
        rfl
      rw [unset]
      obtain ⟨m, placed, ⟨unmarked, rfl⟩ | ⟨marked, a, beside, rfl⟩⟩ := messageLine_taken sent
      · exact .message m placed unmarked
      · exact .markedMessage m a placed marked beside

/-- Every line makes an entry, or two if it is a message with a marker, but for settings. -/
theorem account_step {d d' : Draft} {p : Position} {passes : Bool} (step : d.Step p passes d') :
    d.account.Step p passes d'.account := by
  cases step with
  | participant e placed => exact .once (.entry placed (.refl _))
  | activation a placed => exact .once (.keep (.keep (.keep (.entry placed (.refl _)))))
  | note n placed => exact .once (.keep (.keep (.entry placed (.refl _))))
  | block b stack placed bare =>
    refine .once (.keep (.keep (.keep (.keep (.entry placed ?_)))))
    rw [List.map_append, List.map_singleton, bare]
    exact .opening _
  | blockSection i b s here placed =>
    refine .once (.keep (.keep (.keep (.keep ?_))))
    rw [map_modify_of_eq (g := Block.position)]
    · refine .keep (.modify here ?_)
      simp [placed]
    · exact fun b => rfl
  | message m placed unmarked =>
    unfold Draft.account accountOf
    rw [markedPlaces_append, unmarked]
    show Account.Step _ _ _ ⟨_, markedPlaces d.messages ++ []⟩
    rw [List.append_nil]
    exact .once (.keep (.entry placed (.refl _)))
  | markedMessage m a placed marked beside =>
    unfold Draft.account accountOf
    rw [markedPlaces_append, marked, placed]
    exact .twice (.keep (.entry placed (.keep (.entry beside (.refl _)))))
  | blockEnd i stack finish =>
    refine .passed ?_
    unfold Draft.account accountOf
    dsimp only
    rw [map_modify_of_eq (g := Block.position), map_modify_of_eq]
    · exact fun b => rfl
    · exact fun b => rfl
  | setting title autonumber => exact .passed rfl

/-- The messages with a marker are changes of activity as well. -/
def Draft.Marked (d : Draft) : Prop := (markedPlaces d.messages).Sublist (d.activations.map Activation.position)

theorem marked_step {d d' : Draft} {p : Position} {passes : Bool} (marked : d.Marked) (step : d.Step p passes d') :
    d'.Marked := by
  unfold Draft.Marked at marked ⊢
  cases step with
  | activation a placed =>
    rw [List.map_append]
    exact marked.trans (List.sublist_append_left _ _)
  | message m placed unmarked =>
    rw [markedPlaces_append, unmarked]
    simpa using marked
  | markedMessage m a placed active beside =>
    rw [markedPlaces_append, active, placed, List.map_append, List.map_singleton, beside]
    exact marked.append_right [p]
  | _ => exact marked

/-! ### Diagrams -/

/-- A diagram is made of what has been read behind all lines, where no block is open. -/
theorem exists_of_read {s : Source} {diagram : SequenceDiagram} (accepted : read s = .ok diagram) :
    ∃ header d, readLines (fun _ => rules) {} s.body = .ok d ∧ d.innermost? = none ∧
      diagram = ⟨s.header .sequence header, d.title, d.autonumber, d.participants, d.messages, d.notes,
        d.activations, d.blocks⟩ := by
  obtain ⟨header, -, accepted⟩ := exists_of_bind_ok accepted
  obtain ⟨d, run, accepted⟩ := exists_of_bind_ok accepted
  split at accepted
  · exact nomatch accepted
  · next closed => exact ⟨header, d, run, closed, (Except.ok.inj accepted).symm⟩

/-- Every message with a marker is a change of activity as well. -/
theorem read_marked {s : Source} {diagram : SequenceDiagram} (read : SequenceDiagram.read s = .ok diagram) :
    (markedPlaces diagram.messages).Sublist (diagram.activations.map Activation.position) := by
  obtain ⟨header, d, run, -, rfl⟩ := exists_of_read read
  have marked : d.Marked := readLines_keep (fun marked taken => marked_step marked (readLine_step taken)) run (.refl [])
  exact marked

/-- Every line of a sequence diagram is a participant, a change of activity, a note, a message, or the
beginning of a block or of a section, but for settings; messages with a marker are changes of activity
as well. -/
theorem read_covers {s : Source} {diagram : SequenceDiagram} (read : SequenceDiagram.read s = .ok diagram) :
    diagram.account.Covers ((plan.recorded () s.body).map Line.position) := by
  obtain ⟨header, d, run, -, rfl⟩ := exists_of_read read
  have blank : Account.Covers (Draft.account {}) [] := by
    refine ⟨.refl _, ?_⟩
    simp [Draft.account, accountOf]
  have covers := readLines_covers plan (fun _ => ()) Draft.account
    (fun taken => ⟨rfl, account_step (readLine_step taken)⟩) run blank
  exact covers

end DiagramLint.SequenceDiagram
