import DiagramLint.Diagram
import DiagramLint.Proofs.Offset.Basic
import DiagramLint.Proofs.Results
import DiagramLint.Proofs.Text.Keywords
import Mathlib.Data.List.Basic
import Mathlib.Data.List.Nodup

/-!
Detecting the kind of a source. A header line begins with at most one of the words that tell kinds, so
of all families only that of the kind that is detected takes the header; a reader of another family
refuses it (`readAs_detected`).
-/
namespace DiagramLint

open Text

/-! ### Header words -/

/-- The words that tell kinds have neither blanks nor colons. -/
theorem headerWords_solid : ∀ entry ∈ headerWords, entry.1.toList.all fun c => !isBlank c && c != ':' := by
  decide

theorem headerWords_distinct : ∀ a ∈ headerWords, ∀ b ∈ headerWords, a.1.toList = b.1.toList → a = b := by
  have distinct : (headerWords.map Prod.fst).Nodup := by decide
  intro a member b other same
  exact List.inj_on_of_nodup_map distinct member other (String.toList_injective same)

/-- The keyword of a kind tells the kind. -/
theorem keyword_listed {kind : Kind} (known : kind ≠ .unknown) : (kind.keyword, kind) ∈ headerWords := by
  cases kind
  case unknown => exact absurd rfl known
  all_goals decide

/-- At most one of the words begins a header. -/
theorem headerWord_unique {a b : String × Kind} {t : Text} (listed : a ∈ headerWords) (other : b ∈ headerWords)
    (first : (afterKeywordColon? a.1 t).isSome) (second : (afterKeywordColon? b.1 t).isSome) : a = b := by
  refine headerWords_distinct a listed b other ?_
  rw [← headWord_of_afterKeywordColon? first (headerWords_solid a listed),
    ← headWord_of_afterKeywordColon? second (headerWords_solid b other)]

/-- A header that begins with a word for a kind is of that kind: no other word begins it. -/
theorem ofHeader_of_word {word : String} {kind : Kind} {t : Text} (listed : (word, kind) ∈ headerWords)
    (found : (afterKeywordColon? word t).isSome) : Kind.ofHeader t = kind := by
  unfold Kind.ofHeader
  split
  · next other begins first =>
    have begun : (afterKeywordColon? other t).isSome := by simpa using List.find?_some first
    exact congrArg Prod.snd (headerWord_unique (List.mem_of_find?_eq_some first) listed begun found)
  · next first => exact absurd found (List.find?_eq_none.mp first (word, kind) listed)

/-! ### Headers that readers take -/

/-- The words that the headers of a family begin with. -/
def Family.words : Family → List String
  | .flowchart => ["flowchart", "graph"]
  | .sequence => ["sequenceDiagram"]
  | .classes => ["classDiagram"]
  | .states => ["stateDiagram-v2", "stateDiagram"]
  | .entities => ["erDiagram"]
  | .pie => ["pie"]
  | .gantt => ["gantt"]
  | .journey => ["journey"]
  | .gitGraph => ["gitGraph"]
  | .mindmap => ["mindmap"]
  | .timeline => ["timeline"]
  | .sankey => ["sankey-beta"]
  | .quadrant => ["quadrantChart"]
  | .xyChart => ["xychart-beta"]
  | .c4 => ["C4Context", "C4Container", "C4Component", "C4Dynamic", "C4Deployment"]

/-- Every word of a family tells a kind of the family. -/
theorem Family.words_listed (family : Family) :
    ∀ word ∈ family.words, ∃ entry ∈ headerWords, entry.1 = word ∧ entry.2.family? = some family := by
  cases family <;> decide

/-- The header line begins with a word for the kind. -/
def Source.Tells (s : Source) (kind : Kind) : Prop :=
  ∃ line word, s.header? = some line ∧ (word, kind) ∈ headerWords ∧ (afterKeywordColon? word line.text).isSome

theorem kind_of_tells {s : Source} {kind : Kind} (tells : s.Tells kind) : s.kind = kind := by
  obtain ⟨line, word, first, listed, found⟩ := tells
  rw [Source.kind, first]
  exact ofHeader_of_word listed found

section

variable {s : Source} {line : Line} {keywords : List String} {word : String} {rest : Text} {kind : Kind}

theorem headerWith_of_mismatch (first : s.header? = some line)
    (other : ∀ k ∈ keywords, afterKeyword? k line.text = none) :
    s.headerWith keywords = .error ((Fault.headerMismatch keywords line.text).at line.position) := by
  have none_fits : (keywords.findSome? fun k => (afterKeyword? k line.text).map fun rest => (k, rest)) = none := by
    refine List.findSome?_eq_none_iff.mpr ?_
    intro k member
    rw [other k member]
    rfl
  have here : s.headerLine = .ok line := by rw [Source.headerLine, first]
  rw [Source.headerWith, here]
  dsimp only [bind, Except.bind]
  rw [none_fits]

theorem bareHeader_of_mismatch (first : s.header? = some line)
    (other : ∀ k ∈ [word], afterKeyword? k line.text = none) :
    s.bareHeader word = .error ((Fault.headerMismatch [word] line.text).at line.position) := by
  rw [Source.bareHeader, headerWith_of_mismatch first other]
  rfl

theorem header_of_headerLine (here : s.headerLine = .ok line) : s.header? = some line := by
  unfold Source.headerLine at here
  split at here
  · next found => rw [found, Except.ok.inj here]
  · exact nomatch here

/-- A header is taken for one of the words that are asked for, which it begins with. -/
theorem tells_of_headerWith (taken : s.headerWith keywords = .ok (line, word, rest)) :
    word ∈ keywords ∧ ∀ kind, (word, kind) ∈ headerWords → s.Tells kind := by
  obtain ⟨header, here, taken⟩ := exists_of_bind_ok taken
  have first := header_of_headerLine here
  split at taken
  · next keyword behind found =>
    simp only [Except.ok.injEq, Prod.mk.injEq] at taken
    obtain ⟨rfl, rfl, rfl⟩ := taken
    obtain ⟨k, member, fits⟩ := List.exists_of_findSome?_eq_some found
    obtain ⟨r, after, same⟩ := Option.map_eq_some_iff.mp fits
    simp only [Prod.mk.injEq] at same
    obtain ⟨rfl, rfl⟩ := same
    exact ⟨member, fun _ listed => ⟨header, k, first, listed, afterKeywordColon?_of_afterKeyword? after⟩⟩
  · exact nomatch taken

theorem tells_of_bareHeader (taken : s.bareHeader word = .ok line) (listed : (word, kind) ∈ headerWords) :
    s.Tells kind := by
  obtain ⟨⟨header, keyword, rest⟩, taken, bare⟩ := exists_of_bind_ok taken
  obtain ⟨member, tells⟩ := tells_of_headerWith taken
  rw [List.mem_singleton.mp member] at tells
  exact tells kind listed

/-- A result in steps is a fault of the first step, if that has one. -/
theorem map_bind_error {ε α β γ : Type} {first : Except ε α} {next : α → Except ε β} {make : β → γ} {e : ε}
    (failed : first = .error e) : (first >>= next).map make = .error e := by
  rw [failed]
  rfl

end

/-! ### Readers

A diagram that a reader gives is of the kind that the header tells: a lemma for each reader that looks
at more than the lines behind a bare header. -/

section

variable {s : Source}

theorem Flowchart.tells_of_read {chart : Flowchart} (made : Flowchart.read s = .ok chart) :
    s.Tells (Diagram.flowchart chart).kind := by
  obtain ⟨⟨header, keyword, rest⟩, taken, made⟩ := exists_of_bind_ok made
  obtain ⟨member, tells⟩ := tells_of_headerWith taken
  obtain ⟨direction, -, made⟩ := exists_of_bind_ok made
  obtain ⟨draft, -, made⟩ := exists_of_bind_ok made
  split at made
  · exact nomatch made
  · obtain rfl := Except.ok.inj made
    rcases List.mem_pair.mp member with rfl | rfl
    · exact tells .flowchart (by decide)
    · exact tells .graph (by decide)

theorem SequenceDiagram.tells_of_read {diagram : SequenceDiagram} (made : SequenceDiagram.read s = .ok diagram) :
    s.Tells (Diagram.sequence diagram).kind := by
  obtain ⟨header, bare, made⟩ := exists_of_bind_ok made
  obtain ⟨draft, -, made⟩ := exists_of_bind_ok made
  split at made
  · exact nomatch made
  · obtain rfl := Except.ok.inj made
    exact tells_of_bareHeader bare (@keyword_listed .sequence nofun)

theorem ClassDiagram.tells_of_read {diagram : ClassDiagram} (made : ClassDiagram.read s = .ok diagram) :
    s.Tells (Diagram.classes diagram).kind := by
  obtain ⟨header, bare, made⟩ := exists_of_bind_ok made
  obtain ⟨draft, -, made⟩ := exists_of_bind_ok made
  split at made
  · exact nomatch made
  · obtain rfl := Except.ok.inj made
    exact tells_of_bareHeader bare (@keyword_listed .classDiagram nofun)

theorem StateDiagram.tells_of_read {diagram : StateDiagram} (made : StateDiagram.read s = .ok diagram) :
    s.Tells (Diagram.states diagram).kind := by
  obtain ⟨⟨header, keyword, rest⟩, taken, made⟩ := exists_of_bind_ok made
  obtain ⟨member, tells⟩ := tells_of_headerWith taken
  dsimp only at made
  split at made
  · obtain ⟨draft, -, made⟩ := exists_of_bind_ok made
    split at made
    · exact nomatch made
    · exact nomatch made
    · obtain rfl := Except.ok.inj made
      rcases List.mem_pair.mp member with rfl | rfl
      · exact tells .stateV2 (by decide)
      · exact tells .state (by decide)
  · exact nomatch made

theorem EntityDiagram.tells_of_read {diagram : EntityDiagram} (made : EntityDiagram.read s = .ok diagram) :
    s.Tells (Diagram.entities diagram).kind := by
  obtain ⟨⟨header, keyword, rest⟩, taken, made⟩ := exists_of_bind_ok made
  obtain ⟨member, tells⟩ := tells_of_headerWith taken
  obtain rfl := List.mem_singleton.mp member
  obtain ⟨direction, -, made⟩ := exists_of_bind_ok made
  obtain ⟨draft, -, made⟩ := exists_of_bind_ok made
  split at made
  · exact nomatch made
  · obtain rfl := Except.ok.inj made
    exact tells .er (by decide)

theorem PieChart.tells_of_read {chart : PieChart} (made : PieChart.read s = .ok chart) :
    s.Tells (Diagram.pie chart).kind := by
  obtain ⟨⟨header, keyword, rest⟩, taken, made⟩ := exists_of_bind_ok made
  obtain ⟨member, tells⟩ := tells_of_headerWith taken
  obtain rfl := List.mem_singleton.mp member
  obtain ⟨title, -, made⟩ := exists_of_bind_ok made
  obtain ⟨draft, -, made⟩ := exists_of_bind_ok made
  split at made
  · exact nomatch made
  · obtain rfl := Except.ok.inj made
    exact tells .pie (by decide)

theorem GitGraph.tells_of_read {graph : GitGraph} (made : GitGraph.read s = .ok graph) :
    s.Tells (Diagram.gitGraph graph).kind := by
  obtain ⟨header, here, made⟩ := exists_of_bind_ok made
  split at made
  · exact nomatch made
  · next rest found =>
    obtain ⟨direction, -, made⟩ := exists_of_bind_ok made
    obtain ⟨commands, -, made⟩ := exists_of_bind_ok made
    obtain rfl := Except.ok.inj made
    refine ⟨header, "gitGraph", header_of_headerLine here, @keyword_listed .gitGraph nofun, ?_⟩
    rw [found]
    rfl

theorem Mindmap.tells_of_read {mindmap : Mindmap} (made : Mindmap.read s = .ok mindmap) :
    s.Tells (Diagram.mindmap mindmap).kind := by
  obtain ⟨header, bare, made⟩ := exists_of_bind_ok made
  obtain ⟨draft, -, made⟩ := exists_of_bind_ok made
  split at made
  · obtain rfl := Except.ok.inj made
    exact tells_of_bareHeader bare (@keyword_listed .mindmap nofun)
  · exact nomatch made

theorem SankeyDiagram.tells_of_read {diagram : SankeyDiagram} (made : SankeyDiagram.read s = .ok diagram) :
    s.Tells (Diagram.sankey diagram).kind := by
  obtain ⟨header, bare, made⟩ := exists_of_bind_ok made
  obtain ⟨links, -, made⟩ := exists_of_bind_ok made
  split at made
  · exact nomatch made
  · obtain rfl := Except.ok.inj made
    exact tells_of_bareHeader bare (@keyword_listed .sankey nofun)

theorem XyChart.tells_of_read {chart : XyChart} (made : XyChart.read s = .ok chart) :
    s.Tells (Diagram.xyChart chart).kind := by
  obtain ⟨⟨header, keyword, rest⟩, taken, made⟩ := exists_of_bind_ok made
  obtain ⟨member, tells⟩ := tells_of_headerWith taken
  obtain rfl := List.mem_singleton.mp member
  dsimp only at made
  split at made
  · exact nomatch made
  · obtain ⟨draft, -, made⟩ := exists_of_bind_ok made
    split at made
    · obtain rfl := Except.ok.inj made
      exact tells .xyChart (by decide)
    · exact nomatch made

theorem C4Diagram.tells_of_read {diagram : C4Diagram} (made : C4Diagram.read s = .ok diagram) :
    s.Tells (Diagram.c4 diagram).kind := by
  obtain ⟨⟨header, keyword, rest⟩, taken, made⟩ := exists_of_bind_ok made
  obtain ⟨member, tells⟩ := tells_of_headerWith taken
  dsimp only at made
  split at made
  · next kind found =>
    obtain ⟨draft, -, made⟩ := exists_of_bind_ok made
    obtain rfl := Except.ok.inj made
    have spelt : kind.keyword = keyword := by simpa using List.find?_some found
    have c4 := (List.mem_filter.mp (List.mem_of_find?_eq_some found)).2
    have known : kind ≠ .unknown := by
      rintro rfl
      exact nomatch c4
    exact tells kind (spelt ▸ keyword_listed known)
  · exact nomatch made

end

namespace Family

variable {family : Family} {s : Source} {line : Line} {d : Diagram}

/-- No reader takes a header that begins with none of the words of its family. -/
theorem read_of_mismatch (first : s.header? = some line)
    (other : ∀ word ∈ family.words, (afterKeywordColon? word line.text).isSome = false) :
    family.read s = .error ((Fault.headerMismatch family.words line.text).at line.position) := by
  have unkeyed : ∀ word ∈ family.words, afterKeyword? word line.text = none := by
    intro word member
    cases found : afterKeyword? word line.text with
    | none => rfl
    | some rest =>
      have begun := afterKeywordColon?_of_afterKeyword? found
      rw [other word member] at begun
      exact nomatch begun
  cases family
  case flowchart | states | entities | pie | xyChart | c4 => exact map_bind_error (headerWith_of_mismatch first unkeyed)
  case gitGraph =>
    have here : s.headerLine = .ok line := by rw [Source.headerLine, first]
    have unfound : afterKeywordColon? "gitGraph" line.text = none := by
      simpa using other _ List.mem_cons_self
    rw [read, GitGraph.read, here]
    dsimp only [bind, Except.bind]
    rw [unfound]
    rfl
  all_goals exact map_bind_error (bareHeader_of_mismatch first unkeyed)

/-- A diagram that a reader gives is of the kind that the header tells. -/
theorem tells_of_read (accepted : family.read s = .ok d) : s.Tells d.kind := by
  cases family <;> obtain ⟨diagram, made, rfl⟩ := exists_of_map_ok accepted
  case flowchart => exact Flowchart.tells_of_read made
  case sequence => exact SequenceDiagram.tells_of_read made
  case classes => exact ClassDiagram.tells_of_read made
  case states => exact StateDiagram.tells_of_read made
  case entities => exact EntityDiagram.tells_of_read made
  case pie => exact PieChart.tells_of_read made
  case gitGraph => exact GitGraph.tells_of_read made
  case mindmap => exact Mindmap.tells_of_read made
  case sankey => exact SankeyDiagram.tells_of_read made
  case xyChart => exact XyChart.tells_of_read made
  case c4 => exact C4Diagram.tells_of_read made
  -- the readers that refuse no body once its lines are read
  case gantt | journey | timeline | quadrant =>
    obtain ⟨header, bare, made⟩ := exists_of_bind_ok made
    obtain ⟨draft, -, made⟩ := exists_of_bind_ok made
    obtain rfl := Except.ok.inj made
    exact tells_of_bareHeader bare (by simp [headerWords, Diagram.kind, Diagram.header, Source.header])

end Family

/-! ### Reading as a kind -/

/-- The kind of a text does not depend on where it stands. -/
theorem kind_ofText (t : Text) (offset : Nat) : (Source.ofText t offset).kind = Kind.detect t := by
  have moved := ofText_shift t offset
  rw [show (Move.down offset).lines = offset from rfl] at moved
  rw [moved, Kind.detect, Source.kind, Source.kind, header?_shift]
  cases (Source.ofText t 0).header? <;> rfl

/-- Reading a text as a kind. Without a header line there is a fault; the readers of the family of the
kind that is detected give what reading gives without a kind, and the others refuse the header. What
is read is of the kind that is detected. -/
theorem readAs_detected {kind : Kind} (known : kind ≠ .unknown) (t : Text) (offset : Nat) :
    ((Source.ofText t offset).lines = [] →
      ∃ e, Diagram.readAs kind t offset = .error e ∧ e.code = .e001 ∧ e.phase = .header) ∧
    (∀ header, (Source.ofText t offset).header? = some header →
      ((Kind.detect t).family? = kind.family? → Diagram.readAs kind t offset = Diagram.read t offset) ∧
      ((Kind.detect t).family? ≠ kind.family? →
        ∃ e, Diagram.readAs kind t offset = .error e ∧ e.code = .e002 ∧ e.phase = .header ∧
          e.position = header.position)) ∧
    ∀ d, Diagram.read t offset = .ok d → d.kind = Kind.detect t := by
  refine ⟨?_, ?_, ?_⟩
  · intro empty
    have no_header : (Source.ofText t offset).header? = none := by rw [Source.header?, empty]; rfl
    refine ⟨Fault.headerMissing.at ⟨offset + 1, 1⟩, ?_, rfl, rfl⟩
    rw [Diagram.readAs, Diagram.ofSource, Source.headerLine, no_header]
    rfl
  · intro header first
    have here : (Source.ofText t offset).headerLine = .ok header := by rw [Source.headerLine, first]
    rw [Diagram.readAs, Diagram.read, kind_ofText]
    refine ⟨?_, ?_⟩
    · intro same
      rw [Diagram.ofSource, Diagram.ofSource, same]
    · intro other
      obtain ⟨family, named⟩ : ∃ family, kind.family? = some family := by
        cases kind
        case unknown => exact absurd rfl known
        all_goals exact ⟨_, rfl⟩
      refine ⟨(Fault.headerMismatch family.words header.text).at header.position, ?_, rfl, rfl, rfl⟩
      rw [Diagram.ofSource, here, named]
      refine Family.read_of_mismatch first ?_
      intro word member
      by_contra begun
      obtain ⟨⟨_, told⟩, listed, rfl, own⟩ := family.words_listed word member
      have detected : (Source.ofText t offset).kind = told :=
        kind_of_tells ⟨header, _, first, listed, Bool.not_eq_false _ ▸ begun⟩
      rw [kind_ofText] at detected
      exact other (by rw [detected, own, named])
  · intro d accepted
    rw [Diagram.read, kind_ofText] at accepted
    obtain ⟨header, -, accepted⟩ := exists_of_bind_ok accepted
    split at accepted
    · next family _ => rw [← kind_of_tells (Family.tells_of_read accepted), kind_ofText]
    · next unfamiliar =>
      obtain rfl := Except.ok.inj accepted
      cases detected : Kind.detect t <;> rw [detected] at unfamiliar
      case unknown => rfl
      all_goals exact nomatch unfamiliar

/-- A state diagram, three lines down in a document. -/
def stateText : Text := "%% states\nstateDiagram-v2\n[*] --> A".toList

theorem readAs_detected_stateText :
    Kind.state ≠ .unknown ∧ Diagram.readAs .state stateText 3 = Diagram.read stateText 3 ∧
      (∀ d, Diagram.read stateText 3 = .ok d → d.kind = .stateV2) ∧
      ∃ e, Diagram.readAs .pie stateText 3 = .error e ∧ e.code = .e002 ∧ e.position = ⟨5, 1⟩ := by
  obtain ⟨header, first, place⟩ : ∃ header, (Source.ofText stateText 3).header? = some header ∧
      header.position = ⟨5, 1⟩ := ⟨_, rfl, by decide +kernel⟩
  have detected : Kind.detect stateText = .stateV2 := by decide +kernel
  obtain ⟨-, own, kinds⟩ := @readAs_detected .state nofun stateText 3
  obtain ⟨-, other, -⟩ := @readAs_detected .pie nofun stateText 3
  obtain ⟨e, failed, code, -, position⟩ := (other header first).2 (by rw [detected]; decide)
  refine ⟨nofun, (own header first).1 (by rw [detected]; rfl), ?_, e, failed, code, position.trans place⟩
  intro d accepted
  rw [← detected]
  exact kinds d accepted

end DiagramLint
