import DiagramLint.Proofs.Detection
import DiagramLint.Proofs.Reading.Diagram
import DiagramLint.Proofs.UnknownKind

/-!
Headers that are refused for their word. A kind is detected by a word that may end at a colon, and the readers
but that of git graphs take a word only if a blank or the end of the line ends it. So a header is detected and
refused where a colon stands behind its word, and where its word is the short one of a kind whose reader asks
for the long one. No line behind the header is refused like this, and a header without a word for a kind is
not refused at all (`header_mismatch_iff`).
-/
namespace DiagramLint

open Text

variable {text : Text} {offset : Nat} {first : Line} {body : List Line} {t : Text}

/-! ### Readers -/

/-- The reader of a family does not refuse a header of this text for its word. -/
def Family.Fits (family : Family) (t : Text) : Prop :=
  match family with
  | .gitGraph => (afterKeywordColon? "gitGraph" t).isSome
  | family => t.BeginsWith family.words

/-- A reader refuses a source for the word of its header just if the header does not fit. -/
theorem Family.mismatch_iff (family : Family) :
    Mismatched (family.read ⟨text, offset, first :: body⟩) ↔ ¬ family.Fits first.text := by
  cases family with
  | flowchart => exact mismatched_map.trans Flowchart.reading_describes.mismatch_iff
  | sequence => exact mismatched_map.trans SequenceDiagram.reading_describes.mismatch_iff
  | classes => exact mismatched_map.trans ClassDiagram.reading_describes.mismatch_iff
  | states => exact mismatched_map.trans StateDiagram.reading_describes.mismatch_iff
  | entities => exact mismatched_map.trans EntityDiagram.reading_describes.mismatch_iff
  | pie => exact mismatched_map.trans PieChart.reading_describes.mismatch_iff
  | gantt => exact mismatched_map.trans Gantt.reading_describes.mismatch_iff
  | journey => exact mismatched_map.trans Journey.reading_describes.mismatch_iff
  | gitGraph => exact mismatched_map.trans GitGraph.reading_describes.mismatch_iff
  | mindmap => exact mismatched_map.trans Mindmap.reading_describes.mismatch_iff
  | timeline => exact mismatched_map.trans Timeline.reading_describes.mismatch_iff
  | sankey => exact mismatched_map.trans SankeyDiagram.reading_describes.mismatch_iff
  | quadrant => exact mismatched_map.trans QuadrantChart.reading_describes.mismatch_iff
  | xyChart => exact mismatched_map.trans XyChart.reading_describes.mismatch_iff
  | c4 => exact mismatched_map.trans C4Diagram.mismatch_iff

/-- A source is refused for the word of its header just if the header does not fit the reader for the kind. -/
theorem ofSource_mismatch_iff (kind : Kind) :
    Mismatched (Diagram.ofSource kind ⟨text, offset, first :: body⟩) ↔
      ∃ family, kind.family? = some family ∧ ¬ family.Fits first.text := by
  rw [ofSource_eq]
  cases kind.family? with
  | some family => simpa using family.mismatch_iff
  | none => simp [Mismatched]

/-! ### Words -/

/-- The words that tell a kind whose reader asks for another word. -/
def shortWords : List String := ["sankey", "xychart"]

/-- No word for a kind begins the header. -/
def Unrecognised (t : Text) : Prop :=
  (∀ kind : Kind, kind.family?.isSome → ¬ t.Leads kind.keyword) ∧ ∀ word ∈ shortWords, ¬ t.Leads word

/-- The header begins with the keyword of a kind other than git graphs and a colon directly behind it, or with a
short word. -/
def Misheaded (t : Text) : Prop :=
  (∃ kind : Kind, kind.family?.isSome ∧ kind ≠ .gitGraph ∧ kind.keyword.toList ++ [':'] <+: t) ∨
    ∃ word ∈ shortWords, t.Leads word

/-- A word for a kind is short, or it is the keyword of the kind and one of the words of its family. -/
theorem short_or_keyword : ∀ entry ∈ headerWords, entry.1 ∈ shortWords ∨
    entry.1 = entry.2.keyword ∧ ∃ family, entry.2.family? = some family ∧ entry.1 ∈ family.words := by
  decide

/-- The reader for the kind that a short word tells does not take the word. -/
theorem shortWords_refused : ∀ word ∈ shortWords, ∃ entry ∈ headerWords, entry.1 = word ∧
    ∃ family, entry.2.family? = some family ∧ family ≠ .gitGraph ∧ word ∉ family.words := by
  decide

/-- A header is of the kind that its word tells; without a word it is of no known kind. -/
theorem ofHeader_spec (t : Text) :
    (Kind.ofHeader t = .unknown ∧ ∀ entry ∈ headerWords, ¬ t.Leads entry.1) ∨
      ∃ word, (word, Kind.ofHeader t) ∈ headerWords ∧ t.Leads word := by
  unfold Kind.ofHeader
  split
  · next word kind first =>
    have begun : (afterKeywordColon? word t).isSome := by simpa using List.find?_some first
    exact .inr ⟨word, List.mem_of_find?_eq_some first, afterKeywordColon?_isSome_iff.mp begun⟩
  · next none_begins =>
    refine .inl ⟨rfl, ?_⟩
    intro entry listed leads
    exact List.find?_eq_none.mp none_begins entry listed (afterKeywordColon?_isSome_iff.mpr leads)

theorem ofHeader_of_unrecognised (unrecognised : Unrecognised t) : Kind.ofHeader t = .unknown := by
  rcases ofHeader_spec t with ⟨unknown, -⟩ | ⟨word, listed, leads⟩
  · exact unknown
  · rcases short_or_keyword _ listed with short | ⟨keyword, family, named, -⟩
    · exact absurd leads (unrecognised.2 word short)
    · refine absurd (keyword ▸ leads) (unrecognised.1 (Kind.ofHeader t) ?_)
      rw [named]
      rfl

/-! ### Words that fit -/

namespace Family

variable {family : Family}

theorem fits_of_beginsWith (begins : t.BeginsWith family.words) : family.Fits t := by
  cases family
  case gitGraph =>
    obtain ⟨word, member, begun⟩ := begins
    obtain rfl := List.mem_singleton.mp member
    obtain ⟨rest, found⟩ := Option.isSome_iff_exists.mp begun
    exact afterKeywordColon?_of_afterKeyword? found
  all_goals exact begins

theorem fits_iff (other : family ≠ .gitGraph) : family.Fits t ↔ t.BeginsWith family.words := by
  cases family
  case gitGraph => exact absurd rfl other
  all_goals rfl

/-- A header that begins with a word for a kind fits the readers that take this word, if they take it there. -/
theorem beginsWith_iff {entry : String × Kind} (listed : entry ∈ headerWords) (leads : t.Leads entry.1) :
    t.BeginsWith family.words ↔ entry.1 ∈ family.words ∧ (afterKeyword? entry.1 t).isSome := by
  constructor
  · rintro ⟨word, member, begun⟩
    obtain ⟨other, known, rfl, -⟩ := family.words_listed word member
    obtain ⟨rest, found⟩ := Option.isSome_iff_exists.mp begun
    obtain rfl := headerWord_unique known listed (afterKeywordColon?_of_afterKeyword? found)
      (afterKeywordColon?_isSome_iff.mpr leads)
    exact ⟨member, begun⟩
  · rintro ⟨member, begun⟩
    exact ⟨entry.1, member, begun⟩

end Family

/-- The reader for the kind that a header tells refuses it for a colon behind its word or for a short word. -/
theorem misheaded_iff :
    (∃ family, (Kind.ofHeader t).family? = some family ∧ ¬ family.Fits t) ↔ Misheaded t := by
  constructor
  · rintro ⟨family, named, unfit⟩
    rcases ofHeader_spec t with ⟨unknown, -⟩ | ⟨word, listed, leads⟩
    · rw [unknown] at named
      cases named
    · rcases short_or_keyword _ listed with short | ⟨keyword, own, own_named, member⟩
      · exact .inr ⟨word, short, leads⟩
      · obtain rfl := Option.some.inj (named.symm.trans own_named)
        rcases afterKeyword?_isSome_or_colon leads with begun | colon
        · exact absurd (Family.fits_of_beginsWith ⟨word, member, begun⟩) unfit
        · refine .inl ⟨Kind.ofHeader t, Option.isSome_of_mem named, ?_, keyword ▸ colon⟩
          intro git
          rw [git] at named keyword
          obtain rfl := Option.some.inj named
          obtain rfl : word = "gitGraph" := keyword
          exact unfit (afterKeywordColon?_isSome_iff.mpr leads)
  · rintro (⟨kind, known, other, colon⟩ | ⟨word, short, leads⟩)
    · obtain ⟨family, named⟩ := Option.isSome_iff_exists.mp known
      have listed : (kind.keyword, kind) ∈ headerWords := by
        refine keyword_listed ?_
        rintro rfl
        cases named
      have leads : t.Leads kind.keyword := leads_of_colon colon
      have foreign : family ≠ .gitGraph := by
        rintro rfl
        exact other (List.mem_singleton.mp ((kind.family?_eq_some_iff .gitGraph).mp named))
      refine ⟨family, ?_, ?_⟩
      · rw [ofHeader_of_word listed (afterKeywordColon?_isSome_iff.mpr leads), named]
      · rw [Family.fits_iff foreign, Family.beginsWith_iff listed leads, afterKeyword?_of_colon colon]
        simp
    · obtain ⟨⟨_, kind⟩, listed, rfl, family, named, foreign, refused⟩ := shortWords_refused word short
      refine ⟨family, ?_, ?_⟩
      · rw [ofHeader_of_word listed (afterKeywordColon?_isSome_iff.mpr leads), named]
      · rw [Family.fits_iff foreign, Family.beginsWith_iff listed leads]
        exact fun begins => refused begins.1

/-! ### Sources -/

/-- A source with a header line is refused for the word of its header just if a colon is directly behind the
keyword, which git graphs allow, or the word is short. A header that no word begins is not refused: the source
is read as a diagram of no known kind. -/
theorem header_mismatch_iff (text : Text) (offset : Nat) (header : Line)
    (found : (Source.ofText text offset).header? = some header) :
    ((∃ e, Diagram.read text offset = .error e ∧ e.code = .e002) ↔ Misheaded header.text) ∧
    (Unrecognised header.text → Diagram.read text offset =
      .ok (.unknown (.ofSource (Source.ofText text offset) header))) := by
  have detected : (Source.ofText text offset).kind = Kind.ofHeader header.text := by rw [Source.kind, found]
  rw [Diagram.read, detected]
  constructor
  · obtain ⟨body, lines⟩ : ∃ body, (Source.ofText text offset).lines = header :: body := List.head?_eq_some_iff.mp found
    have refused : Mismatched (Diagram.ofSource (Kind.ofHeader header.text) ⟨text, offset, header :: body⟩) ↔ _ :=
      ofSource_mismatch_iff (Kind.ofHeader header.text)
    rw [← lines] at refused
    exact refused.trans misheaded_iff
  · intro unrecognised
    rw [ofHeader_of_unrecognised unrecognised]
    exact made_of_header found

/-- A colon behind a keyword, and a header that no word begins. -/
theorem header_mismatch_iff_colon :
    (∃ e, Diagram.read "graph: TD\nA --> B".toList 0 = .error e ∧ e.code = .e002) ∧
      Diagram.read "packet-beta".toList 0 = .ok (.unknown (.ofSource (Source.ofText "packet-beta".toList 0)
        (.ofRaw 1 "packet-beta".toList))) := by
  constructor
  · refine (header_mismatch_iff _ 0 (.ofRaw 1 "graph: TD".toList) (by decide)).1.mpr (.inl ⟨.graph, rfl, nofun, ?_⟩)
    exact ⟨" TD".toList, by decide⟩
  · refine (header_mismatch_iff _ 0 (.ofRaw 1 "packet-beta".toList) (by decide)).2 ⟨?_, ?_⟩
    · intro kind _
      cases kind <;> decide
    · decide

end DiagramLint
