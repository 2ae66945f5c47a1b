import DiagramLint.Proofs.LineNumbers
import DiagramLint.Proofs.SequenceDiagram.Lines
import DiagramLint.Proofs.Text.Identifiers
import DiagramLint.Proofs.Text.Words

/-!
Messages as they are written, with blanks around the arrow. Names may hold what looks like an arrow, but such an
arrow in the sender makes no route: behind it stand the arrow of the message and the receiver, with a blank between
them that is part of no name. So the arrow between the blanks is the one that counts (`written_message_read`).
-/
namespace DiagramLint.SequenceDiagram

open Text

/-! ### Messages as they are written -/

/-- The words that begin lines of other sorts. The line that ends a block is its word and nothing else, so
this word may be a sender. -/
def leadingWords : List String :=
  ["participant", "actor", "activate", "deactivate", "note", "Note", "loop", "alt", "opt", "par", "critical", "break",
   "rect", "else", "and", "option", "autonumber", "title"]

/-- The marker as it is written. -/
def Marker.spelling : Marker → Char
  | .activate => '+'
  | .deactivate => '-'

/-- A message as it is written: the sender, the arrow, the receiver with a marker in front of it, and the text. -/
structure WrittenMessage where
  sender : Text
  spelling : Text
  arrow : Arrow
  marker : Option Marker
  receiver : Text
  text : Text
  sender_identifier : isIdentifier sender = true
  sender_free : ∀ word ∈ leadingWords, sender ≠ word.toList
  listed : (spelling, arrow) ∈ arrows
  receiver_identifier : isIdentifier receiver = true
  /-- A hyphen in front would be taken for a marker. -/
  receiver_start : receiver.head? ≠ some '-'
  text_filled : text ≠ []
  text_trimmed : trim text = text

namespace WrittenMessage

/-- The receiver with the marker. -/
def target (m : WrittenMessage) : Text := (m.marker.map Marker.spelling).toList ++ m.receiver

/-- What stands in front of the text, from the arrow on. -/
def behindSender (m : WrittenMessage) : Text := m.spelling ++ ' ' :: m.target

/-- What stands in front of the text. -/
def head (m : WrittenMessage) : Text := m.sender ++ ' ' :: m.behindSender

/-- The message as it is written. -/
def written (m : WrittenMessage) : Text := m.head ++ ':' :: ' ' :: m.text

/-- What is written in front of the text. -/
def route (m : WrittenMessage) : Route := ⟨m.sender, m.arrow, m.receiver, m.marker⟩

/-- The message that is written, at a position. -/
def message (m : WrittenMessage) (position : Position) : Message :=
  ⟨m.sender, m.receiver, m.arrow, m.marker, some m.text, position⟩

end WrittenMessage

variable {d : Draft} {line : Line} {t u v before after : Text} {c : Char} {arrow : Arrow} {m : WrittenMessage}

/-! ### The first word -/

theorem firstTaking_of_unkeyed (unkeyed : isKeyed line.text = false) :
    firstTaking d line rules = firstTaking d line [⟨"message", messageLine⟩] := by
  simp only [isKeyed, Bool.or_eq_false_iff, Option.isSome_eq_false_iff, Option.isNone_iff_eq_none] at unkeyed
  obtain ⟨⟨⟨⟨⟨undeclared, unchanged⟩, unnoted⟩, unmarked⟩, unnumbered⟩, untitled⟩ := unkeyed
  obtain ⟨unbegun, uncontinued, unended⟩ := passed_of_unmarked (d := d) unmarked
  have passed : ∀ rule ∈ rules.take 8, rule.read d line = pass := by
    simp only [rules, List.take_succ_cons, List.take_zero, List.forall_mem_cons]
    refine ⟨?_, ?_, ?_, unbegun, uncontinued, unended, ?_, ?_, List.forall_mem_nil _⟩
    · rw [participantLine, undeclared]
    · rw [activationLine, unchanged]
    · rw [noteLine, unnoted]
    · rw [autonumberLine, unnumbered]
    · rw [titleLine, untitled]
  have split : rules = rules.take 8 ++ [⟨"message", messageLine⟩] := rfl
  rw [split]
  exact firstTaking_append_of_pass passed

section

variable (identifier : isIdentifier u = true) (free : ∀ word ∈ leadingWords, u ≠ word.toList)
include identifier free

theorem afterKeyword?_of_free (v : Text) {word : String} (listed : word ∈ leadingWords) :
    afterKeyword? word (u ++ ' ' :: v) = none := by
  have visible : ∀ word ∈ leadingWords, (word.toList.all fun c => !isBlank c) = true := by decide
  refine afterKeyword?_eq_none_of_firstWord ?_ (visible word listed)
  rw [firstWord_of_identifier identifier]
  exact free word listed

theorem blockMark?_of_free (v : Text) : blockMark? (u ++ ' ' :: v) = none := by
  have unbegun : begun? (u ++ ' ' :: v) = none := by
    refine List.findSome?_eq_none_iff.mpr fun kind _ => ?_
    rw [afterKeyword?_of_free identifier free v (by cases kind <;> decide)]
    rfl
  have uncontinued : continued? (u ++ ' ' :: v) = none := by
    refine List.findSome?_eq_none_iff.mpr fun kind _ => ?_
    refine Option.bind_eq_none_iff.mpr fun word owned => ?_
    rw [afterKeyword?_of_free identifier free v (by cases kind <;> cases owned <;> decide)]
    rfl
  have unended : u ++ ' ' :: v ≠ "end".toList := by
    intro same
    have blank : ' ' ∈ "end".toList := same ▸ (by simp)
    exact absurd blank (by decide)
  rw [blockMark?, unbegun, uncontinued]
  exact if_neg unended

/-- A line with another first word is no line of another sort, if its first word ends at a blank. -/
theorem unkeyed_of_free (v : Text) : isKeyed (u ++ ' ' :: v) = false := by
  have other : ∀ word ∈ leadingWords, afterKeyword? word (u ++ ' ' :: v) = none :=
    fun word listed => afterKeyword?_of_free identifier free v listed
  have untitled : afterKeywordColon? "title" (u ++ ' ' :: v) = none := by
    by_contra titled
    have same := headWord_of_afterKeywordColon? (Option.isSome_iff_ne_none.mpr titled) (by decide)
    rw [headWord_of_identifier identifier] at same
    exact free "title" (by decide) same
  simp [isKeyed, participantKind?, activity?, afterNote?, blockMark?_of_free identifier free, untitled,
    other "participant" (by decide), other "actor" (by decide), other "activate" (by decide),
    other "deactivate" (by decide), other "note" (by decide), other "Note" (by decide), other "autonumber" (by decide)]

end

/-! ### Arrows -/

/-- What begins visibly is kept behind what is trimmed away in front. -/
theorem suffix_trimStart (u : Text) (begins : BeginsVisible v) : v <:+ trimStart (u ++ v) := by
  induction u with
  | nil =>
    have kept : trimStart ([] ++ v) = v := trimStart_of_begins allBlank_nil begins
    exact ⟨[], kept.symm⟩
  | cons c u ih =>
    rw [trimStart, List.cons_append, List.dropWhile_cons]
    split
    · exact ih
    · exact ⟨c :: u, rfl⟩

/-- A blank that stays when one character is taken away in front is in the receiver. -/
theorem mem_splitMarker (inside : c ∈ trimStart (trim t).tail) : c ∈ (splitMarker t).1 := by
  have in_trim : c ∈ trim t := List.mem_of_mem_tail ((List.dropWhile_sublist isBlank).subset inside)
  unfold splitMarker
  split
  · next rest same => simpa [same] using inside
  · next rest same => simpa [same] using inside
  · exact in_trim

theorem route?_eq_none (foreign : isIdentifierChar c = false) (inside : c ∈ (splitMarker after).1) :
    route? before arrow after = none := by
  have unnamed : isIdentifier (splitMarker after).1 = false := by
    by_contra identifier
    exact not_mem_of_identifier (by simpa using identifier) foreign inside
  simp [route?, unnamed]

/-- What holds no blank and begins a text with a blank lies in front of the blank. -/
theorem prefix_of_blankless (blankless : ' ' ∉ t) (inside : t <+: u ++ ' ' :: v) : t <+: u := by
  obtain ⟨after, whole⟩ := inside
  rcases List.append_eq_append_iff.mp whole with ⟨more, same, -⟩ | ⟨more, same, behind⟩
  · exact ⟨more, same.symm⟩
  · cases more with
    | nil => exact ⟨[], by simp [same]⟩
    | cons c more =>
      obtain ⟨rfl, -⟩ := List.cons.inj behind
      simp [same] at blankless

theorem blankless_of_arrow {written : Text × Arrow} (listed : written ∈ arrows) : ' ' ∉ written.1 := by
  have blankless : ∀ written ∈ arrows, ' ' ∉ written.1 := by decide
  exact blankless written listed

namespace WrittenMessage

theorem receiver_visible (m : WrittenMessage) : ∀ c ∈ m.receiver, isBlank c = false :=
  visible_of_identifier m.receiver_identifier

theorem target_visible (m : WrittenMessage) : ∀ c ∈ m.target, isBlank c = false := by
  intro c member
  rcases List.mem_append.mp member with marker | receiver
  · obtain ⟨mark, -, rfl⟩ := Option.map_eq_some_iff.mp (Option.mem_toList.mp marker)
    cases mark <;> decide
  · exact m.receiver_visible c receiver

theorem behindSender_ends (m : WrittenMessage) (t : Text) : EndsVisible (t ++ m.behindSender) := by
  have parts : t ++ m.behindSender =
      (t ++ (m.spelling ++ ' ' :: (m.marker.map Marker.spelling).toList)) ++ m.receiver := by
    simp [behindSender, target]
  rw [parts]
  exact ends_of_identifier m.receiver_identifier _

theorem splitMarker_target (m : WrittenMessage) : splitMarker (' ' :: m.target) = (m.receiver, m.marker) := by
  have ends : EndsVisible m.target := ends_of_identifier m.receiver_identifier _
  have begins : BeginsVisible m.target := by
    cases spelled : m.target with
    | nil => simp [target, ne_nil_of_identifier m.receiver_identifier] at spelled
    | cons c rest => exact ⟨c, rest, rfl, m.target_visible c (spelled ▸ List.mem_cons_self)⟩
  have trimmed : trim (' ' :: m.target) = m.target := trim_of_blank_front allBlank_space begins ends
  have kept : trimStart m.receiver = m.receiver := by
    have visible : BeginsVisible m.receiver := by simpa using begins_of_identifier m.receiver_identifier []
    exact trimStart_of_begins allBlank_nil visible
  rw [splitMarker, trimmed, target]
  rcases marked : m.marker with _ | _ | _
  · have unmarked : ∀ c rest, m.receiver = c :: rest → c ≠ '+' ∧ c ≠ '-' := by
      intro c rest named
      have identifier := m.receiver_identifier
      have start := m.receiver_start
      constructor
      · rintro rfl
        exact not_mem_of_identifier identifier (by decide) (named ▸ List.mem_cons_self)
      · rintro rfl
        simp [named] at start
    rw [Option.map_none, Option.toList_none, List.nil_append]
    split
    · next rest named => exact absurd rfl (unmarked _ rest named).1
    · next rest named => exact absurd rfl (unmarked _ rest named).2
    · rfl
  · simp [Marker.spelling, kept]
  · simp [Marker.spelling, kept]

/-- An arrow is written with at least two characters, none of which is blank. -/
theorem spelling_cons (m : WrittenMessage) :
    ∃ c c' rest, m.spelling = c :: c' :: rest ∧ ∀ x ∈ c :: c' :: rest, isBlank x = false := by
  have shapes : ∀ written ∈ arrows, 2 ≤ written.1.length ∧ ∀ x ∈ written.1, isBlank x = false := by decide
  obtain ⟨long, visible⟩ := shapes _ m.listed
  match spelled : m.spelling, long, visible with
  | c :: c' :: rest, _, visible => exact ⟨c, c', rest, rfl, visible⟩

/-- The arrow of the message behind an arrow in the sender makes no name of a receiver, as a blank follows it. -/
theorem route?_of_early (visible : ∀ c ∈ u, isBlank c = false) :
    route? before arrow (u ++ ' ' :: m.behindSender) = none := by
  obtain ⟨a, b, rest, spelled, shown⟩ := m.spelling_cons
  have begins : BeginsVisible m.behindSender :=
    ⟨a, b :: rest ++ ' ' :: m.target, by simp [behindSender, spelled], shown a (by simp)⟩
  refine route?_eq_none (c := ' ') (by decide) (mem_splitMarker ?_)
  cases u with
  | nil =>
    have trimmed : trim ([] ++ ' ' :: m.behindSender) = m.behindSender :=
      trim_of_blank_front allBlank_space begins (m.behindSender_ends [])
    have tail : m.behindSender.tail = b :: rest ++ ' ' :: m.target := by simp [behindSender, spelled]
    have kept : trimStart (b :: rest ++ ' ' :: m.target) = b :: rest ++ ' ' :: m.target :=
      trimStart_of_begins allBlank_nil ⟨b, rest ++ ' ' :: m.target, rfl, shown b (by simp)⟩
    rw [trimmed, tail, kept]
    simp
  | cons x u =>
    have parts : x :: u ++ ' ' :: m.behindSender = (x :: u ++ [' ']) ++ m.behindSender := by simp
    have trimmed : trim (x :: u ++ ' ' :: m.behindSender) = x :: u ++ ' ' :: m.behindSender := by
      refine trim_of_visible ⟨x, u ++ ' ' :: m.behindSender, rfl, visible x List.mem_cons_self⟩ ?_
      rw [parts]
      exact m.behindSender_ends _
    have tail : (x :: u ++ ' ' :: m.behindSender).tail = (u ++ [' ']) ++ m.behindSender := by simp
    rw [trimmed, tail]
    exact (suffix_trimStart (u ++ [' ']) begins).subset (by simp [behindSender])

/-- No arrow that begins in the sender makes a route. -/
theorem none_early (m : WrittenMessage) (before : Text) (visible : ∀ c ∈ u, isBlank c = false) :
    (arrows.findSome? fun written =>
      (dropStart? written.1 (u ++ ' ' :: m.behindSender)).bind fun after => route? before written.2 after) = none := by
  refine List.findSome?_eq_none_iff.mpr fun written listed => ?_
  cases found : dropStart? written.1 (u ++ ' ' :: m.behindSender) with
  | none => rfl
  | some after =>
    have whole := dropStart?_eq_some_iff.mp found
    obtain ⟨rest, rfl⟩ := prefix_of_blankless (blankless_of_arrow listed) ⟨after, whole.symm⟩
    obtain rfl : rest ++ ' ' :: m.behindSender = after := by simpa using whole
    exact route?_of_early fun c member => visible c (List.mem_append_right _ member)

/-- The arrow behind the first blank makes the route of the message, and no arrow that is longer begins there. -/
theorem found_behind (m : WrittenMessage) :
    (arrows.findSome? fun written =>
      (dropStart? written.1 m.behindSender).bind fun after => route? (m.sender ++ [' ']) written.2 after) =
        some m.route := by
  have ordered : arrows.Pairwise fun longer shorter => ¬ longer.1 <+: shorter.1 := by decide
  obtain ⟨front, back, split⟩ := List.append_of_mem m.listed
  rw [split] at ordered
  refine List.findSome?_eq_some_iff.mpr ⟨front, (m.spelling, m.arrow), back, split, ?_, ?_⟩
  · have here : dropStart? m.spelling m.behindSender = some (' ' :: m.target) := dropStart?_eq_some_iff.mpr rfl
    have sender : trim (m.sender ++ [' ']) = m.sender := by
      have begins : BeginsVisible m.sender := by simpa using begins_of_identifier m.sender_identifier []
      exact trim_of_blank_end begins (by simpa using ends_of_identifier m.sender_identifier []) allBlank_space
    simp only [here, Option.bind_some, route?, m.splitMarker_target, sender, m.sender_identifier, m.receiver_identifier]
    rfl
  · intro written listed
    -- An arrow that is tried before it and begins here too would begin it, but longer arrows are tried first.
    have unbegun : dropStart? written.1 m.behindSender = none := by
      by_contra begun
      obtain ⟨after, found⟩ := Option.ne_none_iff_exists'.mp begun
      have inside : written.1 <+: m.spelling ++ ' ' :: m.target := prefix_of_dropStart? found
      have arrow_listed : written ∈ arrows := split ▸ List.mem_append_left _ listed
      have within := prefix_of_blankless (blankless_of_arrow arrow_listed) inside
      exact (List.pairwise_append.mp ordered).2.2 written listed _ List.mem_cons_self within
    rw [unbegun]
    rfl

/-- Whatever the sender looks like, the route is found at the arrow between the blanks. -/
theorem routeFrom?_behind {seen rest : Text} (split : seen.reverse ++ rest = m.sender) :
    routeFrom? seen (rest ++ ' ' :: m.behindSender) = some m.route := by
  -- By induction on what is left of the sender: no arrow makes a route before the blank behind it.
  induction rest generalizing seen with
  | nil =>
    obtain ⟨a, b, more, spelled, -⟩ := m.spelling_cons
    have early := m.none_early seen.reverse (u := []) nofun
    have written : m.behindSender = a :: (b :: more ++ ' ' :: m.target) := by simp [behindSender, spelled]
    have found := m.found_behind
    rw [List.nil_append] at early
    rw [List.nil_append, routeFrom?, early]
    rw [written] at found ⊢
    rw [routeFrom?, List.reverse_cons, show seen.reverse = m.sender by simpa using split, found]
  | cons c rest ih =>
    have visible : ∀ x ∈ c :: rest, isBlank x = false := by
      intro x member
      refine visible_of_identifier m.sender_identifier x ?_
      rw [← split]
      exact List.mem_append_right _ member
    have early := m.none_early seen.reverse visible
    rw [List.cons_append] at early ⊢
    rw [routeFrom?, early]
    exact ih (by simpa using split)

/-! ### The line of a message -/

theorem headAndLabel_written (m : WrittenMessage) : headAndLabel m.written = (m.head, some m.text) := by
  have marks : ∀ written ∈ arrows, ∀ c ∈ written.1, c ≠ ':' ∧ c ≠ '"' := by decide
  have name {id : Text} (identifier : isIdentifier id = true) : ∀ c ∈ id, c ≠ ':' ∧ c ≠ '"' := by
    intro c member
    constructor
    · rintro rfl
      exact not_mem_of_identifier identifier (by decide) member
    · rintro rfl
      exact not_mem_of_identifier identifier (by decide) member
  have marker : ∀ c ∈ (m.marker.map Marker.spelling).toList, c ≠ ':' ∧ c ≠ '"' := by
    rcases m.marker with _ | _ | _ <;> decide
  have plain : ∀ c ∈ m.head, c ≠ ':' ∧ c ≠ '"' := by
    simp only [head, behindSender, target, List.forall_mem_append, List.forall_mem_cons]
    exact ⟨name m.sender_identifier, by decide, marks _ m.listed, by decide, marker, name m.receiver_identifier⟩
  have ends : EndsVisible m.head := by
    have parts : m.head = (m.sender ++ [' ']) ++ m.behindSender := by simp [head]
    rw [parts]
    exact m.behindSender_ends _
  have trimmed : trim (' ' :: m.text) = m.text :=
    trim_of_blank_front allBlank_space (begins_of_trim m.text_filled m.text_trimmed)
      (ends_of_trim m.text_filled m.text_trimmed)
  rw [written, Text.headAndLabel_written plain ends, trimmed]

end WrittenMessage

/-- A line that is written as a message is one, and it is read as this message and nothing else, whatever was read
before it. -/
theorem written_message_read (m : WrittenMessage) (d : Draft) (number : Nat) {raw : Text} (written : trim raw = m.written) :
    Zone.content.line? number raw = some (.ofRaw number raw) ∧
      readLine rules d (.ofRaw number raw) = .ok { d with
        messages := d.messages ++ [m.message (Line.ofRaw number raw).position]
        activations := d.activations ++ (m.route.activation? (Line.ofRaw number raw).position).toList } := by
  have text : (Line.ofRaw number raw).text = m.sender ++ ' ' :: (m.behindSender ++ ':' :: ' ' :: m.text) := by
    rw [Line.ofRaw, written]
    simp [WrittenMessage.written, WrittenMessage.head]
  have unkeyed : isKeyed (Line.ofRaw number raw).text = false := by
    rw [text]
    exact unkeyed_of_free m.sender_identifier m.sender_free _
  have sent : messageLine d (.ofRaw number raw) = (Except.ok { d with
      messages := d.messages ++ [m.message (Line.ofRaw number raw).position]
      activations := d.activations ++ (m.route.activation? (Line.ofRaw number raw).position).toList }).map some := by
    have found : routeFrom? [] m.head = some m.route := m.routeFrom?_behind rfl
    have filled : trimmed? m.text = some m.text := trimmed?_of_tight m.text_filled m.text_trimmed
    have cut : headAndLabel (Line.ofRaw number raw).text = (m.head, some m.text) := by
      rw [Line.ofRaw, written]
      exact m.headAndLabel_written
    simp only [messageLine, cut, found, Option.bind_some, filled]
    rfl
  refine ⟨?_, readLine_of_first (firstTaking_of_unkeyed unkeyed) sent⟩
  have spoken : ¬ IsSilent raw := by
    obtain ⟨c, rest, named⟩ := List.exists_cons_of_ne_nil (ne_nil_of_identifier m.sender_identifier)
    have begun : trim raw = c :: (rest ++ ' ' :: (m.behindSender ++ ':' :: ' ' :: m.text)) := by
      rw [← List.cons_append, ← named]
      exact text
    refine not_silent_of_begins begun ?_
    rintro rfl
    exact not_mem_of_identifier m.sender_identifier (by decide) (named ▸ List.mem_cons_self)
  exact Zone.content_line? spoken number

/-- A message whose names and text hold what looks like arrows, with a marker that does, too. -/
def fragments : WrittenMessage where
  sender := "a-x.b--x".toList
  spelling := "-x".toList
  arrow := ⟨false, .cross⟩
  marker := some .deactivate
  receiver := "x-web-xapi".toList
  text := "c: -->> d".toList
  sender_identifier := by decide +kernel
  sender_free := by decide
  listed := by decide
  receiver_identifier := by decide +kernel
  receiver_start := by decide
  text_filled := by decide
  text_trimmed := by decide

theorem written_message_read_fragments :
    trim "  a-x.b--x -x -x-web-xapi: c: -->> d ".toList = fragments.written ∧
      readLine rules {} (.ofRaw 2 "  a-x.b--x -x -x-web-xapi: c: -->> d ".toList) = .ok {
        messages := [⟨"a-x.b--x".toList, "x-web-xapi".toList, ⟨false, .cross⟩, some .deactivate,
          some "c: -->> d".toList, ⟨2, 3⟩⟩]
        activations := [⟨"a-x.b--x".toList, false, ⟨2, 3⟩⟩] } := by
  have written : trim "  a-x.b--x -x -x-web-xapi: c: -->> d ".toList = fragments.written := by decide
  exact ⟨written, (written_message_read fragments {} 2 written).2⟩

end DiagramLint.SequenceDiagram
