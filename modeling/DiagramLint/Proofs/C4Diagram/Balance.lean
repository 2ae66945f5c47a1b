import DiagramLint.Proofs.C4Diagram.Calls
import DiagramLint.Proofs.C4Diagram.Derivation
import Mathlib.Data.List.Induction
import Mathlib.Data.List.Infix

/-!
Lines that are in order by themselves, and their braces. The lookahead for the end of a boundary
counts every line that ends with an opening brace, and so a title that ends with one, while only a
call of a boundary opens a scope. A body whose boundaries are all closed is therefore read when no
such title stands within a boundary; else, and where a boundary stays open, a boundary is reported
as never closed (`read_written`).
-/
namespace DiagramLint.C4Diagram

open Text

/-- What some lines of a body are by themselves. -/
inductive Entry where
  /-- A title, which may end with an opening brace. -/
  | title (braced : Bool)
  /-- A call without a body. -/
  | call
  /-- A call of a boundary with its opening brace. -/
  | opening (frame : Frame)
  /-- A closing brace alone. -/
  | closing
  deriving DecidableEq, Repr

namespace Entry

/-- The entry opens a boundary. -/
@[simp] def isOpening : Entry → Bool
  | .opening _ => true
  | _ => false

/-- The entry closes a boundary. -/
@[simp] def isClosing : Entry → Bool
  | .closing => true
  | _ => false

/-- The entry ends with an opening brace. -/
@[simp] def isBraced : Entry → Bool
  | .opening _ => true
  | .title braced => braced
  | _ => false

end Entry

/-- The lines of an entry: they are accepted by themselves. -/
inductive Spells : Entry → List Line → Prop where
  | title {line : Line} {title : Text} {braced : Bool}
      (titled : afterKeywordColon? "title" line.text = some title) (ends : opens line = braced) :
      Spells (.title braced) [line]
  | call {line : Line} {called : Call} {alone : Draft} (reads_call : C4Diagram.call line false = .ok called)
      (bodiless : called.hasBody = false) (made : readCall {} line called = .ok alone) : Spells .call [line]
  | opening {line : Line} {called : Call} {kind : BoundaryKind} {frame : Frame}
      (reads_call : C4Diagram.call line false = .ok called) (body : called.hasBody = true)
      (keyword : BoundaryKind.ofKeyword? called.name = some kind) (framed : called.frame line kind = .ok frame) :
      Spells (.opening frame) [line]
  | openingBelow {line brace : Line} {called : Call} {kind : BoundaryKind} {frame : Frame}
      (unbraced : opens line = false) (lone : brace.text = ['{'])
      (reads_call : C4Diagram.call line true = .ok called)
      (keyword : BoundaryKind.ofKeyword? called.name = some kind) (framed : called.frame line kind = .ok frame) :
      Spells (.opening frame) [line, brace]
  | closing {line : Line} (lone : line.text = ['}']) : Spells .closing [line]

/-- Lines that are entries one behind the other. -/
inductive Written : List Entry → List Line → Prop where
  | nil : Written [] []
  | cons {e : Entry} {es : List Entry} {first rest : List Line} (spelled : Spells e first)
      (later : Written es rest) : Written (e :: es) (first ++ rest)

/-- No beginning of the entries has more closings than what is counted in it and what is pending. -/
def Covered (counted : Entry → Bool) (pending : Nat) (es : List Entry) : Prop :=
  ∀ first, first <+: es → first.countP Entry.isClosing ≤ pending + first.countP counted

instance (counted : Entry → Bool) (pending : Nat) (es : List Entry) : Decidable (Covered counted pending es) :=
  decidable_of_iff (∀ first ∈ es.inits, first.countP Entry.isClosing ≤ pending + first.countP counted)
    (by simp [Covered])

/-- Every boundary that is opened is closed. -/
def Even (es : List Entry) : Prop := es.countP Entry.isOpening = es.countP Entry.isClosing

instance (es : List Entry) : Decidable (Even es) :=
  inferInstanceAs (Decidable (es.countP Entry.isOpening = es.countP Entry.isClosing))

/-- No title that ends with an opening brace stands within a boundary. -/
def Clear (es : List Entry) : Prop :=
  ∀ before after, es = before ++ .title true :: after → Even before

/-- A boundary is opened and, going by what is counted, not closed behind that. -/
def LeftOpen (counted : Entry → Bool) (frame : Frame) (es : List Entry) : Prop :=
  ∃ before after, es = before ++ .opening frame :: after ∧ Covered counted 0 after

/-! ### Counts -/

section

variable {counted : Entry → Bool} {pending : Nat} {e : Entry} {es es' : List Entry}

theorem countP_cons_toNat : (e :: es).countP counted = (counted e).toNat + es.countP counted := by
  rw [List.countP_cons]
  cases counted e <;> simp [Nat.add_comm]

theorem countP_isOpening_le (es : List Entry) : es.countP Entry.isOpening ≤ es.countP Entry.isBraced :=
  List.countP_mono_left fun e _ opened => by cases e <;> simp_all

theorem Covered.of_append (covered : Covered counted pending (es ++ es')) : Covered counted pending es :=
  fun first begins => covered first (begins.trans (List.prefix_append es es'))

/-- What is pending behind some entries covers those that follow. -/
theorem Covered.behind {later : Nat} (es : List Entry) (covered : Covered counted pending (es ++ es'))
    (level : pending + es.countP counted = later + es.countP Entry.isClosing) : Covered counted later es' := by
  intro first begins
  have bound := covered (es ++ first) ((List.prefix_append_right_inj es).mpr begins)
  rw [List.countP_append, List.countP_append] at bound
  omega

theorem Covered.whole (covered : Covered counted pending es) :
    es.countP Entry.isClosing ≤ pending + es.countP counted := covered es (List.prefix_refl es)

/-- The first closing that is not covered has a balanced beginning in front of it. -/
theorem exists_closing_of_not_covered (uncovered : ¬ Covered counted 0 es) :
    ∃ inner after, es = inner ++ .closing :: after ∧ Covered counted 0 inner ∧
      inner.countP counted = inner.countP Entry.isClosing := by
  induction es using List.reverseRecOn with
  | nil => exact absurd (fun first begins => by simp [List.prefix_nil.mp begins]) uncovered
  | append_singleton es e ih =>
    by_cases covered : Covered counted 0 es
    · -- only the whole can have too many closings
      have excess : ¬ (es ++ [e]).countP Entry.isClosing ≤ 0 + (es ++ [e]).countP counted := by
        intro bound
        refine uncovered fun first begins => ?_
        rcases List.prefix_concat_iff.mp begins with rfl | shorter
        · exact bound
        · exact covered first shorter
      have level := covered.whole
      simp only [List.countP_append, countP_cons_toNat, List.countP_nil] at excess
      cases e with
      | closing =>
        simp only [Entry.isClosing, Bool.toNat_true] at excess
        exact ⟨es, [], rfl, covered, by omega⟩
      | title | call | opening =>
        simp only [Entry.isClosing, Bool.toNat_false] at excess
        omega
    · obtain ⟨inner, after, split, inner_covered, even⟩ := ih covered
      exact ⟨inner, after ++ [e], by rw [split, List.append_assoc]; rfl, inner_covered, even⟩

/-- With no brace that opens no boundary, what braces cover the openings cover. -/
theorem Covered.openings (covered : Covered Entry.isBraced pending es)
    (plain : es.countP Entry.isBraced ≤ es.countP Entry.isOpening) : Covered Entry.isOpening pending es := by
  rintro first ⟨rest, rfl⟩
  have bound := covered first (List.prefix_append first rest)
  have fewer := countP_isOpening_le rest
  rw [List.countP_append, List.countP_append] at plain
  omega

/-- A boundary that is left open has too few closings behind it. -/
theorem LeftOpen.lt_of_covered {frame : Frame} (unclosed : LeftOpen counted frame es) (covered : Covered counted 0 es)
    (counts : counted (.opening frame) = true) : es.countP Entry.isClosing < es.countP counted := by
  obtain ⟨before, after, rfl, covered_after⟩ := unclosed
  have bound := covered.of_append.whole
  have bound_after := covered_after.whole
  simp only [List.countP_append, countP_cons_toNat, counts, Entry.isClosing, Bool.toNat_true, Bool.toNat_false]
  omega

/-- Entries in front of a closing that the openings cover, if they end where the lookahead does: no
other brace is among them, and the openings cover what follows. -/
theorem Covered.of_cut {frame : Frame} {inner after : List Entry}
    (steady : Covered Entry.isOpening 0 (.opening frame :: inner ++ .closing :: after))
    (even : inner.countP Entry.isBraced = inner.countP Entry.isClosing) :
    inner.countP Entry.isBraced = inner.countP Entry.isOpening ∧ Covered Entry.isOpening 0 after := by
  have regroup : Entry.opening frame :: inner ++ .closing :: after =
      (Entry.opening frame :: inner ++ [Entry.closing]) ++ after := by simp
  rw [regroup] at steady
  have bound := steady.of_append.whole
  have fewer := countP_isOpening_le inner
  have closings : (Entry.opening frame :: inner ++ [Entry.closing]).countP Entry.isClosing =
      inner.countP Entry.isClosing + 1 := by simp
  have openings : (Entry.opening frame :: inner ++ [Entry.closing]).countP Entry.isOpening =
      inner.countP Entry.isOpening + 1 := by simp [countP_cons_toNat, Nat.add_comm]
  have plain : inner.countP Entry.isBraced = inner.countP Entry.isOpening := by omega
  exact ⟨plain, steady.behind _ (by omega)⟩

/-! ### Titles within boundaries -/

theorem Clear.append (first : Clear es) (even : Even es) (later : Clear es') : Clear (es ++ es') := by
  intro before after split
  rcases List.append_eq_append_iff.mp split with ⟨middle, rfl, behind⟩ | ⟨middle, rfl, behind⟩
  · have inner := later middle after behind
    unfold Even at *
    rw [List.countP_append, List.countP_append, even, inner]
  · cases middle with
    | nil =>
      rw [List.append_nil] at even
      exact even
    | cons e middle =>
      obtain ⟨rfl, rfl⟩ := List.cons.inj behind
      exact first before middle rfl

theorem clear_singleton (e : Entry) : Clear [e] := by
  intro before after split
  cases before with
  | nil => rfl
  | cons first before => simp at split

/-- Entries without a title that ends with an opening brace. -/
theorem clear_of_countP (plain : es.countP Entry.isBraced ≤ es.countP Entry.isOpening) : Clear es := by
  rintro before after rfl
  have first := countP_isOpening_le before
  have second := countP_isOpening_le after
  simp only [List.countP_append, countP_cons_toNat, Entry.isBraced, Entry.isOpening, Bool.toNat_true,
    Bool.toNat_false] at plain
  omega

/-- A boundary that no brace closes is one that no closing closes, if no title stands in the way. -/
theorem LeftOpen.of_clear {frame : Frame} (unclosed : LeftOpen Entry.isBraced frame es)
    (steady : Covered Entry.isOpening 0 es) (clear : Clear es) : LeftOpen Entry.isOpening frame es := by
  obtain ⟨before, after, rfl, covered⟩ := unclosed
  have bound := steady.of_append.whole
  have plain : ∀ first, first <+: after → first.countP Entry.isBraced = first.countP Entry.isOpening := by
    intro first
    induction first using List.reverseRecOn with
    | nil => exact fun _ => rfl
    | append_singleton first e ih =>
      intro begins
      have shorter := (List.prefix_append first [e]).trans begins
      have same := ih shorter
      cases e with
      | title braced =>
        cases braced with
        | false => simpa using same
        | true =>
          -- such a title has as many closings as openings before it, and one boundary more
          obtain ⟨rest, rfl⟩ := begins
          have even := clear (before ++ .opening frame :: first) rest (by simp)
          have level := covered first shorter
          simp only [Even, List.countP_append, countP_cons_toNat, Entry.isOpening, Entry.isClosing, Bool.toNat_true,
            Bool.toNat_false] at even
          omega
      | call | opening | closing => simpa using same
  refine ⟨before, after, rfl, fun first begins => ?_⟩
  rw [← plain first begins]
  exact covered first begins

end

/-! ### The lines of entries -/

section

variable {line : Line} {e : Entry} {es es' : List Entry} {first rest lines : List Line}

theorem closes_of_lone_close (lone : line.text = ['}']) : opens line = false ∧ closes line = true := by
  rw [opens, closes, lone]
  decide

theorem apart_of_title {title : Text} (titled : afterKeywordColon? "title" line.text = some title) :
    closes line = false ∧ line.text ≠ ['{'] := by
  have begins := prefix_of_afterKeywordColon? titled
  constructor
  · exact not_closes_of_not_prefix (not_prefix_of_apart begins (by decide))
  · intro lone
    rw [lone] at begins
    exact absurd begins (by decide)

/-- No entry begins with an opening brace alone. -/
theorem Spells.not_braceFollows (spelled : Spells e first) : braceFollows (first ++ rest) = false := by
  have other : ∀ {line : Line} {behind : List Line}, line.text ≠ ['{'] →
      braceFollows (line :: behind) = false := by
    intro line behind different
    simp [braceFollows, different]
  cases spelled with
  | title titled _ => exact other (apart_of_title titled).2
  | call reads_call _ made => exact other (apart_of_call reads_call (beginsUpper_of_readCall made)).2.2
  | opening reads_call _ keyword => exact other (apart_of_call reads_call (beginsUpper_of_boundary keyword)).2.2
  | openingBelow _ _ reads_call keyword =>
    exact other (apart_of_call reads_call (beginsUpper_of_boundary keyword)).2.2
  | closing lone => exact other (by rw [lone]; decide)

theorem Written.not_braceFollows (written : Written es lines) : braceFollows lines = false := by
  cases written with
  | nil => rfl
  | cons spelled later => exact spelled.not_braceFollows

/-- Entries one behind the other are taken apart with their lines. -/
theorem Written.split (written : Written (es ++ es') lines) :
    ∃ before behind, lines = before ++ behind ∧ Written es before ∧ Written es' behind := by
  induction es generalizing lines with
  | nil => exact ⟨[], lines, rfl, .nil, written⟩
  | cons e es ih =>
    cases written with
    | @cons _ _ first rest spelled later =>
      obtain ⟨before, behind, rfl, written_before, written_behind⟩ := ih later
      exact ⟨first ++ before, behind, (List.append_assoc ..).symm, .cons spelled written_before, written_behind⟩

theorem Written.split_closing (written : Written (es ++ .closing :: es') lines) :
    ∃ before close behind, lines = before ++ close :: behind ∧ close.text = ['}'] ∧
      Written es before ∧ Written es' behind := by
  obtain ⟨before, closed, rfl, written_before, written_close⟩ := written.split
  cases written_close with
  | cons spelled written_behind =>
    cases spelled with
    | closing lone => exact ⟨before, _, _, rfl, lone, written_before, written_behind⟩

/-! ### The lookahead -/

theorem cutScope?_of_opens {pending : Nat} (opening : opens line = true) :
    cutScope? pending (line :: rest) = (cutScope? (pending + 1) rest).map (Prod.map (line :: ·) id) := by
  rw [cutScope?.eq_def]
  dsimp only
  rw [if_pos opening]
  rfl

theorem cutScope?_of_aside {pending : Nat} (unopened : opens line = false) (unclosed : closes line = false) :
    cutScope? pending (line :: rest) = (cutScope? pending rest).map (Prod.map (line :: ·) id) := by
  rw [cutScope?.eq_def]
  simp only [unopened, unclosed]
  rfl

/-- The lookahead passes an entry with the count of its braces, unless the entry ends the scope. -/
theorem Spells.cutScope? {pending later : Nat} (spelled : Spells e first)
    (level : pending + e.isBraced.toNat = later + e.isClosing.toNat) :
    C4Diagram.cutScope? pending (first ++ rest) =
      (C4Diagram.cutScope? later rest).map (Prod.map (first ++ ·) id) := by
  cases spelled with
  | @title line title braced titled ends =>
    obtain ⟨unclosed, _⟩ := apart_of_title titled
    cases braced with
    | true =>
      obtain rfl : pending + 1 = later := level
      exact cutScope?_of_opens ends
    | false =>
      obtain rfl : pending = later := level
      exact cutScope?_of_aside ends unclosed
  | @call line c alone reads_call bodiless made =>
    obtain ⟨unclosed, _⟩ := apart_of_call reads_call (beginsUpper_of_readCall made)
    have unopened : opens line = false := by simpa [bodiless] using (call_inv reads_call).2
    obtain rfl : pending = later := level
    exact cutScope?_of_aside unopened unclosed
  | @opening line c kind frame reads_call body keyword framed =>
    have braced : opens line = true := by simpa [body] using (call_inv reads_call).2
    obtain rfl : pending + 1 = later := level
    exact cutScope?_of_opens braced
  | @openingBelow line brace c kind frame unbraced lone reads_call keyword framed =>
    obtain ⟨unclosed, _⟩ := apart_of_call reads_call (beginsUpper_of_boundary keyword)
    have braced : opens brace = true := by rw [opens, lone]; decide
    obtain rfl : pending + 1 = later := level
    rw [List.cons_append, cutScope?_of_aside unbraced unclosed, List.cons_append, cutScope?_of_opens braced,
      Option.map_map]
    rfl
  | @closing line lone =>
    obtain ⟨unopened, closing⟩ := closes_of_lone_close lone
    obtain rfl : pending = later + 1 := level
    rw [List.singleton_append, C4Diagram.cutScope?.eq_def]
    simp only [unopened, closing]
    rfl

/-- The lookahead passes entries whose closings are all covered by braces. -/
theorem Written.cutScope? {pending later : Nat} (written : Written es lines)
    (covered : Covered Entry.isBraced pending es)
    (level : pending + es.countP Entry.isBraced = later + es.countP Entry.isClosing) (behind : List Line) :
    C4Diagram.cutScope? pending (lines ++ behind) =
      (C4Diagram.cutScope? later behind).map (Prod.map (lines ++ ·) id) := by
  induction written generalizing pending with
  | nil =>
    obtain rfl : pending = later := by simpa using level
    exact (Option.map_id' ..).symm
  | @cons e es first rest spelled written ih =>
    have bound := covered [e] (List.prefix_append [e] es)
    obtain ⟨mid, step⟩ : ∃ mid, pending + [e].countP Entry.isBraced = mid + [e].countP Entry.isClosing :=
      ⟨_, (Nat.sub_add_cancel bound).symm⟩
    have inner := covered.behind [e] step
    simp only [countP_cons_toNat, List.countP_nil, Nat.add_zero] at step level
    rw [List.append_assoc, spelled.cutScope? step, ih inner (by omega), Option.map_map]
    congr 1
    funext cut
    simp only [List.append_assoc]
    rfl

/-- Entries whose closings are all covered by braces do not end a scope. -/
theorem Written.cutScope?_eq_none (written : Written es lines) (covered : Covered Entry.isBraced 0 es) :
    C4Diagram.cutScope? 0 lines = none := by
  have bound := covered.whole
  have passed := written.cutScope? covered (Nat.sub_add_cancel bound).symm []
  rw [List.append_nil] at passed
  rw [passed]
  rfl

/-- The lookahead ends at the first closing brace that no brace in the scope covers. -/
theorem Written.cutScope?_eq_some {close : Line} (written : Written es lines)
    (covered : Covered Entry.isBraced 0 es) (even : es.countP Entry.isBraced = es.countP Entry.isClosing)
    (lone : close.text = ['}']) (behind : List Line) :
    C4Diagram.cutScope? 0 (lines ++ close :: behind) = some (lines, behind) := by
  obtain ⟨unopened, closing⟩ := closes_of_lone_close lone
  rw [written.cutScope? covered (by rw [even]), C4Diagram.cutScope?.eq_def]
  simp [unopened, closing]

/-! ### The reader -/

/-- A title or a call without a body is read, whatever has been read before. -/
theorem Spells.readScope_inside (spelled : Spells e first) (behind : braceFollows rest = false)
    (inside : e.isOpening = false) (open_entry : e.isClosing = false) (d : Draft) :
    ∃ d', readScope d (first ++ rest) = readScope d' rest := by
  cases spelled with
  | title titled _ => exact ⟨_, readScope_title (apart_of_title titled).1 titled⟩
  | @call line c alone reads_call bodiless made =>
    obtain ⟨unclosed, untitled, _⟩ := apart_of_call reads_call (beginsUpper_of_readCall made)
    obtain ⟨mid, made_here⟩ := exists_readCall made d
    refine ⟨mid, ?_⟩
    rw [List.singleton_append, readScope_call unclosed untitled (by rw [behind]; exact reads_call) bodiless, made_here]
    rfl
  | opening | openingBelow => exact nomatch inside
  | closing => exact nomatch open_entry

/-- A boundary is read by the lookahead behind its opening brace. -/
theorem Spells.readScope_opening {frame : Frame} (spelled : Spells (.opening frame) first)
    (behind : braceFollows rest = false) (d : Draft) :
    readScope d (first ++ rest) = match C4Diagram.cutScope? 0 rest with
      | none => .error ((Fault.boundaryUnclosed frame.id).at frame.position)
      | some (within, after) =>
        (readScope d.enter within).bind fun inner => readScope (d.leave frame inner) after := by
  cases spelled with
  | @opening line c kind _ reads_call body keyword framed =>
    obtain ⟨unclosed, untitled, _⟩ := apart_of_call reads_call (beginsUpper_of_boundary keyword)
    have braced : opens line = true := by simpa [body] using (call_inv reads_call).2
    have here : C4Diagram.call line (braceFollows rest) = .ok c := by rw [behind]; exact reads_call
    rw [List.singleton_append, readScope_boundary unclosed untitled here body keyword framed, scopeBelow?, behind,
      position_of_frame framed]
    rfl
  | @openingBelow line brace c kind _ unbraced lone reads_call keyword framed =>
    obtain ⟨unclosed, untitled, _⟩ := apart_of_call reads_call (beginsUpper_of_boundary keyword)
    have body : c.hasBody = true := by simpa using (call_inv reads_call).2
    have below : braceFollows (brace :: rest) = true := by simp [braceFollows, lone]
    have here : C4Diagram.call line (braceFollows (brace :: rest)) = .ok c := by rw [below]; exact reads_call
    rw [List.cons_append, List.singleton_append, readScope_boundary unclosed untitled here body keyword framed,
      scopeBelow?, below, unbraced, position_of_frame framed]
    rfl

/-- What becomes of entries that close no boundary before it is opened: they are read, or a boundary
is never closed going by the braces. -/
inductive Outcome (es : List Entry) : Except ParseError Draft → Prop where
  | read {d : Draft} (even : Even es) (clear : Clear es) : Outcome es (.ok d)
  | leftOpen {frame : Frame} (unclosed : LeftOpen Entry.isBraced frame es) :
      Outcome es (.error ((Fault.boundaryUnclosed frame.id).at frame.position))

theorem Outcome.behind {result : Except ParseError Draft} (es : List Entry) (outcome : Outcome es' result)
    (even : Even es) (clear : Clear es) : Outcome (es ++ es') result := by
  cases outcome with
  | read even' clear' =>
    refine .read ?_ (clear.append even clear')
    rw [Even, List.countP_append, List.countP_append, even, even']
  | leftOpen unclosed =>
    obtain ⟨before, after, rfl, covered⟩ := unclosed
    exact .leftOpen ⟨es ++ before, after, (List.append_assoc ..).symm, covered⟩

/-- Entries are read one by one, and a boundary with the entries in it at once: the induction is on
how many there are. -/
theorem Written.readScope (written : Written es lines) (steady : Covered Entry.isOpening 0 es) (d : Draft) :
    Outcome es (C4Diagram.readScope d lines) := by
  induction size : es.length using Nat.strongRecOn generalizing es lines d with
  | ind n ih =>
    cases written with
    | nil =>
      rw [C4Diagram.readScope]
      exact .read rfl fun before after split => by simp at split
    | @cons e es first rest spelled written =>
      have unbraced := written.not_braceFollows
      have shorter : es.length < n := by simp [← size]
      cases e with
      | closing => exact absurd (steady [.closing] (List.prefix_append [_] es)) (by decide)
      | title braced =>
        obtain ⟨d', same⟩ := spelled.readScope_inside unbraced rfl rfl d
        have later := ih _ shorter written (steady.behind [.title braced] rfl) d' rfl
        rw [same]
        exact later.behind [.title braced] rfl (clear_singleton _)
      | call =>
        obtain ⟨d', same⟩ := spelled.readScope_inside unbraced rfl rfl d
        have later := ih _ shorter written (steady.behind [.call] rfl) d' rfl
        rw [same]
        exact later.behind [.call] rfl (clear_singleton _)
      | opening frame =>
        rw [spelled.readScope_opening unbraced d]
        by_cases covered : Covered Entry.isBraced 0 es
        · rw [written.cutScope?_eq_none covered]
          exact .leftOpen ⟨[], es, rfl, covered⟩
        · obtain ⟨inner, after, rfl, covered_inner, even⟩ := exists_closing_of_not_covered covered
          obtain ⟨within, close, behind, rfl, lone, written_inner, written_after⟩ := written.split_closing
          obtain ⟨plain, steady_after⟩ := steady.of_cut even
          have bound : inner.length < n ∧ after.length < n := by
            simp only [List.length_append, List.length_cons] at shorter
            omega
          have inside := ih _ bound.1 written_inner (covered_inner.openings plain.le) d.enter rfl
          rw [written_inner.cutScope?_eq_some covered_inner even lone behind]
          dsimp only
          cases made : C4Diagram.readScope d.enter within with
          | error e =>
            -- the lookahead ends where no brace is left to close
            rw [made] at inside
            cases inside with
            | leftOpen unclosed => exact absurd (unclosed.lt_of_covered covered_inner rfl) (by omega)
          | ok filled =>
            have later := ih _ bound.2 written_after steady_after (d.leave frame filled) rfl
            have split : Entry.opening frame :: (inner ++ .closing :: after) =
                (Entry.opening frame :: inner ++ [Entry.closing]) ++ after := by simp
            rw [split]
            refine later.behind _ ?_ (clear_of_countP ?_)
            · simp [Even, countP_cons_toNat, ← plain, even, Nat.add_comm]
            · simp [countP_cons_toNat, plain]

end

/-! ### Diagrams -/

/-- A header of its keyword alone leaves the body to be read as one scope. -/
theorem read_of_bareHeader {s : Source} {header : Line} {kind : Kind} (first : s.header? = some header)
    (c4 : kind.isC4 = true) (bare : header.text = kind.keyword.toList) :
    read s = (readScope {} s.body).map fun d =>
      ⟨s.header kind header, d.title, d.elements, d.boundaries, d.relationships, d.styles⟩ := by
  have matched : s.headerWith ((Kind.all.filter Kind.isC4).map Kind.keyword) = .ok (header, kind.keyword, []) := by
    rw [Source.headerWith, Source.headerLine, first]
    cases kind <;> simp [Kind.isC4] at c4
    all_goals
      dsimp only [bind, Except.bind]
      rw [bare]
      rfl
  rw [read, matched]
  dsimp only [bind, Except.bind]
  have found : (Kind.all.filter Kind.isC4).find? (fun k => k.keyword = kind.keyword) = some kind := by
    cases kind <;> simp [Kind.isC4] at c4 <;> rfl
  rw [found]
  dsimp only
  cases readScope {} s.body <;> rfl

/-- A source of entries is read if every boundary is closed and no title within one ends with an
opening brace; else a boundary that braces leave open is reported, and with no such title it is one
that is not closed. -/
theorem read_written {s : Source} {header : Line} {kind : Kind} {es : List Entry} (first : s.header? = some header)
    (c4 : kind.isC4 = true) (bare : header.text = kind.keyword.toList) (written : Written es s.body)
    (steady : Covered Entry.isOpening 0 es) :
    ((∃ d, read s = .ok d) ↔ Even es ∧ Clear es) ∧
    (¬ (Even es ∧ Clear es) → ∃ frame, LeftOpen Entry.isBraced frame es ∧
      (Clear es → LeftOpen Entry.isOpening frame es) ∧
      read s = .error ((Fault.boundaryUnclosed frame.id).at frame.position)) := by
  rw [read_of_bareHeader first c4 bare]
  have outcome := written.readScope steady {}
  generalize readScope {} s.body = result at outcome
  cases outcome with
  | read even clear =>
    constructor
    · exact ⟨fun _ => ⟨even, clear⟩, fun _ => ⟨_, rfl⟩⟩
    · exact fun refused => absurd ⟨even, clear⟩ refused
  | @leftOpen frame unclosed =>
    constructor
    · constructor
      · rintro ⟨d, accepted⟩
        exact nomatch accepted
      · rintro ⟨even, clear⟩
        have excess := (unclosed.of_clear steady clear).lt_of_covered steady rfl
        exact absurd even (Nat.ne_of_gt excess)
    · intro _
      exact ⟨frame, unclosed, unclosed.of_clear steady, rfl⟩

/-- A boundary with an id and a label. -/
def labelled (id label : Text) (line : Nat) : Frame :=
  ⟨.plain, id, none, ⟨some label, none, none, none, none⟩, ⟨line, 1⟩⟩

theorem spells_bracedTitle (line : Nat) : Spells (.title true) [.ofRaw line "title A \x7b".toList] := by
  have titled : afterKeywordColon? "title" (Line.ofRaw line "title A \x7b".toList).text = some "A \x7b".toList := rfl
  exact .title titled rfl

theorem spells_boundary (line : Nat) :
    Spells (.opening (labelled "b".toList "B".toList line)) [.ofRaw line "Boundary(b, \"B\") \x7b".toList] := by
  let c : Call := ⟨"Boundary".toList, ["b".toList, "B".toList], true⟩
  have called : call (.ofRaw line "Boundary(b, \"B\") \x7b".toList) false = .ok c := by with_unfolding_all rfl
  have keyword : BoundaryKind.ofKeyword? c.name = some .plain := by decide
  have framed : c.frame (.ofRaw line "Boundary(b, \"B\") \x7b".toList) .plain =
      .ok (labelled "b".toList "B".toList line) := rfl
  exact .opening called rfl keyword framed

theorem spells_close (line : Nat) : Spells .closing [.ofRaw line "\x7d".toList] := .closing rfl

/-- A title that ends with an opening brace, a boundary that is closed, and one that is not. -/
def openBoundary : Text :=
  "C4Context\ntitle A \x7b\nBoundary(b, \"B\") \x7b\n\x7d\nBoundary(c, \"C\")\n\x7b\nRel(p, q)".toList

theorem read_written_openBoundary : ∃ es, Written es (Source.ofText openBoundary 0).body ∧
    ∃ frame, LeftOpen Entry.isOpening frame es ∧
      read (Source.ofText openBoundary 0) = .error ((Fault.boundaryUnclosed frame.id).at frame.position) := by
  let es : List Entry := [.title true, .opening (labelled "b".toList "B".toList 3), .closing,
    .opening (labelled "c".toList "C".toList 5), .call]
  have below : Spells (.opening (labelled "c".toList "C".toList 5))
      [.ofRaw 5 "Boundary(c, \"C\")".toList, .ofRaw 6 "\x7b".toList] := by
    let c : Call := ⟨"Boundary".toList, ["c".toList, "C".toList], true⟩
    have called : C4Diagram.call (.ofRaw 5 "Boundary(c, \"C\")".toList) true = .ok c := by decide +kernel
    have keyword : BoundaryKind.ofKeyword? c.name = some .plain := by decide
    have framed : c.frame (.ofRaw 5 "Boundary(c, \"C\")".toList) .plain =
        .ok (labelled "c".toList "C".toList 5) := rfl
    exact .openingBelow rfl rfl called keyword framed
  have call : Spells .call [.ofRaw 7 "Rel(p, q)".toList] := by
    let c : Call := ⟨"Rel".toList, ["p".toList, "q".toList], false⟩
    have called : C4Diagram.call (.ofRaw 7 "Rel(p, q)".toList) false = .ok c := by decide +kernel
    obtain ⟨alone, made⟩ := exists_of_isOk (x := readCall {} (.ofRaw 7 "Rel(p, q)".toList) c) (by decide +kernel)
    exact .call called rfl made
  have lines : (Source.ofText openBoundary 0).body = [.ofRaw 2 "title A \x7b".toList,
      .ofRaw 3 "Boundary(b, \"B\") \x7b".toList, .ofRaw 4 "\x7d".toList, .ofRaw 5 "Boundary(c, \"C\")".toList,
      .ofRaw 6 "\x7b".toList, .ofRaw 7 "Rel(p, q)".toList] := by decide +kernel
  have written : Written es (Source.ofText openBoundary 0).body := by
    rw [lines]
    exact .cons (spells_bracedTitle 2) (.cons (spells_boundary 3) (.cons (spells_close 4)
      (.cons below (.cons call .nil))))
  have clear : Clear es := (clear_singleton (.title true)).append rfl (clear_of_countP (by decide))
  have first : (Source.ofText openBoundary 0).header? = some (.ofRaw 1 "C4Context".toList) := rfl
  have context : Kind.isC4 .c4Context = true := rfl
  obtain ⟨frame, _, unclosed, failed⟩ := (read_written first context rfl written (by decide)).2
    fun both => absurd both.1 (by decide)
  exact ⟨es, written, frame, unclosed clear, failed⟩

/-- A title within a boundary that ends with an opening brace. -/
def bracedTitle : Text := "C4Context\nBoundary(b, \"B\") \x7b\ntitle A \x7b\n\x7d".toList

/-- Its header is bare, its lines are entries and its one boundary is closed, but the lookahead takes
the closing brace for that of the title. -/
theorem bracedTitle_unclosed :
    (Source.ofText bracedTitle 0).header?.map Line.text = some Kind.c4Context.keyword.toList ∧
    ∃ es, Written es (Source.ofText bracedTitle 0).body ∧ Covered Entry.isOpening 0 es ∧ Even es ∧
      read (Source.ofText bracedTitle 0) = .error ((Fault.boundaryUnclosed "b".toList).at ⟨2, 1⟩) := by
  refine ⟨rfl, [.opening (labelled "b".toList "B".toList 2), .title true, .closing], ?_, by decide, by decide, ?_⟩
  · exact .cons (spells_boundary 2) (.cons (spells_bracedTitle 3) (.cons (spells_close 4) .nil))
  · with_unfolding_all rfl

end DiagramLint.C4Diagram
