import DiagramLint.Mindmap
import DiagramLint.Proofs.Text.Cuts
import DiagramLint.Proofs.Text.Identifiers

/-!
Shapes as they are drawn. The delimiters of one shape begin or end those of others, and a shape is looked for behind the
first place where its start stands. But what ends a node tells its shape: no shape that is tried earlier ends as a later one
does (`finish_apart`). So an id, a text and the delimiters around it are read back, and what is read with a shape is drawn
that way (`drawn_read_back`).
-/
namespace DiagramLint.Mindmap

open Text

/-- The characters that delimiters are made of. -/
def brackets : List Char := ['(', ')', '{', '}', '[', ']']

/-- A node as it is drawn: its id, which may be empty, and its text between the delimiters. -/
def Delimiters.drawn (d : Delimiters) (id text : Text) : Text := id ++ (d.start ++ (text ++ d.finish))

/-- The id stands in front of the delimiters, or nothing does. -/
def IsOptionalId (id : Text) : Prop := id = [] ∨ isIdentifier id = true

instance (id : Text) : Decidable (IsOptionalId id) := inferInstanceAs (Decidable (_ ∨ _))

/-- What a line says of a node with an optional id. -/
def Caption.ofDrawn (id text : Text) (shape : Shape) : Caption := ⟨if id = [] then none else some id, text, shape⟩

variable {d e : Delimiters} {id text t : Text} {c : Caption}

/-! ### Delimiters -/

theorem start_brackets : ∀ d ∈ delimiters, d.start ≠ [] ∧ ∀ c ∈ d.start, c ∈ brackets := by decide

theorem finish_brackets : ∀ d ∈ delimiters, ∀ c ∈ d.finish, c ∈ brackets := by decide

/-- Shapes that are tried earlier end otherwise. -/
theorem finish_apart : delimiters.Pairwise fun e d => ¬ e.finish <:+ d.finish := by decide

theorem bracket_not_mem_id (optional : IsOptionalId id) {c : Char} (bracket : c ∈ brackets) : c ∉ id := by
  rcases optional with rfl | identifier
  · exact List.not_mem_nil
  · have foreign : ∀ c ∈ brackets, isIdentifierChar c = false := by decide
    exact not_mem_of_identifier identifier (foreign c bracket)

/-! ### One shape -/

/-- What the delimiters make of a line: it is drawn with them. -/
theorem caption?_eq_some_iff : caption? t d = some c ↔ ∃ id rest inner, cut? d.start t = some (id, rest) ∧
    rest = inner ++ d.finish ∧ IsOptionalId id ∧ c = .ofDrawn id (trim inner) d.shape := by
  unfold caption?
  cases cut : cut? d.start t with
  | none => simp
  | some found =>
    obtain ⟨id, rest⟩ := found
    constructor
    · intro made
      dsimp only at made
      split at made
      · cases made
      · next inner ended =>
        refine ⟨id, rest, inner, rfl, append_of_dropEnd? ended, ?_⟩
        split at made
        · next empty =>
          obtain rfl := List.isEmpty_iff.mp empty
          exact ⟨.inl rfl, (Option.some.inj made).symm⟩
        · next filled =>
          split at made
          · next identifier =>
            obtain rfl := Option.some.inj made
            exact ⟨.inr identifier, by simp [Caption.ofDrawn, ne_nil_of_identifier identifier]⟩
          · cases made
    · rintro ⟨_, _, inner, same, rfl, optional, rfl⟩
      obtain ⟨rfl, rfl⟩ := Prod.mk.inj (Option.some.inj same)
      rcases optional with rfl | identifier
      · simp [dropEnd?_append, Caption.ofDrawn]
      · have filled := ne_nil_of_identifier identifier
        simp [dropEnd?_append, Caption.ofDrawn, identifier, filled]

/-- No bracket stands in the id, so the delimiters are found behind it. -/
theorem cut?_drawn (member : d ∈ delimiters) (optional : IsOptionalId id) (text : Text) :
    cut? d.start (d.drawn id text) = some (id, text ++ d.finish) := by
  obtain ⟨filled, made⟩ := start_brackets d member
  obtain ⟨c, start, same⟩ := List.exists_cons_of_ne_nil filled
  have absent : c ∉ id := bracket_not_mem_id optional (made c (by simp [same]))
  rw [Delimiters.drawn, same, cut?_behind absent, cut?_at_start]
  simp

theorem caption?_drawn (member : d ∈ delimiters) (optional : IsOptionalId id) (text : Text) :
    caption? (d.drawn id text) d = some (.ofDrawn id (trim text) d.shape) :=
  caption?_eq_some_iff.mpr ⟨id, _, text, cut?_drawn member optional text, rfl, optional, rfl⟩

theorem finish_suffix_of_caption? (made : caption? t d = some c) : d.finish <:+ t := by
  obtain ⟨id, rest, inner, cut, rfl, -⟩ := caption?_eq_some_iff.mp made
  exact ⟨id ++ (d.start ++ inner), by simpa using append_of_cut? cut⟩

/-- Delimiters that end otherwise do not fit, also if the one end is part of the other: the text ends with no bracket. -/
theorem caption?_of_apart (member : e ∈ delimiters) (apart : ¬ e.finish <:+ d.finish) (filled : text ≠ [])
    (plain : ∀ c ∈ text, c ∉ brackets) (id : Text) : caption? (d.drawn id text) e = none := by
  refine Option.eq_none_iff_forall_ne_some.mpr fun c made => ?_
  have ends := finish_suffix_of_caption? made
  have parts : d.drawn id text = (id ++ (d.start ++ text)) ++ d.finish := by simp [Delimiters.drawn]
  rw [parts] at ends
  rcases List.suffix_or_suffix_of_suffix ends (List.suffix_append _ _) with shorter | ⟨more, longer⟩
  · exact apart shorter
  · rw [← longer, List.suffix_append_self_iff] at ends
    obtain ⟨front, last, rfl⟩ := List.eq_nil_or_concat' text |>.resolve_left filled
    rw [← List.append_assoc, ← List.append_assoc, List.suffix_concat_iff] at ends
    rcases ends with rfl | ⟨others, rfl, -⟩
    · exact apart (longer ▸ List.suffix_refl _)
    · have bracket : last ∈ brackets := finish_brackets e member last (longer ▸ by simp)
      exact plain last (by simp) bracket

/-! ### All shapes -/

/-- The first shape whose delimiters fit is the one that is drawn. -/
theorem caption_drawn (member : d ∈ delimiters) (optional : IsOptionalId id) (filled : text ≠ [])
    (plain : ∀ c ∈ text, c ∉ brackets) : caption (d.drawn id text) = .ofDrawn id (trim text) d.shape := by
  obtain ⟨earlier, later, table⟩ := List.append_of_mem member
  have order := finish_apart
  rw [table] at order
  have none_earlier : earlier.findSome? (caption? (d.drawn id text)) = none := by
    refine List.findSome?_eq_none_iff.mpr fun e before => ?_
    have listed : e ∈ delimiters := table ▸ List.mem_append_left _ before
    have apart := (List.pairwise_append.mp order).2.2 e before d List.mem_cons_self
    exact caption?_of_apart listed apart filled plain id
  rw [caption, table, List.findSome?_append, none_earlier, Option.none_or, List.findSome?_cons,
    caption?_drawn member optional]
  rfl

/-- What is read with a shape is drawn with its delimiters. -/
theorem exists_drawn (shaped : (caption t).shape ≠ .plain) : ∃ d ∈ delimiters, ∃ id inner,
    t = d.drawn id inner ∧ IsOptionalId id ∧ caption t = .ofDrawn id (trim inner) d.shape := by
  cases found : delimiters.findSome? (caption? t) with
  | none => simp [caption, found] at shaped
  | some c =>
    obtain ⟨d, member, made⟩ := List.exists_of_findSome?_eq_some found
    obtain ⟨id, _, inner, cut, rfl, optional, rfl⟩ := caption?_eq_some_iff.mp made
    exact ⟨d, member, id, inner, (append_of_cut? cut).symm, optional, by rw [caption, found, Option.getD_some]⟩

/-- An id or nothing, and a text that is trimmed and has no brackets, are read back from between the delimiters of every
shape, with that shape. What is read from a line with a shape is drawn with its delimiters, and what stands in front of them
is an identifier or nothing. -/
theorem drawn_read_back :
    (∀ d ∈ delimiters, ∀ id text, IsOptionalId id → text ≠ [] → trim text = text → (∀ c ∈ text, c ∉ brackets) →
      caption (id ++ (d.start ++ (text ++ d.finish))) = ⟨if id = [] then none else some id, text, d.shape⟩) ∧
    ∀ t, (caption t).shape ≠ .plain → (∀ id, (caption t).id = some id → isIdentifier id = true) ∧
      ∃ d ∈ delimiters, ∃ inner, t = d.drawn ((caption t).id.getD []) inner ∧
        (caption t).text = trim inner ∧ (caption t).shape = d.shape := by
  constructor
  · intro d member id text optional filled tight plain
    have read := caption_drawn member optional filled plain
    rwa [tight] at read
  · intro t shaped
    obtain ⟨d, member, id, inner, rfl, optional, read⟩ := exists_drawn shaped
    rw [read]
    rcases optional with rfl | identifier
    · exact ⟨by simp [Caption.ofDrawn], d, member, inner, by simp [Caption.ofDrawn], rfl, rfl⟩
    · have filled := ne_nil_of_identifier identifier
      refine ⟨?_, d, member, inner, by simp [Caption.ofDrawn, filled], rfl, rfl⟩
      intro other same
      obtain rfl : id = other := by simpa [Caption.ofDrawn, filled] using same
      exact identifier

/-- A cloud without an id, a bang with an id, and a line in which the delimiters of three shapes stand. -/
theorem drawn_read_back_turned :
    caption ")over there(".toList = ⟨none, "over there".toList, .cloud⟩ ∧
    caption "n-1.b))a \"b\"((".toList = ⟨some "n-1.b".toList, "a \"b\"".toList, .bang⟩ ∧
    (∀ id, (caption "x((a[b] c)".toList).id = some id → isIdentifier id = true) := by
  obtain ⟨back, identified⟩ := drawn_read_back
  refine ⟨?_, ?_, ?_⟩
  · exact back ⟨[')'], ['('], .cloud⟩ (by decide) [] "over there".toList (by decide) (by decide) (by decide) (by decide)
  · exact back ⟨[')', ')'], ['(', '('], .bang⟩ (by decide) "n-1.b".toList "a \"b\"".toList (by decide) (by decide)
      (by decide) (by decide)
  · exact (identified "x((a[b] c)".toList (by decide)).1

end DiagramLint.Mindmap
