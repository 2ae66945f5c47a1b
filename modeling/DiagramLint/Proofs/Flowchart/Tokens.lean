import DiagramLint.Proofs.Flowchart.Arrows

/-!
Nodes as they are written in a chain. An id of letters, digits and underscores may have a label behind it, in double
quotes and the brackets of a shape. No scan of a statement finds anything in such a token, whatever the quotes hold
(`Token.clear`), and the token is read as the node it names (`Token.read`), unless three colons in the label are taken
for those of a style class (`styleClass_of_colons`).
-/
namespace DiagramLint.Flowchart

open Text

/-- A letter, a digit or an underscore. -/
def isWordChar (c : Char) : Bool := isAlphanumeric c || c = '_'

/-- A label in double quotes, in the brackets of a shape. -/
structure QuotedLabel where
  brackets : Delimiters
  text : Text
  listed : brackets ∈ delimiters
  unquoted : '"' ∉ text

/-- The label as it is written. -/
def QuotedLabel.written (l : QuotedLabel) : Text :=
  l.brackets.start ++ ('"' :: (l.text ++ ['"']) ++ l.brackets.finish)

/-- A node as it is written: an id, alone or with a quoted label that holds no three colons. -/
structure Token where
  id : Text
  label : Option QuotedLabel
  filled : id ≠ []
  word : id.all isWordChar = true
  classless : ∀ l ∈ label, ¬ [':', ':', ':'] <:+: l.text

/-- The token as it is written. -/
def Token.written (k : Token) : Text := k.id ++ k.label.elim [] QuotedLabel.written

/-- The node that a token names. -/
def Token.node (position : Position) (k : Token) : Node where
  id := k.id
  label := k.label.bind fun l => trimmed? l.text
  shape := k.label.elim .plain fun l => l.brackets.shape
  styleClass := none
  position := position

variable {id t : Text} {c : Char} {position : Position} {n : Node}

/-! ### Characters of ids -/

theorem ne_of_word {mark : Char} (word : isWordChar c = true) (foreign : isWordChar mark = false) : c ≠ mark := by
  rintro rfl
  simp [word] at foreign

theorem not_blank_of_word (word : isWordChar c = true) : isBlank c = false := by
  rcases Bool.or_eq_true_iff.mp word with alphanumeric | underscore
  · exact not_blank_of_alphanumeric alphanumeric
  · rw [of_decide_eq_true underscore]
    decide

theorem isIdentifier_of_word (filled : id ≠ []) (word : id.all isWordChar = true) : isIdentifier id = true := by
  have chars : id.all isIdentifierChar = true := by
    refine List.all_eq_true.mpr fun c member => ?_
    have here := List.all_eq_true.mp word c member
    simp only [isWordChar, Bool.or_eq_true] at here
    simp only [isIdentifierChar, Bool.or_eq_true]
    exact .inl (.inl here)
  simp [isIdentifier, filled, chars]

theorem not_mem_of_word {mark : Char} (word : id.all isWordChar = true) (foreign : isWordChar mark = false) : mark ∉ id :=
  fun member => ne_of_word (List.all_eq_true.mp word mark member) foreign rfl

theorem begins_of_word (filled : id ≠ []) (word : id.all isWordChar = true) : BeginsVisible id := by
  obtain ⟨c, rest, rfl⟩ := List.exists_cons_of_ne_nil filled
  exact ⟨c, rest, rfl, not_blank_of_word (List.all_eq_true.mp word c List.mem_cons_self)⟩

theorem ends_of_word (filled : id ≠ []) (word : id.all isWordChar = true) : EndsVisible id := by
  rcases List.eq_nil_or_concat id with rfl | ⟨front, c, rfl⟩
  · exact absurd rfl filled
  · exact ⟨front, c, List.concat_eq_append, not_blank_of_word (List.all_eq_true.mp word c (by simp))⟩

/-! ### Tokens in scans -/

/-- The characters that scans of statements look for outside quotes and brackets. -/
def scanned : List Char := [';', '<', '-', '=', ' ']

theorem clear_of_word (word : id.all isWordChar = true) : Clear scanned id := by
  have foreign : ∀ mark ∈ Nesting.marks ++ scanned, isWordChar mark = false := by decide
  exact .of_apart fun c member listed => not_mem_of_word word (foreign c listed) member

/-- Quotes close what they open, and so do the brackets around them; what the quotes hold does not matter. -/
theorem QuotedLabel.clear (l : QuotedLabel) : Clear scanned l.written := by
  let open_ := Nesting.outermost.run l.brackets.start
  let quoted := open_.step '"'
  have shapes : ∀ b ∈ delimiters,
      ((Nesting.outermost.run b.start).step '"').quoted = true ∧
      (((Nesting.outermost.run b.start).step '"').step '"').run b.finish = .outermost ∧
      (∀ c ∈ b.start ++ ['"'] ++ b.finish, c ∉ scanned) := by decide
  obtain ⟨opened, closed, foreign⟩ := shapes l.brackets l.listed
  have inside : quoted.run l.text = quoted := Nesting.run_of_quoted opened l.unquoted
  have silent : quoted.outer l.text = [] := Nesting.outer_of_quoted opened l.unquoted
  have parts : l.written = l.brackets.start ++ (['"'] ++ (l.text ++ (['"'] ++ l.brackets.finish))) := by
    simp [QuotedLabel.written]
  constructor
  · rw [parts, Nesting.run_append, Nesting.run_append, Nesting.run_append, Nesting.run_append]
    show ((quoted.run l.text).run ['"']).run l.brackets.finish = .outermost
    rw [inside]
    exact closed
  · intro c member
    refine foreign c ?_
    rw [parts, Nesting.outer_append, Nesting.outer_append, Nesting.outer_append, Nesting.outer_append] at member
    have in_text : open_.run ['"'] = quoted := rfl
    rw [show Nesting.outermost.run l.brackets.start = open_ from rfl, in_text, silent, List.nil_append] at member
    simp only [List.mem_append] at member ⊢
    rcases member with start | quote | quote | finish
    · exact .inl (.inl (Nesting.mem_of_mem_outer start))
    · exact .inl (.inr (Nesting.mem_of_mem_outer quote))
    · exact .inl (.inr (Nesting.mem_of_mem_outer quote))
    · exact .inr (Nesting.mem_of_mem_outer finish)

theorem QuotedLabel.begins (l : QuotedLabel) : ∃ c rest, l.written = c :: rest ∧ isDelimiter c = true := by
  have shapes : ∀ b ∈ delimiters, b.start.head?.any isDelimiter = true := by decide
  have delimiter := shapes l.brackets l.listed
  unfold QuotedLabel.written
  cases start : l.brackets.start with
  | nil => simp [start] at delimiter
  | cons c rest => exact ⟨c, _, rfl, by simpa [start] using delimiter⟩

theorem QuotedLabel.ends (l : QuotedLabel) : EndsVisible l.written := by
  have shapes : ∀ b ∈ delimiters, b.finish ≠ [] ∧ ∀ c ∈ b.finish, isBlank c = false := by decide
  obtain ⟨filled, visible⟩ := shapes l.brackets l.listed
  have finish : EndsVisible l.brackets.finish := by
    rcases List.eq_nil_or_concat l.brackets.finish with empty | ⟨front, c, same⟩
    · exact absurd empty filled
    · refine ⟨front, c, by rw [same, List.concat_eq_append], visible c (by rw [same]; simp)⟩
  exact (finish.append _).append _

theorem Token.clear (k : Token) : Clear scanned k.written := by
  refine (clear_of_word k.word).append ?_
  cases k.label with
  | none => exact .nil
  | some l => exact l.clear

theorem Token.begins (k : Token) : BeginsVisible k.written := (begins_of_word k.filled k.word).append _

theorem Token.ends (k : Token) : EndsVisible k.written := by
  unfold Token.written
  cases k.label with
  | none => simpa using ends_of_word k.filled k.word
  | some l => exact l.ends.append k.id

/-! ### Tokens as nodes -/

/-- The first brackets that fit are those of the label, since a quote follows on them. -/
theorem outline?_written (l : QuotedLabel) : outline? l.written = some (trimmed? l.text, l.brackets.shape) := by
  obtain ⟨brackets, text, listed, unquoted⟩ := l
  have trimmed : trim ('"' :: (text ++ ['"'])) = '"' :: (text ++ ['"']) :=
    trim_of_visible ⟨'"', _, rfl, by decide⟩ ⟨'"' :: text, '"', rfl, by decide⟩
  have inner : unquote (trim ('"' :: (text ++ ['"']))) = text := by rw [trimmed, unquote_quoted]
  have fits := between?_eq_some brackets.start ('"' :: (text ++ ['"'])) brackets.finish
  simp only [QuotedLabel.written]
  simp only [delimiters, List.mem_cons, List.not_mem_nil, or_false] at listed
  rcases listed with rfl | rfl | rfl | rfl | rfl | rfl | rfl | rfl | rfl
  · simp only [outline?, delimiters, List.findSome?_cons, fits, Option.map_some, inner]
  all_goals
    simp only [outline?, delimiters, List.findSome?_cons, fits, Option.map_some, inner]
    simp [between?, dropStart?]

theorem Token.trim_written (k : Token) : trim k.written = k.written := trim_of_visible k.begins k.ends

/-- The colons of a style class stand in no token. -/
theorem Token.no_colons (k : Token) : ¬ [':', ':', ':'] <:+: k.written := by
  intro colons
  obtain ⟨id, label, filled, word, classless⟩ := k
  cases label with
  | none =>
    simp only [Token.written, Option.elim_none, List.append_nil] at colons
    have inside : ':' ∈ id := colons.subset (by simp)
    exact not_mem_of_word word (by decide) inside
  | some l =>
    refine classless l rfl ?_
    have foreign : ∀ b ∈ delimiters, ':' ∉ b.start ∧ ':' ∉ b.finish := by decide
    obtain ⟨no_start, no_finish⟩ := foreign l.brackets l.listed
    have parts : id ++ l.written = id ++ l.brackets.start ++ ['"'] ++ (l.text ++ ('"' :: l.brackets.finish)) := by
      simp [QuotedLabel.written]
    rw [Token.written, Option.elim_some, parts] at colons
    have no_id : ':' ∉ id := not_mem_of_word word (by decide)
    refine infix_of_framed (by simp) ?_ ?_ colons
    · rintro c member first
      obtain rfl := Option.some.inj first
      simp [no_id, no_start] at member
    · rintro c member last
      obtain rfl : ':' = c := by simpa using last
      simp [no_finish] at member

theorem splitClass_of_classless (classless : ¬ [':', ':', ':'] <:+: t) : splitClass t = (t, none) := by
  rw [splitClass, cut?_eq_none_iff.mpr classless]

/-- A token is read as the node that it names. -/
theorem Token.read (k : Token) : node? position k.written = some (k.node position) := by
  rw [node?, k.trim_written, splitClass_of_classless k.no_colons]
  obtain ⟨id, label, filled, word, classless⟩ := k
  have in_id : ∀ c ∈ id, (!isDelimiter c) = true := by
    intro c member
    have foreign : ∀ mark ∈ ['[', '(', '{', '>'], isWordChar mark = false := by decide
    have apart : c ∉ ['[', '(', '{', '>'] := fun listed => not_mem_of_word word (foreign c listed) member
    simp only [List.mem_cons, List.not_mem_nil, or_false, not_or] at apart
    simp [isDelimiter, apart]
  have identifier := isIdentifier_of_word filled word
  cases label with
  | none =>
    have whole : spanWhile (fun c => !isDelimiter c) id = (id, []) := by
      rw [spanWhile, List.takeWhile_eq_self_iff.mpr in_id, List.dropWhile_eq_nil_iff.mpr in_id]
    simp [Token.written, Token.node, whole, identifier]
  | some l =>
    obtain ⟨c, rest, same, delimiter⟩ := l.begins
    have labelled := outline?_written l
    have trimmed : trimEnd id = id := by simpa using trimEnd_of_ends (b := []) (ends_of_word filled word) rfl
    rw [Token.written, Option.elim_some, same]
    rw [same] at labelled
    have cut : spanWhile (fun c => !isDelimiter c) (id ++ c :: rest) = (id, c :: rest) := by
      rw [spanWhile, List.takeWhile_append_of_pos in_id, List.dropWhile_append_of_pos in_id]
      simp [delimiter]
    simp [Token.node, cut, trimmed, identifier, labelled]

/-- Three colons are those of a style class wherever they stand, so that no node with colons is without one. -/
theorem styleClass_of_colons (colons : [':', ':', ':'] <:+: t) (visible : isBlank c = false) (other : c ≠ ':')
    (last : t.getLast? = some c) (read : node? position t = some n) : n.styleClass.isSome = true := by
  have within : [':', ':', ':'] <:+: trim t := by
    refine infix_trim (by simp) ?_ ?_ colons
    · intro a first
      obtain rfl := Option.some.inj first
      decide
    · intro a here
      obtain rfl := Option.some.inj here
      decide
  obtain ⟨⟨before, name⟩, cut⟩ := Option.ne_none_iff_exists'.mp fun none_cut => cut?_eq_none_iff.mp none_cut within
  have named : (trimmed? name).isSome = true := by
    have ends := getLast?_trim visible last
    rw [← append_of_cut? cut, ← List.append_assoc, List.getLast?_append] at ends
    refine isSome_trimmed? visible ?_
    cases behind : name.getLast? with
    | none => simp [behind, other.symm] at ends
    | some a =>
      obtain rfl : a = c := by simpa [behind] using ends
      exact List.mem_of_getLast? behind
  unfold node? splitClass at read
  rw [cut] at read
  dsimp only at read
  split at read
  · split at read
    · obtain rfl := Option.some.inj read
      exact named
    · cases read
  · split at read
    · obtain ⟨⟨label, shape⟩, -, rfl⟩ := Option.map_eq_some_iff.mp read
      exact named
    · cases read

end DiagramLint.Flowchart
