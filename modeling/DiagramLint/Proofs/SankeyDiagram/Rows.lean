import DiagramLint.Diagram
import DiagramLint.Proofs.Coverage.EveryLine
import DiagramLint.Proofs.Number.Literals
import DiagramLint.Proofs.Reading.Diagram
import DiagramLint.Proofs.Results
import DiagramLint.Proofs.Text.Lines
import DiagramLint.Proofs.Text.QuotedFields

/-!
Sankey diagrams as they are written, a row for each link: the two ends in double quotes, so that they may hold whatever a
line may, and the value as any literal of it. The rows are read back as the links that they are written for, and whatever
else is read as a sankey diagram has proper links, too (`written_links_read`).
-/
namespace DiagramLint.SankeyDiagram

open Text Text.Parser

/-- What is asked of a link: two different ends that are not empty, and a value above zero. -/
structure Link.Proper (l : Link) : Prop where
  source_filled : l.source ≠ []
  target_filled : l.target ≠ []
  distinct : l.source ≠ l.target
  positive : l.value.isPositive = true

/-- A link as it is written, with a literal of its value. -/
structure WrittenRow where
  source : Text
  target : Text
  literal : Text
  value : Binary64
  source_filled : source ≠ []
  target_filled : target ≠ []
  distinct : source ≠ target
  source_single : '\n' ∉ source
  target_single : '\n' ∉ target
  literal_single : '\n' ∉ literal
  literal_plain : ∀ c ∈ literal, c ∉ [',', '"', '\\']
  read : Binary64.read? literal = some value
  positive : value.isPositive = true

/-- The text in quotes. -/
def quoted (t : Text) : Text := '"' :: (escape t ++ ['"'])

namespace WrittenRow

/-- The row as it is written. -/
def written (r : WrittenRow) : Text := quoted r.source ++ ',' :: (quoted r.target ++ ',' :: r.literal)

/-- The link that is written, at a position. -/
def link (r : WrittenRow) (position : Position) : Link := ⟨r.source, r.target, r.value, position⟩

end WrittenRow

/-- The text of a sankey diagram with a line for each row. -/
def writtenText (rows : List WrittenRow) : Text := join ['\n'] ("sankey-beta".toList :: rows.map WrittenRow.written)

variable {r : WrittenRow} {rows : List WrittenRow} {links links' : List Link} {line : Line} {t u v rest : Text} {l : Link}
  {diagram : SankeyDiagram} {raws : List Text}

/-! ### Fields of a row -/

theorem not_mem_escape {c : Char} (other : c ≠ '\\') (absent : c ∉ t) : c ∉ escape t := by
  induction t with
  | nil => exact absent
  | cons a t ih =>
    obtain ⟨first, others⟩ : c ≠ a ∧ c ∉ t := by simpa using absent
    rw [escape]
    split <;> simp [other, first, ih others]

/-- A quoted field in front of a comma. -/
theorem field_quoted (t rest : Text) : field (quoted t ++ ',' :: rest) = .done t (',' :: rest) := by
  have finished : FieldEnd (',' :: rest) := .inr (.inr ⟨rest, rfl⟩)
  have read := QuotedField.read ⟨[], t, [], rfl, rfl⟩ finished
  simpa [QuotedField.written, quoted] using read

/-- A last field without quotes and backslashes is trimmed. -/
theorem field_plain (filled : t ≠ []) (plain : ∀ c ∈ t, c ∉ [',', '"', '\\']) : field t = .done (trim t) [] := by
  have written : Written [',', '"'] t t := by
    refine written_of_plain fun c member => ?_
    have unmarked := plain c member
    simp only [List.mem_cons, List.not_mem_nil, or_false, not_or] at unmarked ⊢
    exact ⟨unmarked.2.2, unmarked.1, unmarked.2.1⟩
  have parts : Parts (t ++ []) [.plain t] := .plain filled written (.inl rfl) .nil
  have finished : FieldEnd [] := .inl rfl
  have read := field_of_parts parts finished
  have value : fieldValue [.plain t] = trim t := by
    unfold fieldValue
    split
    · next only => cases blank : allBlank t <;> simp [Segment.isSignificant, blank] at only
    · simp [Segment.written]
  simpa [value] using read

theorem fields_row (filled : t ≠ []) (plain : ∀ c ∈ t, c ∉ [',', '"', '\\']) (u v : Text) :
    fields (quoted u ++ ',' :: (quoted v ++ ',' :: t)) = .ok [u, v, trim t] := by
  have visible : allBlank (quoted u ++ ',' :: (quoted v ++ ',' :: t)) = false :=
    List.all_eq_false.mpr ⟨'"', by simp [quoted], by decide⟩
  have last : fieldList.readAll t = .ok [trim t] := by
    rw [readAll, fieldList_of_last (field_plain filled plain) (.inl rfl)]
  rw [fields, visible, if_neg (by decide), readAll_of_comma (field_quoted u _), readAll_of_comma (field_quoted v _), last]
  rfl

/-! ### Rows -/

/-- Behind the quoted ends only blanks behind the literal are lost. -/
theorem trim_written (r : WrittenRow) :
    ∃ literal, trim r.written = quoted r.source ++ ',' :: (quoted r.target ++ ',' :: literal) ∧ literal ≠ [] ∧
      (∀ c ∈ literal, c ∉ [',', '"', '\\']) ∧ trim literal = trim r.literal := by
  have filled : trimEnd r.literal ≠ [] := by
    intro empty
    refine (Binary64.numeral_of_read r.read).1 ?_
    rw [← trim_trimEnd, empty]
    rfl
  refine ⟨trimEnd r.literal, ?_, filled, fun c member => r.literal_plain c (mem_of_mem_trimEnd c member),
    trim_trimEnd r.literal⟩
  have begins : BeginsVisible (quoted r.source ++ ',' :: (quoted r.target ++ [','])) := ⟨'"', _, rfl, by decide⟩
  have ends : EndsVisible (quoted r.source ++ ',' :: (quoted r.target ++ [','])) :=
    ⟨quoted r.source ++ ',' :: quoted r.target, ',', by simp, by decide⟩
  simpa [WrittenRow.written] using trim_append begins ends r.literal

/-- A row is read as its link. -/
theorem readLine_row (r : WrittenRow) (links : List Link) (same : line.text = trim r.written) :
    readLine rules links line = .ok (links ++ [r.link line.position]) := by
  obtain ⟨literal, written, filled, plain, trimmed⟩ := trim_written r
  have made : link line r.source r.target (trim literal) = .ok (r.link line.position) := by
    simp [link, r.source_filled, r.target_filled, r.distinct, trimmed, Binary64.read?_trim, r.read, r.positive, WrittenRow.link]
  have taken : linkLine links line = (Except.ok (links ++ [r.link line.position])).map some := by
    rw [linkLine, same, written, fields_row filled plain]
    simp only [made, Except.map]
  exact readLine_of_first rfl taken

theorem speaks_row (r : WrittenRow) : Speaks r.written := by
  refine ⟨?_, '"', _, rfl, by decide, by decide⟩
  have source := not_mem_escape (c := '\n') (by decide) r.source_single
  have target := not_mem_escape (c := '\n') (by decide) r.target_single
  simp [WrittenRow.written, quoted, source, target, r.literal_single]

/-- Rows behind one another are read as their links. -/
theorem readLines_rows (lines : List.Forall₂ LineOf raws (rows.map WrittenRow.written)) (links : List Link) (number : Nat) :
    readLines (fun _ => rules) links (raws.mapIdx fun i raw => .ofRaw (number + i) raw) =
      .ok (links ++ rows.mapIdx fun i r => r.link ⟨number + i, 1⟩) := by
  induction rows generalizing raws links number with
  | nil =>
    obtain rfl := List.forall₂_nil_right_iff.mp lines
    simp [readLines]
  | cons r rows ih =>
    obtain ⟨raw, raws, of, others, rfl⟩ := List.forall₂_cons_right_iff.mp lines
    have same : (Line.ofRaw number raw).text = trim r.written := of.trim
    have first := readLine_row r links same
    rw [of.position (speaks_row r)] at first
    rw [List.mapIdx_cons, List.mapIdx_cons, readLines_cons_ok first]
    have behind := ih others (links ++ [r.link ⟨number, 1⟩]) (number + 1)
    simpa [Nat.add_assoc, Nat.add_comm 1] using behind

/-! ### Links that are read -/

theorem proper_of_link {source target value : Text} (made : link line source target value = .ok l) : l.Proper := by
  unfold link at made
  split at made
  · cases made
  · next filled =>
    split at made
    · cases made
    · next distinct =>
      split at made
      · cases made
      · split at made
        · next positive =>
          obtain rfl := Except.ok.inj made
          obtain ⟨source, target⟩ : source ≠ [] ∧ target ≠ [] := by simpa using filled
          exact ⟨source, target, distinct, positive⟩
        · cases made

theorem proper_step (proper : ∀ l ∈ links, l.Proper) (taken : readLine rules links line = .ok links') :
    ∀ l ∈ links', l.Proper := by
  rw [readLine_eq_ok_iff] at taken
  simp only [rules, firstTaking_cons, not_taken_by_none, and_false, or_false] at taken
  unfold linkLine at taken
  split at taken
  · cases taken
  · obtain ⟨l, made, same⟩ := exists_of_map_ok taken
    obtain rfl := Option.some.inj same
    exact List.forall_mem_append.mpr ⟨proper, List.forall_mem_singleton.mpr (proper_of_link made)⟩
  · cases taken

/-- A sankey diagram has links, and all of them are proper. -/
theorem proper_of_read {s : Source} (accepted : read s = .ok diagram) :
    diagram.links ≠ [] ∧ ∀ l ∈ diagram.links, l.Proper := by
  obtain ⟨header, -, accepted⟩ := exists_of_bind_ok accepted
  obtain ⟨links, run, accepted⟩ := exists_of_bind_ok accepted
  split at accepted
  · cases accepted
  · next filled =>
    obtain rfl := Except.ok.inj accepted
    exact ⟨by simpa using filled, readLines_keep proper_step run (List.forall_mem_nil _)⟩

/-! ### Diagrams -/

/-- A source with the header of sankey diagrams is read as one. -/
theorem ofSource_of_header {first : Line} {body : List Line} {text : Text} {offset : Nat}
    (word : first.text = "sankey-beta".toList) (run : readLines (fun _ => rules) [] body = .ok links) (filled : links ≠ []) :
    Diagram.ofSource (Source.kind ⟨text, offset, first :: body⟩) ⟨text, offset, first :: body⟩ =
      .ok (.sankey ⟨⟨.sankey, text, first.position⟩, links⟩) := by
  have kind : Source.kind ⟨text, offset, first :: body⟩ = .sankey := by
    rw [show Source.kind ⟨text, offset, first :: body⟩ = Kind.ofHeader first.text from rfl, word]
    decide
  have found : afterKeyword? "sankey-beta" first.text = some [] := by
    rw [word]
    decide
  have header : Source.bareHeader ⟨text, offset, first :: body⟩ "sankey-beta" = .ok first := by
    simp [Source.bareHeader, Source.headerWith, Source.headerLine, Source.header?, found, bind, Except.bind]
  have accepted : read ⟨text, offset, first :: body⟩ = .ok ⟨⟨.sankey, text, first.position⟩, links⟩ := by
    simp [read, header, Source.body, Source.header, run, filled, bind, Except.bind]
  rw [kind, ofSource_eq]
  exact congrArg (Except.map Diagram.sankey) accepted

/-- Rows are read back as the links that they are written for, one line behind the other, if there is a row at all; and
whatever is read as a sankey diagram has at least one link, and only proper ones. -/
theorem written_links_read :
    (∀ rows : List WrittenRow, rows ≠ [] → ∀ offset, Diagram.read (writtenText rows) offset =
      .ok (.sankey ⟨⟨.sankey, writtenText rows, ⟨offset + 1, 1⟩⟩, rows.mapIdx fun i r => r.link ⟨offset + 2 + i, 1⟩⟩)) ∧
    ∀ s diagram, read s = .ok diagram → diagram.links ≠ [] ∧ ∀ l ∈ diagram.links, l.Proper := by
  refine ⟨fun rows filled offset => ?_, fun s diagram accepted => proper_of_read accepted⟩
  have header : Speaks "sankey-beta".toList := ⟨by decide, 's', _, rfl, by decide, by decide⟩
  have spoken : ∀ t ∈ "sankey-beta".toList :: rows.map WrittenRow.written, Speaks t := by
    refine List.forall_mem_cons.mpr ⟨header, fun t member => ?_⟩
    obtain ⟨r, -, rfl⟩ := List.mem_map.mp member
    exact speaks_row r
  obtain ⟨raw, raws, of, others, cut⟩ := ofText_join spoken (by decide) offset
  have word : (Line.ofRaw (offset + 1) raw).text = "sankey-beta".toList := of.trim.trans (by decide)
  have run := readLines_rows others [] (offset + 2)
  rw [List.nil_append] at run
  rw [Diagram.read, writtenText, ofText_of_lines cut, ofSource_of_header word run (by simpa using filled),
    of.position header]

/-- A row with commas, a comment mark and an arrow in its first end, and quotes and backslashes in its second, and a value
with a blank and an exponent. -/
def markedRow : WrittenRow where
  source := "%% a, b -> c".toList
  target := " \"C:\\\" ".toList
  literal := " +2.50e1\r".toList
  value := ⟨false, 7036874417766400, -48⟩
  source_filled := by decide
  target_filled := by decide
  distinct := by decide
  source_single := by decide
  target_single := by decide
  literal_single := by decide
  literal_plain := by decide
  read := by decide +kernel
  positive := by decide

/-- The same row turned round, with another value. -/
def turnedRow : WrittenRow :=
  { markedRow with
    source := markedRow.target
    target := markedRow.source
    literal := "3".toList
    value := ⟨false, 6755399441055744, -51⟩
    source_filled := by decide
    target_filled := by decide
    distinct := by decide
    source_single := by decide
    target_single := by decide
    literal_single := by decide
    literal_plain := by decide
    read := by decide +kernel
    positive := by decide }

/-- Both rows behind a header. -/
def markedText : Text :=
  "sankey-beta
\"%% a, b -> c\",\" \\\"C:\\\\\\\" \", +2.50e1\r
\" \\\"C:\\\\\\\" \",\"%% a, b -> c\",3".toList

/-- A row without quotes. -/
def plainText : Text := "sankey-beta\n A b , c,.5".toList

theorem written_links_read_marked :
    Diagram.read markedText 4 = .ok (.sankey ⟨⟨.sankey, markedText, ⟨5, 1⟩⟩,
      [markedRow.link ⟨6, 1⟩, turnedRow.link ⟨7, 1⟩]⟩) ∧
    ∃ diagram, read (Source.ofText plainText 0) = .ok diagram ∧ diagram.links ≠ [] ∧ ∀ l ∈ diagram.links, l.Proper := by
  obtain ⟨written, proper⟩ := written_links_read
  constructor
  · have text : writtenText [markedRow, turnedRow] = markedText := by decide
    have read := written [markedRow, turnedRow] (List.cons_ne_nil _ _) 4
    rwa [text] at read
  · obtain ⟨diagram, accepted⟩ := exists_of_isOk (x := read (Source.ofText plainText 0)) (by decide +kernel)
    exact ⟨diagram, accepted, proper _ diagram accepted⟩

end DiagramLint.SankeyDiagram
