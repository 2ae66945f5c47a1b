import DiagramLint.Proofs.Flowchart.Tokens

/-!
Chains as they are written. Tokens with arrows between them, and labels between bars behind the arrows, are read as the
chain that they spell (`chain?_written`). A chain is short for its edges, each written as a statement of its own
(`chain_as_single_edges`).
-/
namespace DiagramLint.Flowchart

open Text

/-- An arrow of a chain with the node behind it, as they are written: a label may stand between bars behind the arrow, and
blanks in front of the arrow, of the bars and of the node. -/
structure Link where
  gap : Text
  spelling : Text
  arrow : Arrow
  inset : Text
  bar : Option Text
  space : Text
  token : Token
  listed : (spelling, arrow) ∈ arrows
  gap_blank : allBlank gap = true
  inset_blank : allBlank inset = true
  space_blank : allBlank space = true
  /-- The label has letters, digits and spaces. -/
  bar_plain : ∀ l ∈ bar, (l.all fun c => isAlphanumeric c || c = ' ') = true

namespace Link

/-- The label between bars as it is written. -/
def barWritten (k : Link) : Text := k.bar.elim [] fun l => k.inset ++ ('|' :: (l ++ ['|']))

/-- What is written behind the arrow. -/
def behind (k : Link) : Text := k.barWritten ++ (k.space ++ k.token.written)

/-- The arrow and all behind it as they are written. -/
def written (k : Link) : Text := k.gap ++ (k.spelling ++ k.behind)

/-- The hop that is spelt. -/
def hop (position : Position) (k : Link) : Hop := ⟨k.arrow, k.bar.bind fun l => trimmed? (trim l), k.token.node position⟩

end Link

/-- A chain from a token, as it is written. -/
def chainText (first : Token) (links : List Link) : Text := first.written ++ links.flatMap Link.written

/-- The edges of a chain as they are written one by one. -/
def singleTexts (first : Token) : List Link → List Text
  | [] => []
  | link :: links => chainText first [link] :: singleTexts link.token links

variable {t b front rest w : Text} {arrow : Arrow} {position : Position} {d : Draft} {line : Line}

/-! ### Characters -/

theorem clear_of_blank {chars : List Char} (blank : allBlank b = true)
    (visible : ∀ c ∈ Nesting.marks ++ chars, isBlank c = false) : Clear chars b :=
  .of_apart fun c member listed => not_mem_of_blank blank (visible c listed) member

theorem dropStart?_eq_none {mark : Char} (other : t.head? ≠ some mark) : dropStart? [mark] t = none := by
  cases t with
  | nil => rfl
  | cons c t =>
    have apart : ¬ mark = c := fun same => other (congrArg some same.symm)
    simp [dropStart?, apart]

theorem head_of_blanks {mark : Char} (blank : allBlank b = true) (visible : isBlank mark = false)
    (other : t.head? ≠ some mark) : (b ++ t).head? ≠ some mark := by
  cases b with
  | nil => exact other
  | cons c b =>
    intro same
    obtain rfl : c = mark := Option.some.inj same
    exact not_mem_of_blank blank visible List.mem_cons_self

theorem Token.head (k : Token) {mark : Char} (foreign : isWordChar mark = false) : (k.written ++ t).head? ≠ some mark := by
  obtain ⟨c, id, same⟩ := List.exists_cons_of_ne_nil k.filled
  have word : isWordChar c = true := List.all_eq_true.mp k.word c (by simp [same])
  simpa [Token.written, same] using ne_of_word word foreign

/-! ### Arrows -/

/-- The characters that arrows begin with. -/
def arrowHeads : List Char := ['<', '-', '=']

theorem head_of_arrowStart? {c : Char} (begins : (arrowStart? (c :: rest)).isSome = true) : c ∈ arrowHeads := by
  obtain ⟨⟨arrow, r⟩, found⟩ := Option.isSome_iff_exists.mp begins
  obtain ⟨w, listed, same⟩ := arrowStart?_spec found
  have heads : ∀ entry ∈ arrows, entry.1.head?.any (· ∈ arrowHeads) = true := by decide
  have head := heads _ listed
  cases w with
  | nil => simp at head
  | cons a w =>
    obtain ⟨rfl, -⟩ := List.cons.inj same
    simpa using head

/-- An arrow is read whole, since no longer one begins with it unless a `>` follows. -/
theorem arrowStart?_written (listed : (w, arrow) ∈ arrows) (next : t.head? ≠ some '>') :
    arrowStart? (w ++ t) = some (arrow, t) := by
  have here (w : Text) : dropStart? w (w ++ t) = some t := dropStart?_eq_some_iff.mpr rfl
  have no_longer : dropStart? ['>'] t = none := dropStart?_eq_none next
  simp only [arrows, List.mem_cons, Prod.mk.injEq, List.not_mem_nil, or_false] at listed
  rcases listed with ⟨rfl, rfl⟩ | ⟨rfl, rfl⟩ | ⟨rfl, rfl⟩ | ⟨rfl, rfl⟩ | ⟨rfl, rfl⟩ | ⟨rfl, rfl⟩ | ⟨rfl, rfl⟩ | ⟨rfl, rfl⟩ | ⟨rfl, rfl⟩
  all_goals simp [arrowStart?, arrows, dropStart?, no_longer]

theorem cutArrow?_written (clear : Clear arrowHeads front) (listed : (w, arrow) ∈ arrows) (next : t.head? ≠ some '>') :
    cutArrow? (front ++ (w ++ t)) = some (front, arrow, t) := by
  have found := arrowStart?_written listed next
  have place : cutWhere? (fun rest => (arrowStart? rest).isSome) .outermost (w ++ t) = some ([], w ++ t) := by
    obtain ⟨c, w, rfl⟩ := List.exists_cons_of_ne_nil (arrow_ne_nil listed)
    rw [List.cons_append, cutWhere?, ← List.cons_append, found]
    rfl
  rw [cutArrow?, clear.cutWhere?_append (fun c rest => head_of_arrowStart?), place]
  simp [found]

theorem cutArrow?_of_clear (clear : Clear arrowHeads t) : cutArrow? t = none := by
  rw [cutArrow?, clear.cutWhere?_eq_none (fun c rest => head_of_arrowStart?)]
  rfl

/-- What stands in front of an arrow is a node alone, if nothing begins the text of an edge in it. -/
theorem nodeAndText_written (clear : Clear [' '] front) (blank : allBlank b = true) (tight : trim (front ++ b) = front) :
    nodeAndText (front ++ b) = (front, none) := by
  have no_text : ∀ opener ∈ textStarts, cutOutside? opener (front ++ b) = none := by
    intro opener listed
    have begins : ∀ opener ∈ textStarts, ∀ c rest, startsWith opener (c :: rest) = true → c ∈ [' '] := by
      simp only [textStarts, List.forall_mem_cons, List.not_mem_nil, false_implies, implies_true, and_true]
      refine ⟨?_, ?_, ?_⟩
      all_goals
        intro c rest starts
        by_contra other
        simp only [List.mem_singleton, eq_comm (a := c)] at other
        simp [startsWith, dropStart?, other] at starts
    have nowhere : cutWhere? (startsWith opener) .outermost b = none := by
      by_contra somewhere
      obtain ⟨⟨before, rest⟩, found⟩ := Option.ne_none_iff_exists'.mp somewhere
      obtain ⟨behind, start⟩ := Option.isSome_iff_exists.mp (test_of_cutWhere? found).2
      obtain ⟨c, member, visible⟩ : ∃ c ∈ opener, isBlank c = false := by
        have all : ∀ opener ∈ textStarts, ∃ c ∈ opener, isBlank c = false := by decide
        exact all opener listed
      have inside : c ∈ b := by
        rw [← append_of_cutWhere? found, dropStart?_eq_some_iff.mp start]
        simp [member]
      exact not_mem_of_blank blank visible inside
    rw [cutOutside?, clear.cutWhere?_append (begins opener listed), nowhere]
    rfl
  have none_found : (textStarts.findSome? fun opener => cutOutside? opener (front ++ b)) = none :=
    List.findSome?_eq_none_iff.mpr no_text
  rw [nodeAndText, none_found, tight]

/-! ### Links -/

namespace Link

theorem head_behind (k : Link) (t : Text) : (k.behind ++ t).head? ≠ some '>' := by
  have token : (k.space ++ (k.token.written ++ t)).head? ≠ some '>' :=
    head_of_blanks k.space_blank (by decide) (k.token.head (by decide))
  cases here : k.bar with
  | none => simpa [behind, barWritten, here] using token
  | some l =>
    have bar : (k.inset ++ '|' :: (l ++ ('|' :: (k.space ++ (k.token.written ++ t))))).head? ≠ some '>' :=
      head_of_blanks k.inset_blank (by decide) (by simp)
    simpa [behind, barWritten, here] using bar

/-- Nothing that counts in a scan stands in a label between bars, nor a bar. -/
theorem bar_apart (k : Link) : ∀ l ∈ k.bar, ∀ c ∈ l, c ∉ Nesting.marks ++ ['|', ';'] := by
  intro l here c member listed
  have foreign : ∀ mark ∈ Nesting.marks ++ ['|', ';'], (isAlphanumeric mark || mark = ' ') = false := by decide
  have plain := List.all_eq_true.mp (k.bar_plain l here) c member
  rw [foreign c listed] at plain
  cases plain

theorem clear (k : Link) : Clear [';'] k.written := by
  have blank {b : Text} (all : allBlank b = true) : Clear [';'] b := clear_of_blank all (by decide)
  have arrow : Clear [';'] k.spelling := by
    have foreign : ∀ c ∈ arrowChars, c ∉ Nesting.marks ++ [';'] := by decide
    exact .of_apart fun c member => foreign c (mem_arrowChars k.listed c member)
  have bar : Clear [';'] k.barWritten := by
    unfold barWritten
    cases here : k.bar with
    | none => exact .nil
    | some l =>
      have marked : Clear [';'] ['|'] := ⟨by decide, by decide⟩
      have fewer : Nesting.marks ++ [';'] ⊆ Nesting.marks ++ ['|', ';'] := by decide
      have label : Clear [';'] l := .of_apart fun c member listed => k.bar_apart l here c member (fewer listed)
      exact (blank k.inset_blank).append (marked.append (label.append marked))
  exact (blank k.gap_blank).append (arrow.append (bar.append ((blank k.space_blank).append (k.token.clear.mono (by decide)))))

/-- The label between bars is told apart from the node behind it. -/
theorem splitBarLabel_behind (k : Link) (ends : EndsVisible (k.token.written ++ t)) :
    splitBarLabel (k.behind ++ t) = (k.bar.bind fun l => trimmed? (trim l), k.token.written ++ t) := by
  have node : trim (k.space ++ (k.token.written ++ t)) = k.token.written ++ t :=
    trim_of_blank_front k.space_blank (k.token.begins.append t) ends
  cases here : k.bar with
  | none =>
    have no_bar : dropStart? ['|'] (k.token.written ++ t) = none := dropStart?_eq_none (k.token.head (by decide))
    have written : k.behind ++ t = k.space ++ (k.token.written ++ t) := by simp [behind, barWritten, here]
    rw [written, splitBarLabel, node, no_bar]
    rfl
  | some l =>
    have apart := k.bar_apart l here
    have written : k.behind ++ t = k.inset ++ ('|' :: (l ++ '|' :: (k.space ++ (k.token.written ++ t)))) := by
      simp [behind, barWritten, here]
    have tight : trim (k.behind ++ t) = '|' :: (l ++ '|' :: (k.space ++ (k.token.written ++ t))) := by
      have last := ((ends.append k.space).append (l ++ ['|'])).append ['|']
      rw [written]
      exact trim_of_blank_front k.inset_blank ⟨'|', _, rfl, by decide⟩ (by simpa using last)
    have unquoted : unquote (trim l) = trim l := by
      refine unquote_of_unquoted fun inside => ?_
      obtain ⟨b, b', same, -⟩ := exists_trim l
      exact apart '"' (by rw [same]; simp [inside]) (by decide)
    have no_bar : '|' ∉ l := fun inside => apart '|' inside (by decide)
    have cut := cut?_mark no_bar (k.space ++ (k.token.written ++ t))
    simp [splitBarLabel, tight, dropStart?, cut, unquoted, node]

end Link

/-! ### Reading -/

theorem ends_of_links (first : Token) (links : List Link) : EndsVisible (chainText first links) := by
  rcases List.eq_nil_or_concat links with rfl | ⟨front, link, rfl⟩
  · simpa [chainText] using first.ends
  · have last := link.token.ends.append (chainText first front ++ (link.gap ++ (link.spelling ++ (link.barWritten ++ link.space))))
    simpa [chainText, Link.written, Link.behind] using last

/-- The first link of a chain is found. -/
theorem cutArrow?_chain (first : Token) (link : Link) (t : Text) :
    cutArrow? (first.written ++ (link.written ++ t)) = some (first.written ++ link.gap, link.arrow, link.behind ++ t) := by
  have clear : Clear arrowHeads (first.written ++ link.gap) :=
    (first.clear.mono (by decide)).append (clear_of_blank link.gap_blank (by decide))
  have found := cutArrow?_written clear link.listed (link.head_behind t)
  simpa [Link.written] using found

theorem nodeAndText_chain (first : Token) (blank : allBlank b = true) :
    nodeAndText (first.written ++ b) = (first.written, none) := by
  exact nodeAndText_written (first.clear.mono (by decide)) blank (trim_of_blank_end first.begins first.ends blank)

theorem hops?_last {label : Option Text} (split : splitBarLabel t = (label, rest)) (last : cutArrow? rest = none) :
    hops? position arrow none t = (node? position rest).map fun node => [⟨arrow, label, node⟩] := by
  have behind : cutArrow? (splitBarLabel t).2 = none := by rw [split]; exact last
  rw [hops?]
  dsimp only
  split
  · simp [split]
  · next found =>
    rw [behind] at found
    cases found

theorem hops?_next {label : Option Text} {before after : Text} {next : Arrow} (split : splitBarLabel t = (label, rest))
    (cut : cutArrow? rest = some (before, next, after)) : hops? position arrow none t =
      (node? position (nodeAndText before).1).bind fun node =>
        (hops? position next (nodeAndText before).2 after).map fun hops => ⟨arrow, label, node⟩ :: hops := by
  have behind : cutArrow? (splitBarLabel t).2 = some (before, next, after) := by rw [split]; exact cut
  rw [hops?]
  dsimp only
  split
  · next missing =>
    rw [behind] at missing
    cases missing
  · next found =>
    obtain ⟨rfl, rfl, rfl⟩ : _ ∧ _ ∧ _ := by simpa [behind] using found
    rw [split]
    simp only [Option.or_none, Option.map_eq_bind]
    rfl

theorem hops?_written (link : Link) (links : List Link) :
    hops? position link.arrow none (link.behind ++ links.flatMap Link.written) =
      some ((link :: links).map (Link.hop position)) := by
  induction links generalizing link with
  | nil =>
    have split := link.splitBarLabel_behind (t := []) (by simpa using link.token.ends)
    have last : cutArrow? link.token.written = none := cutArrow?_of_clear (link.token.clear.mono (by decide))
    rw [List.append_nil link.token.written] at split
    rw [List.flatMap_nil, hops?_last split last, link.token.read]
    rfl
  | cons next links ih =>
    have split := link.splitBarLabel_behind (ends_of_links link.token (next :: links))
    have cut := cutArrow?_chain link.token next (links.flatMap Link.written)
    rw [hops?_next split cut, nodeAndText_chain link.token next.gap_blank, link.token.read]
    simp [ih next, Link.hop]

/-- A chain is read as it is spelt. -/
theorem chain?_written (first : Token) (link : Link) (links : List Link) :
    chain? position (chainText first (link :: links)) =
      some (first.node position, (link :: links).map (Link.hop position)) := by
  have cut := cutArrow?_chain first link (links.flatMap Link.written)
  rw [chainText, List.flatMap_cons, chain?, cut]
  simp [nodeAndText_chain first link.gap_blank, first.read, hops?_written]

/-! ### Statements -/

/-- A text that is one statement. -/
structure OneStatement (t : Text) : Prop where
  begins : BeginsVisible t
  ends : EndsVisible t
  clear : Clear [';'] t

namespace OneStatement

theorem trimmed (one : OneStatement t) (blank : allBlank b = true) : trimmed? (b ++ t) = some t := by
  have tight : trim (b ++ t) = t := trim_of_blank_front blank one.begins one.ends
  have filled : trim (b ++ t) ≠ [] := by
    rw [tight]
    obtain ⟨c, rest, rfl, -⟩ := one.begins
    exact List.cons_ne_nil c rest
  rw [trimmed?_of_ne_nil filled, tight]

theorem begins_semicolon (c : Char) (rest : Text) (starts : startsWith [';'] (c :: rest) = true) : c ∈ [';'] := by
  by_contra other
  rw [startsWith, dropStart?_eq_none (by simpa using other)] at starts
  cases starts

/-- Nothing is cut from one statement. -/
theorem statements_eq (one : OneStatement t) (blank : allBlank b = true) : statements (b ++ t) = [t] := by
  have whole : cutOutside? [';'] (b ++ t) = none := by
    rw [cutOutside?, ((clear_of_blank blank (by decide)).append one.clear).cutWhere?_eq_none begins_semicolon]
    rfl
  rw [statements]
  split
  · rw [one.trimmed blank]
    rfl
  · next found =>
    rw [whole] at found
    cases found

theorem statements_cons (one : OneStatement t) (blank : allBlank b = true) (rest : Text) :
    statements (b ++ (t ++ ';' :: rest)) = t :: statements rest := by
  have cut : cutOutside? [';'] (b ++ (t ++ ';' :: rest)) = some (b ++ t, rest) := by
    have here : cutWhere? (startsWith [';']) .outermost (';' :: rest) = some ([], ';' :: rest) := by
      simp [cutWhere?, Nesting.isOutside, Nesting.outermost, startsWith, dropStart?]
    rw [cutOutside?, ← List.append_assoc,
      ((clear_of_blank blank (by decide)).append one.clear).cutWhere?_append begins_semicolon, here]
    simp
  rw [statements]
  split
  · next missing =>
    rw [cut] at missing
    cases missing
  · next found =>
    obtain ⟨rfl, rfl⟩ : _ ∧ _ := by simpa [cut] using found
    rw [one.trimmed blank]
    rfl

/-- Statements with semicolons between them are cut where they were joined. -/
theorem statements_join {ts : List Text} (one : OneStatement t) (others : ∀ u ∈ ts, OneStatement u) (blank : allBlank b = true) :
    statements (b ++ join [';', ' '] (t :: ts)) = t :: ts := by
  induction ts generalizing t b with
  | nil => simpa [join] using one.statements_eq blank
  | cons u ts ih =>
    obtain ⟨next, others⟩ := List.forall_mem_cons.mp others
    have later := ih next others allBlank_space
    rw [join, List.intercalate_cons_cons, ← join, List.append_assoc, List.cons_append, one.statements_cons blank, later]

end OneStatement

theorem oneStatement_chain (first : Token) (links : List Link) : OneStatement (chainText first links) := by
  refine ⟨first.begins.append _, ends_of_links first links, (first.clear.mono (by decide)).append ?_⟩
  induction links with
  | nil => exact .nil
  | cons link links ih => exact link.clear.append ih

/-- A statement that is no command is read as the chain that it spells. -/
theorem readLine_chain {source : Node} {hops : List Hop} (spoken : isCommand line.text = false)
    (read : chain? line.position line.text = some (source, hops)) : readLine rules d line = .ok (d.addChain source hops) := by
  have reached : firstTaking d line (rules.take 8 ++ [⟨"edge", edgeLine⟩, ⟨"node", nodeLine⟩]) =
      firstTaking d line [⟨"edge", edgeLine⟩, ⟨"node", nodeLine⟩] :=
    firstTaking_append_of_pass (passed_iff_not_command.mpr spoken)
  refine readLine_of_first reached ?_
  rw [edgeLine, read]
  rfl

theorem readLine_chainText (first : Token) (link : Link) (links : List Link)
    (spoken : isCommand (chainText first (link :: links)) = false) :
    readLine rules d { line with text := chainText first (link :: links) } =
      .ok (d.addChain (first.node line.position) ((link :: links).map (Link.hop line.position))) :=
  readLine_chain spoken (chain?_written first link links)

/-! ### Chains and their edges -/

/-- A second place of a node adds nothing. -/
theorem addPlace_twice (n : Node) (nodes : List Node) : addPlace n (addPlace n nodes) = addPlace n nodes := by
  have filled (known : Node) : (known.fill n).fill n = known.fill n := by
    obtain ⟨id, label, shape, styleClass, position⟩ := known
    cases label <;> cases styleClass <;> cases labelled : n.label <;> simp [Node.fill, labelled]
  have alone : n.fill n = n := by
    unfold Node.fill
    cases n.label <;> simp
  induction nodes with
  | nil => simp [addPlace, alone]
  | cons known rest ih =>
    by_cases same : known.id = n.id
    · simp [addPlace, same, filled]
    · simp [addPlace, same, ih]

/-- The chain behind a hop may be added on its own. -/
theorem addChain_cons (d : Draft) (source : Node) (hop next : Hop) (hops : List Hop) :
    d.addChain source (hop :: next :: hops) = (d.addChain source [hop]).addChain hop.node (next :: hops) := by
  simp [Draft.addChain, Draft.addNode, addPlace_twice]

/-- The edges of a chain, one statement each, add up to the chain. -/
theorem readLines_singles (first : Token) (link : Link) (links : List Link)
    (spoken : ∀ t ∈ singleTexts first (link :: links), isCommand t = false) :
    readLines (fun _ => rules) d ((singleTexts first (link :: links)).map fun t => { line with text := t }) =
      .ok (d.addChain (first.node line.position) ((link :: links).map (Link.hop line.position))) := by
  induction links generalizing d first link with
  | nil => exact readLines_cons_ok (readLine_chainText first link [] (spoken _ (List.mem_singleton_self _)))
  | cons next links ih =>
    obtain ⟨here, later⟩ := List.forall_mem_cons.mp spoken
    rw [singleTexts, List.map_cons, readLines_cons_ok (readLine_chainText first link [] here), ih link.token next later]
    exact congrArg Except.ok (addChain_cons d _ _ _ _).symm

theorem oneStatement_single (first : Token) (links : List Link) : ∀ t ∈ singleTexts first links, OneStatement t := by
  induction links generalizing first with
  | nil => exact nofun
  | cons link links ih =>
    rw [singleTexts, List.forall_mem_cons]
    exact ⟨oneStatement_chain first [link], ih link.token⟩

/-- A chain is short for its edges, each written as a statement of its own: if none of the statements is a command, the line
with the chain and the line with the edges both draw the edges of the chain, between the same nodes. -/
theorem chain_as_single_edges (first : Token) (link : Link) (links : List Link)
    (passed : ∀ t ∈ chainText first (link :: links) :: singleTexts first (link :: links),
      ∀ rule ∈ rules.take 8, rule.read d { line with text := t } = pass) :
    readLines (fun _ => rules) d (statementLines { line with text := chainText first (link :: links) }) =
        .ok (d.addChain (first.node line.position) ((link :: links).map (Link.hop line.position))) ∧
      readLines (fun _ => rules) d
          (statementLines { line with text := join "; ".toList (singleTexts first (link :: links)) }) =
        .ok (d.addChain (first.node line.position) ((link :: links).map (Link.hop line.position))) := by
  have spoken : ∀ t ∈ chainText first (link :: links) :: singleTexts first (link :: links), isCommand t = false :=
    fun t member => passed_iff_not_command.mp (passed t member)
  obtain ⟨whole, single⟩ := List.forall_mem_cons.mp spoken
  constructor
  · have one := (oneStatement_chain first (link :: links)).statements_eq allBlank_nil
    rw [List.nil_append] at one
    rw [statementLines, one]
    exact readLines_cons_ok (readLine_chainText first link links whole)
  · obtain ⟨one, others⟩ := List.forall_mem_cons.mp (oneStatement_single first (link :: links))
    have cut := one.statements_join others allBlank_nil
    rw [statementLines]
    exact (congrArg (fun ts => readLines (fun _ => rules) d (ts.map fun t => { line with text := t })) cut).trans
      (readLines_singles first link links single)

/-- A label with an arrow, a bar, a semicolon and a bracket in it. -/
def busyLabel : QuotedLabel := ⟨⟨['[', '('], [')', ']'], .cylinder⟩, "x -->|y| z; ]".toList, by decide, by decide⟩

/-- A node with that label. -/
def busyToken : Token where
  id := "A".toList
  label := some busyLabel
  filled := by decide
  word := by decide +kernel
  classless := by
    rintro l ⟨rfl⟩
    exact cut?_eq_none_iff.mp (by decide +kernel)

/-- An arrow back to that node, with a label between bars. -/
def busyLink : Link where
  gap := [' ']
  spelling := "-.->".toList
  arrow := .dottedArrow
  inset := []
  bar := some "two words ".toList
  space := [' ']
  token := busyToken
  listed := by decide
  gap_blank := allBlank_space
  inset_blank := allBlank_nil
  space_blank := allBlank_space
  bar_plain := by
    rintro l ⟨rfl⟩
    decide +kernel

theorem chain_as_single_edges_busy :
    let line : Line := .ofRaw 2 []
    let hops := [busyLink.hop line.position, busyLink.hop line.position]
    (∀ t ∈ chainText busyToken [busyLink, busyLink] :: singleTexts busyToken [busyLink, busyLink],
        ∀ rule ∈ rules.take 8, rule.read {} { line with text := t } = pass) ∧
      readLines (fun _ => rules) {} (statementLines { line with text := chainText busyToken [busyLink, busyLink] }) =
        .ok (Draft.addChain {} (busyToken.node line.position) hops) ∧
      readLines (fun _ => rules) {}
          (statementLines { line with text := join "; ".toList (singleTexts busyToken [busyLink, busyLink]) }) =
        .ok (Draft.addChain {} (busyToken.node line.position) hops) := by
  have spoken : ∀ t ∈ chainText busyToken [busyLink, busyLink] :: singleTexts busyToken [busyLink, busyLink],
      isCommand t = false := by decide +kernel
  have passed : ∀ t ∈ chainText busyToken [busyLink, busyLink] :: singleTexts busyToken [busyLink, busyLink],
      ∀ rule ∈ rules.take 8, rule.read {} { Line.ofRaw 2 [] with text := t } = pass :=
    fun t member => passed_iff_not_command.mpr (spoken t member)
  exact ⟨passed, chain_as_single_edges busyToken busyLink [busyLink] passed⟩

end DiagramLint.Flowchart
