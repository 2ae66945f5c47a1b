import DiagramLint.Proofs.Firsts
import DiagramLint.Proofs.LineRule
import DiagramLint.Proofs.Names
import DiagramLint.Proofs.SequenceDiagram.Lines
import DiagramLint.RuleSet

/-!
Changes of activity and their counterparts. Of the changes of one participant, those that activate open
and those that deactivate close; a close takes away the last open that is not taken away yet. What is
found are the closes for which there is no such open, and for each participant with opens that are left
the last of them (`findings_pair`).
-/
namespace DiagramLint.SequenceDiagram

open Text

/-! ### Changes that lines make -/

/-- The route of the message that a line is. -/
def sent? (line : Line) : Option Route :=
  if isKeyed line.text then none else routeFrom? [] (headAndLabel line.text).1

/-- The change of activity that a line makes: the line says so, or it is a message with a marker that
activates the receiver or deactivates the sender. -/
def change? (line : Line) : Option Activation :=
  match activity? line.text with
  | some (active, participant) => some ⟨participant, active, line.position⟩
  | none =>
    match sent? line with
    | some ⟨_, _, receiver, some .activate⟩ => some ⟨receiver, true, line.position⟩
    | some ⟨sender, _, _, some .deactivate⟩ => some ⟨sender, false, line.position⟩
    | _ => none

/-- The changes of activity that some lines make, in order. -/
def changes (lines : List Line) : List Activation := lines.filterMap change?

variable {d d' : Draft} {line : Line} {s : Source} {diagram : SequenceDiagram} {p : Text} {a : Activation}
  {w before events : List Activation}

theorem change?_of_keyed (keyed : isKeyed line.text = true) (unchanged : activity? line.text = none) :
    change? line = none := by
  simp [change?, unchanged, sent?, keyed]

theorem change?_of_sent {r : Route} (unkeyed : isKeyed line.text = false)
    (found : routeFrom? [] (headAndLabel line.text).1 = some r) : change? line = r.activation? line.position := by
  have unchanged : activity? line.text = none := by
    cases changed : activity? line.text with
    | none => rfl
    | some change => simp [isKeyed, changed] at unkeyed
  have sent : sent? line = some r := by simp [sent?, unkeyed, found]
  obtain ⟨sender, arrow, receiver, marker⟩ := r
  rcases marker with _ | _ | _ <;> simp [change?, unchanged, sent, Route.activation?]

theorem activations_of_mark {mark : BlockMark} (read : d.mark line mark = .ok d') :
    d'.activations = d.activations := by
  cases mark with
  | opening kind label =>
    obtain rfl := Except.ok.inj read
    rfl
  | continuation kind keyword label =>
    simp only [Draft.mark] at read
    split at read
    · obtain rfl := Except.ok.inj read
      rfl
    · cases read
  | ending =>
    simp only [Draft.mark] at read
    split at read
    · cases read
    · obtain rfl := Except.ok.inj read
      rfl

theorem readLine_activations (read : readLine rules d line = .ok d') :
    d'.activations = d.activations ++ (change? line).toList := by
  cases marked : blockMark? line.text with
  | some mark =>
    have keyed : isKeyed line.text = true := by simp [isKeyed, marked]
    rw [readLine_of_mark marked] at read
    rw [activations_of_mark read, change?_of_keyed keyed (unspoken_of_mark marked).2.1]
    simp
  | none =>
    cases aside_of_unmarked marked read with
    | keyed keyed unchanged => simp [change?_of_keyed keyed unchanged]
    | activation active id changed => simp [change?, changed]
    | message unkeyed m r found => simp [change?_of_sent unkeyed found]

/-- A diagram has the changes that its lines make. -/
theorem activations_of_read (accepted : read s = .ok diagram) : diagram.activations = changes s.body := by
  obtain ⟨header, d, run, -, rfl⟩ := exists_of_read accepted
  have step : ∀ {read : List Line} {d : Draft} {line : Line} {d' : Draft}, d.activations = changes read →
      readLine rules d line = .ok d' → d'.activations = changes (read ++ [line]) := by
    intro read d line d' so_far taken
    rw [readLine_activations taken, so_far]
    simp [changes, List.filterMap_append, List.filterMap_cons]
    cases change? line <;> rfl
  have blank : (Draft.activations {}) = changes [] := rfl
  exact readLines_holds (P := fun read d => d.activations = changes read) step blank run

/-! ### Opens and closes -/

/-- The number of activations. -/
def opens (w : List Activation) : Nat := w.countP fun a => a.active

/-- The number of deactivations. -/
def closes (w : List Activation) : Nat := w.countP fun a => !a.active

/-- No beginning has more closes than opens. -/
def Steady (w : List Activation) : Prop := ∀ v, v <+: w → closes v ≤ opens v

/-- How many closes are missing their opens: the most that a beginning has more closes than opens. -/
def excess : List Activation → Nat
  | [] => 0
  | a :: rest => if a.active then excess rest - 1 else excess rest + 1

@[simp] theorem opens_nil : opens [] = 0 := rfl

@[simp] theorem closes_nil : closes [] = 0 := rfl

theorem opens_cons : opens (a :: w) = opens w + if a.active then 1 else 0 := by
  simp [opens, List.countP_cons]

theorem closes_cons : closes (a :: w) = closes w + if a.active then 0 else 1 := by
  cases active : a.active <;> simp [closes, active]

-- The bound is for any number of closes too many, as an open in front allows for one more.
theorem excess_le_iff (k : Nat) : excess w ≤ k ↔ ∀ v, v <+: w → closes v ≤ opens v + k := by
  induction w generalizing k with
  | nil => simp [excess]
  | cons a w ih =>
    have split : (∀ v, v <+: a :: w → closes v ≤ opens v + k) ↔
        ∀ v, v <+: w → closes (a :: v) ≤ opens (a :: v) + k := by
      constructor
      · intro all v start
        exact all (a :: v) (List.prefix_cons_inj a |>.mpr start)
      · intro all v start
        rcases List.prefix_cons_iff.mp start with rfl | ⟨u, rfl, behind⟩
        · simp
        · exact all u behind
    rw [split]
    by_cases active : a.active = true
    · have shifted := ih (k + 1)
      simp only [excess, active, if_true, closes_cons, opens_cons]
      rw [Nat.sub_le_iff_le_add, shifted]
      simp only [Nat.add_zero, Nat.add_assoc, Nat.add_comm 1 k]
    · simp only [excess, active, closes_cons, opens_cons]
      cases k with
      | zero =>
        constructor
        · intro bound
          simp at bound
        · intro all
          have first := all [] List.nil_prefix
          simp at first
      | succ k =>
        have shifted := ih k
        simp only [Bool.false_eq_true, if_false, Nat.add_le_add_iff_right, shifted, Nat.add_zero]
        constructor
        · intro all v start
          have := all v start
          omega
        · intro all v start
          have := all v start
          omega

theorem steady_iff_excess : Steady w ↔ excess w = 0 := by
  have bound := excess_le_iff (w := w) 0
  simpa [Steady] using bound.symm

instance (w : List Activation) : Decidable (Steady w) := decidable_of_iff _ steady_iff_excess.symm

/-- The opens that no close behind them takes away. -/
def unmatched : List Activation → List Activation
  | [] => []
  | a :: rest => if a.active ∧ Steady rest then a :: unmatched rest else unmatched rest

/-- A close is either missing its open or takes one away. -/
theorem length_unmatched (w : List Activation) : (unmatched w).length + closes w = opens w + excess w := by
  induction w with
  | nil => rfl
  | cons a w ih =>
    by_cases active : a.active = true
    · by_cases steady : Steady w
      · have none_missing := steady_iff_excess.mp steady
        simp [unmatched, active, steady, opens_cons, closes_cons, excess, none_missing] at ih ⊢
        omega
      · have missing : excess w ≠ 0 := fun none => steady (steady_iff_excess.mpr none)
        simp only [unmatched, active, steady, opens_cons, closes_cons, excess, and_false, if_true, if_false] at ih ⊢
        omega
    · simp only [unmatched, active, opens_cons, closes_cons, excess, false_and, if_false, Bool.false_eq_true]
      omega

theorem Steady.of_append {u v : List Activation} (steady : Steady (u ++ v)) : Steady u :=
  fun x start => steady x (start.trans (List.prefix_append u v))

theorem steady_concat : Steady (w ++ [a]) ↔ Steady w ∧ (a.active = true ∨ unmatched w ≠ []) := by
  have whole : Steady (w ++ [a]) ↔ Steady w ∧ closes (w ++ [a]) ≤ opens (w ++ [a]) := by
    constructor
    · intro steady
      exact ⟨steady.of_append, steady _ (List.prefix_refl _)⟩
    · rintro ⟨steady, last⟩ v start
      rcases List.prefix_concat_iff.mp start with rfl | start
      · exact last
      · exact steady v start
  rw [whole]
  refine and_congr_right ?_
  intro steady
  have none_missing := steady_iff_excess.mp steady
  have lengths := length_unmatched w
  have below := steady w (List.prefix_refl w)
  have left : unmatched w ≠ [] ↔ 0 < (unmatched w).length := List.length_pos_iff.symm
  rw [left]
  by_cases active : a.active = true
  · simp [opens, closes, active] at below ⊢
    omega
  · simp [opens, closes, active] at below lengths ⊢
    omega

theorem unmatched_concat_open (active : a.active = true) : unmatched (w ++ [a]) = unmatched w ++ [a] := by
  induction w with
  | nil =>
    have steady : Steady [] := steady_iff_excess.mpr rfl
    simp [unmatched, active, steady]
  | cons b w ih =>
    have same : Steady (w ++ [a]) ↔ Steady w := by simp [steady_concat, active]
    by_cases kept : b.active = true ∧ Steady w
    · simp [unmatched, kept, same, ih]
    · simp [unmatched, kept, same, ih]

/-- A close takes the last open away that is left. -/
theorem unmatched_concat_close (inactive : a.active = false) : unmatched (w ++ [a]) = (unmatched w).dropLast := by
  induction w with
  | nil => simp [unmatched, inactive]
  | cons b w ih =>
    have same : Steady (w ++ [a]) ↔ Steady w ∧ unmatched w ≠ [] := by simp [steady_concat, inactive]
    by_cases kept : b.active = true ∧ Steady w
    · by_cases empty : unmatched w = []
      · simp [unmatched, kept, same, ih, empty]
      · simp [unmatched, kept, same, ih, empty, List.dropLast_cons_of_ne_nil empty]
    · have gone : ¬ (b.active = true ∧ Steady (w ++ [a])) := fun both => kept ⟨both.1, (same.mp both.2).1⟩
      simp [unmatched, kept, gone, ih]

/-! ### Participants -/

/-- The changes of one participant. -/
def own (p : Text) (events : List Activation) : List Activation := events.filter fun a => a.participant = p

/-- The participants of some changes, each once, in the order of their first changes. -/
def parties (events : List Activation) : List Text := firsts id (events.map Activation.participant)

/-- The closes behind some changes for which no open of their participant is left. -/
def straysBehind (before : List Activation) : List Activation → List Activation
  | [] => []
  | a :: rest =>
    if a.active = false ∧ unmatched (own a.participant before) = [] then a :: straysBehind (before ++ [a]) rest
    else straysBehind (before ++ [a]) rest

/-- The closes for which no open of their participant is left. -/
def strays (events : List Activation) : List Activation := straysBehind [] events

/-- The finding for the last open of a participant that is left. -/
def pending? (events : List Activation) (p : Text) : Option Finding :=
  (unmatched (own p events)).getLast?.map fun a => pendingFinding p a.position

theorem mem_parties : p ∈ parties events ↔ own p events ≠ [] := by
  have keys : p ∈ (firsts id (events.map Activation.participant)).map id ↔
      p ∈ (events.map Activation.participant).map id := mem_keys_firsts
  simp only [List.map_id] at keys
  rw [parties, keys]
  simp [own]

theorem nodup_parties (events : List Activation) : (parties events).Nodup := by
  have distinct : ((firsts id (events.map Activation.participant)).map id).Nodup := nodup_keys_firsts _
  simpa [parties] using distinct

theorem parties_concat : parties (events ++ [a]) =
    if a.participant ∈ parties events then parties events else parties events ++ [a.participant] := by
  have keys : a.participant ∈ (firsts id (events.map Activation.participant)).map id ↔
      a.participant ∈ (events.map Activation.participant).map id := mem_keys_firsts
  simp only [List.map_id] at keys
  simp [parties, firsts_concat, keys]

theorem own_concat : own p (events ++ [a]) = if a.participant = p then own p events ++ [a] else own p events := by
  by_cases same : a.participant = p <;> simp [own, same]

theorem own_of_not_mem (absent : p ∉ parties events) : own p events = [] := by
  by_contra some_change
  exact absent (mem_parties.mpr some_change)

/-! ### The account of open activations -/

/-- The activations of each participant that are left behind some changes, the last one first. -/
def left (events : List Activation) : Activity :=
  (parties events).map fun p => (p, ((unmatched (own p events)).map Activation.position).reverse)

theorem update_of_mem {names : List Text} {f : List Position → List Position} {g : Text → List Position}
    (distinct : names.Nodup) (known : p ∈ names) :
    Activity.update p f (names.map fun n => (n, g n)) = names.map fun n => (n, if n = p then f (g n) else g n) := by
  induction names with
  | nil => exact nomatch known
  | cons name names ih =>
    obtain ⟨fresh, distinct⟩ := List.nodup_cons.mp distinct
    by_cases same : name = p
    · subst same
      have others : names.map (fun n => (n, if n = name then f (g n) else g n)) = names.map fun n => (n, g n) := by
        refine List.map_congr_left ?_
        intro n member
        have other : n ≠ name := fun equal => fresh (equal ▸ member)
        simp [other]
      simp [Activity.update, others]
    · have later : p ∈ names := (List.mem_cons.mp known).resolve_left fun equal => same equal.symm
      simp [Activity.update, same, ih distinct later]

theorem update_of_not_mem {names : List Text} {f : List Position → List Position} {g : Text → List Position}
    (unknown : p ∉ names) :
    Activity.update p f (names.map fun n => (n, g n)) = (names.map fun n => (n, g n)) ++ [(p, f [])] := by
  induction names with
  | nil => rfl
  | cons name names ih =>
    have other : name ≠ p := fun same => unknown (same ▸ List.mem_cons_self)
    have later : p ∉ names := fun member => unknown (List.mem_cons_of_mem name member)
    simp [Activity.update, other, ih later]

theorem lookup_map {names : List Text} {g : Text → List Position} :
    List.lookup p (names.map fun n => (n, g n)) = if p ∈ names then some (g p) else none := by
  induction names with
  | nil => rfl
  | cons name names ih =>
    by_cases same : p = name
    · simp [same]
    · have unequal : (p == name) = false := by simpa using same
      simp [List.lookup_cons, unequal, ih, same]

theorem step_left (before : List Activation) (a : Activation) : (left before).step a = left (before ++ [a]) := by
  have unmatched_step : ∀ w, ((unmatched (w ++ [a])).map Activation.position).reverse =
      if a.active then a.position :: ((unmatched w).map Activation.position).reverse
      else ((unmatched w).map Activation.position).reverse.tail := by
    intro w
    cases active : a.active with
    | true => simp [unmatched_concat_open active]
    | false => simp [unmatched_concat_close active]
  have same_positions (p : Text) : ((unmatched (own p (before ++ [a]))).map Activation.position).reverse =
      if p = a.participant then
        if a.active then a.position :: ((unmatched (own p before)).map Activation.position).reverse
        else ((unmatched (own p before)).map Activation.position).reverse.tail
      else ((unmatched (own p before)).map Activation.position).reverse := by
    by_cases same : a.participant = p
    · rw [own_concat, if_pos same, unmatched_step, if_pos same.symm]
    · rw [own_concat, if_neg same, if_neg (Ne.symm same)]
  unfold Activity.step left
  by_cases known : a.participant ∈ parties before
  · rw [update_of_mem (nodup_parties before) known, parties_concat, if_pos known]
    simp only [same_positions]
  · -- The participant is new: the others stay, and it has nothing left so far.
    have others : (parties before).map (fun p => (p, ((unmatched (own p (before ++ [a]))).map Activation.position).reverse)) =
        (parties before).map fun p => (p, ((unmatched (own p before)).map Activation.position).reverse) := by
      refine List.map_congr_left ?_
      intro p member
      have other : p ≠ a.participant := fun same => known (same ▸ member)
      rw [same_positions, if_neg other]
    have none_before : unmatched (own a.participant before) = [] := by
      rw [own_of_not_mem known]
      rfl
    rw [update_of_not_mem known, parties_concat, if_neg known, List.map_append, others]
    simp [same_positions, none_before]

theorem isPaired_left (before : List Activation) (a : Activation) :
    (left before).isPaired a = false ↔ a.active = false ∧ unmatched (own a.participant before) = [] := by
  unfold Activity.isPaired left
  rw [lookup_map]
  by_cases known : a.participant ∈ parties before
  · simp [known]
  · have silent : unmatched (own a.participant before) = [] := by
      rw [own_of_not_mem known]
      rfl
    simp [known, silent]

theorem activityFindings_left (before rest : List Activation) : activityFindings (left before) rest =
    (straysBehind before rest).map strayFinding ++ (parties (before ++ rest)).filterMap (pending? (before ++ rest)) := by
  -- The check carries what the changes read so far leave open, which `left` tells from these changes.
  induction rest generalizing before with
  | nil =>
    have same : ((fun entry : Text × List Position => entry.2.head?.map (pendingFinding entry.1)) ∘ fun p =>
        (p, ((unmatched (own p before)).map Activation.position).reverse)) = pending? before := by
      funext p
      simp [pending?, List.getLast?_map, Function.comp_def]
    simp only [activityFindings, straysBehind, left, List.append_nil, List.map_nil, List.nil_append,
      List.filterMap_map]
    exact congrArg (fun f => (parties before).filterMap f) same
  | cons a rest ih =>
    have stray := isPaired_left before a
    rw [activityFindings, step_left, ih, List.append_assoc, List.singleton_append]
    by_cases here : a.active = false ∧ unmatched (own a.participant before) = []
    · simp [straysBehind, here, stray.mpr here]
    · have paired : (left before).isPaired a = true := by
        by_contra unpaired
        exact here (stray.mp (Bool.eq_false_iff.mpr unpaired))
      simp only [straysBehind, here, paired, if_true, if_false, List.nil_append]

/-! ### Participants by themselves -/

theorem own_own : own p (own p events) = own p events := by simp [own]

/-- The closes of a participant that are missing opens are told by its own changes. -/
theorem own_straysBehind (before rest : List Activation) :
    own p (straysBehind before rest) = straysBehind (own p before) (own p rest) := by
  induction rest generalizing before with
  | nil => rfl
  | cons a rest ih =>
    have later := ih (before ++ [a])
    rw [own_concat] at later
    by_cases same : a.participant = p
    · subst same
      rw [if_pos rfl] at later
      have kept : own a.participant (a :: rest) = a :: own a.participant rest := by simp [own]
      rw [kept]
      by_cases here : a.active = false ∧ unmatched (own a.participant before) = []
      · have kept : own a.participant (a :: straysBehind (before ++ [a]) rest) =
            a :: own a.participant (straysBehind (before ++ [a]) rest) := by simp [own]
        simp [straysBehind, here, own_own, kept, later]
      · simp [straysBehind, here, own_own, later]
    · -- A change of another participant is dropped on both sides.
      rw [if_neg same] at later
      have dropped (events : List Activation) : own p (a :: events) = own p events := by simp [own, same]
      rw [dropped, straysBehind]
      split
      · rw [dropped, later]
      · exact later

/-- No close of a participant is missing its open if no beginning has more closes than opens. -/
theorem straysBehind_eq_nil_iff {rest : List Activation} (single : ∀ a ∈ before ++ rest, a.participant = p)
    (steady : Steady before) : straysBehind before rest = [] ↔ Steady (before ++ rest) := by
  induction rest generalizing before with
  | nil => simp [straysBehind, steady]
  | cons a rest ih =>
    have whole : own a.participant before = before := by
      refine List.filter_eq_self.mpr ?_
      intro b member
      simp [single b (List.mem_append_left _ member), single a (by simp)]
    have joined : before ++ a :: rest = before ++ [a] ++ rest := by simp
    rw [straysBehind, whole, joined]
    by_cases stray : a.active = false ∧ unmatched before = []
    · have excessive : ¬ Steady (before ++ [a] ++ rest) := by
        intro all
        have here := steady_concat.mp all.of_append
        simp [stray] at here
      simpa [stray] using excessive
    · have next : Steady (before ++ [a]) := by
        refine steady_concat.mpr ⟨steady, ?_⟩
        by_cases active : a.active = true
        · exact .inl active
        · exact .inr fun empty => stray ⟨by simpa using active, empty⟩
      rw [if_neg stray]
      exact ih (by simpa using single) next

theorem strays_own_eq_nil_iff : strays (own p events) = [] ↔ Steady (own p events) := by
  have single : ∀ a ∈ [] ++ own p events, a.participant = p := by simp [own]
  exact straysBehind_eq_nil_iff single (steady_iff_excess.mpr rfl)

theorem strays_eq_nil_iff : strays events = [] ↔ ∀ p, Steady (own p events) := by
  constructor
  · intro none p
    refine strays_own_eq_nil_iff.mp ?_
    have mine : own p (strays events) = strays (own p events) := own_straysBehind [] events
    rw [← mine, none]
    rfl
  · intro all
    refine List.eq_nil_iff_forall_not_mem.mpr ?_
    intro a member
    have mine : own a.participant (strays events) = strays (own a.participant events) := own_straysBehind [] events
    rw [strays_own_eq_nil_iff.mpr (all a.participant)] at mine
    have inside : a ∈ own a.participant (strays events) := by simp [own, member]
    rw [mine] at inside
    exact nomatch inside

theorem Steady.unmatched_eq_nil_iff (steady : Steady w) : unmatched w = [] ↔ closes w = opens w := by
  have lengths := length_unmatched w
  rw [steady_iff_excess.mp steady] at lengths
  rw [← List.length_eq_zero_iff]
  omega

/-! ### Findings -/

theorem code_of_undeclared {f : Finding} (found : f ∈ diagram.undeclaredParticipants) : f.code = some .e301 := by
  unfold undeclaredParticipants at found
  dsimp only at found
  split at found
  · exact nomatch found
  · rcases List.mem_append.mp found with found | found
    · rcases List.mem_append.mp found with found | found
      · obtain ⟨m, -, found⟩ := List.mem_flatMap.mp found
        obtain ⟨id, -, found⟩ := List.mem_filterMap.mp found
        exact code_of_reference found
      · obtain ⟨n, -, found⟩ := List.mem_flatMap.mp found
        obtain ⟨id, -, found⟩ := List.mem_filterMap.mp found
        exact code_of_reference found
    · obtain ⟨a, -, found⟩ := List.mem_filterMap.mp found
      exact code_of_reference found

theorem code_of_activity {f : Finding} {changes : List Activation} {open_now : Activity}
    (found : f ∈ activityFindings open_now changes) : f.code = some .e303 := by
  induction changes generalizing open_now with
  | nil =>
    obtain ⟨⟨name, positions⟩, -, found⟩ := List.mem_filterMap.mp found
    obtain ⟨position, -, rfl⟩ := Option.map_eq_some_iff.mp found
    rfl
  | cons a rest ih =>
    rcases List.mem_append.mp found with here | later
    · split at here
      · exact nomatch here
      · obtain rfl := List.mem_singleton.mp here
        rfl
    · exact ih later

theorem findings_by_code (sequence : diagram.header.kind = .sequence) :
    ((Diagram.sequence diagram).findings.filter fun f => f.code = some .e303) = diagram.activationPairing := by
  have rules : (Diagram.sequence diagram).findings =
      diagram.duplicateParticipants ++ (diagram.undeclaredParticipants ++ diagram.activationPairing) := by
    unfold Diagram.findings RuleSet.findings RuleSet.ofKind Diagram.kind Diagram.header
    simp [sequence, Kind.family?, Family.rules, Rule.sequence, Rule.on]
  have duplicates : (diagram.duplicateParticipants.filter fun f => f.code = some .e303) = [] :=
    filter_code_eq_nil (fun f member => code_of_duplicates member) (by decide)
  have undeclared : (diagram.undeclaredParticipants.filter fun f => f.code = some .e303) = [] :=
    filter_code_eq_nil (fun f member => code_of_undeclared member) (by decide)
  have pairing : (diagram.activationPairing.filter fun f => f.code = some .e303) = diagram.activationPairing :=
    filter_code_eq_self fun f member => code_of_activity member
  rw [rules, List.filter_append, List.filter_append, duplicates, undeclared, pairing]
  rfl

/-- What is found about some changes. -/
structure Pairs (events : List Activation) (found : List Finding) : Prop where
  /-- The closes that are missing opens in order, and behind them one finding for each participant with
  opens that are left. -/
  reported : found = (strays events).map strayFinding ++ (parties events).filterMap (pending? events)
  each_once : (parties events).Nodup
  every : ∀ p, p ∈ parties events ↔ own p events ≠ []
  none_iff : found = [] ↔ ∀ p, (∀ v, v <+: own p events → closes v ≤ opens v) ∧
    closes (own p events) = opens (own p events)
  independent : ∀ p, own p (strays events) = strays (own p events)

theorem pairs_of_reported {found : List Finding}
    (reported : found = (strays events).map strayFinding ++ (parties events).filterMap (pending? events)) :
    Pairs events found := by
  refine ⟨reported, nodup_parties events, fun p => mem_parties, ?_, fun p => own_straysBehind [] events⟩
  have pending_iff (p : Text) : pending? events p = none ↔ unmatched (own p events) = [] := by simp [pending?]
  rw [reported, List.append_eq_nil_iff, List.map_eq_nil_iff, List.filterMap_eq_nil_iff, strays_eq_nil_iff]
  constructor
  · rintro ⟨steady, settled⟩ p
    refine ⟨steady p, (steady p).unmatched_eq_nil_iff.mp ?_⟩
    by_cases known : p ∈ parties events
    · exact (pending_iff p).mp (settled p known)
    · rw [own_of_not_mem known]
      rfl
  · intro balanced
    refine ⟨fun p => (balanced p).1, ?_⟩
    intro p member
    have steady : Steady (own p events) := (balanced p).1
    exact (pending_iff p).mpr (steady.unmatched_eq_nil_iff.mpr (balanced p).2)

/-- In a diagram that is read the changes of activity are those that its lines make, and what is found
about them is told by the changes of each participant. -/
theorem findings_pair (accepted : read s = .ok diagram) :
    Pairs (changes s.body) ((Diagram.sequence diagram).findings.filter fun f => f.code = some .e303) := by
  have sequence : diagram.header.kind = .sequence := by
    obtain ⟨header, d, -, -, rfl⟩ := exists_of_read accepted
    rfl
  refine pairs_of_reported ?_
  rw [findings_by_code sequence, activationPairing, activations_of_read accepted]
  exact activityFindings_left [] (changes s.body)

/-- Two participants in turn, with lines of their own and with markers, an end too many and one too few. -/
def crossedActivity : Text :=
  "sequenceDiagram\nactivate A\nA->>+B: x\nA->>+B: y\nB-->>-A: z\ndeactivate A\ndeactivate A\nactivate A\ndeactivate A".toList

theorem findings_pair_crossed : ∃ diagram, read (Source.ofText crossedActivity 0) = .ok diagram ∧
    Pairs (changes (Source.ofText crossedActivity 0).body)
      ((Diagram.sequence diagram).findings.filter fun f => f.code = some .e303) := by
  obtain ⟨diagram, accepted⟩ := exists_of_isOk (x := read (Source.ofText crossedActivity 0)) (by decide +kernel)
  exact ⟨diagram, accepted, findings_pair accepted⟩

end DiagramLint.SequenceDiagram
