import DiagramLint.LineRule

/-!
Where reading stops. A line is read as the first rule says that does not pass. Lines are read one behind
the other, so a body is at fault in its first line that is at fault, and the lines in front of it are
read as they are without it.
-/
namespace DiagramLint

variable {σ : Type} {rules : σ → List (LineRule σ)} {s s' : σ} {line : Line} {before after : List Line}
  {e : ParseError}

/-! ### One line -/

theorem firstTaking_cons_of_pass {name : String} {read : σ → Line → Taken σ} {behind : List (LineRule σ)}
    (passed : read s line = pass) : firstTaking s line (⟨name, read⟩ :: behind) = firstTaking s line behind := by
  simp [firstTaking, passed, pass]

/-- The first rule that does not pass says what becomes of the line. -/
theorem readLine_of_first {all behind : List (LineRule σ)} {name : String} {read : σ → Line → Taken σ}
    {result : Except ParseError σ} (reached : firstTaking s line all = firstTaking s line (⟨name, read⟩ :: behind))
    (taken : read s line = result.map some) : readLine all s line = result := by
  simp only [readLine, reached, firstTaking, taken]
  cases result with
  | error e => rfl
  | ok after => rfl

/-- What a rule takes unless something stands against it. -/
theorem guarded_map_some {α : Type} {c : Prop} [Decidable c] {made : Except ParseError α} {f : α → σ} :
    (if c then .error e else made.map fun a => some (f a) : Taken σ) =
      (if c then .error e else made.map f : Except ParseError σ).map some := by
  split
  · rfl
  · cases made <;> rfl

theorem firstTaking_append_of_pass {front behind : List (LineRule σ)} (passed : ∀ rule ∈ front, rule.read s line = pass) :
    firstTaking s line (front ++ behind) = firstTaking s line behind := by
  induction front with
  | nil => rfl
  | cons rule front ih =>
    obtain ⟨first, others⟩ := List.forall_mem_cons.mp passed
    exact (firstTaking_cons_of_pass first).trans (ih others)

/-- A line that is taken is taken by a rule in front, or left by all of them to those behind. -/
theorem front_taken_or_passed {front behind : List (LineRule σ)}
    (taken : firstTaking s line (front ++ behind) = .ok (some s')) :
    (∃ rule ∈ front, rule.read s line = .ok (some s')) ∨ ∀ rule ∈ front, rule.read s line = pass := by
  induction front with
  | nil => exact .inr (List.forall_mem_nil _)
  | cons rule front ih =>
    rw [List.cons_append, firstTaking] at taken
    split at taken
    · next passed =>
      rcases ih taken with ⟨other, member, found⟩ | others
      · exact .inl ⟨other, List.mem_cons_of_mem _ member, found⟩
      · exact .inr (List.forall_mem_cons.mpr ⟨passed, others⟩)
    · exact .inl ⟨rule, List.mem_cons_self, taken⟩

theorem firstTaking_error {all : List (LineRule σ)} (failed : firstTaking s line all = .error e) :
    ∃ rule ∈ all, rule.read s line = .error e := by
  induction all with
  | nil => exact nomatch failed
  | cons rule behind ih =>
    unfold firstTaking at failed
    split at failed
    · obtain ⟨other, member, found⟩ := ih failed
      exact ⟨other, List.mem_cons_of_mem _ member, found⟩
    · exact ⟨rule, List.mem_cons_self, failed⟩

theorem firstTaking_ok {all : List (LineRule σ)} (taken : firstTaking s line all = .ok (some s')) :
    ∃ rule ∈ all, rule.read s line = .ok (some s') := by
  induction all with
  | nil => exact nomatch taken
  | cons rule behind ih =>
    unfold firstTaking at taken
    split at taken
    · obtain ⟨other, member, found⟩ := ih taken
      exact ⟨other, List.mem_cons_of_mem _ member, found⟩
    · exact ⟨rule, List.mem_cons_self, taken⟩

/-- A line that is read is taken by one of the rules. -/
theorem taken_by {all : List (LineRule σ)} (read : readLine all s line = .ok s') :
    ∃ rule ∈ all, rule.read s line = .ok (some s') := by
  unfold readLine at read
  split at read
  · next found =>
    obtain rfl := Except.ok.inj read
    exact firstTaking_ok found
  · cases read
  · cases read

/-- A line is refused by one of the rules, or because no rule takes it. -/
theorem refused_by {all : List (LineRule σ)} (refused : readLine all s line = .error e) :
    (∃ rule ∈ all, rule.read s line = .error e) ∨
      e = { line.fail (.lineUnrecognised line.text) with expected := all.map LineRule.name } := by
  unfold readLine at refused
  split at refused
  · exact nomatch refused
  · exact .inr (Except.error.inj refused).symm
  · next e' failed =>
    obtain rfl := Except.error.inj refused
    exact .inl (firstTaking_error failed)

/-! ### Lines in turn -/

/-- The lines that are left to read do not matter to the lines that are read. -/
theorem readLines_append (run : readLines rules s before = .ok s') :
    readLines rules s (before ++ after) = readLines rules s' after := by
  induction before generalizing s with
  | nil =>
    obtain rfl : s = s' := Except.ok.inj run
    rfl
  | cons line before ih =>
    simp only [readLines, List.cons_append] at run ⊢
    cases read : readLine (rules s) s line with
    | error e => simp [read] at run
    | ok between =>
      simp only [read] at run
      exact ih run

theorem readLines_cons_ok (read : readLine (rules s) s line = .ok s') :
    readLines rules s (line :: after) = readLines rules s' after := by
  simp [readLines, read]

theorem readLines_cons_error (refused : readLine (rules s) s line = .error e) :
    readLines rules s (line :: after) = .error e := by
  simp [readLines, refused]

theorem exists_of_readLines_cons (run : readLines rules s (line :: after) = .ok s') :
    ∃ between, readLine (rules s) s line = .ok between ∧ readLines rules between after = .ok s' := by
  cases taken : readLine (rules s) s line with
  | error e =>
    rw [readLines_cons_error taken] at run
    exact nomatch run
  | ok between => exact ⟨between, rfl, (readLines_cons_ok taken).symm.trans run⟩

/-- What holds of the lines read so far and the state holds behind all lines, if each line keeps it. -/
theorem readLines_holds {P : List Line → σ → Prop}
    (step : ∀ {read : List Line} {s : σ} {line : Line} {s' : σ}, P read s → readLine (rules s) s line = .ok s' →
      P (read ++ [line]) s')
    {read : List Line} (start : P read s) (run : readLines rules s after = .ok s') : P (read ++ after) s' := by
  induction after generalizing s read with
  | nil =>
    obtain rfl : s = s' := Except.ok.inj run
    simpa using start
  | cons line rest ih =>
    cases taken : readLine (rules s) s line with
    | error e =>
      rw [readLines_cons_error taken] at run
      exact nomatch run
    | ok between =>
      rw [readLines_cons_ok taken] at run
      simpa using ih (step start taken) run

/-- Lines are at fault in the first of them that is, behind lines that can be read. -/
theorem readLines_eq_error_iff {lines : List Line} :
    readLines rules s lines = .error e ↔ ∃ before line after s', lines = before ++ line :: after ∧
      readLines rules s before = .ok s' ∧ readLine (rules s') s' line = .error e := by
  constructor
  · intro stopped
    induction lines generalizing s with
    | nil => exact nomatch stopped
    | cons line lines ih =>
      cases read : readLine (rules s) s line with
      | error e' =>
        rw [readLines_cons_error read] at stopped
        exact ⟨[], line, lines, s, rfl, rfl, read.trans stopped⟩
      | ok between =>
        rw [readLines_cons_ok read] at stopped
        obtain ⟨before, bad, after, s', rfl, run, refused⟩ := ih stopped
        exact ⟨line :: before, bad, after, s', rfl, (readLines_cons_ok read).trans run, refused⟩
  · rintro ⟨before, line, after, s', rfl, run, refused⟩
    rw [readLines_append run, readLines_cons_error refused]

/-- Lines at fault stay at fault before others. -/
theorem readLines_append_error (stopped : readLines rules s before = .error e) :
    readLines rules s (before ++ after) = .error e := by
  obtain ⟨ahead, line, rest, s', rfl, run, refused⟩ := readLines_eq_error_iff.mp stopped
  rw [List.append_assoc]
  exact readLines_eq_error_iff.mpr ⟨ahead, line, rest ++ after, s', rfl, run, refused⟩

theorem exists_of_readLines_append (run : readLines rules s (before ++ after) = .ok s') :
    ∃ between, readLines rules s before = .ok between ∧ readLines rules between after = .ok s' := by
  cases ahead : readLines rules s before with
  | error e =>
    rw [readLines_append_error ahead] at run
    cases run
  | ok between => exact ⟨between, rfl, (readLines_append ahead).symm.trans run⟩

/-- Where lines can be read, every line can be read behind the lines in front of it. -/
theorem readLines_split_ok (run : readLines rules s (before ++ line :: after) = .ok s') :
    ∃ between next, readLines rules s before = .ok between ∧ readLine (rules between) between line = .ok next := by
  cases ahead : readLines rules s before with
  | error e =>
    rw [readLines_append_error ahead] at run
    cases run
  | ok between =>
    rw [readLines_append ahead] at run
    cases taken : readLine (rules between) between line with
    | error e =>
      rw [readLines_cons_error taken] at run
      cases run
    | ok next => exact ⟨between, next, rfl, taken⟩

/-- Lines are refused with a code at a place if one of them is, behind lines that can be read. -/
theorem readLines_refused_iff {lines : List Line} {code : Code} {p : Position}
    (placed : ∀ {s line e}, readLine (rules s) s line = .error e → e.position = line.position) :
    (∃ e, readLines rules s lines = .error e ∧ e.code = code ∧ e.position = p) ↔
      ∃ before line after s', lines = before ++ line :: after ∧ readLines rules s before = .ok s' ∧
        (∃ e, readLine (rules s') s' line = .error e ∧ e.code = code) ∧ line.position = p := by
  constructor
  · rintro ⟨e, stopped, coded, rfl⟩
    obtain ⟨before, line, after, s', split, run, refused⟩ := readLines_eq_error_iff.mp stopped
    exact ⟨before, line, after, s', split, run, ⟨e, refused, coded⟩, (placed refused).symm⟩
  · rintro ⟨before, line, after, s', split, run, ⟨e, refused, coded⟩, rfl⟩
    exact ⟨e, readLines_eq_error_iff.mpr ⟨before, line, after, s', split, run, refused⟩, coded, placed refused⟩

/-- Where every line stands for some lines, they are at fault for the first line of which one is. -/
theorem exists_line_at_fault {cut : Line → List Line} {lines : List Line}
    (stopped : readLines rules s (lines.flatMap cut) = .error e) :
    ∃ before line after s', lines = before ++ line :: after ∧
      readLines rules s (before.flatMap cut) = .ok s' ∧ readLines rules s' (cut line) = .error e := by
  induction lines generalizing s with
  | nil => exact nomatch stopped
  | cons line lines ih =>
    rw [List.flatMap_cons] at stopped
    cases run : readLines rules s (cut line) with
    | error e' =>
      rw [readLines_append_error run] at stopped
      exact ⟨[], line, lines, s, rfl, rfl, run.trans stopped⟩
    | ok between =>
      rw [readLines_append run] at stopped
      obtain ⟨before, bad, after, s', rfl, ahead, refused⟩ := ih stopped
      refine ⟨line :: before, bad, after, s', rfl, ?_, refused⟩
      rw [List.flatMap_cons, readLines_append run, ahead]

/-! ### Changed states -/

section Changed

variable {f : σ → σ} {all : List (LineRule σ)}

theorem firstTaking_map (each : ∀ rule ∈ all, rule.read (f s) line = (rule.read s line).map (Option.map f)) :
    firstTaking (f s) line all = (firstTaking s line all).map (Option.map f) := by
  induction all with
  | nil => rfl
  | cons rule all ih =>
    obtain ⟨first, others⟩ := List.forall_mem_cons.mp each
    simp only [firstTaking, first]
    cases rule.read s line with
    | error e => rfl
    | ok taken =>
      cases taken with
      | none => exact ih others
      | some s' => rfl

/-- What no rule looks at and no rule changes is as it was behind a line. -/
theorem readLine_map (each : ∀ rule ∈ all, rule.read (f s) line = (rule.read s line).map (Option.map f)) :
    readLine all (f s) line = (readLine all s line).map f := by
  simp only [readLine, firstTaking_map each]
  cases firstTaking s line all with
  | error e => rfl
  | ok taken =>
    cases taken with
    | none => rfl
    | some s' => rfl

end Changed

/-! ### Lines side by side -/

/-- Two results are both faults, or what they give is related. -/
inductive Alike {α β : Type} (R : α → β → Prop) : Except ParseError α → Except ParseError β → Prop where
  | faults (e e' : ParseError) : Alike R (.error e) (.error e')
  | results {a : α} {b : β} (related : R a b) : Alike R (.ok a) (.ok b)

section Alike

variable {α β α' β' : Type} {R : α → β → Prop} {R' : α' → β' → Prop}

theorem Alike.map {x : Except ParseError α} {y : Except ParseError β} {f : α → α'} {g : β → β'} (alike : Alike R x y)
    (keeps : ∀ {a b}, R a b → R' (f a) (g b)) : Alike R' (x.map f) (y.map g) := by
  cases alike with
  | faults e e' => exact .faults e e'
  | results related => exact .results (keeps related)

theorem Alike.symm {x : Except ParseError α} {y : Except ParseError β} (alike : Alike R x y) :
    Alike (fun b a => R a b) y x := by
  cases alike with
  | faults e e' => exact .faults e' e
  | results related => exact .results related

theorem Alike.exists_of_ok {x : Except ParseError α} {y : Except ParseError β} {a : α} (alike : Alike R x y)
    (made : x = .ok a) : ∃ b, y = .ok b ∧ R a b := by
  cases alike with
  | faults e e' => cases made
  | results related =>
    obtain rfl := Except.ok.inj made
    exact ⟨_, rfl, related⟩

variable {S : σ → σ → Prop} {t : σ} {other : Line}

theorem firstTaking_alike {all : List (LineRule σ)}
    (each : ∀ rule ∈ all, Alike (Option.Rel S) (rule.read s line) (rule.read t other)) :
    Alike (Option.Rel S) (firstTaking s line all) (firstTaking t other all) := by
  induction all with
  | nil => exact .results .none
  | cons rule all ih =>
    obtain ⟨first, others⟩ := List.forall_mem_cons.mp each
    unfold firstTaking
    generalize rule.read s line = x, rule.read t other = y at first
    cases first with
    | faults e e' => exact .faults e e'
    | results related =>
      cases related with
      | none => exact ih others
      | some related => exact .results (.some related)

theorem readLine_alike {all : List (LineRule σ)}
    (each : ∀ rule ∈ all, Alike (Option.Rel S) (rule.read s line) (rule.read t other)) :
    Alike S (readLine all s line) (readLine all t other) := by
  have alike := firstTaking_alike each
  unfold readLine
  generalize firstTaking s line all = x, firstTaking t other all = y at alike
  cases alike with
  | faults e e' => exact .faults e e'
  | results related =>
    cases related with
    | none => exact .faults _ _
    | some related => exact .results related

/-- Lines of the same texts are read alike, if each line is. -/
theorem readLines_alike
    (step : ∀ {s t line other}, S s t → line.text = other.text →
      Alike S (readLine (rules s) s line) (readLine (rules t) t other))
    (related : S s t) {lines others : List Line} (same : lines.map Line.text = others.map Line.text) :
    Alike S (readLines rules s lines) (readLines rules t others) := by
  induction lines generalizing s t others with
  | nil =>
    obtain rfl : others = [] := by simpa using same.symm
    exact .results related
  | cons line lines ih =>
    obtain ⟨other, others, rfl, first, behind⟩ := List.map_eq_cons_iff.mp same.symm
    have alike := step related first.symm
    unfold readLines
    generalize readLine (rules s) s line = x, readLine (rules t) t other = y at alike
    cases alike with
    | faults e e' => exact .faults e e'
    | results related => exact ih related behind.symm

end Alike

end DiagramLint
