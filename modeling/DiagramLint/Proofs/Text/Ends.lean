import DiagramLint.Text.Word
import Mathlib.Data.List.Infix
import Mathlib.Data.List.TakeWhile
import Mathlib.Tactic.Common

/-!
The ends of texts. Blanks at the ends of a text are all that trimming takes away, and quotes all that unquoting
takes away, so what begins and ends with other characters stays inside (`infix_of_framed`).
-/
namespace DiagramLint.Text

variable {t u v s b b' : Text} {c : Char}

/-! ### Characters of a text -/

/-- What holds of all characters of a text is decided along the text, and not over all characters that there are. -/
instance (priority := high) decidableForallMem (t : Text) (p : Char → Prop) [DecidablePred p] : Decidable (∀ c ∈ t, p c) :=
  List.decidableBAll p t

instance (priority := high) decidableExistsMem (t : Text) (p : Char → Prop) [DecidablePred p] : Decidable (∃ c ∈ t, p c) :=
  List.decidableBEx p t

/-! ### Blanks -/

theorem ne_of_blank {mark : Char} (blank : isBlank c = true) (visible : isBlank mark = false) : c ≠ mark := by
  rintro rfl
  simp [blank] at visible

theorem not_mem_of_blank (blank : allBlank t = true) (visible : isBlank c = false) : c ∉ t :=
  fun member => ne_of_blank (List.all_eq_true.mp blank c member) visible rfl

theorem exists_range_of_inRanges {ranges : List (Nat × Nat)} {n : Nat} (inside : inRanges ranges n = true) :
    ∃ range ∈ ranges, range.1 ≤ n ∧ n ≤ range.2 := by
  induction ranges with
  | nil => cases inside
  | cons range ranges ih =>
    obtain ⟨low, high⟩ := range
    rw [inRanges] at inside
    split at inside
    · cases inside
    · next above =>
      rcases Bool.or_eq_true_iff.mp inside with here | later
      · exact ⟨_, List.mem_cons_self, by omega, of_decide_eq_true here⟩
      · obtain ⟨other, member, bounds⟩ := ih later
        exact ⟨other, List.mem_cons_of_mem _ member, bounds⟩

/-- No alphanumeric character is blank. -/
theorem not_blank_of_alphanumeric (alphanumeric : isAlphanumeric c = true) : isBlank c = false := by
  have apart : ∀ r ∈ blankRanges, ∀ q ∈ alphanumericRanges, r.2 < q.1 ∨ q.2 < r.1 := by decide +kernel
  by_contra blank
  obtain ⟨r, blanks, in_blanks⟩ := exists_range_of_inRanges (by simpa [isBlank] using blank)
  obtain ⟨q, letters, in_letters⟩ := exists_range_of_inRanges alphanumeric
  rcases apart r blanks q letters with less | less
  · omega
  · omega

theorem allBlank_nil : allBlank [] = true := rfl

theorem allBlank_space : allBlank [' '] = true := by decide

theorem allBlank_append (t u : Text) : allBlank (t ++ u) = (allBlank t && allBlank u) := List.all_append

theorem dropWhile_blank_append (blank : allBlank b = true) (t : Text) : (b ++ t).dropWhile isBlank = t.dropWhile isBlank :=
  List.dropWhile_append_of_pos (List.all_eq_true.mp blank)

/-- The text begins with a character that is not blank. -/
def BeginsVisible (t : Text) : Prop := ∃ c rest, t = c :: rest ∧ isBlank c = false

/-- The text ends with a character that is not blank. -/
def EndsVisible (t : Text) : Prop := ∃ front c, t = front ++ [c] ∧ isBlank c = false

theorem BeginsVisible.append (begins : BeginsVisible t) (u : Text) : BeginsVisible (t ++ u) := by
  obtain ⟨c, rest, rfl, visible⟩ := begins
  exact ⟨c, rest ++ u, rfl, visible⟩

theorem EndsVisible.append (ends : EndsVisible u) (t : Text) : EndsVisible (t ++ u) := by
  obtain ⟨front, c, rfl, visible⟩ := ends
  exact ⟨t ++ front, c, (List.append_assoc t front [c]).symm, visible⟩

theorem trimStart_of_begins (blank : allBlank b = true) (begins : BeginsVisible t) : trimStart (b ++ t) = t := by
  obtain ⟨c, rest, rfl, visible⟩ := begins
  rw [trimStart, dropWhile_blank_append blank, List.dropWhile_cons_of_neg (by simp [visible])]

theorem trimEnd_of_ends (ends : EndsVisible t) (blank : allBlank b = true) : trimEnd (t ++ b) = t := by
  obtain ⟨front, c, rfl, visible⟩ := ends
  have backwards : allBlank b.reverse = true := by simpa [allBlank] using blank
  rw [trimEnd, List.reverse_append, dropWhile_blank_append backwards, List.reverse_append, List.reverse_singleton,
    List.singleton_append, List.dropWhile_cons_of_neg (by simp [visible])]
  simp

/-- Behind a visible end only what is added is trimmed. -/
theorem trimEnd_append (ends : EndsVisible t) (u : Text) : trimEnd (t ++ u) = t ++ trimEnd u := by
  by_cases blank : u.reverse.dropWhile isBlank = []
  · have all_blank : allBlank u = true := by
      rw [List.dropWhile_eq_nil_iff] at blank
      simpa [allBlank] using blank
    rw [trimEnd_of_ends ends all_blank, trimEnd, blank, List.reverse_nil, List.append_nil]
  · rw [trimEnd, trimEnd, List.reverse_append, List.dropWhile_append, if_neg (by simpa using blank), List.reverse_append,
      List.reverse_reverse]

/-- Of a text behind one that begins and ends visibly only blanks at its end are lost. -/
theorem trim_append (begins : BeginsVisible t) (ends : EndsVisible t) (u : Text) : trim (t ++ u) = t ++ trimEnd u := by
  have start : trimStart (t ++ u) = t ++ u := trimStart_of_begins allBlank_nil (begins.append u)
  rw [trim, start, trimEnd_append ends]

theorem trim_cons (visible : isBlank c = false) (t : Text) : trim (c :: t) = c :: trimEnd t :=
  trim_append ⟨c, [], rfl, visible⟩ ⟨[], c, rfl, visible⟩ t

theorem trim_blank_append (blank : allBlank b = true) (t : Text) : trim (b ++ t) = trim t := by
  rw [trim, trim, trimStart, dropWhile_blank_append blank, trimStart]

/-- A text is trimmed where its ends are not blank. -/
theorem trim_between (before : allBlank b = true) (begins : BeginsVisible t) (ends : EndsVisible t)
    (after : allBlank b' = true) : trim (b ++ (t ++ b')) = t := by
  rw [trim, trimStart_of_begins before (begins.append b'), trimEnd_of_ends ends after]

theorem trim_of_blank_front (before : allBlank b = true) (begins : BeginsVisible t) (ends : EndsVisible t) :
    trim (b ++ t) = t := by
  simpa using trim_between before begins ends allBlank_nil

theorem trim_of_blank_end (begins : BeginsVisible t) (ends : EndsVisible t) (after : allBlank b = true) :
    trim (t ++ b) = t := by
  simpa using trim_between allBlank_nil begins ends after

theorem trim_of_visible (begins : BeginsVisible t) (ends : EndsVisible t) : trim t = t :=
  trim_of_blank_front allBlank_nil begins ends

theorem trim_of_all_visible (filled : t ≠ []) (visible : ∀ c ∈ t, isBlank c = false) : trim t = t := by
  refine trim_of_visible ⟨t.head filled, t.tail, (List.cons_head_tail filled).symm, visible _ (List.head_mem filled)⟩ ?_
  exact ⟨t.dropLast, t.getLast filled, (List.dropLast_concat_getLast filled).symm, visible _ (List.getLast_mem filled)⟩

/-- A trimmed text begins with a visible character. -/
theorem begins_of_trim (filled : t ≠ []) (tight : trim t = t) : BeginsVisible t := by
  obtain ⟨c, rest, rfl⟩ := List.exists_cons_of_ne_nil filled
  refine ⟨c, rest, rfl, ?_⟩
  by_contra blank
  have dropped : trim (c :: rest) = trim rest := by
    rw [trim, trimStart, List.dropWhile_cons_of_pos (by simpa using blank)]
    rfl
  have shorter := length_trim_le rest
  rw [← dropped, tight, List.length_cons] at shorter
  omega

theorem trimEnd_of_trim (tight : trim t = t) : trimEnd t = t := by
  by_cases filled : t = []
  · subst filled
    rfl
  · obtain ⟨c, rest, same, visible⟩ := begins_of_trim filled tight
    have start : trimStart t = t := by
      rw [same, trimStart, List.dropWhile_cons_of_neg (by simp [visible])]
    rwa [trim, start] at tight

/-- A trimmed text ends with a visible character. -/
theorem ends_of_trim (filled : t ≠ []) (tight : trim t = t) : EndsVisible t := by
  obtain ⟨front, c, rfl⟩ : ∃ front c, t = front ++ [c] :=
    ⟨t.dropLast, t.getLast filled, (List.dropLast_concat_getLast filled).symm⟩
  refine ⟨front, c, rfl, ?_⟩
  by_contra blank
  have backwards := congrArg List.length (trimEnd_of_trim tight)
  have shorter := (List.dropWhile_sublist isBlank (l := front.reverse)).length_le
  rw [trimEnd, List.reverse_append, List.reverse_singleton, List.singleton_append,
    List.dropWhile_cons_of_pos (by simpa using blank)] at backwards
  simp only [List.length_reverse, List.length_append, List.length_singleton] at backwards shorter
  omega

theorem begins_trimStart (filled : trimStart t ≠ []) : BeginsVisible (trimStart t) := by
  obtain ⟨c, rest, same⟩ := List.exists_cons_of_ne_nil filled
  have first := List.head?_dropWhile_not isBlank t
  rw [show t.dropWhile isBlank = c :: rest from same] at first
  exact ⟨c, rest, same, by simpa using first⟩

theorem ends_trimEnd (filled : trimEnd t ≠ []) : EndsVisible (trimEnd t) := by
  obtain ⟨c, rest, same, visible⟩ := begins_trimStart (t := t.reverse) (by simpa [trimEnd, trimStart] using filled)
  refine ⟨rest.reverse, c, ?_, visible⟩
  rw [trimEnd, show t.reverse.dropWhile isBlank = c :: rest from same, List.reverse_cons]

theorem exists_trim (t : Text) : ∃ b b', t = b ++ (trim t ++ b') ∧ allBlank b = true ∧ allBlank b' = true := by
  have front := List.takeWhile_append_dropWhile (p := isBlank) (l := t)
  have back := List.takeWhile_append_dropWhile (p := isBlank) (l := (trimStart t).reverse)
  refine ⟨t.takeWhile isBlank, ((trimStart t).reverse.takeWhile isBlank).reverse, ?_, ?_, ?_⟩
  · have whole := congrArg List.reverse back
    rw [List.reverse_append, List.reverse_reverse] at whole
    rw [trim, trimEnd, whole]
    exact front.symm
  · exact List.all_eq_true.mpr fun c member => List.mem_takeWhile_imp member
  · exact List.all_eq_true.mpr fun c member => List.mem_takeWhile_imp (List.mem_reverse.mp member)

theorem exists_trimEnd (t : Text) : ∃ b, t = trimEnd t ++ b ∧ allBlank b = true := by
  have back := List.takeWhile_append_dropWhile (p := isBlank) (l := t.reverse)
  refine ⟨(t.reverse.takeWhile isBlank).reverse, ?_, ?_⟩
  · have whole := congrArg List.reverse back
    rw [List.reverse_append, List.reverse_reverse] at whole
    exact whole.symm
  · exact List.all_eq_true.mpr fun c member => List.mem_takeWhile_imp (List.mem_reverse.mp member)

/-- What is trimmed stays as it is. -/
theorem trim_trim (t : Text) : trim (trim t) = trim t := by
  by_cases filled : trim t = []
  · rw [filled]
    rfl
  · have begins : BeginsVisible (trim t) := by
      obtain ⟨b, same, -⟩ := exists_trimEnd (trimStart t)
      obtain ⟨a, front, first⟩ := List.exists_cons_of_ne_nil filled
      have whole : trimStart t = a :: (front ++ b) := by
        rw [same, show trimEnd (trimStart t) = a :: front from first, List.cons_append]
      obtain ⟨c, rest, begun, visible⟩ := begins_trimStart (t := t) (by simp [whole])
      obtain ⟨rfl, -⟩ := List.cons.inj (whole.symm.trans begun)
      exact ⟨a, front, first, visible⟩
    exact trim_of_visible begins (ends_trimEnd filled)

theorem trimmed?_of_ne_nil (filled : trim t ≠ []) : trimmed? t = some (trim t) := by
  unfold trimmed?
  split
  · next empty => exact absurd empty filled
  · next found => rw [found]

theorem trimmed?_of_tight (filled : t ≠ []) (tight : trim t = t) : trimmed? t = some t := by
  rw [trimmed?_of_ne_nil (by rwa [tight]), tight]

theorem isSome_trimmed? (visible : isBlank c = false) (inside : c ∈ t) : (trimmed? t).isSome = true := by
  have filled : trim t ≠ [] := by
    intro empty
    obtain ⟨b, b', same, blank, blank'⟩ := exists_trim t
    rw [empty, List.nil_append] at same
    have all_blank : allBlank t = true := by
      rw [same]
      simpa [allBlank] using And.intro (List.all_eq_true.mp blank) (List.all_eq_true.mp blank')
    exact not_mem_of_blank all_blank visible inside
  rw [trimmed?_of_ne_nil filled]
  rfl

/-- A visible last character stays the last one. -/
theorem getLast?_trim (visible : isBlank c = false) (last : t.getLast? = some c) : (trim t).getLast? = some c := by
  obtain ⟨front, rfl⟩ := List.getLast?_eq_some_iff.mp last
  have ends : EndsVisible (trimStart (front ++ [c])) := by
    rw [trimStart, List.dropWhile_append]
    split
    · exact ⟨[], c, by simp [visible], visible⟩
    · exact ⟨_, c, rfl, visible⟩
  have kept : trim (front ++ [c]) = trimStart (front ++ [c]) := by
    simpa [trim] using trimEnd_of_ends (b := []) ends rfl
  obtain ⟨b, same⟩ : ∃ b, front ++ [c] = b ++ trimStart (front ++ [c]) :=
    ⟨_, (List.takeWhile_append_dropWhile (p := isBlank)).symm⟩
  obtain ⟨front', c', written, -⟩ := ends
  rw [kept, written]
  rw [written, ← List.append_assoc] at same
  simpa using (List.append_inj' same rfl).2.symm

/-! ### Quotes -/

theorem dropEnd?_append (t u : Text) : dropEnd? u (t ++ u) = some t := by
  have start : dropStart? u.reverse (u.reverse ++ t.reverse) = some t.reverse := dropStart?_eq_some_iff.mpr rfl
  rw [dropEnd?, List.reverse_append, start]
  simp

theorem dropEnd?_of_other {mark last : Char} (other : mark ≠ last) : dropEnd? [mark] (t ++ [last]) = none := by
  simp [dropEnd?, dropStart?, other]

theorem between?_eq_some (t u v : Text) : between? t v (t ++ (u ++ v)) = some u := by
  have start : dropStart? t (t ++ (u ++ v)) = some (u ++ v) := dropStart?_eq_some_iff.mpr rfl
  rw [between?, start, Option.bind_some, dropEnd?_append]

theorem unquote_quoted (t : Text) : unquote ('"' :: (t ++ ['"'])) = t := by
  have whole : between? ['"'] ['"'] ('"' :: (t ++ ['"'])) = some t := between?_eq_some ['"'] t ['"']
  rw [unquote, whole]
  rfl

theorem unquote_of_unquoted (unquoted : '"' ∉ t) : unquote t = t := by
  have no_start : dropStart? ['"'] t = none := by
    by_contra found
    obtain ⟨rest, found⟩ := Option.ne_none_iff_exists'.mp found
    rw [dropStart?_eq_some_iff.mp found] at unquoted
    simp at unquoted
  rw [unquote, between?, no_start]
  rfl

/-! ### What lies inside -/

theorem infix_of_infix_append (filled : s ≠ []) (first : ∀ c ∈ u, s.head? ≠ some c) (inside : s <:+: u ++ v) : s <:+: v := by
  induction u with
  | nil => exact inside
  | cons a u ih =>
    obtain ⟨other, others⟩ := List.forall_mem_cons.mp first
    rcases List.infix_cons_iff.mp inside with here | later
    · cases s with
      | nil => exact absurd rfl filled
      | cons d s =>
        obtain ⟨rfl, -⟩ := List.cons_prefix_cons.mp here
        exact absurd rfl other
    · exact ih others later

/-- What begins and ends with characters that do not stand around a text lies inside the text, where it is found. -/
theorem exists_of_framed {x y : Text} (filled : s ≠ []) (first : ∀ c ∈ u, s.head? ≠ some c)
    (last : ∀ c ∈ v, s.getLast? ≠ some c) (same : u ++ (t ++ v) = x ++ (s ++ y)) :
    ∃ a b, x = u ++ a ∧ t = a ++ (s ++ b) ∧ y = b ++ v := by
  obtain ⟨a, rfl, behind⟩ : ∃ a, x = u ++ a ∧ t ++ v = a ++ (s ++ y) := by
    rcases List.append_eq_append_iff.mp same with ⟨a, begins, behind⟩ | ⟨a, begins, behind⟩
    · exact ⟨a, begins, behind⟩
    · cases a with
      | nil => exact ⟨[], by simpa using begins.symm, by simpa using behind.symm⟩
      | cons c a =>
        obtain ⟨d, s, rfl⟩ := List.exists_cons_of_ne_nil filled
        obtain ⟨rfl, -⟩ := List.cons.inj behind
        exact absurd rfl (first d (by simp [begins]))
  rw [← List.append_assoc] at behind
  rcases List.append_eq_append_iff.mp behind with ⟨b, ends, rest⟩ | ⟨b, ends, rest⟩
  · rcases List.eq_nil_or_concat b with rfl | ⟨front, c, rfl⟩
    · exact ⟨a, [], rfl, by simpa using ends.symm, by simpa using rest.symm⟩
    · have final : (a ++ s).getLast? = some c := by rw [ends]; simp
      rw [List.getLast?_append_of_ne_nil a filled] at final
      exact absurd final (last c (by simp [rest]))
  · exact ⟨a, b, rfl, by rw [ends, List.append_assoc], rest⟩

theorem infix_of_framed (filled : s ≠ []) (first : ∀ c ∈ u, s.head? ≠ some c) (last : ∀ c ∈ v, s.getLast? ≠ some c)
    (inside : s <:+: u ++ (t ++ v)) : s <:+: t := by
  obtain ⟨x, y, whole⟩ := inside
  obtain ⟨a, b, -, same, -⟩ := exists_of_framed filled first last (whole.symm.trans (List.append_assoc x s y))
  exact ⟨a, b, by rw [same, List.append_assoc]⟩

/-- Blanks around a text are no part of what begins and ends otherwise. -/
theorem infix_of_blanks (filled : s ≠ []) (first : ∀ c, s.head? = some c → isBlank c = false)
    (last : ∀ c, s.getLast? = some c → isBlank c = false) (before : allBlank b = true) (after : allBlank b' = true)
    (inside : s <:+: b ++ (t ++ b')) : s <:+: t := by
  refine infix_of_framed filled ?_ ?_ inside
  · intro c member here
    exact not_mem_of_blank before (first c here) member
  · intro c member here
    exact not_mem_of_blank after (last c here) member

theorem infix_trim (filled : s ≠ []) (first : ∀ c, s.head? = some c → isBlank c = false)
    (last : ∀ c, s.getLast? = some c → isBlank c = false) (inside : s <:+: t) : s <:+: trim t := by
  obtain ⟨b, b', same, before, after⟩ := exists_trim t
  rw [same] at inside
  exact infix_of_blanks filled first last before after inside

/-- An end without a character stands behind the last one of them. -/
theorem suffix_behind (foreign : c ∉ s) (ends : s <:+ u ++ c :: t) : s <:+ t := by
  have other : c :: t <:+ u ++ c :: t := List.suffix_append u (c :: t)
  rcases List.suffix_or_suffix_of_suffix ends other with short | long
  · rcases List.suffix_cons_iff.mp short with rfl | inside
    · exact absurd List.mem_cons_self foreign
    · exact inside
  · exact absurd (long.subset List.mem_cons_self) foreign

/-- A pattern is not cut where it does not lie inside. -/
theorem cut?_eq_none_iff {pattern : Text} : cut? pattern t = none ↔ ¬ pattern <:+: t := by
  induction t with
  | nil =>
    cases pattern with
    | nil => simp [cut?, dropStart?]
    | cons c pattern => simp [cut?, dropStart?]
  | cons c t ih =>
    rw [List.infix_cons_iff, cut?, not_or]
    cases start : dropStart? pattern (c :: t) with
    | some rest =>
      have here : pattern <+: c :: t := ⟨rest, (dropStart?_eq_some_iff.mp start).symm⟩
      simp [here]
    | none =>
      have elsewhere : ¬ pattern <+: c :: t := by
        rintro ⟨rest, same⟩
        rw [dropStart?_eq_some_iff.mpr same.symm] at start
        cases start
      simp [elsewhere, ih]

theorem cut?_of_not_mem {mark : Char} (absent : mark ∉ t) : cut? [mark] t = none :=
  cut?_eq_none_iff.mpr fun inside => absent ((List.singleton_infix_iff _ _).mp inside)

/-- A mark that does not stand in front of it is where a text is cut. -/
theorem cut?_mark {mark : Char} (absent : mark ∉ t) (u : Text) : cut? [mark] (t ++ mark :: u) = some (t, u) := by
  induction t with
  | nil => simp [cut?, dropStart?]
  | cons c t ih =>
    obtain ⟨other, others⟩ : ¬ mark = c ∧ mark ∉ t := by simpa using absent
    rw [List.cons_append, cut?]
    simp [dropStart?, other, ih others]

/-- A mark that does not stand behind it is the last one. -/
theorem cutLast?_mark {mark : Char} (absent : mark ∉ u) : cutLast? mark (t ++ mark :: u) = some (t, u) := by
  have backwards : (t ++ mark :: u).reverse = u.reverse ++ mark :: t.reverse := by simp
  rw [cutLast?, backwards, cut?_mark (by simpa using absent)]
  simp

/-- A text is cut at the first mark. -/
theorem not_mem_of_cut? {mark : Char} (found : cut? [mark] t = some (u, v)) : mark ∉ u := by
  intro inside
  obtain ⟨front, back, rfl, absent⟩ := List.eq_append_cons_of_mem inside
  have whole : front ++ mark :: (back ++ mark :: v) = t := by simpa using append_of_cut? found
  rw [← whole, cut?_mark absent] at found
  have shorter := congrArg List.length (Prod.mk.inj (Option.some.inj found)).1
  simp at shorter

end DiagramLint.Text
