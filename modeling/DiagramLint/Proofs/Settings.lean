import DiagramLint.Linter
import Mathlib.Data.List.Flatten
import Mathlib.Data.List.Forall2
import Mathlib.Data.List.Pairwise

/-!
What settings change in a report. A rule that is disabled finds nothing, every other rule finds in the
diagram what it finds when it is the only one that is run, and a finding differs from the one without
settings in its severity alone. The kind, the diagram and a fault in reading are the same whatever is set
(`lint_selects`).
-/
namespace DiagramLint

open Text

/-! ### Names of rules -/

/-- The rules for the kinds of a family; kinds of no family are not recognised. -/
def rulesOf (family : Option Family) : List Rule := family.elim Rule.unknown Family.rules

theorem ofKind_rules (kind : Kind) : (RuleSet.ofKind kind).rules = rulesOf kind.family? := by
  unfold RuleSet.ofKind
  cases kind.family? <;> rfl

/-- Rules of different families have different names. -/
theorem names_pairwise : (none :: Family.all.map some).Pairwise fun f g =>
    ∀ name ∈ (rulesOf f).map Rule.name, name ∉ (rulesOf g).map Rule.name := by
  decide

/-- No two rules of a family have one name. -/
theorem names_nodup : ∀ f ∈ none :: Family.all.map some, ((rulesOf f).map Rule.name).Nodup := by
  decide

theorem mem_families (f : Option Family) : f ∈ none :: Family.all.map some := by
  rcases f with _ | family
  · exact List.mem_cons_self
  · cases family <;> decide

theorem name_not_mem_of_other {f g : Option Family} {rule : Rule} (member : rule ∈ rulesOf f) (other : f ≠ g) :
    rule.name ∉ (rulesOf g).map Rule.name := by
  have symmetric : Std.Symm fun f g : Option Family =>
      ∀ name ∈ (rulesOf f).map Rule.name, name ∉ (rulesOf g).map Rule.name := by
    refine ⟨?_⟩
    intro f g apart name in_g in_f
    exact apart name in_f in_g
  exact names_pairwise.forall (mem_families f) (mem_families g) other _ (List.mem_map_of_mem member)

/-- The rules of a family are among all rules. -/
theorem rulesOf_subset (f : Option Family) : rulesOf f ⊆ Rule.all := by
  intro rule member
  unfold Rule.all
  simp only [List.mem_append]
  rcases f with _ | family
  · exact .inr member
  · cases family <;> simp only [rulesOf, Option.elim, Family.rules] at member <;> simp only [member, true_or, or_true]

theorem filter_name_of_nodup {rules : List Rule} {rule : Rule} (nodup : (rules.map Rule.name).Nodup)
    (member : rule ∈ rules) : rules.filter (fun r => r.name = rule.name) = [rule] := by
  induction rules with
  | nil => exact nomatch member
  | cons first rules ih =>
    rw [List.map_cons, List.nodup_cons] at nodup
    obtain ⟨new, nodup⟩ := nodup
    rcases List.mem_cons.mp member with rfl | later
    · have none_later : rules.filter (fun r => r.name = rule.name) = [] := by
        refine List.filter_eq_nil_iff.mpr ?_
        intro r inside same
        exact new (of_decide_eq_true same ▸ List.mem_map_of_mem inside)
      simp [none_later]
    · have other : first.name ≠ rule.name := fun same => new (same ▸ List.mem_map_of_mem later)
      simpa [other] using ih nodup later

namespace Settings

variable {s : Settings} {b : Block} {d : Diagram}

/-- The rules for a kind that are not disabled, in order. -/
def enabled (s : Settings) (kind : Kind) : List Rule :=
  (RuleSet.ofKind kind).rules.filter fun rule => rule.name.toList ∉ s.disabled

/-- The settings that disable all rules but one. -/
def only (rule : Rule) : Settings :=
  { disabled := (Rule.all.filter fun other => other.name ≠ rule.name).map fun other => other.name.toList }

/-- The second finding is the first with the severity that is set for its code; without one it keeps its own. -/
structure Regrades (s : Settings) (f g : Finding) : Prop where
  code : g.code = f.code
  message : g.message = f.message
  labels : g.labels = f.labels
  help : g.help = f.help
  set : ∀ code severity, f.code = some code → s.severity? code = some severity → g.severity = severity
  unset : (∀ code, f.code = some code → s.severity? code = none) → g.severity = f.severity

/-- What settings change in the report on a block. -/
structure Selects (s : Settings) (b : Block) : Prop where
  kind : (s.lint b).kind = (lint {} b).kind
  diagram : (s.lint b).diagram = (lint {} b).diagram
  /-- The report on a block that is read holds what is read. -/
  read : ∀ d, b.read = .ok d → (s.lint b).kind = d.kind ∧ (s.lint b).diagram = some d
  /-- A block that cannot be read has one finding, the fault, whatever is disabled. -/
  unread : ∀ e, b.read = .error e → (s.lint b).diagram = none ∧ (lint {} b).findings = [e.toFinding] ∧
    ∃ g, (s.lint b).findings = [g] ∧ s.Regrades e.toFinding g
  /-- What is found is what the rules that are not disabled find in the diagram, rule by rule. -/
  found : ∀ d, b.read = .ok d →
    List.Forall₂ s.Regrades ((s.enabled d.kind).flatMap fun rule => rule.check d) (s.lint b).findings
  /-- Without settings it is what all rules for the kind find. -/
  found_unset : ∀ d, b.read = .ok d →
    (lint {} b).findings = (RuleSet.ofKind d.kind).rules.flatMap fun rule => rule.check d
  /-- A rule finds the same when it is the only one that is run. -/
  alone : ∀ d, b.read = .ok d → ∀ rule ∈ (RuleSet.ofKind d.kind).rules, ((only rule).lint b).findings = rule.check d
  /-- The findings are some of those without settings, in order, with their severities. -/
  regraded : ∃ kept, kept.Sublist (lint {} b).findings ∧ List.Forall₂ s.Regrades kept (s.lint b).findings
  /-- The order of the names of disabled rules does not matter, nor how often one is given. -/
  names : ∀ names : List Text, (∀ name, name ∈ names ↔ name ∈ s.disabled) →
    lint { s with disabled := names } b = s.lint b
  /-- The names of the rules for kinds of another family have no effect. -/
  foreign : ∀ (other : Kind) (rule : Rule), other.family? ≠ (s.lint b).kind.family? →
    rule ∈ (RuleSet.ofKind other).rules → lint { s with disabled := rule.name.toList :: s.disabled } b = s.lint b

/-! ### Severities -/

theorem regrades_adjust (s : Settings) (f : Finding) : s.Regrades f (s.adjust f) := by
  unfold adjust
  split
  · next severity found =>
    obtain ⟨code, coded, given⟩ := Option.bind_eq_some_iff.mp found
    refine ⟨rfl, rfl, rfl, rfl, ?_, ?_⟩
    · intro code' severity' coded' given'
      obtain rfl : code = code' := Option.some.inj (coded.symm.trans coded')
      exact Option.some.inj (given.symm.trans given')
    · intro unset
      rw [unset code coded] at given
      exact nomatch given
  · next unset =>
    refine ⟨rfl, rfl, rfl, rfl, ?_, fun _ => rfl⟩
    intro code severity coded given
    rw [coded, Option.bind_some, given] at unset
    exact nomatch unset

theorem regrades_map_adjust (s : Settings) (fs : List Finding) : List.Forall₂ s.Regrades fs (fs.map s.adjust) :=
  List.forall₂_map_right_iff.mpr (List.forall₂_same.mpr fun f _ => s.regrades_adjust f)

/-- Without severities findings stay as they are. -/
theorem adjust_of_no_severities (none_set : s.severities = []) (f : Finding) : s.adjust f = f := by
  have unset : s.severity? = fun _ => none := by
    funext code
    rw [severity?, none_set]
    rfl
  rw [adjust, unset]
  cases f.code <;> rfl

theorem map_adjust_of_no_severities (none_set : s.severities = []) (fs : List Finding) : fs.map s.adjust = fs := by
  rw [List.map_congr_left fun f _ => adjust_of_no_severities none_set f, List.map_id']

/-! ### Rules -/

theorem without_rules (s : Settings) (kind : Kind) :
    ((RuleSet.ofKind kind).without s.disabled).rules = s.enabled kind := by
  unfold RuleSet.without enabled
  refine List.filter_congr ?_
  intro rule _
  simp

theorem lint_of_read (read : b.read = .ok d) :
    s.lint b = ⟨d.kind, some d, ((s.enabled d.kind).flatMap fun rule => rule.check d).map s.adjust⟩ := by
  rw [lint, read, ← without_rules]
  rfl

theorem lint_of_fault {e : ParseError} (failed : b.read = .error e) :
    s.lint b = ⟨b.presumedKind, none, [s.adjust e.toFinding]⟩ := by
  rw [lint, failed]

/-- Nothing is disabled but what the settings name. -/
theorem enabled_congr {t : Settings} {kind : Kind}
    (same : ∀ rule ∈ (RuleSet.ofKind kind).rules, rule.name.toList ∈ t.disabled ↔ rule.name.toList ∈ s.disabled) :
    t.enabled kind = s.enabled kind := by
  refine List.filter_congr ?_
  intro rule member
  simp [same rule member]

theorem enabled_default (kind : Kind) : enabled {} kind = (RuleSet.ofKind kind).rules := by
  simp [enabled]

theorem enabled_only {kind : Kind} {rule : Rule} (member : rule ∈ (RuleSet.ofKind kind).rules) :
    (only rule).enabled kind = [rule] := by
  rw [enabled, ofKind_rules] at *
  rw [← filter_name_of_nodup (names_nodup _ (mem_families kind.family?)) member]
  refine List.filter_congr ?_
  intro r inside
  have disabled : r.name.toList ∈ (only rule).disabled ↔ r.name ≠ rule.name := by
    simp only [only, List.mem_map, List.mem_filter, decide_eq_true_eq]
    constructor
    · rintro ⟨other, ⟨-, apart⟩, same⟩
      rwa [← String.toList_inj.mp same]
    · intro apart
      exact ⟨r, ⟨rulesOf_subset _ inside, apart⟩, rfl⟩
  simp [disabled]

/-- A rule on its own finds what its check finds. -/
theorem lint_only {rule : Rule} (read : b.read = .ok d) (member : rule ∈ (RuleSet.ofKind d.kind).rules) :
    ((only rule).lint b).findings = rule.check d := by
  rw [lint_of_read read, enabled_only member]
  show List.map (only rule).adjust ([rule].flatMap fun rule => rule.check d) = _
  rw [map_adjust_of_no_severities rfl, List.flatMap_singleton]

theorem enabled_sublist (s : Settings) (kind : Kind) : (s.enabled kind).Sublist (RuleSet.ofKind kind).rules :=
  List.filter_sublist

/-- Settings with the same severities give one report if the same rules of its kind are disabled. -/
theorem lint_congr {t : Settings} (severities : t.severities = s.severities)
    (same : ∀ rule ∈ (RuleSet.ofKind (s.lint b).kind).rules,
      rule.name.toList ∈ t.disabled ↔ rule.name.toList ∈ s.disabled) :
    t.lint b = s.lint b := by
  have adjust : t.adjust = s.adjust := by
    funext f
    have severity : t.severity? = s.severity? := by
      funext code
      rw [severity?, severities]
      rfl
    rw [Settings.adjust, severity]
    rfl
  cases read : b.read with
  | error e => rw [lint_of_fault read, lint_of_fault read, adjust]
  | ok d =>
    rw [lint_of_read read] at same
    rw [lint_of_read read, lint_of_read read, adjust, enabled_congr same]

/-- Settings select rules and set severities, and nothing else. -/
theorem lint_selects (s : Settings) (b : Block) : s.Selects b where
  kind := by
    cases read : b.read with
    | error e => rw [lint_of_fault read, lint_of_fault read]
    | ok d => rw [lint_of_read read, lint_of_read read]
  diagram := by
    cases read : b.read with
    | error e => rw [lint_of_fault read, lint_of_fault read]
    | ok d => rw [lint_of_read read, lint_of_read read]
  read d read := by
    rw [lint_of_read read]
    exact ⟨rfl, rfl⟩
  unread e failed := by
    have unset : adjust {} e.toFinding = e.toFinding := adjust_of_no_severities rfl _
    rw [lint_of_fault failed, lint_of_fault failed, unset]
    exact ⟨rfl, rfl, _, rfl, s.regrades_adjust _⟩
  found d read := by
    rw [lint_of_read read]
    exact s.regrades_map_adjust _
  found_unset d read := by
    rw [lint_of_read read, enabled_default]
    exact map_adjust_of_no_severities rfl _
  alone _ read _ member := lint_only read member
  regraded := by
    cases read : b.read with
    | error e =>
      rw [lint_of_fault read, lint_of_fault read, adjust_of_no_severities rfl]
      exact ⟨[e.toFinding], .refl _, s.regrades_map_adjust _⟩
    | ok d =>
      rw [lint_of_read read, lint_of_read read, enabled_default]
      refine ⟨_, ?_, s.regrades_map_adjust _⟩
      show List.Sublist _ (List.map (adjust {}) _)
      rw [map_adjust_of_no_severities rfl]
      exact (s.enabled_sublist d.kind).flatMap _
  names names same := lint_congr rfl fun rule _ => same rule.name.toList
  foreign other rule apart member := by
    refine lint_congr rfl ?_
    intro own inside
    rw [ofKind_rules] at member inside
    have different : own.name.toList ≠ rule.name.toList := by
      intro same
      refine name_not_mem_of_other member apart ?_
      rw [← String.toList_inj.mp same]
      exact List.mem_map_of_mem inside
    simp [different]

end Settings
end DiagramLint
