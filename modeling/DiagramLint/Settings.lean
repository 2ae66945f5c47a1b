import DiagramLint.RuleSet
import DiagramLint.Toml.Document

/-!
Settings of the linter: rules that are not run, and severities for the findings of some codes. They
are written as a TOML document with one table, and its entries are read in the order of their keys,
so that of several faults the one under the first key counts.
-/
namespace DiagramLint

open Text Toml

/-- Settings of the linter. -/
structure Settings where
  /-- The names of rules that are not run, as they are written. -/
  disabled : List Text := []
  /-- In the order of the codes. -/
  severities : List (Code × Severity) := []
  deriving DecidableEq, Repr

/-- Why settings cannot be read. -/
inductive SettingsError where
  /-- The text is no TOML document, or the document is not of the right shape. -/
  | malformed
  | codeUnknown (code : Text)
  | severityInvalid (severity : Text) (code : Code)
  | ruleUnknown (name : Text)
  deriving DecidableEq, Repr

namespace SettingsError

/-- The wording of an error; malformed documents have none. -/
def message : SettingsError → String
  | malformed => ""
  | codeUnknown code => s!"unknown error code {quote code}"
  | severityInvalid severity code => s!"invalid severity {quote severity} for {code.name}"
  | ruleUnknown name => s!"Validation error: unknown rule {quote name} in `rules.disabled`"

end SettingsError

namespace Settings

/-- The text that a value is. -/
def textValue : Value → Except SettingsError Text
  | .text t => .ok t
  | _ => .error .malformed

/-- The names of the rules that are not run. -/
def disabledValue : Value → Except SettingsError (List Text)
  | .array items => items.mapM textValue
  | _ => .error .malformed

/-- The code and the severity that an entry names. -/
def severityEntry (entry : Text × Text) : Except SettingsError (Code × Severity) :=
  match Code.ofName? entry.1 with
  | none => .error (.codeUnknown entry.1)
  | some code =>
    match Severity.ofName? entry.2 with
    | none => .error (.severityInvalid entry.2 code)
    | some severity => .ok (code, severity)

/-- The severities for codes. All values must be texts before the first entry is looked at. -/
def severitiesValue : Value → Except SettingsError (List (Code × Severity))
  | .table _ entries => do
    let texts ← (Entries.sorted entries).mapM fun (key, value) =>
      (textValue value).map fun t => (key, t)
    texts.mapM severityEntry
  | _ => .error .malformed

/-- The settings with one more entry of the table of rules. -/
def addEntry (s : Settings) (entry : Text × Value) : Except SettingsError Settings :=
  if entry.1 = "disabled".toList then
    (disabledValue entry.2).map fun names => { s with disabled := names }
  else if entry.1 = "severity".toList then
    (severitiesValue entry.2).map fun severities => { s with severities := severities }
  else .error .malformed

/-- The settings in the table of rules, which may also be an array of the values of its entries. -/
def rulesValue : Value → Except SettingsError Settings
  | .table _ entries => (Entries.sorted entries).foldlM addEntry {}
  | .array [] => .ok {}
  | .array [disabled] => (disabledValue disabled).map fun names => { disabled := names }
  | .array (disabled :: severities :: _) => do
    let disabled ← disabledValue disabled
    let severities ← severitiesValue severities
    .ok ⟨disabled, severities⟩
  | _ => .error .malformed

/-- The settings with one more entry of the document. -/
def addSection (_ : Settings) (entry : Text × Value) : Except SettingsError Settings :=
  if entry.1 = "rules".toList then rulesValue entry.2 else .error .malformed

/-- The settings if all their rules exist. -/
def checked (s : Settings) : Except SettingsError Settings :=
  match s.disabled.find? fun name => !Rule.all.any fun rule => rule.name.toList == name with
  | some name => .error (.ruleUnknown name)
  | none => .ok s

/-- The settings that a text writes. -/
def read (t : Text) : Except SettingsError Settings :=
  match Toml.read? t with
  | none => .error .malformed
  | some entries => do
    let s ← entries.sorted.foldlM addSection {}
    s.checked

/-- A rule is not run. -/
def disables (s : Settings) (rule : String) : Bool := s.disabled.contains rule.toList

/-- The severity for the findings of a code, if there is one. -/
def severity? (s : Settings) (code : Code) : Option Severity := s.severities.lookup code

end Settings
end DiagramLint
