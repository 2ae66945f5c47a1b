import DiagramLint.Code
import DiagramLint.Number.Binary64
import DiagramLint.Text.Field

/-!
What can be wrong with a diagram, cause by cause, with the code and the wording of each.
-/
namespace DiagramLint

open Text

/-- Why a diagram cannot be read. -/
inductive Fault where
  -- header lines
  | headerMissing
  | headerMismatch (keywords : List String) (found : Text)
  | headerModifier (keyword : String) (rest : Text)
  -- lines of several kinds
  | lineUnrecognised (line : Text)
  | directionUnknown (word : Text)
  | numberMalformed (word : Text)
  | fieldsMalformed (error : FieldError)
  | endpointsInvalid (left right : Text)
  | sectionUnnamed
  | axisRepeated (axis : String)
  | taskOutsideSection (name : Text)
  -- flowcharts
  | subgraphUnnamed
  | directiveIncomplete (keyword : String)
  | subgraphEndStray
  | subgraphUnclosed (id : Text)
  -- sequence diagrams
  | participantInvalid (id : Text)
  | activationInvalid
  | notePlacementMissing
  | noteTextMissing
  | noteTargetInvalid (targets : Text)
  | blockSectionStray (keyword : String)
  | blockEndStray
  | blockUnclosed (keyword : String)
  -- class diagrams
  | classNameInvalid (name : Text)
  | annotationUnowned
  | annotationOwned
  | classNoteEmpty
  | relationLeftMissing
  | relationRightMissing
  | memberInvalid (member : Text)
  | classUnclosed (id : Text)
  -- state diagrams
  | stateInvalid (id : Text)
  | stateTextUnclosed
  | stateTextUnnamed
  | noteSideMissing
  | stateNoteTargetInvalid (target : Text)
  | transitionEndpointInvalid (endpoint : Text)
  | compositeCloseStray
  | separatorStray
  | noteUnclosed (target : Text)
  | compositeUnclosed (id : Text)
  -- entity diagrams
  | entityNameInvalid (head : Text)
  | attributeMalformed
  | entityCloseStray
  | entityUnclosed (name : Text)
  -- C4 diagrams
  | callExpected (line : Text)
  | callUnclosed (name : Text)
  | parameterUnknown (call key : Text)
  | argumentsExcessive (call : Text) (limit count : Nat)
  | argumentMissing (slot : String)
  | boundaryCloseStray
  | boundaryUnclosed (id : Text)
  | scopeRefused (call : Text)
  | constructorUnknown (call : Text)
  | argumentUnexpected (argument call : Text)
  | targetsMissing (call : Text) (needed found : Nat)
  -- pie charts
  | pieTitleRepeated
  | sliceNotPositive (label : Text) (value : Binary64)
  | slicesMissing
  -- sankey diagrams
  | linkFieldCount (count : Nat)
  | linkEndEmpty
  | linkToItself (name : Text)
  | linkValueInvalid (value : Text)
  | linksMissing
  -- quadrant charts
  | axisUnlabelled
  | quadrantRepeated (keyword : String)
  | classDefIncomplete
  | pointUnclosed
  | pointUnnamed
  | pointMalformed (coordinates : Text)
  | pointCoordinateCount (count : Nat)
  -- xy charts
  | seriesMalformed
  | axisMalformed
  | chartIncomplete (missing : List String)
  -- gantt charts
  | settingRepeated (key : String) (line : Nat)
  | settingEmpty (key : String)
  | taskFieldCount (name : Text) (count : Nat)
  -- journeys
  | scoreInvalid (score : Text)
  -- timelines
  | eventWithoutPeriod
  -- git graphs
  | optionsMalformed (options : Text)
  | optionUnknown (key : Text) (allowed : List String)
  | branchUnnamed
  | branchOrderInvalid (order : Text)
  | checkoutInvalid
  | mergeUnnamed
  | cherryPickUnnamed
  -- mindmaps
  | decorationStray
  | rootRepeated (text : Text)
  | rootMissing
  deriving DecidableEq, Repr

namespace Fault

/-- The code of a cause. -/
def code : Fault → Code
  | headerMissing => .e001
  | headerMismatch .. => .e002
  | headerModifier .. => .e003
  | lineUnrecognised _ | sectionUnnamed | endpointsInvalid .. | subgraphUnnamed
  | directiveIncomplete _ | participantInvalid _ | activationInvalid | notePlacementMissing
  | noteTextMissing | noteTargetInvalid _ | classNameInvalid _ | annotationUnowned
  | annotationOwned | classNoteEmpty | relationLeftMissing | relationRightMissing
  | memberInvalid _ | stateInvalid _ | stateTextUnclosed | stateTextUnnamed | noteSideMissing
  | stateNoteTargetInvalid _ | transitionEndpointInvalid _ | entityNameInvalid _
  | attributeMalformed | callExpected _ | scopeRefused _ | constructorUnknown _
  | linkFieldCount _ | axisUnlabelled | classDefIncomplete | pointUnclosed | pointUnnamed
  | seriesMalformed | branchUnnamed | checkoutInvalid | mergeUnnamed | decorationStray => .e100
  | directionUnknown _ | numberMalformed _ | parameterUnknown .. | argumentsExcessive ..
  | argumentMissing _ | argumentUnexpected .. | targetsMissing .. | sliceNotPositive ..
  | linkEndEmpty | linkValueInvalid _ | pointMalformed _ | pointCoordinateCount _ | axisMalformed
  | settingEmpty _ | taskFieldCount .. | scoreInvalid _ | optionsMalformed _ | optionUnknown ..
  | branchOrderInvalid _ | cherryPickUnnamed => .e101
  | fieldsMalformed _ | callUnclosed _ => .e102
  | linkToItself _ => .e103
  | subgraphUnclosed _ | blockUnclosed _ | classUnclosed _ | noteUnclosed _ | compositeUnclosed _
  | entityUnclosed _ | boundaryUnclosed _ => .e200
  | subgraphEndStray | blockSectionStray _ | blockEndStray | compositeCloseStray | separatorStray
  | entityCloseStray | boundaryCloseStray => .e201
  | taskOutsideSection _ | eventWithoutPeriod => .e202
  | axisRepeated _ | pieTitleRepeated | quadrantRepeated _ | settingRepeated .. | rootRepeated _ =>
    .e203
  | slicesMissing | linksMissing | chartIncomplete _ | rootMissing => .e204

/-- The stage that a cause belongs to. -/
def phase (f : Fault) : Phase := f.code.phase

/-- A list of words with commas between them. -/
def commas (words : List String) : String := ", ".intercalate words

/-- Words in backticks with the word "or" between them. -/
def alternatives (words : List String) : String :=
  " or ".intercalate (words.map fun word => s!"`{word}`")

/-- The wording of a cause. -/
def message : Fault → String
  | headerMissing => "diagram source has no header line"
  | headerMismatch keywords found =>
    s!"expected {alternatives keywords} header, found {quote found}"
  | headerModifier keyword rest => s!"unexpected {quote rest} after `{keyword}` header"
  | lineUnrecognised line => s!"unrecognised line {quote line}"
  | directionUnknown word =>
    s!"{quote word} is not a direction (expected TB, TD, BT, LR or RL)"
  | numberMalformed word => s!"{quote word} is not a number"
  | fieldsMalformed error => error.message
  | endpointsInvalid left right =>
    s!"invalid relationship endpoints {quote left} and {quote right}"
  | sectionUnnamed => "`section` needs a name"
  | axisRepeated axis => s!"{axis} is defined twice"
  | taskOutsideSection name => s!"task {quote name} outside of any section"
  | subgraphUnnamed => "`subgraph` needs an id or title"
  | directiveIncomplete keyword => s!"`{keyword}` needs a target list and a value"
  | subgraphEndStray => "`end` without an open `subgraph`"
  | subgraphUnclosed id => s!"subgraph {quote id} is never closed with `end`"
  | participantInvalid id => s!"{quote id} is not a valid participant id"
  | activationInvalid => "expected a participant id"
  | notePlacementMissing => "expected `left of`, `right of` or `over` after `note`"
  | noteTextMissing => "note needs `: text`"
  | noteTargetInvalid targets => s!"invalid note target {quote targets}"
  | blockSectionStray keyword => s!"`{keyword}` outside of a matching block"
  | blockEndStray => "`end` without an open block"
  | blockUnclosed keyword => s!"`{keyword}` block is never closed with `end`"
  | classNameInvalid name => s!"{quote name} is not a valid class name"
  | annotationUnowned => "annotation outside a class body needs a class name"
  | annotationOwned => "annotation inside a class body takes no class name"
  | classNoteEmpty => "note needs quoted text"
  | relationLeftMissing => "expected a class before the relation"
  | relationRightMissing => "expected a class after the relation"
  | memberInvalid member => s!"invalid member {quote member}"
  | classUnclosed id => s!"body of class {quote id} is never closed with `\x7d`"
  | stateInvalid id => s!"{quote id} is not a valid state id"
  | stateTextUnclosed => "unterminated state text"
  | stateTextUnnamed => "expected `as ID` after quoted state text"
  | noteSideMissing => "expected `left of` or `right of` after `note`"
  | stateNoteTargetInvalid target => s!"{quote target} is not a valid note target"
  | transitionEndpointInvalid endpoint => s!"{quote endpoint} is not a valid transition endpoint"
  | compositeCloseStray => "`\x7d` without an open composite state"
  | separatorStray => "`--` separator outside of a composite state"
  | noteUnclosed target => s!"note on {quote target} is never closed with `end note`"
  | compositeUnclosed id => s!"composite state {quote id} is never closed with `\x7d`"
  | entityNameInvalid head => s!"{quote head} is not a valid entity name"
  | attributeMalformed => "expected `type name [keys] [\"comment\"]`"
  | entityCloseStray => "`\x7d` without an open entity body"
  | entityUnclosed name => s!"body of entity {quote name} is never closed with `\x7d`"
  | callExpected line => s!"expected a C4 constructor call, found {quote line}"
  | callUnclosed name => s!"`{str name}(` is never closed with `)`"
  | parameterUnknown call key => s!"{quote call} has no `${str key}` parameter"
  | argumentsExcessive call limit count =>
    s!"{quote call} takes at most {limit} arguments, found {count}"
  | argumentMissing slot => s!"missing required `{slot}` argument"
  | boundaryCloseStray => "`\x7d` without an open boundary"
  | boundaryUnclosed id => s!"boundary {quote id} is never closed with `\x7d`"
  | scopeRefused call => s!"{quote call} cannot open a `\x7b` block"
  | constructorUnknown call => s!"unknown C4 constructor {quote call}"
  | argumentUnexpected argument call =>
    s!"unexpected positional argument {quote argument} to {quote call}"
  | targetsMissing call needed found =>
    s!"{quote call} needs {needed} target id(s), found {found}"
  | pieTitleRepeated => "pie title is set twice"
  | sliceNotPositive label value =>
    s!"slice {quote label} must have a positive value, found {str value.write}"
  | slicesMissing => "pie chart has no slices"
  | linkFieldCount count => s!"expected `source,target,value`, found {count} fields"
  | linkEndEmpty => "link source and target must not be empty"
  | linkToItself name => s!"{quote name} links to itself"
  | linkValueInvalid value => s!"link value must be a positive number, found {quote value}"
  | linksMissing => "sankey diagram has no links"
  | axisUnlabelled => "axis needs a label"
  | quadrantRepeated keyword => s!"{keyword} is labelled twice"
  | classDefIncomplete => "classDef needs a name and a style"
  | pointUnclosed => "point coordinates are not closed"
  | pointUnnamed => "point needs a name"
  | pointMalformed coordinates => s!"`[{str coordinates}]` is not a pair of numbers"
  | pointCoordinateCount count => s!"point needs exactly two coordinates, found {count}"
  | seriesMalformed => "series needs a `[v1, v2, ...]` list"
  | axisMalformed => "axis needs a `[categories]` list or a `min --> max` range"
  | chartIncomplete missing => s!"xychart is missing {commas missing}"
  | settingRepeated key line => s!"`{key}` is already set on line {line}"
  | settingEmpty key => s!"`{key}` needs a value"
  | taskFieldCount name count =>
    s!"task {quote name} needs `[id,] start, end` after its statuses, found {count} fields"
  | scoreInvalid score => s!"score {quote score} is not an integer"
  | eventWithoutPeriod => "event continuation without a preceding period"
  | optionsMalformed options => s!"malformed options {quote options}, expected `key: value` pairs"
  | optionUnknown key allowed => s!"unknown option {quote key}, expected one of: {commas allowed}"
  | branchUnnamed => "`branch` needs a name"
  | branchOrderInvalid order => s!"branch order {quote order} is not an integer"
  | checkoutInvalid => "`checkout` needs one branch name"
  | mergeUnnamed => "`merge` needs a branch name"
  | cherryPickUnnamed => "`cherry-pick` needs an `id`"
  | decorationStray => "decoration before any node"
  | rootRepeated text => s!"second root node {quote text}, a mindmap has exactly one root"
  | rootMissing => "mindmap has no root node"

end Fault
end DiagramLint
