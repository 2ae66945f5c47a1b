import DiagramLint.Direction
import DiagramLint.Kind
import DiagramLint.Source

/-!
Reading lines by rules. A body line is offered to the rules of its diagram in order; the first rule
that takes it wins, and a line that none takes is at fault. A rule may also find the line malformed,
and then no later rule sees it.
-/
namespace DiagramLint

/-- What a rule makes of a line: the state after a line it takes, or nothing for a line it leaves to
the rules behind it. -/
abbrev Taken (σ : Type) := Except ParseError (Option σ)

/-- The line is left to the rules behind. -/
def pass {σ : Type} : Taken σ := .ok none

/-- The line is taken, with the state after it. -/
def take {σ : Type} (s : σ) : Taken σ := .ok (some s)

/-- A named rule for body lines. -/
structure LineRule (σ : Type) where
  name : String
  read : σ → Line → Taken σ

/-- What the first rule that does not pass makes of the line. -/
def firstTaking {σ : Type} (s : σ) (line : Line) : List (LineRule σ) → Taken σ
  | [] => pass
  | rule :: rules =>
    match rule.read s line with
    | .ok none => firstTaking s line rules
    | result => result

/-- The state after a line. -/
def readLine {σ : Type} (rules : List (LineRule σ)) (s : σ) (line : Line) : Except ParseError σ :=
  match firstTaking s line rules with
  | .ok (some s) => .ok s
  | .ok none =>
    .error { line.fail (.lineUnrecognised line.text) with expected := rules.map LineRule.name }
  | .error e => .error e

/-- The state after some lines, where the rules may depend on the state. -/
def readLines {σ : Type} (rules : σ → List (LineRule σ)) (s : σ) :
    List Line → Except ParseError σ
  | [] => .ok s
  | line :: lines =>
    match readLine (rules s) s line with
    | .ok s => readLines rules s lines
    | .error e => .error e

/-- What every diagram records of its source. -/
structure Header where
  kind : Kind
  source : Text
  position : Position
  deriving DecidableEq, Repr

/-- The header of a diagram of a kind, at its header line. -/
def Source.header (s : Source) (kind : Kind) (line : Line) : Header :=
  ⟨kind, s.text, line.position⟩

/-- The direction that a text names, or a fault of the line. -/
def Line.direction (line : Line) (t : Text) : Except ParseError Direction :=
  match Direction.ofName? t with
  | some d => .ok d
  | none => .error (line.fail (.directionUnknown t))

end DiagramLint
