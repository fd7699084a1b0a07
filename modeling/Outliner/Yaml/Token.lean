/-!
# YAML tokens

A YAML text is read in three stages: the scanner cuts it into tokens, the event parser checks the
tokens' grammar and turns them into events, and the composer builds the node tree from the events.
-/

set_option autoImplicit false

namespace Outliner.Yaml

/-- A place in the text: the index of a character, its line and its column, all counted
from zero. -/
structure Mark where
  index : Nat
  line : Nat
  column : Nat
  deriving Repr, BEq, Inhabited

/-- How a scalar is written. -/
inductive ScalarStyle where
  | plain
  | single
  | double
  | literal
  | folded
  deriving Repr, BEq, DecidableEq, Inhabited

/-- The kinds of tokens. -/
inductive TokenKind where
  | streamStart
  | streamEnd
  | versionDirective (major minor : Nat)
  | tagDirective (handle pre : String)
  | documentStart
  | documentEnd
  | blockSequenceStart
  | blockMappingStart
  | blockEnd
  | flowSequenceStart
  | flowSequenceEnd
  | flowMappingStart
  | flowMappingEnd
  | blockEntry
  | flowEntry
  | key
  | value
  | alias (name : String)
  | anchor (name : String)
  | tag (handle suffix : String)
  | scalar (text : String) (style : ScalarStyle)
  deriving Repr, BEq, Inhabited

/-- A token with the places it starts and ends at. -/
structure Token where
  kind : TokenKind
  start : Mark
  stop : Mark
  deriving Repr, Inhabited

/-- The stage that found a problem. -/
inductive Stage where
  | reader
  | scanner
  | parser
  /-- A problem found while building nodes or decoding them; it carries no marks. -/
  | composer
  deriving Repr, BEq, DecidableEq, Inhabited

/-- A problem with a text: the stage that found it, the construct being read and where it
started, and what is wrong and where. -/
structure Problem where
  stage : Stage
  context : String
  contextMark : Mark
  text : String
  problemMark : Mark
  deriving Repr, Inhabited

namespace Problem

def plain (stage : Stage) (text : String) : Problem := ⟨stage, "", default, text, default⟩

def line (p : Problem) : Nat :=
  let shift := if p.stage == .scanner then 1 else 0
  if p.contextMark.line != 0 then p.contextMark.line + shift
  else if p.problemMark.line != 0 then p.problemMark.line + shift
  else 0

def message (p : Problem) : String :=
  let body := if p.text.isEmpty then "unknown problem parsing YAML content" else p.text
  (if p.line != 0 then "line " ++ toString p.line ++ ": " else "") ++ body

end Problem

def endChar : Char := '\x00'

def isBreak (c : Char) : Bool :=
  c == '\r' || c == '\n' || c.toNat == 0x85 || c.toNat == 0x2028 || c.toNat == 0x2029

def isBlank (c : Char) : Bool := c == ' ' || c == '\t'

def isBreakZ (c : Char) : Bool := isBreak c || c == endChar

def isBlankZ (c : Char) : Bool := isBlank c || isBreakZ c

def isWordChar (c : Char) : Bool :=
  (c ≥ '0' && c ≤ '9') || (c ≥ 'A' && c ≤ 'Z') || (c ≥ 'a' && c ≤ 'z') || c == '_' || c == '-'

def isDigitChar (c : Char) : Bool := c ≥ '0' && c ≤ '9'

def hexValue (c : Char) : Option Nat :=
  if c ≥ '0' && c ≤ '9' then some (c.toNat - '0'.toNat)
  else if c ≥ 'a' && c ≤ 'f' then some (c.toNat - 'a'.toNat + 10)
  else if c ≥ 'A' && c ≤ 'F' then some (c.toNat - 'A'.toNat + 10)
  else none

def isAllowedChar (c : Char) : Bool :=
  let v := c.toNat
  v == 0x09 || v == 0x0A || v == 0x0D || (v ≥ 0x20 && v ≤ 0x7E) || v == 0x85 ||
    (v ≥ 0xA0 && v ≤ 0xD7FF) || (v ≥ 0xE000 && v ≤ 0xFFFD) || (v ≥ 0x10000 && v ≤ 0x10FFFF)

end Outliner.Yaml
