import Outliner.Text.Quoted
/-!
# Command-line flags

A program declares its flags, each a switch or a flag that takes a text, and reads them from its
arguments. `-name` and `--name` are the same flag; a value follows after `=` or, for a text flag, as
the next argument.
-/

set_option autoImplicit false

namespace Outliner.Flags

/-- What a flag takes. -/
inductive Kind where
  | switch
  | text
  deriving Repr, BEq, DecidableEq, Inhabited

/-- A declared flag. -/
structure Spec where
  name : String
  kind : Kind
  usage : String
  deriving Repr, Inhabited

/-- How reading the arguments ends: the values given (a switch's as `true` or `false`) and
the arguments after the flags; a request for the usage; or a mistake. -/
inductive Outcome where
  | parsed (values : List (String × String)) (rest : List String)
  | help
  | mistake (message : String)
  deriving Repr, Inhabited

def truth? : String → Option Bool
  | "1" | "t" | "T" | "TRUE" | "true" | "True" => some true
  | "0" | "f" | "F" | "FALSE" | "false" | "False" => some false
  | _ => none

def usage (program : String) (specs : List Spec) : String :=
  let sorted := specs.mergeSort (fun a b => decide (a.name ≤ b.name))
  let line (s : Spec) : String :=
    let head := "  -" ++ s.name ++ (if s.kind == .text then " string" else "")
    let sep := if head.length ≤ 4 then "\t" else "\n    \t"
    head ++ sep ++ "\n    \t".intercalate (s.usage.splitOn "\n") ++ "\n"
  "Usage of " ++ program ++ ":\n" ++ String.join (sorted.map line)

def setValue (values : List (String × String)) (k v : String) : List (String × String) :=
  values.filter (·.1 != k) ++ [(k, v)]

/-- Reads flags from the arguments, with the values read so far. -/
def readFrom (specs : List Spec) (values : List (String × String)) : List String → Outcome
  | [] => .parsed values []
  | a :: rest =>
    let cs := a.toList
    if cs.length < 2 || cs.head? != some '-' then .parsed values (a :: rest)
    else if a == "--" then .parsed values rest
    else
      let body := if (cs.drop 1).head? == some '-' then cs.drop 2 else cs.drop 1
      match body with
      | [] | '-' :: _ | '=' :: _ => .mistake ("bad flag syntax: " ++ a)
      | c :: more =>
        let (name, value) := match more.findIdx? (· == '=') with
          | some i => (String.ofList (c :: more.take i), some (String.ofList (more.drop (i + 1))))
          | none => (String.ofList (c :: more), none)
        match specs.find? (·.name == name) with
        | none =>
          if name == "help" || name == "h" then .help
          else .mistake ("flag provided but not defined: -" ++ name)
        | some s =>
          match s.kind, value with
          | .switch, some v =>
            match truth? v with
            | some b => readFrom specs (setValue values name (toString b)) rest
            | none => .mistake ("invalid boolean value " ++ Text.quoted v ++ " for -" ++ name ++ ": parse error")
          | .switch, none => readFrom specs (setValue values name "true") rest
          | .text, some v => readFrom specs (setValue values name v) rest
          | .text, none =>
            match rest with
            | v :: rest' => readFrom specs (setValue values name v) rest'
            | [] => .mistake ("flag needs an argument: -" ++ name)

def read (specs : List Spec) (args : List String) : Outcome := readFrom specs [] args

def textOf (values : List (String × String)) (name : String) : String :=
  ((values.find? (·.1 == name)).map (·.2)).getD ""

def isOn (values : List (String × String)) (name : String) : Bool := textOf values name == "true"

end Outliner.Flags
