import Outliner.Text.Wildcard
import Outliner.Time.Instant
/-!
# The log folder

A server that logs to files makes its folder if needed, opens a new file named for the time,
`server-YYYY-MM-DDTHH-MM-SS.mmm.log`, and then keeps only the newest files: of the names matching
`server-*.log`, in byte order, all but the last `keep` are removed (nothing is removed when `keep`
is zero or less).
-/

set_option autoImplicit false

namespace Outliner.Log

/-- What stands at a name in a folder. -/
inductive Entry where
  | file
  /-- A folder, and whether it is empty. -/
  | folder (empty : Bool)
  deriving Repr, BEq, DecidableEq, Inhabited

/-- Where the log folder goes: an existing folder with its entries (a folder yet to be made
has none), or a path on the way to it where a regular file stands. -/
inductive Place where
  | ready (entries : List (String × Entry))
  | blocked (path : String)
  deriving Repr, Inhabited

/-- A path in its shortest form: no empty or `.` parts, each `..` taking away the part before
it, no `..` right under the root; `.` for nothing. -/
def cleanPath (p : String) : String :=
  let rooted := p.startsWith "/"
  let parts := (p.splitOn "/").filter (fun s => s != "" && s != ".")
  let stack := parts.foldl (fun acc s =>
      if s == ".." then
        match acc with
        | x :: rest => if x == ".." then ".." :: acc else rest
        | [] => if rooted then [] else [".."]
      else s :: acc) []
  let body := "/".intercalate stack.reverse
  if rooted then "/" ++ body else if body.isEmpty then "." else body

def joinPath (dir name : String) : String := cleanPath (dir ++ "/" ++ name)

def baseName (p : String) : String := ((cleanPath p).splitOn "/").getLastD ""

def stamp (t : Time.Instant) : String :=
  let wall := t.seconds + t.offset
  let (y, m, d) := Time.civilFromDays (wall / 86400)
  let secs := (wall % 86400).toNat
  Time.padded 4 y.toNat ++ "-" ++ Time.padded 2 m.toNat ++ "-" ++ Time.padded 2 d.toNat ++ "T" ++
    Time.padded 2 (secs / 3600) ++ "-" ++ Time.padded 2 (secs % 3600 / 60) ++ "-" ++
    Time.padded 2 (secs % 60) ++ "." ++ Time.padded 3 (t.nanos / 1000000)

def fileName (t : Time.Instant) : String := "server-" ++ stamp t ++ ".log"

def filePattern : String := "server-*.log"

/-- The log files of a folder in byte order, as paths; or the failure of the search. -/
def logFiles (dir : String) (entries : List (String × Entry)) : Except String (List String) :=
  let pattern := joinPath dir filePattern
  if (Wildcard.matches? pattern "").isNone then .error "syntax error in pattern"
  else
    let folder := cleanPath dir
    let found := !Wildcard.hasMeta folder || Wildcard.matches? (baseName folder) (baseName folder) == some true
    if !found then .ok []
    else
      let names := (entries.map (·.1)).mergeSort (fun a b => a ≤ b)
      .ok ((names.filter fun n => Wildcard.matches? filePattern n == some true).map (joinPath folder))

def removeAll (dir : String) : List String → List (String × Entry) → List (String × Entry) × Option String
  | [], es => (es, none)
  | p :: ps, es =>
    match es.find? (fun e => joinPath dir e.1 == p) with
    | some (_, .folder false) => (es, some ("remove " ++ p ++ ": remove " ++ p ++ ": directory not empty"))
    | _ => removeAll dir ps (es.filter fun e => joinPath dir e.1 != p)

def cleanup (dir : String) (keep : Int) (entries : List (String × Entry)) :
    List (String × Entry) × Option String :=
  if keep ≤ 0 then (entries, none)
  else
    match logFiles dir entries with
    | .error e => (entries, some e)
    | .ok files =>
      if files.length ≤ keep.toNat then (entries, none)
      else removeAll dir (files.take (files.length - keep.toNat)) entries

/-- A log folder after a new file was opened in it. -/
structure Opened where
  entries : List (String × Entry)
  /-- The name of the new file. -/
  created : String
  /-- The warning the cleanup gave, if any. -/
  warning : Option String
  deriving Repr, Inhabited

def openLogFile (dir : String) (place : Place) (keep : Int) (t : Time.Instant) : Except String Opened :=
  match place with
  | .blocked p => .error ("create log directory: mkdir " ++ p ++ ": not a directory")
  | .ready entries =>
    let name := fileName t
    let entries := entries.filter (·.1 != name) ++ [(name, .file)]
    let (entries, warning) := cleanup dir keep entries
    .ok ⟨entries, name, warning.map fun w => "warning: failed to cleanup old logs: " ++ w⟩

end Outliner.Log
