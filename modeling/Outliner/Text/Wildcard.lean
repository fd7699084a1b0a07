/-!
# File name patterns

A pattern matches a whole name. `*` matches any run of characters without `/`, `?` matches one
character other than `/`, `[...]` matches one character in a class of characters and ranges
(`[^...]` one not in it), and `\` takes the next character literally.
-/

set_option autoImplicit false

namespace Outliner.Wildcard

/-- How matching a chunk ends: the pattern is malformed, the chunk does not match, or it
matches and leaves the rest of the name. -/
inductive Outcome where
  | malformed
  | miss
  | rest (s : List Char)
  deriving Repr, BEq, Inhabited

def chunkLength : List Char → Bool → Nat
  | [], _ => 0
  | '\\' :: _ :: r, inClass => 2 + chunkLength r inClass
  | '\\' :: [], _ => 1
  | '[' :: r, _ => 1 + chunkLength r true
  | ']' :: r, _ => 1 + chunkLength r false
  | '*' :: r, inClass => if inClass then 1 + chunkLength r inClass else 0
  | _ :: r, inClass => 1 + chunkLength r inClass

def scanChunk (p : List Char) : Bool × List Char × List Char :=
  let star := p.head? == some '*'
  let p := p.dropWhile (· == '*')
  let n := chunkLength p false
  (star, p.take n, p.drop n)

/-- A suffix of a list, strictly shorter than it. -/
abbrev Shorter (cs : List Char) := { r : List Char // r.length < cs.length }

def bound : (cs : List Char) → Option (Char × Shorter cs)
  | [] => none
  | '-' :: _ => none
  | ']' :: _ => none
  | '\\' :: c :: r => if r.isEmpty then none else some (c, ⟨r, by simp only [List.length_cons]; omega⟩)
  | '\\' :: [] => none
  | c :: r => if r.isEmpty then none else some (c, ⟨r, by simp⟩)

def Shorter.widen {cs rest : List Char} (h : rest.length < cs.length) (r : Shorter rest) : Shorter cs :=
  ⟨r.1, Nat.lt_trans r.2 h⟩

/-- Reads the ranges of a class up to its closing `]`: whether `c` lies in one, and the
pattern after the class; none when the class is malformed. A `]` right at the start is a
bound, not the end. -/
def ranges (c : Option Char) (cs : List Char) (seen found : Bool) : Option (Bool × Shorter cs) :=
  if hc : seen ∧ cs.head? = some ']' then
    some (found, ⟨cs.tail, by cases cs with
      | nil => simp at hc
      | cons => simp⟩)
  else
    match bound cs with
    | none => none
    | some (lo, ⟨after, h⟩) =>
      let inRange (hi : Char) : Bool := match c with
        | some x => lo ≤ x && x ≤ hi
        | none => false
      if hd : after.head? = some '-' then
        match bound after.tail with
        | none => none
        | some (hi, ⟨rest, h'⟩) =>
          have : rest.length < cs.length := by
            have : after.tail.length < after.length := by
              cases after with
              | nil => simp at hd
              | cons => simp
            omega
          (ranges c rest true (found || inRange hi)).map fun p => (p.1, Shorter.widen this p.2)
      else
        (ranges c after true (found || inRange lo)).map fun p => (p.1, Shorter.widen h p.2)
termination_by cs.length

/-- Matches a chunk at the head of a name. Once the match has failed, the rest of the chunk is
still read, to find out whether it is malformed. -/
def matchChunk (chunk s : List Char) (failed : Bool) : Outcome :=
  match chunk with
  | [] => if failed then .miss else .rest s
  | c :: more =>
    let failed := failed || s.isEmpty
    match c with
    | '[' =>
      let (x, s) := if failed then (none, s) else (s.head?, s.tail)
      let negated := more.head? == some '^'
      let body := if negated then more.tail else more
      have hb : body.length ≤ more.length := by
        simp only [body]; split
        · simp
        · exact Nat.le_refl _
      match ranges x body false false with
      | none => .malformed
      | some (found, ⟨rest, h⟩) =>
        have : rest.length < (c :: more).length := by simp only [List.length_cons]; omega
        matchChunk rest s (failed || found == negated)
    | '?' =>
      if failed then matchChunk more s failed
      else matchChunk more s.tail (s.head? == some '/')
    | '\\' =>
      match more with
      | [] => .malformed
      | d :: more' =>
        if failed then matchChunk more' s failed
        else matchChunk more' s.tail (s.head? != some d)
    | d =>
      if failed then matchChunk more s failed
      else matchChunk more s.tail (s.head? != some d)
termination_by chunk.length
decreasing_by
  · exact this
  · exact Nat.lt_succ_self _
  · exact Nat.lt_succ_self _
  · exact Nat.lt_succ_of_lt (Nat.lt_succ_self _)
  · exact Nat.lt_succ_of_lt (Nat.lt_succ_self _)
  · exact Nat.lt_succ_self _
  · exact Nat.lt_succ_self _

def anyMalformed : Nat → List Char → Bool
  | 0, _ => false
  | fuel + 1, p =>
    if p.isEmpty then false
    else
      let (_, chunk, rest) := scanChunk p
      if matchChunk chunk [] false == .malformed then true else anyMalformed fuel rest

def afterStar (chunk : List Char) (last : Bool) : List Char → Except Unit (Option (List Char))
  | [] => .ok none
  | c :: rest =>
    if c == '/' then .ok none
    else
      match matchChunk chunk rest false with
      | .rest t => if last && !t.isEmpty then afterStar chunk last rest else .ok (some t)
      | .malformed => .error ()
      | .miss => afterStar chunk last rest

/-- Matches a pattern against a whole name, chunk by chunk; `fuel` bounds the number of chunks.
`Except.error` marks a malformed pattern. -/
def matchFrom : Nat → List Char → List Char → Except Unit Bool
  | 0, _, _ => .ok false
  | fuel + 1, p, name =>
    if p.isEmpty then .ok name.isEmpty
    else
      let (star, chunk, rest) := scanChunk p
      if star && chunk.isEmpty then .ok (!name.contains '/')
      else
        let otherwise : Except Unit Bool :=
          let tryLater : Except Unit (Option (List Char)) :=
            if star then afterStar chunk rest.isEmpty name else .ok none
          match tryLater with
          | .error () => .error ()
          | .ok (some t) => matchFrom fuel rest t
          | .ok none => if anyMalformed (rest.length + 1) rest then .error () else .ok false
        match matchChunk chunk name false with
        | .rest t => if t.isEmpty || !rest.isEmpty then matchFrom fuel rest t else otherwise
        | .malformed => .error ()
        | .miss => otherwise

def matches? (pattern name : String) : Option Bool :=
  match matchFrom (pattern.length + 1) pattern.toList name.toList with
  | .ok b => some b
  | .error () => none

def hasMeta (s : String) : Bool := s.any fun c => c == '*' || c == '?' || c == '[' || c == '\\'

end Outliner.Wildcard
