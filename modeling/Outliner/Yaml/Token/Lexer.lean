import Outliner.Yaml.Token
/-!
# Scanning YAML into tokens

The scanner reads the text one character at a time and keeps a queue of tokens. Most tokens are
appended as they are read, but some are only known later: a plain or quoted scalar, an anchor, a tag
or a flow collection may turn out to be a mapping key when a `:` follows it on the same line, within
1024 characters.
-/

set_option autoImplicit false

namespace Outliner.Yaml

/-- A place where a simple key may start. -/
structure SimpleKey where
  possible : Bool
  required : Bool
  /-- The number of the token the key would go before, counted from the start of the stream. -/
  number : Nat
  mark : Mark
  deriving Repr, Inhabited

/-- The scanner's state. -/
structure Scanner where
  text : Array Char
  pos : Nat
  mark : Mark
  /-- Line breaks read since the last character that is not a blank. -/
  newlines : Nat
  /-- Tokens fetched and not yet taken. -/
  queue : List Token
  /-- Tokens taken so far. -/
  taken : Nat
  /-- Whether the head of the queue was settled since it last moved. -/
  ready : Bool
  started : Bool
  /-- Whether the stream end token was taken. -/
  ended : Bool
  indent : Int
  indents : List Int
  keyAllowed : Bool
  /-- One simple key per flow level, the innermost last. -/
  keys : Array SimpleKey
  /-- The level of the simple key that starts at each token number. -/
  keyIndex : List (Nat × Nat)
  flowLevel : Nat
  deriving Repr, Inhabited

namespace Scanner

def start (text : String) : Scanner :=
  ⟨text.toList.toArray, 0, ⟨0, 0, 0⟩, 0, [], 0, false, false, false, -1, [], false, #[], [], 0⟩

def ahead (s : Scanner) (k : Nat) : Char := s.text.getD (s.pos + k) endChar

def left (s : Scanner) : Nat := s.text.size - s.pos + 2

def atDocumentMarker (s : Scanner) : Bool :=
  ((s.ahead 0 == '-' && s.ahead 1 == '-' && s.ahead 2 == '-') ||
    (s.ahead 0 == '.' && s.ahead 1 == '.' && s.ahead 2 == '.')) && isBlankZ (s.ahead 3)

def topKey (s : Scanner) : SimpleKey := s.keys.back?.getD default

end Scanner

/-- Scanner steps, which may stop with a problem. -/
abbrev ScanM := StateT Scanner (Except Problem)

def peekChar (k : Nat) : ScanM Char := return (← get).ahead k

def scanError {α : Type} (context : String) (contextMark : Mark) (problem : String) : ScanM α := do
  throw ⟨.scanner, context, contextMark, problem, (← get).mark⟩

def skip : ScanM Unit := modify fun s =>
  { s with pos := s.pos + 1, mark := { s.mark with index := s.mark.index + 1, column := s.mark.column + 1 },
           newlines := if isBlank (s.ahead 0) then s.newlines else 0 }

def takeChar : ScanM Char := do
  let c ← peekChar 0
  skip
  return c

def skipN : Nat → ScanM Unit
  | 0 => pure ()
  | n + 1 => do skip; skipN n

def skipLine : ScanM Unit := modify fun s =>
  if s.ahead 0 == '\r' && s.ahead 1 == '\n' then
    { s with pos := s.pos + 2, mark := ⟨s.mark.index + 2, s.mark.line + 1, 0⟩, newlines := s.newlines + 1 }
  else if isBreak (s.ahead 0) then
    { s with pos := s.pos + 1, mark := ⟨s.mark.index + 1, s.mark.line + 1, 0⟩, newlines := s.newlines + 1 }
  else s

def readLine : ScanM String := do
  let c ← peekChar 0
  if c.toNat == 0x2028 || c.toNat == 0x2029 then
    skipLine
    return c.toString
  else if isBreak c then
    skipLine
    return "\n"
  else return ""

def skipWhile (p : Char → Bool) : Nat → ScanM Unit
  | 0 => pure ()
  | n + 1 => do
    if p (← peekChar 0) then
      skip
      skipWhile p n

def readWhile (p : Char → Bool) : Nat → String → ScanM String
  | 0, acc => pure acc
  | n + 1, acc => do
    let c ← peekChar 0
    if p c then
      skip
      readWhile p n (acc.push c)
    else pure acc

def skipBlanks : ScanM Unit := do skipWhile isBlank (← get).left

def skipToBreak : ScanM Unit := do skipWhile (fun c => !isBreakZ c) (← get).left

/-! ## The token queue and simple keys -/

def pushToken (t : Token) : ScanM Unit := modify fun s => { s with queue := s.queue ++ [t] }

def insertToken (i : Nat) (t : Token) : ScanM Unit :=
  modify fun s => { s with queue := s.queue.take i ++ t :: s.queue.drop i }

def setKey (slot : Nat) (k : SimpleKey) : ScanM Unit :=
  modify fun s => { s with keys := s.keys.setIfInBounds slot k }

def forgetKeyAt (number : Nat) : ScanM Unit :=
  modify fun s => { s with keyIndex := s.keyIndex.filter (·.1 != number) }

def keyStillValid (slot : Nat) : ScanM Bool := do
  let s ← get
  let k := s.keys.getD slot default
  if !k.possible then return false
  if k.mark.line < s.mark.line || k.mark.index + 1024 < s.mark.index then
    if k.required then scanError "while scanning a simple key" k.mark "could not find expected ':'"
    setKey slot { k with possible := false }
    return false
  return true

def removeKey : ScanM Unit := do
  let s ← get
  let slot := s.keys.size - 1
  let k := s.topKey
  if k.possible then
    if k.required then scanError "while scanning a simple key" k.mark "could not find expected ':'"
    setKey slot { k with possible := false }
    forgetKeyAt k.number

def saveKey : ScanM Unit := do
  let s ← get
  if s.keyAllowed then
    let required := s.flowLevel == 0 && s.indent == (s.mark.column : Int)
    let k : SimpleKey := ⟨true, required, s.taken + s.queue.length, s.mark⟩
    removeKey
    let slot := (← get).keys.size - 1
    setKey slot k
    modify fun s => { s with keyIndex := (k.number, slot) :: s.keyIndex.filter (·.1 != k.number) }

def increaseFlow : ScanM Unit := do
  modify fun s => { s with keys := s.keys.push ⟨false, false, 0, s.mark⟩, flowLevel := s.flowLevel + 1 }
  let s ← get
  if s.flowLevel > 10000 then
    scanError "while increasing flow level" s.topKey.mark "exceeded max depth of 10000"

def decreaseFlow : ScanM Unit := modify fun s =>
  if s.flowLevel > 0 then
    { s with flowLevel := s.flowLevel - 1, keyIndex := s.keyIndex.filter (·.1 != s.topKey.number),
             keys := s.keys.pop }
  else s

/-- Opens a block collection at a column deeper than the current indentation, with its start
token appended or, for a key found late, inserted at the key's token number. -/
def rollIndent (column : Int) (number : Option Nat) (kind : TokenKind) (mark : Mark) : ScanM Unit := do
  let s ← get
  if s.flowLevel == 0 && s.indent < column then
    set { s with indents := s.indent :: s.indents, indent := column }
    if s.indents.length + 1 > 10000 then
      scanError "while increasing indent level" s.topKey.mark "exceeded max depth of 10000"
    let t : Token := ⟨kind, mark, mark⟩
    match number with
    | some n => insertToken (n - s.taken) t
    | none => pushToken t

def unrollFrom (column : Int) (m : Mark) : Int → List Int → List Token → Int × List Int × List Token
  | indent, top :: rest, out =>
    if indent > column then unrollFrom column m top rest (out ++ [⟨.blockEnd, m, m⟩])
    else (indent, top :: rest, out)
  | indent, [], out => (indent, [], out)

def unrollIndent (column : Int) (scanMark : Mark) : ScanM Unit := modify fun s =>
  if s.flowLevel > 0 then s
  else
    let m := { scanMark with index := scanMark.index - 1 }
    let (indent, indents, ends) := unrollFrom column m s.indent s.indents []
    { s with indent, indents, queue := s.queue ++ ends }

/-! ## Comments and whitespace -/

/-- Where the next comment starts, looking past blanks and line breaks from `peek` on, at most
512 characters ahead; none when something else comes first. -/
def nextComment (s : Scanner) (peek : Nat) : Nat → Option Nat
  | 0 => none
  | n + 1 =>
    if peek ≥ 512 then none
    else
      let c := s.ahead peek
      if isBlank c then nextComment s (peek + 1) n
      else if (s.flowLevel > 0 && (c == ']' || c == '}')) || isBreakZ c then
        if isBreak c then nextComment s (peek + 1) n else none
      else if c == '#' then some peek
      else none

/-- Moves to the character with index `seen`, over blanks and line breaks, and then past the
comment there up to its line break. -/
def skipCommentAt (seen : Nat) : Nat → ScanM Unit
  | 0 => pure ()
  | n + 1 => do
    let s ← get
    if isBreakZ (s.ahead 0) then
      if s.mark.index < seen then
        skipLine
        skipCommentAt seen n
    else
      skip
      skipCommentAt seen n

def skipComments : Nat → Nat → ScanM Unit
  | 0, _ => pure ()
  | n + 1, peek => do
    let s ← get
    match nextComment s peek 513 with
    | none => pure ()
    | some k =>
      skipCommentAt (s.mark.index + k) s.left
      skipComments n 1

def lineComment : ScanM Unit := do
  let s ← get
  if s.newlines == 0 then
    let blanks := ((List.range 512).takeWhile fun k => isBlank (s.ahead k)).length
    if blanks < 512 && s.ahead blanks == '#' then skipCommentAt (s.mark.index + blanks) s.left

def skipSpaces : Nat → ScanM Unit
  | 0 => pure ()
  | n + 1 => do
    let s ← get
    let c := s.ahead 0
    if c == ' ' || ((s.flowLevel > 0 || !s.keyAllowed) && c == '\t') then
      skip
      skipSpaces n

/-- Moves to the start of the next token, past whitespace, comments and line breaks; a new
line in block context may start a simple key. -/
def skipToToken : Nat → ScanM Unit
  | 0 => pure ()
  | n + 1 => do
    let s ← get
    if s.mark.column == 0 && (s.ahead 0).toNat == 0xFEFF then skip
    skipSpaces (← get).left
    if (← peekChar 0) == '#' then skipComments (← get).left 0
    if isBreak (← peekChar 0) then
      skipLine
      if (← get).flowLevel == 0 then modify fun s => { s with keyAllowed := true }
      skipToToken n

/-! ## Directives -/

def directiveName (start : Mark) : ScanM String := do
  let name ← readWhile isWordChar (← get).left ""
  if name.isEmpty then scanError "while scanning a directive" start "could not find expected directive name"
  if !isBlankZ (← peekChar 0) then
    scanError "while scanning a directive" start "found unexpected non-alphabetical character"
  return name

def versionNumber (start : Mark) : ScanM Nat := do
  let ds ← readWhile isDigitChar 3 ""
  if ds.length > 2 then scanError "while scanning a %YAML directive" start "found extremely long version number"
  if ds.isEmpty then scanError "while scanning a %YAML directive" start "did not find expected version number"
  return ds.foldl (fun n c => n * 10 + (c.toNat - '0'.toNat)) 0

def tagError {α : Type} (directive : Bool) (start : Mark) (problem : String) : ScanM α :=
  scanError (if directive then "while parsing a %TAG directive" else "while parsing a tag") start problem

def utf8Width (b : Nat) : Nat :=
  if b &&& 0x80 == 0 then 1
  else if b &&& 0xE0 == 0xC0 then 2
  else if b &&& 0xF0 == 0xE0 then 3
  else if b &&& 0xF8 == 0xF0 then 4
  else 0

/-- The bytes of `%`-escaped octets, as many as the first one's sequence needs. -/
def uriOctets (directive : Bool) (start : Mark) : Nat → Nat → List Nat → ScanM (List Nat)
  | 0, _, acc => pure acc
  | n + 1, want, acc => do
    let s ← get
    match s.ahead 0 == '%', hexValue (s.ahead 1), hexValue (s.ahead 2) with
    | true, some hi, some lo =>
      let octet := hi * 16 + lo
      let want ← if acc.isEmpty then
          let w := utf8Width octet
          if w == 0 then tagError directive start "found an incorrect leading UTF-8 octet"
          pure w
        else
          if octet &&& 0xC0 != 0x80 then tagError directive start "found an incorrect trailing UTF-8 octet"
          pure want
      skipN 3
      let acc := acc ++ [octet]
      if acc.length ≥ want then pure acc else uriOctets directive start n want acc
    | _, _, _ => tagError directive start "did not find URI escaped octet"

def decodeOctets : List Nat → Char
  | [b] => Char.ofNat b
  | [b0, b1] => Char.ofNat ((b0 &&& 0x1F) * 64 + (b1 &&& 0x3F))
  | [b0, b1, b2] => Char.ofNat ((b0 &&& 0x0F) * 4096 + (b1 &&& 0x3F) * 64 + (b2 &&& 0x3F))
  | [b0, b1, b2, b3] =>
    Char.ofNat ((b0 &&& 0x07) * 262144 + (b1 &&& 0x3F) * 4096 + (b2 &&& 0x3F) * 64 + (b3 &&& 0x3F))
  | _ => Char.ofNat 0xFFFD

def isUriChar (verbatim : Bool) (c : Char) : Bool :=
  isWordChar c || ";/?:@&=+$.%!~*'()".toList.contains c || (verbatim && ",[]".toList.contains c)

/-- Reads the characters of a tag's URI after `head` (whose leading `!` is dropped). -/
def tagUriFrom (verbatim directive : Bool) (start : Mark) : Nat → String → ScanM String
  | 0, acc => pure acc
  | n + 1, acc => do
    let c ← peekChar 0
    if !isUriChar verbatim c then pure acc
    else if c == '%' then
      let octets ← uriOctets directive start 4 0 []
      tagUriFrom verbatim directive start n (acc.push (decodeOctets octets))
    else
      skip
      tagUriFrom verbatim directive start n (acc.push c)

def tagUri (verbatim directive : Bool) (head : String) (start : Mark) : ScanM String := do
  let before := (← get).pos
  let s ← tagUriFrom verbatim directive start (← get).left (String.ofList (head.toList.drop 1))
  if head.isEmpty && (← get).pos == before then tagError directive start "did not find expected tag URI"
  return s

def tagHandle (directive : Bool) (start : Mark) : ScanM String := do
  if (← peekChar 0) != '!' then tagError directive start "did not find expected '!'"
  skip
  let s ← readWhile isWordChar (← get).left "!"
  if (← peekChar 0) == '!' then
    skip
    return s.push '!'
  if directive && s != "!" then tagError directive start "did not find expected '!'"
  return s

def tagDirectiveValue (start : Mark) : ScanM (String × String) := do
  skipBlanks
  let handle ← tagHandle true start
  if !isBlank (← peekChar 0) then scanError "while scanning a %TAG directive" start "did not find expected whitespace"
  skipBlanks
  let pre ← tagUri true true "" start
  if !isBlankZ (← peekChar 0) then
    scanError "while scanning a %TAG directive" start "did not find expected whitespace or line break"
  return (handle, pre)

/-- A directive line: `%YAML major.minor` or `%TAG handle prefix`, then an optional comment. -/
def scanDirective : ScanM Token := do
  let start := (← get).mark
  skip
  let name ← directiveName start
  let kind ← if name == "YAML" then do
      skipBlanks
      let major ← versionNumber start
      if (← peekChar 0) != '.' then
        scanError "while scanning a %YAML directive" start "did not find expected digit or '.' character"
      skip
      let minor ← versionNumber start
      pure (TokenKind.versionDirective major minor)
    else if name == "TAG" then do
      let (handle, pre) ← tagDirectiveValue start
      pure (TokenKind.tagDirective handle pre)
    else scanError "while scanning a directive" start "found unknown directive name"
  let stop := (← get).mark
  skipBlanks
  if (← peekChar 0) == '#' then skipToBreak
  if !isBreakZ (← peekChar 0) then
    scanError "while scanning a directive" start "did not find expected comment or line break"
  if isBreak (← peekChar 0) then skipLine
  return ⟨kind, start, stop⟩

/-! ## Anchors, aliases and tags -/

/-- An anchor `&name` or an alias `*name`. -/
def scanAnchor (isAlias : Bool) : ScanM Token := do
  let start := (← get).mark
  skip
  let name ← readWhile isWordChar (← get).left ""
  let stop := (← get).mark
  let c ← peekChar 0
  if name.isEmpty || !(isBlankZ c || "?:,]\x7d%@".toList.contains c || c.toNat == 96) then
    scanError (if isAlias then "while scanning an alias" else "while scanning an anchor") start
      "did not find expected alphabetic or numeric character"
  return ⟨if isAlias then .alias name else .anchor name, start, stop⟩

/-- A tag: `!<uri>`, `!handle!suffix`, `!suffix` or a lone `!`. -/
def scanTag : ScanM Token := do
  let s ← get
  let start := s.mark
  let (handle, suffix) ← if s.ahead 1 == '<' then do
      skipN 2
      let suffix ← tagUri true false "" start
      if (← peekChar 0) != '>' then scanError "while scanning a tag" start "did not find the expected '>'"
      skip
      pure ("", suffix)
    else do
      let handle ← tagHandle false start
      if handle.length > 1 && handle.startsWith "!" && handle.endsWith "!" then
        pure (handle, ← tagUri false false "" start)
      else
        let suffix ← tagUri false false handle start
        pure (if suffix.isEmpty then ("", "!") else ("!", suffix))
  let c ← peekChar 0
  if !isBlankZ c && ((← get).flowLevel == 0 || c != ',') then
    scanError "while scanning a tag" start "did not find expected whitespace or line break"
  return ⟨.tag handle suffix, start, (← get).mark⟩

/-! ## Scalars -/

/-- The whitespace between two runs of a scalar's text: the blanks read since the last text,
or, once a line break was read, the first break and the ones after it. -/
structure Gap where
  blanks : String
  leading : String
  trailing : String
  broken : Bool
  deriving Repr, Inhabited

namespace Gap

def empty : Gap := ⟨"", "", "", false⟩

def pending (g : Gap) : Bool := g.broken || !g.blanks.isEmpty

def fold (g : Gap) : String :=
  if g.broken then
    if g.leading.startsWith "\n" then (if g.trailing.isEmpty then " " else g.trailing)
    else g.leading ++ g.trailing
  else g.blanks

end Gap

/-- Reads whitespace into a gap; after a line break the blanks are indentation and are not
kept. -/
def readGap (check : Gap → Scanner → ScanM Unit) : Nat → Gap → ScanM Gap
  | 0, g => pure g
  | n + 1, g => do
    let s ← get
    let c := s.ahead 0
    if isBlank c then
      check g s
      if g.broken then
        skip
        readGap check n g
      else
        skip
        readGap check n { g with blanks := g.blanks.push c }
    else if isBreak c then
      let l ← readLine
      if g.broken then readGap check n { g with trailing := g.trailing ++ l }
      else readGap check n { g with blanks := "", leading := l, broken := true }
    else pure g

/-- Reads a run of a plain scalar's characters, up to a blank, the end or an indicator that
ends the scalar; waiting whitespace is joined in before the first character. -/
def plainRun (flow : Bool) : Nat → String → Gap → Mark → ScanM (String × Gap × Mark)
  | 0, t, g, e => pure (t, g, e)
  | n + 1, t, g, e => do
    let s ← get
    let c := s.ahead 0
    if isBlankZ c then return (t, g, e)
    if (c == ':' && isBlankZ (s.ahead 1)) ||
        (flow && (c == ',' || c == '?' || c == '[' || c == ']' || c == '{' || c == '}')) then
      return (t, g, e)
    let t := if g.pending then t ++ g.fold else t
    skip
    plainRun flow n (t.push c) Gap.empty (← get).mark

/-- The lines of a plain scalar. It ends at a document marker, a comment, an indicator, or a
line indented no deeper than its block. -/
def plainLines (indent : Int) (start : Mark) : Nat → String → Gap → Mark → ScanM (String × Gap × Mark)
  | 0, t, g, e => pure (t, g, e)
  | n + 1, t, g, e => do
    let s ← get
    if s.mark.column == 0 && s.atDocumentMarker then return (t, g, e)
    if s.ahead 0 == '#' then return (t, g, e)
    let (t, g, e) ← plainRun (s.flowLevel > 0) s.left t g e
    let c ← peekChar 0
    if !(isBlank c || isBreak c) then return (t, g, e)
    let tabCheck (g : Gap) (s : Scanner) : ScanM Unit :=
      if g.broken && (s.mark.column : Int) < indent && s.ahead 0 == '\t' then
        scanError "while scanning a plain scalar" start "found a tab character that violates indentation"
      else pure ()
    let g ← readGap tabCheck (← get).left g
    let s ← get
    if s.flowLevel == 0 && (s.mark.column : Int) < indent then return (t, g, e)
    plainLines indent start n t g e

def scanPlain : ScanM Token := do
  let s ← get
  let start := s.mark
  let (t, g, stop) ← plainLines (s.indent + 1) start s.left "" Gap.empty start
  if g.broken then modify fun s => { s with keyAllowed := true }
  return ⟨.scalar t .plain, start, stop⟩

/-- What a backslash escape stands for: a character, or the number of hex digits of a code. -/
def escapeOf (c : Char) : Option (Char ⊕ Nat) :=
  match c with
  | '0' => some (.inl (Char.ofNat 0))
  | 'a' => some (.inl (Char.ofNat 7))
  | 'b' => some (.inl (Char.ofNat 8))
  | 't' | '\t' => some (.inl '\t')
  | 'n' => some (.inl '\n')
  | 'v' => some (.inl (Char.ofNat 11))
  | 'f' => some (.inl (Char.ofNat 12))
  | 'r' => some (.inl '\r')
  | 'e' => some (.inl (Char.ofNat 27))
  | ' ' => some (.inl ' ')
  | '"' => some (.inl '"')
  | '\'' => some (.inl '\'')
  | '\\' => some (.inl '\\')
  | 'N' => some (.inl (Char.ofNat 0x85))
  | '_' => some (.inl (Char.ofNat 0xA0))
  | 'L' => some (.inl (Char.ofNat 0x2028))
  | 'P' => some (.inl (Char.ofNat 0x2029))
  | 'x' => some (.inr 2)
  | 'u' => some (.inr 4)
  | 'U' => some (.inr 8)
  | _ => none

def hexAhead (s : Scanner) (k : Nat) : Option Nat :=
  (List.range k).foldl (fun acc i => do let v ← acc; let d ← hexValue (s.ahead i); pure (v * 16 + d)) (some 0)

/-- Reads a run of a quoted scalar's characters up to a blank, a line break or the closing
quote; an escaped line break ends the run and starts a gap. -/
def quotedRun (single : Bool) (start : Mark) : Nat → String → ScanM (String × Bool)
  | 0, t => pure (t, false)
  | n + 1, t => do
    let s ← get
    let c := s.ahead 0
    if isBlankZ c then return (t, false)
    if single && c == '\'' && s.ahead 1 == '\'' then
      skipN 2
      quotedRun single start n (t.push '\'')
    else if single && c == '\'' then return (t, false)
    else if !single && c == '"' then return (t, false)
    else if !single && c == '\\' && isBreak (s.ahead 1) then
      skip
      skipLine
      return (t, true)
    else if !single && c == '\\' then
      match escapeOf (s.ahead 1) with
      | none => scanError "while parsing a quoted scalar" start "found unknown escape character"
      | some (.inl ch) =>
        skipN 2
        quotedRun single start n (t.push ch)
      | some (.inr len) =>
        skipN 2
        match hexAhead (← get) len with
        | none => scanError "while parsing a quoted scalar" start "did not find expected hexdecimal number"
        | some v =>
          if (v ≥ 0xD800 && v ≤ 0xDFFF) || v > 0x10FFFF then
            scanError "while parsing a quoted scalar" start "found invalid Unicode character escape code"
          skipN len
          quotedRun single start n (t.push (Char.ofNat v))
    else
      skip
      quotedRun single start n (t.push c)

/-- The lines of a quoted scalar, up to its closing quote. -/
def quotedLines (single : Bool) (start : Mark) : Nat → String → ScanM String
  | 0, t => pure t
  | n + 1, t => do
    let s ← get
    if s.mark.column == 0 && s.atDocumentMarker then
      scanError "while scanning a quoted scalar" start "found unexpected document indicator"
    if s.ahead 0 == endChar then
      scanError "while scanning a quoted scalar" start "found unexpected end of stream"
    let (t, broken) ← quotedRun single start s.left t
    let c ← peekChar 0
    if (single && c == '\'') || (!single && c == '"') then return t
    let g ← readGap (fun _ _ => pure ()) (← get).left { Gap.empty with broken }
    quotedLines single start n (t ++ g.fold)

def scanQuoted (single : Bool) : ScanM Token := do
  let start := (← get).mark
  skip
  let t ← quotedLines single start (← get).left ""
  skip
  return ⟨.scalar t (if single then .single else .double), start, (← get).mark⟩

/-- Reads the indentation and empty lines before a block scalar's next line; with no
indentation fixed yet, the deepest of those lines and the enclosing block fix it. -/
def blockBreaks (start : Mark) (indent : Nat) (outer : Int) : Nat → Nat → String → Mark → ScanM (Nat × String × Mark)
  | 0, _, breaks, e => pure (indent, breaks, e)
  | n + 1, most, breaks, e => do
    let s0 ← get
    skipWhile (fun c => c == ' ') (if indent == 0 then s0.left else indent - s0.mark.column)
    let s ← get
    let most := max most s.mark.column
    if (indent == 0 || s.mark.column < indent) && s.ahead 0 == '\t' then
      scanError "while scanning a block scalar" start "found a tab character where an indentation space is expected"
    if !isBreak (s.ahead 0) then
      let fixed := if indent == 0 then max (max most (outer + 1).toNat) 1 else indent
      return (fixed, breaks, e)
    let l ← readLine
    blockBreaks start indent outer n most (breaks ++ l) (← get).mark

/-- The lines of a block scalar's body, each at the block's indentation. -/
def blockLines (literal : Bool) (start : Mark) (indent : Nat) (outer : Int) :
    Nat → String → String → String → Bool → Mark → ScanM (String × String × String × Mark)
  | 0, t, leading, trailing, _, e => pure (t, leading, trailing, e)
  | n + 1, t, leading, trailing, leadingBlank, e => do
    let s ← get
    if s.mark.column != indent || s.ahead 0 == endChar then return (t, leading, trailing, e)
    let trailingBlank := isBlank (s.ahead 0)
    let t := if !literal && !leadingBlank && !trailingBlank && leading.startsWith "\n" then
        (if trailing.isEmpty then t.push ' ' else t)
      else t ++ leading
    let t := t ++ trailing
    let leadingBlank := isBlank (s.ahead 0)
    let t ← readWhile (fun c => !isBreakZ c) s.left t
    let leading ← readLine
    let (_, trailing, e) ← blockBreaks start indent outer (← get).left 0 "" (← get).mark
    blockLines literal start indent outer n t leading trailing leadingBlank e

/-- A literal (`|`) or folded (`>`) block scalar, with its optional chomping (`+`, `-`) and
indentation indicators. -/
def scanBlockScalar (literal : Bool) : ScanM Token := do
  let start := (← get).mark
  skip
  let c ← peekChar 0
  let (chomping, increment) ← if c == '+' || c == '-' then do
      skip
      let d ← peekChar 0
      if isDigitChar d then
        if d == '0' then scanError "while scanning a block scalar" start "found an indentation indicator equal to 0"
        skip
        pure ((if c == '+' then 1 else -1 : Int), d.toNat - '0'.toNat)
      else pure ((if c == '+' then 1 else -1 : Int), 0)
    else if isDigitChar c then do
      if c == '0' then scanError "while scanning a block scalar" start "found an indentation indicator equal to 0"
      skip
      let d ← peekChar 0
      if d == '+' || d == '-' then
        skip
        pure ((if d == '+' then 1 else -1 : Int), c.toNat - '0'.toNat)
      else pure (0, c.toNat - '0'.toNat)
    else pure (0, 0)
  skipBlanks
  if (← peekChar 0) == '#' then skipToBreak
  if !isBreakZ (← peekChar 0) then
    scanError "while scanning a block scalar" start "did not find expected comment or line break"
  if isBreak (← peekChar 0) then skipLine
  let s ← get
  let outer := s.indent
  let indent : Nat := if increment > 0 then (if outer ≥ 0 then (outer + increment).toNat else increment) else 0
  let (indent, trailing, e) ← blockBreaks start indent outer s.left 0 "" s.mark
  let (t, leading, trailing, e) ← blockLines literal start indent outer (← get).left "" "" trailing false e
  let t := if chomping != -1 then t ++ leading else t
  let t := if chomping == 1 then t ++ trailing else t
  return ⟨.scalar t (if literal then .literal else .folded), start, e⟩

/-! ## Fetching tokens -/

def fetchStreamStart : ScanM Unit := do
  modify fun s => { s with indent := -1, keys := s.keys.push default, keyIndex := [], keyAllowed := true,
                           started := true }
  let m := (← get).mark
  pushToken ⟨.streamStart, m, m⟩

def fetchStreamEnd : ScanM Unit := do
  modify fun s => if s.mark.column != 0 then { s with mark := { s.mark with column := 0, line := s.mark.line + 1 } } else s
  unrollIndent (-1) (← get).mark
  removeKey
  modify fun s => { s with keyAllowed := false }
  let m := (← get).mark
  pushToken ⟨.streamEnd, m, m⟩

def fetchDirective : ScanM Unit := do
  unrollIndent (-1) (← get).mark
  removeKey
  modify fun s => { s with keyAllowed := false }
  pushToken (← scanDirective)

def fetchDocumentMarker (kind : TokenKind) : ScanM Unit := do
  unrollIndent (-1) (← get).mark
  removeKey
  modify fun s => { s with keyAllowed := false }
  let start := (← get).mark
  skipN 3
  pushToken ⟨kind, start, (← get).mark⟩

def pushIndicator (kind : TokenKind) : ScanM Unit := do
  let start := (← get).mark
  skip
  pushToken ⟨kind, start, (← get).mark⟩

def fetchFlowStart (kind : TokenKind) : ScanM Unit := do
  saveKey
  increaseFlow
  modify fun s => { s with keyAllowed := true }
  pushIndicator kind

def fetchFlowEnd (kind : TokenKind) : ScanM Unit := do
  removeKey
  decreaseFlow
  modify fun s => { s with keyAllowed := false }
  pushIndicator kind

def fetchFlowEntry : ScanM Unit := do
  removeKey
  modify fun s => { s with keyAllowed := true }
  pushIndicator .flowEntry

def fetchBlockEntry : ScanM Unit := do
  let s ← get
  if s.flowLevel == 0 then
    if !s.keyAllowed then scanError "" s.mark "block sequence entries are not allowed in this context"
    rollIndent s.mark.column none .blockSequenceStart s.mark
  removeKey
  modify fun s => { s with keyAllowed := true }
  pushIndicator .blockEntry

def fetchKey : ScanM Unit := do
  let s ← get
  if s.flowLevel == 0 then
    if !s.keyAllowed then scanError "" s.mark "mapping keys are not allowed in this context"
    rollIndent s.mark.column none .blockMappingStart s.mark
  removeKey
  modify fun s => { s with keyAllowed := s.flowLevel == 0 }
  pushIndicator .key

/-- `:` ending a key: the remembered simple key becomes a key token, or else the value
follows a complex key. -/
def fetchValue : ScanM Unit := do
  let s ← get
  let slot := s.keys.size - 1
  let k := s.topKey
  if ← keyStillValid slot then
    insertToken (k.number - s.taken) ⟨.key, k.mark, k.mark⟩
    rollIndent k.mark.column (some k.number) .blockMappingStart k.mark
    setKey slot { k with possible := false }
    forgetKeyAt k.number
    modify fun s => { s with keyAllowed := false }
  else
    let s ← get
    if s.flowLevel == 0 then
      if !s.keyAllowed then scanError "" s.mark "mapping values are not allowed in this context"
      rollIndent s.mark.column none .blockMappingStart s.mark
    modify fun s => { s with keyAllowed := s.flowLevel == 0 }
  pushIndicator .value

def startsPlain (s : Scanner) : Bool :=
  let c := s.ahead 0
  !(isBlankZ c || "-?:,[]\x7b\x7d#&*!|>'\"%@".toList.contains c || c.toNat == 96) ||
    (c == '-' && !isBlank (s.ahead 1)) ||
    (s.flowLevel == 0 && (c == '?' || c == ':') && !isBlankZ (s.ahead 1))

/-- Fetches a token that is not a stream, directive or document marker. -/
def fetchContent : ScanM Unit := do
  let s ← get
  let c := s.ahead 0
  let blankAfter := isBlankZ (s.ahead 1)
  if c == '[' then fetchFlowStart .flowSequenceStart
  else if c == '{' then fetchFlowStart .flowMappingStart
  else if c == ']' then fetchFlowEnd .flowSequenceEnd
  else if c == '}' then fetchFlowEnd .flowMappingEnd
  else if c == ',' then fetchFlowEntry
  else if c == '-' && blankAfter then fetchBlockEntry
  else if c == '?' && (s.flowLevel > 0 || blankAfter) then fetchKey
  else if c == ':' && (s.flowLevel > 0 || blankAfter) then fetchValue
  else if c == '*' || c == '&' then
    saveKey
    modify fun s => { s with keyAllowed := false }
    pushToken (← scanAnchor (c == '*'))
  else if c == '!' then
    saveKey
    modify fun s => { s with keyAllowed := false }
    pushToken (← scanTag)
  else if (c == '|' || c == '>') && s.flowLevel == 0 then
    removeKey
    modify fun s => { s with keyAllowed := true }
    pushToken (← scanBlockScalar (c == '|'))
  else if c == '\'' || c == '"' then
    saveKey
    modify fun s => { s with keyAllowed := false }
    pushToken (← scanQuoted (c == '\''))
  else if startsPlain s then
    saveKey
    modify fun s => { s with keyAllowed := false }
    pushToken (← scanPlain)
  else scanError "while scanning for the next token" s.mark "found character that cannot start any token"

/-- Fetches the next token (and the block ends before it). A comment after a token on its line
is read with it, except after a sequence entry's dash. -/
def fetchNext : ScanM Unit := do
  if !(← get).started then
    fetchStreamStart
    return
  let scanMark := (← get).mark
  skipToToken (← get).left
  unrollIndent (← get).mark.column scanMark
  let s ← get
  let c := s.ahead 0
  if c == endChar then fetchStreamEnd
  else if s.mark.column == 0 && c == '%' then fetchDirective
  else if s.mark.column == 0 && c == '-' && s.atDocumentMarker then fetchDocumentMarker .documentStart
  else if s.mark.column == 0 && c == '.' && s.atDocumentMarker then fetchDocumentMarker .documentEnd
  else
    fetchContent
    if ((← get).queue.getLast?.map (·.kind)) != some .blockEntry then lineComment

/-- Fetches tokens until the queue holds three and its head can no longer become a key. -/
def fetchMore : Nat → ScanM Unit
  | 0 => pure ()
  | n + 1 => do
    let s ← get
    if s.queue.length ≥ 3 then
      match s.keyIndex.lookup s.taken with
      | none => return
      | some slot => if !(← keyStillValid slot) then return
    fetchNext
    fetchMore n

def peekToken : ScanM Token := do
  if !(← get).ready then
    fetchMore (2 * (← get).left + 16)
    modify fun s => { s with ready := true }
  let s ← get
  return s.queue.headD ⟨.streamEnd, s.mark, s.mark⟩

def skipToken : ScanM Unit := modify fun s =>
  match s.queue with
  | t :: rest => { s with queue := rest, taken := s.taken + 1, ready := false, ended := t.kind == .streamEnd }
  | [] => s

end Outliner.Yaml
