import Outliner.Yaml.Token.Lexer
/-!
# Parsing tokens into events

The event parser checks the tokens' grammar with a stack of states, one for each collection being
read, and gives one event per step: the stream's and documents' starts and ends, scalars, aliases,
and the starts and ends of sequences and mappings.
-/

set_option autoImplicit false

namespace Outliner.Yaml

/-- The kinds of events. -/
inductive EventKind where
  | streamStart
  | streamEnd
  | documentStart
  | documentEnd
  | alias (name : String)
  | scalar (anchor tag text : String) (style : ScalarStyle)
  | sequenceStart (anchor tag : String)
  | sequenceEnd
  | mappingStart (anchor tag : String)
  | mappingEnd
  deriving Repr, BEq, Inhabited

/-- An event with the places it starts and ends at. -/
structure Event where
  kind : EventKind
  start : Mark
  stop : Mark
  deriving Repr, Inhabited

/-- What the parser expects next. -/
inductive ParseState where
  | streamStart
  | implicitDocumentStart
  | documentStart
  | documentContent
  | documentEnd
  | blockNode
  | blockNodeOrIndentlessSequence
  | flowNode
  | blockSequenceFirstEntry
  | blockSequenceEntry
  | indentlessSequenceEntry
  | blockMappingFirstKey
  | blockMappingKey
  | blockMappingValue
  | flowSequenceFirstEntry
  | flowSequenceEntry
  | flowSequenceEntryMappingKey
  | flowSequenceEntryMappingValue
  | flowSequenceEntryMappingEnd
  | flowMappingFirstKey
  | flowMappingKey
  | flowMappingValue
  | flowMappingEmptyValue
  | finished
  deriving Repr, BEq, DecidableEq, Inhabited

/-- The event parser's state: the scanner, the current state and the stack of states to
return to, the start marks of the collections being read, and the tag directives. -/
structure EventReader where
  scanner : Scanner
  state : ParseState
  states : List ParseState
  marks : List Mark
  tagDirectives : List (String × String)
  deriving Repr, Inhabited

def defaultTagDirectives : List (String × String) := [("!", "!"), ("!!", "tag:yaml.org,2002:")]

/-- Event parser steps, which may stop with a problem. -/
abbrev ParseM := StateT EventReader (Except Problem)

def onScanner {α : Type} (x : ScanM α) : ParseM α := fun r => do
  let (a, s) ← x.run r.scanner
  pure (a, { r with scanner := s })

def peekTok : ParseM Token := onScanner peekToken

def skipTok : ParseM Unit := onScanner skipToken

def parseError {α : Type} (problem : String) (mark : Mark) : ParseM α :=
  throw ⟨.parser, "", default, problem, mark⟩

def parseErrorIn {α : Type} (context : String) (contextMark : Mark) (problem : String) (mark : Mark) : ParseM α :=
  throw ⟨.parser, context, contextMark, problem, mark⟩

def goTo (st : ParseState) : ParseM Unit := modify fun r => { r with state := st }

def pushState (st : ParseState) : ParseM Unit := modify fun r => { r with states := st :: r.states }

def popState : ParseM Unit := modify fun r =>
  match r.states with
  | st :: rest => { r with state := st, states := rest }
  | [] => { r with state := .finished }

def pushMark (m : Mark) : ParseM Unit := modify fun r => { r with marks := m :: r.marks }

def popMark : ParseM Mark := modifyGet fun r =>
  match r.marks with
  | m :: rest => (m, { r with marks := rest })
  | [] => (default, r)

def emptyScalar (m : Mark) : Event := ⟨.scalar "" "" "" .plain, m, m⟩

def TokenKind.isDirective : TokenKind → Bool
  | .versionDirective _ _ | .tagDirective _ _ => true
  | _ => false

def addTagDirective (handle pre : String) (allowDuplicates : Bool) (m : Mark) : ParseM Unit := do
  let r ← get
  if r.tagDirectives.any (·.1 == handle) then
    if !allowDuplicates then parseError "found duplicate %TAG directive" m
  else set { r with tagDirectives := r.tagDirectives ++ [(handle, pre)] }

/-- Reads the directives before a document, then adds the default tag handles. -/
def processDirectives (seenVersion : Bool) : Nat → ParseM Unit
  | 0 => pure ()
  | n + 1 => do
    let t ← peekTok
    match t.kind with
    | .versionDirective major minor =>
      if seenVersion then parseError "found duplicate %YAML directive" t.start
      if major != 1 || minor != 1 then parseError "found incompatible YAML document" t.start
      skipTok
      processDirectives true n
    | .tagDirective handle pre =>
      addTagDirective handle pre false t.start
      skipTok
      processDirectives seenVersion n
    | _ =>
      for (h, p) in defaultTagDirectives do
        addTagDirective h p true t.start

def tokenFuel : ParseM Nat := return 4 * (← get).scanner.left + 16

def parseStreamStart : ParseM Event := do
  let t ← peekTok
  if t.kind != .streamStart then parseError "did not find expected <stream-start>" t.start
  goTo .implicitDocumentStart
  skipTok
  return ⟨.streamStart, t.start, t.stop⟩

def skipDocumentEnds : Nat → ParseM Token
  | 0 => peekTok
  | n + 1 => do
    let t ← peekTok
    if t.kind == .documentEnd then
      skipTok
      skipDocumentEnds n
    else pure t

/-- The start of a document, implicit (content right away) or after `---`, or the end of the
stream. -/
def parseDocumentStart (isImplicit : Bool) : ParseM Event := do
  let t ← if isImplicit then peekTok else skipDocumentEnds (← tokenFuel)
  if isImplicit && !t.kind.isDirective && t.kind != .documentStart && t.kind != .streamEnd then
    processDirectives false (← tokenFuel)
    pushState .documentEnd
    goTo .blockNode
    return ⟨.documentStart, t.start, t.stop⟩
  else if t.kind != .streamEnd then
    let start := t.start
    processDirectives false (← tokenFuel)
    let t ← peekTok
    if t.kind != .documentStart then parseError "did not find expected <document start>" t.start
    pushState .documentEnd
    goTo .documentContent
    skipTok
    return ⟨.documentStart, start, t.stop⟩
  else
    goTo .finished
    skipTok
    return ⟨.streamEnd, t.start, t.stop⟩

def parseDocumentContent (node : ParseM Event) : ParseM Event := do
  let t ← peekTok
  if t.kind.isDirective || t.kind == .documentStart || t.kind == .documentEnd || t.kind == .streamEnd then
    popState
    return emptyScalar t.start
  node

def parseDocumentEnd : ParseM Event := do
  let t ← peekTok
  let stop ← if t.kind == .documentEnd then do skipTok; pure t.stop else pure t.start
  modify fun r => { r with tagDirectives := [] }
  goTo .documentStart
  return ⟨.documentEnd, t.start, stop⟩

/-- A node's properties: its anchor and its tag as handle and suffix, with the places they
span. -/
structure Properties where
  anchor : String
  tag : Option (String × String)
  start : Mark
  stop : Mark
  tagMark : Mark
  deriving Repr, Inhabited

/-- Reads a node's anchor and tag, in either order. -/
def readProperties (t : Token) : ParseM (Properties × Token) := do
  match t.kind with
  | .anchor a =>
    skipTok
    let t2 ← peekTok
    match t2.kind with
    | .tag h sfx =>
      skipTok
      pure (⟨a, some (h, sfx), t.start, t2.stop, t2.start⟩, ← peekTok)
    | _ => pure (⟨a, none, t.start, t.stop, default⟩, t2)
  | .tag h sfx =>
    skipTok
    let t2 ← peekTok
    match t2.kind with
    | .anchor a =>
      skipTok
      pure (⟨a, some (h, sfx), t.start, t2.stop, t.start⟩, ← peekTok)
    | _ => pure (⟨"", some (h, sfx), t.start, t.stop, t.start⟩, t2)
  | _ => pure (⟨"", none, t.start, t.start, default⟩, t)

/-- A node: an alias, a scalar, or the start of a collection, after its properties. In block
context a block collection may start here, and after a mapping key a sequence may be
indentless. -/
def parseNode (block indentless : Bool) : ParseM Event := do
  let t ← peekTok
  if let .alias name := t.kind then
    popState
    skipTok
    return ⟨.alias name, t.start, t.stop⟩
  let (p, t) ← readProperties t
  let tag ← match p.tag with
    | none => pure ""
    | some ("", sfx) => pure sfx
    | some (h, sfx) =>
      match (← get).tagDirectives.lookup h with
      | some pre => pure (pre ++ sfx)
      | none => parseErrorIn "while parsing a node" p.start "found undefined tag handle" p.tagMark
  if indentless && t.kind == .blockEntry then
    goTo .indentlessSequenceEntry
    return ⟨.sequenceStart p.anchor tag, p.start, t.stop⟩
  match t.kind with
  | .scalar text style =>
    popState
    skipTok
    return ⟨.scalar p.anchor tag text style, p.start, t.stop⟩
  | .flowSequenceStart =>
    goTo .flowSequenceFirstEntry
    return ⟨.sequenceStart p.anchor tag, p.start, t.stop⟩
  | .flowMappingStart =>
    goTo .flowMappingFirstKey
    return ⟨.mappingStart p.anchor tag, p.start, t.stop⟩
  | .blockSequenceStart =>
    if block then
      goTo .blockSequenceFirstEntry
      return ⟨.sequenceStart p.anchor tag, p.start, t.stop⟩
  | .blockMappingStart =>
    if block then
      goTo .blockMappingFirstKey
      return ⟨.mappingStart p.anchor tag, p.start, t.stop⟩
  | _ => pure ()
  if !p.anchor.isEmpty || !tag.isEmpty then
    popState
    return ⟨.scalar p.anchor tag "" .plain, p.start, p.stop⟩
  parseErrorIn (if block then "while parsing a block node" else "while parsing a flow node") p.start
    "did not find expected node content" t.start

def openCollection : ParseM Unit := do
  let t ← peekTok
  pushMark t.start
  skipTok

/-- An entry of a block sequence, or its end. -/
def parseBlockSequenceEntry (first : Bool) : ParseM Event := do
  if first then openCollection
  let t ← peekTok
  match t.kind with
  | .blockEntry =>
    skipTok
    let t2 ← peekTok
    if t2.kind != .blockEntry && t2.kind != .blockEnd then
      pushState .blockSequenceEntry
      parseNode true false
    else
      goTo .blockSequenceEntry
      return emptyScalar t.stop
  | .blockEnd =>
    popState
    let _ ← popMark
    skipTok
    return ⟨.sequenceEnd, t.start, t.stop⟩
  | _ =>
    let m ← popMark
    parseErrorIn "while parsing a block collection" m "did not find expected '-' indicator" t.start

/-- An entry of a sequence written without indentation under a mapping key, or its end. -/
def parseIndentlessSequenceEntry : ParseM Event := do
  let t ← peekTok
  if t.kind == .blockEntry then
    skipTok
    let t2 ← peekTok
    if t2.kind != .blockEntry && t2.kind != .key && t2.kind != .value && t2.kind != .blockEnd then
      pushState .indentlessSequenceEntry
      parseNode true false
    else
      goTo .indentlessSequenceEntry
      return emptyScalar t.stop
  else
    popState
    return ⟨.sequenceEnd, t.start, t.start⟩

/-- A key of a block mapping, or its end. -/
def parseBlockMappingKey (first : Bool) : ParseM Event := do
  if first then openCollection
  let t ← peekTok
  match t.kind with
  | .key =>
    skipTok
    let t2 ← peekTok
    if t2.kind != .key && t2.kind != .value && t2.kind != .blockEnd then
      pushState .blockMappingValue
      parseNode true true
    else
      goTo .blockMappingValue
      return emptyScalar t.stop
  | .blockEnd =>
    popState
    let _ ← popMark
    skipTok
    return ⟨.mappingEnd, t.start, t.stop⟩
  | _ =>
    let m ← popMark
    parseErrorIn "while parsing a block mapping" m "did not find expected key" t.start

/-- A value of a block mapping, which may be left out. -/
def parseBlockMappingValue : ParseM Event := do
  let t ← peekTok
  if t.kind == .value then
    skipTok
    let t2 ← peekTok
    if t2.kind != .key && t2.kind != .value && t2.kind != .blockEnd then
      pushState .blockMappingKey
      parseNode true true
    else
      goTo .blockMappingKey
      return emptyScalar t.stop
  else
    goTo .blockMappingKey
    return emptyScalar t.start

/-- An entry of a flow sequence, or its end; entries are separated by commas, and a `?` or a
simple key starts a single-pair mapping. -/
def parseFlowSequenceEntry (first : Bool) : ParseM Event := do
  if first then openCollection
  let t ← peekTok
  let t ← if t.kind != .flowSequenceEnd && !first then
      if t.kind == .flowEntry then do
        skipTok
        peekTok
      else
        let m ← popMark
        parseErrorIn "while parsing a flow sequence" m "did not find expected ',' or ']'" t.start
    else pure t
  if t.kind == .key then
    goTo .flowSequenceEntryMappingKey
    skipTok
    return ⟨.mappingStart "" "", t.start, t.stop⟩
  if t.kind != .flowSequenceEnd then
    pushState .flowSequenceEntry
    return ← parseNode false false
  popState
  let _ ← popMark
  skipTok
  return ⟨.sequenceEnd, t.start, t.stop⟩

def parseFlowSequenceEntryMappingKey : ParseM Event := do
  let t ← peekTok
  if t.kind != .value && t.kind != .flowEntry && t.kind != .flowSequenceEnd then
    pushState .flowSequenceEntryMappingValue
    parseNode false false
  else
    skipTok
    goTo .flowSequenceEntryMappingValue
    return emptyScalar t.stop

/-- The value of a single-pair mapping in a flow sequence. -/
def parseFlowSequenceEntryMappingValue : ParseM Event := do
  let t ← peekTok
  if t.kind == .value then
    skipTok
    let t2 ← peekTok
    if t2.kind != .flowEntry && t2.kind != .flowSequenceEnd then
      pushState .flowSequenceEntryMappingEnd
      return ← parseNode false false
  goTo .flowSequenceEntryMappingEnd
  return emptyScalar t.start

def parseFlowSequenceEntryMappingEnd : ParseM Event := do
  let t ← peekTok
  goTo .flowSequenceEntry
  return ⟨.mappingEnd, t.start, t.start⟩

/-- A key of a flow mapping, or its end. -/
def parseFlowMappingKey (first : Bool) : ParseM Event := do
  if first then openCollection
  let t ← peekTok
  let t ← if t.kind != .flowMappingEnd && !first then
      if t.kind == .flowEntry then do
        skipTok
        peekTok
      else
        let m ← popMark
        parseErrorIn "while parsing a flow mapping" m "did not find expected ',' or '\x7d'" t.start
    else pure t
  if t.kind == .key then
    skipTok
    let t2 ← peekTok
    if t2.kind != .value && t2.kind != .flowEntry && t2.kind != .flowMappingEnd then
      pushState .flowMappingValue
      return ← parseNode false false
    else
      goTo .flowMappingValue
      return emptyScalar t2.start
  if t.kind != .flowMappingEnd then
    pushState .flowMappingEmptyValue
    return ← parseNode false false
  popState
  let _ ← popMark
  skipTok
  return ⟨.mappingEnd, t.start, t.stop⟩

/-- A value of a flow mapping, which may be left out. -/
def parseFlowMappingValue (empty : Bool) : ParseM Event := do
  let t ← peekTok
  if empty then
    goTo .flowMappingKey
    return emptyScalar t.start
  let t ← if t.kind == .value then do
      skipTok
      let t2 ← peekTok
      if t2.kind != .flowEntry && t2.kind != .flowMappingEnd then
        pushState .flowMappingKey
        return ← parseNode false false
      pure t2
    else pure t
  goTo .flowMappingKey
  return emptyScalar t.start

/-- The next event; none after the end of the stream. -/
def nextEvent : ParseM (Option Event) := do
  let r ← get
  if r.scanner.ended || r.state == .finished then return none
  some <$> match r.state with
    | .streamStart => parseStreamStart
    | .implicitDocumentStart => parseDocumentStart true
    | .documentStart => parseDocumentStart false
    | .documentContent => parseDocumentContent (parseNode true false)
    | .documentEnd => parseDocumentEnd
    | .blockNode => parseNode true false
    | .blockNodeOrIndentlessSequence => parseNode true true
    | .flowNode => parseNode false false
    | .blockSequenceFirstEntry => parseBlockSequenceEntry true
    | .blockSequenceEntry => parseBlockSequenceEntry false
    | .indentlessSequenceEntry => parseIndentlessSequenceEntry
    | .blockMappingFirstKey => parseBlockMappingKey true
    | .blockMappingKey => parseBlockMappingKey false
    | .blockMappingValue => parseBlockMappingValue
    | .flowSequenceFirstEntry => parseFlowSequenceEntry true
    | .flowSequenceEntry => parseFlowSequenceEntry false
    | .flowSequenceEntryMappingKey => parseFlowSequenceEntryMappingKey
    | .flowSequenceEntryMappingValue => parseFlowSequenceEntryMappingValue
    | .flowSequenceEntryMappingEnd => parseFlowSequenceEntryMappingEnd
    | .flowMappingFirstKey => parseFlowMappingKey true
    | .flowMappingKey => parseFlowMappingKey false
    | .flowMappingValue => parseFlowMappingValue false
    | .flowMappingEmptyValue => parseFlowMappingValue true
    | .finished => parseStreamStart

def EventReader.start (text : String) : EventReader :=
  ⟨Scanner.start text, .streamStart, [], [], []⟩

end Outliner.Yaml
