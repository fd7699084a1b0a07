/-!
# A key-value server

The key-value server login sessions are kept in: each key holds a text or a set of texts, and may
have a time to live in seconds. Time only moves when it is advanced; a key whose time runs out is
gone. A command on a key of the other kind fails with `WRONGTYPE`; a set that loses its last member
is gone.
-/

set_option autoImplicit false

namespace Outliner.KeyValue

/-- What a key holds. -/
inductive Entry where
  | text (v : String)
  /-- Set members, ascending, each once. -/
  | members (ms : List String)
  deriving Repr, BEq, Inhabited

/-- A key's value and its time to live in seconds, if any. -/
structure Slot where
  entry : Entry
  ttl : Option Nat
  deriving Repr, BEq, Inhabited

/-- The server: keys with their slots, and the text every command fails with (`""`: none). -/
structure Server where
  slots : List (String × Slot)
  outage : String
  deriving Repr, Inhabited

/-- Commands fail with a text and keep what they changed before failing. -/
abbrev ServerM := ExceptT String (StateM Server)

def wrongType : String := "WRONGTYPE Operation against a key holding the wrong kind of value"

def insertSorted (x : String) : List String → List String
  | [] => [x]
  | y :: ys => if x = y then y :: ys else if x < y then x :: y :: ys else y :: insertSorted x ys

namespace Server

def empty : Server := ⟨[], ""⟩

def slot? (s : Server) (k : String) : Option Slot := (s.slots.find? (·.1 == k)).map (·.2)

def put (s : Server) (k : String) (v : Slot) : Server :=
  if s.slots.any (·.1 == k) then { s with slots := s.slots.map fun e => if e.1 == k then (k, v) else e }
  else { s with slots := s.slots ++ [(k, v)] }

def remove (s : Server) (k : String) : Server := { s with slots := s.slots.filter (·.1 != k) }

def advance (s : Server) (n : Nat) : Server :=
  { s with slots := s.slots.filterMap fun (k, v) =>
      match v.ttl with
      | some t => if t ≤ n then none else some (k, { v with ttl := some (t - n) })
      | none => some (k, v) }

def write (s : Server) (k v : String) : Except String Server :=
  match s.slot? k with
  | some ⟨.members _, _⟩ => .error wrongType
  | _ => .ok (s.put k ⟨.text v, none⟩)

def addMember (s : Server) (k m : String) : Except String Server :=
  match s.slot? k with
  | none => .ok (s.put k ⟨.members [m], none⟩)
  | some ⟨.members ms, ttl⟩ => .ok (s.put k ⟨.members (insertSorted m ms), ttl⟩)
  | some _ => .error wrongType

def sortedSlots (s : Server) : List (String × Slot) := s.slots.mergeSort (fun a b => a.1 ≤ b.1)

end Server

def available : ServerM Unit := do
  let s ← get
  if s.outage != "" then throw s.outage

def getText (k : String) : ServerM (Option String) := do
  available
  match (← get).slot? k with
  | none => pure none
  | some ⟨.text v, _⟩ => pure (some v)
  | some _ => throw wrongType

def setText (k v : String) (ttl : Option Nat) : ServerM Unit := do
  available
  modify fun s => s.put k ⟨.text v, ttl⟩

def addMembers (k : String) (ms : List String) : ServerM Unit := do
  available
  let s ← get
  match s.slot? k with
  | none => set (s.put k ⟨.members (ms.foldl (fun acc m => insertSorted m acc) []), none⟩)
  | some ⟨.members old, ttl⟩ => set (s.put k ⟨.members (ms.foldl (fun acc m => insertSorted m acc) old), ttl⟩)
  | some _ => throw wrongType

def removeMembers (k : String) (ms : List String) : ServerM Unit := do
  available
  let s ← get
  match s.slot? k with
  | none => pure ()
  | some ⟨.members old, ttl⟩ =>
    let rest := old.filter (fun m => !ms.contains m)
    set (if rest.isEmpty then s.remove k else s.put k ⟨.members rest, ttl⟩)
  | some _ => throw wrongType

def members (k : String) : ServerM (List String) := do
  available
  match (← get).slot? k with
  | none => pure []
  | some ⟨.members ms, _⟩ => pure ms
  | some _ => throw wrongType

def expire (k : String) (ttl : Nat) : ServerM Unit := do
  available
  let s ← get
  match s.slot? k with
  | some v => set (s.put k { v with ttl := some ttl })
  | none => pure ()

def delete (k : String) : ServerM Unit := do
  available
  modify (·.remove k)

def exists? (k : String) : ServerM Bool := do
  available
  pure ((← get).slot? k).isSome

def ping : ServerM Unit := available

def batch : List (ServerM Unit) → ServerM Unit
  | [] => pure ()
  | c :: cs => do
    match ← tryCatch (do c; pure none) (fun e => pure (some e)) with
    | none => batch cs
    | some e =>
      let _ ← tryCatch (batch cs) (fun _ => pure ())
      throw e

end Outliner.KeyValue
