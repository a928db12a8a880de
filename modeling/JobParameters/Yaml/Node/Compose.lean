/-
# From tokens to nodes

Reads the tokens of a stream as one document. Where a node may be left out, an
empty one takes its place. Tags are spelled out, by the abbreviations that the
directives before the document give. Anchors are numbered by how many names
there are before, so that a name given again takes a number without making the
next one larger.

Key definitions: `Yaml.Compose`, `Yaml.Compose.node`, `Yaml.Compose.document`,
`Yaml.document?`.
-/
import JobParameters.OrderedMap
import JobParameters.Yaml.Node
import JobParameters.Yaml.Token.Scan

namespace JobParameters.Yaml

/-- The tokens that are left, and what the names and abbreviations mean. -/
structure Composing where
  tokens : List Token
  anchors : OrderedMap Nat
  handles : List (List Char × List Letter)

/-- Reads tokens; there is no result if they do not fit. -/
abbrev Compose := StateT Composing Option

namespace Compose

/-- The next token, which is left in its place. -/
def peek : Compose (Option Token) := do return (← get).tokens.head?

/-- Takes the next token. -/
def skip : Compose Unit := modify fun s => { s with tokens := s.tokens.tail }

/-- Takes the next token if it is the given one. -/
def take? (t : Token) : Compose Bool := do
  if (← peek) = some t then
    skip
    return true
  else return false

/-- What the tokens so far cannot be continued with. -/
def refuse {α : Type} : Compose α := StateT.lift none

/-- The anchor before a node, if there is one. -/
def anchor? : Compose (Option (List Char)) := do
  match ← peek with
  | some (.anchor name) =>
    skip
    return some name
  | _ => return none

/-- The tag before a node, if there is one. -/
def tag? : Compose (Option (List Char × List Letter)) := do
  match ← peek with
  | some (.tag handle suffix) =>
    skip
    return some (handle, suffix)
  | _ => return none

/-- The anchor and the tag before a node, in either order. -/
def properties : Compose (Option (List Char) × Option (List Char × List Letter)) := do
  match ← anchor? with
  | some a => return (some a, ← tag?)
  | none =>
    let t ← tag?
    return (← anchor?, t)

/-- A tag spelled out. -/
def expand (t : List Char × List Letter) : Compose Tag := do
  let full ←
    if t.1.isEmpty then pure t.2
    else match (← get).handles.lookup t.1 with
      | some expansion => pure (expansion ++ t.2)
      | none => refuse
  return Tag.ofLetters full

/-- Gives a name the next number. -/
def number (name : List Char) : Compose Nat := do
  let k := (← get).anchors.size
  modify fun s => { s with anchors := s.anchors.insert (String.ofList name) k }
  return k

/-- A node, unless one of some tokens comes instead. -/
def orEmpty (instead : List Token) (m : Compose Node) : Compose Node := do
  match ← peek with
  | some t => if t ∈ instead then return .empty else m
  | none => m

mutual

/-- A node; a block collection or one without indentation of its own only where it may be. -/
def node : Nat → Bool → Bool → Compose Node
  | 0, _, _ => refuse
  | fuel + 1, block, indentless => do
    match ← peek with
    | some (.aliasTo name) =>
      skip
      match (← get).anchors.find? (String.ofList name) with
      | some k => return .aliasTo k
      | none => refuse
    | _ =>
      let (name, shorthand) ← properties
      let tag ← shorthand.mapM expand
      let number ← name.mapM number
      let n ← content fuel block indentless tag (name.isSome || shorthand.isSome)
      return match number with
        | some k => .anchored k n
        | none => n

/-- A node after its properties; if it has any, it may be empty. -/
def content : Nat → Bool → Bool → Option Tag → Bool → Compose Node
  | 0, _, _, _, _ => refuse
  | fuel + 1, block, indentless, tag, mayBeEmpty => do
    match ← peek with
    | some (.scalar plain text) =>
      skip
      return .scalar tag plain (String.ofList text)
    | some .flowSequence =>
      skip
      return .sequence tag (← flowItems fuel true)
    | some .flowMapping =>
      skip
      return .mapping tag (← flowEntries fuel true)
    | t =>
      if indentless ∧ t = some .blockEntry then return .sequence tag (← indentlessItems fuel)
      else if block ∧ t = some .blockSequence then
        skip
        return .sequence tag (← blockItems fuel)
      else if block ∧ t = some .blockMapping then
        skip
        return .mapping tag (← blockEntries fuel)
      else if mayBeEmpty then return .scalar tag true ""
      else refuse

/-- The items of a block sequence up to its end. -/
def blockItems : Nat → Compose (List Node)
  | 0 => refuse
  | fuel + 1 => do
    if ← take? .blockEntry then
      let n ← orEmpty [.blockEntry, .blockEnd] (node fuel true false)
      return n :: (← blockItems fuel)
    else if ← take? .blockEnd then return []
    else refuse

/-- The items of a sequence that is indented no further than what it belongs to. -/
def indentlessItems : Nat → Compose (List Node)
  | 0 => refuse
  | fuel + 1 => do
    if ← take? .blockEntry then
      let n ← orEmpty [.blockEntry, .key, .value, .blockEnd] (node fuel true false)
      return n :: (← indentlessItems fuel)
    else return []

/-- The entries of a block mapping up to its end. -/
def blockEntries : Nat → Compose (List (Node × Node))
  | 0 => refuse
  | fuel + 1 => do
    if ← take? .key then
      let k ← orEmpty [.key, .value, .blockEnd] (node fuel true true)
      let v ← if ← take? .value then
          orEmpty [.key, .value, .blockEnd] (node fuel true true)
        else pure .empty
      return (k, v) :: (← blockEntries fuel)
    else if ← take? .blockEnd then return []
    else refuse

/-- The items of a sequence in brackets up to the closing one. A key among them makes a
mapping of one entry; where nothing comes after its mark, a token is lost. -/
def flowItems : Nat → Bool → Compose (List Node)
  | 0, _ => refuse
  | fuel + 1, first => do
    if ← take? .flowSequenceEnd then return []
    else
      let separated ← if first then pure true else take? .flowEntry
      if !separated then refuse
      else if ← take? .key then
        let t ← peek
        let k ← if t = some .value ∨ t = some .flowEntry ∨ t = some .flowSequenceEnd then do
            skip
            pure Node.empty
          else node fuel false false
        let v ← if ← take? .value then
            orEmpty [.flowEntry, .flowSequenceEnd] (node fuel false false)
          else pure .empty
        return .mapping none [(k, v)] :: (← flowItems fuel false)
      else if ← take? .flowSequenceEnd then return []
      else
        let n ← node fuel false false
        return n :: (← flowItems fuel false)

/-- The entries of a mapping in brackets up to the closing one. -/
def flowEntries : Nat → Bool → Compose (List (Node × Node))
  | 0, _ => refuse
  | fuel + 1, first => do
    if ← take? .flowMappingEnd then return []
    else
      let separated ← if first then pure true else take? .flowEntry
      if !separated then refuse
      else if ← take? .key then
        let k ← orEmpty [.value, .flowEntry, .flowMappingEnd] (node fuel false false)
        let v ← if ← take? .value then
            orEmpty [.flowEntry, .flowMappingEnd] (node fuel false false)
          else pure .empty
        return (k, v) :: (← flowEntries fuel false)
      else if ← take? .flowMappingEnd then return []
      else
        let k ← node fuel false false
        return (k, .empty) :: (← flowEntries fuel false)

end

/-- The abbreviations that every document has. -/
def standardHandles : List (List Char × List Letter) :=
  [(['!'], [some '!']), (['!', '!'], "tag:yaml.org,2002:".toList.map some)]

/-- The directives before a document: whether there are any. A version is given once and
is one that is known, an abbreviation is given once. -/
def directives : Nat → Bool → Compose Bool
  | 0, versioned => return versioned
  | fuel + 1, versioned => do
    match ← peek with
    | some (.version major minor) =>
      if versioned || major != 1 || (minor != 1 && minor != 2) then refuse
      else
        skip
        let _ ← directives fuel true
        return true
    | some (.tagHandle handle expansion) =>
      if ((← get).handles.lookup handle).isSome then refuse
      else
        skip
        modify fun s => { s with handles := s.handles ++ [(handle, expansion)] }
        let _ ← directives fuel versioned
        return true
    | _ => return false

/-- Drops marks of the end of a document. -/
def dropEnds : Compose Unit :=
  modify fun s => { s with tokens := s.tokens.dropWhile (· == .documentEnd) }

/-- Whether no node comes after the mark of a document's start. -/
def isContentless : Option Token → Bool
  | none => true
  | some .documentStart => true
  | some .documentEnd => true
  | some (.version ..) => true
  | some (.tagHandle ..) => true
  | _ => false

/-- The only document of a stream, if the stream has anything. -/
def document (fuel : Nat) : Compose (Option Node) := do
  if (← peek).isNone then return none
  else
    let directed ← directives fuel false
    modify fun s => { s with handles := s.handles ++ standardHandles }
    let n ←
      if ← take? .documentStart then
        if isContentless (← peek) then pure Node.empty else node fuel true false
      else if directed then refuse
      else node fuel true false
    dropEnds
    if (← peek).isNone then return some n else refuse

end Compose

/-- The document of a text: nothing if the text has no tokens at all. -/
def document? (text : String) : Option (Option Node) := do
  let ts ← tokens? text
  let (n, _) ← (Compose.document (4 * ts.length + 4)).run ⟨ts, OrderedMap.empty, []⟩
  some n

end JobParameters.Yaml
