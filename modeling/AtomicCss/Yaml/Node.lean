import AtomicCss.Dict
import AtomicCss.Yaml.Token

/-!
# YAML nodes

The tokens of a stream form a tree of nodes. A node may have an explicit tag, and an anchor under
which it is used again. An anchored node is kept apart under the name of its anchor and stands
everywhere, also in its own place, as that name; so a node may hold itself. An anchor is used only
once, and its name only after that.
-/
namespace AtomicCss.Yaml

inductive Node
  | scalar (tag : Option String) (text : String) (plain : Bool)
  | sequence (tag : Option String) (items : List Node)
  | mapping (tag : Option String) (members : List (Node × Node))
  /-- A node that is kept under a name. -/
  | named (name : String)

/-- The anchored nodes by name. -/
abbrev Anchors := Dict Node

namespace Node

/-- A node that is not written. -/
def absent : Node := .scalar none "" true

/-- The node that a name stands for. -/
def resolved (a : Anchors) : Node → Node
  | .named name => a.getD name absent
  | n => n

def standardTag : String := "tag:yaml.org,2002:"

/-- The handles with a meaning of their own. -/
def standardHandles : Dict String := [("!", "!"), ("!!", standardTag)]

/-- What is left of the tokens, the anchored nodes so far, and the names and handles in use. -/
structure Pending where
  tokens : List Token
  anchors : Anchors := []
  names : List String := []
  handles : Dict String := standardHandles

/-- A step of building nodes, which may fail. -/
abbrev Builder := StateT Pending (Except ReadError)

def refuse {α : Type} : Builder α := throw .malformed

/-- The next token. What cannot be read fails when it is looked at. -/
def peek : Builder (Option Token) := do
  match (← get).tokens.head? with
  | some (.unreadable e) => throw (.fault e)
  | t => pure t

def advance : Builder Unit := modify fun p => { p with tokens := p.tokens.tail }

/-- Takes a token if it is the next. -/
def accept (t : Token) : Builder Bool := do
  if (← peek) = some t then
    advance
    pure true
  else pure false

def expect (t : Token) : Builder Unit := do
  if !(← accept t) then refuse

def nextIsOneOf (ts : List Token) : Builder Bool := do
  pure ((← peek).any ts.contains)

/-- A tag in full. Its handle must have a meaning. -/
def tagOf (handle : Option String) (name : String) : Builder String := do
  match handle with
  | none => pure name
  | some handle =>
    match (← get).handles.get? handle with
    | some start => pure (start ++ name)
    | none => refuse

/-- The anchor and the tag of a node, in either order. -/
def properties : Builder (Option String × Option String) := do
  let anchor : Builder (Option String) := do
    match ← peek with
    | some (.anchor name) => do
      advance
      pure (some name)
    | _ => pure none
  let tag : Builder (Option (Option String × String)) := do
    match ← peek with
    | some (.tag handle name) => do
      advance
      pure (some (handle, name))
    | _ => pure none
  let full (t : Option (Option String × String)) : Builder (Option String) :=
    t.mapM fun (handle, name) => tagOf handle name
  match ← anchor with
  | some a =>
    let t ← tag
    pure (some a, ← full t)
  | none =>
    match ← tag with
    | some t =>
      let a ← anchor
      pure (a, ← full (some t))
    | none => pure (none, none)

/-- Notes the name of an anchor, which must be new. -/
def introduce : Option String → Builder Unit
  | none => pure ()
  | some name => do
    if (← get).names.contains name then refuse
    modify fun p => { p with names := name :: p.names }

/-- Keeps a node under its anchor, and gives what stands in its place. -/
def record (anchor : Option String) (n : Node) : Builder Node := do
  match anchor with
  | some name =>
    modify fun p => { p with anchors := p.anchors.set name n }
    pure (.named name)
  | none => pure n

/-- Where a node stands: whether block collections may begin there, and whether the entries of a
sequence may follow without deeper indentation. -/
structure Setting where
  block : Bool
  bareEntries : Bool := false

mutual

def build : (fuel : Nat) → Setting → Builder Node
  | 0, _ => refuse
  | fuel + 1, setting => do
    match ← peek with
    | some (.reference name) =>
      advance
      if !(← get).names.contains name then refuse
      pure (.named name)
    | _ =>
      let (anchor, tag) ← properties
      introduce anchor
      record anchor (← content fuel setting tag (anchor.isSome || tag.isSome))

/-- What a node has after its properties. Properties may stand alone. -/
def content : (fuel : Nat) → Setting → Option String → (described : Bool) → Builder Node
  | 0, _, _, _ => refuse
  | fuel + 1, setting, tag, described => do
    match ← peek with
    | some .blockEntry =>
      if setting.bareEntries then pure (.sequence tag (← bareItems fuel)) else empty tag described
    | some (.scalar text plain) =>
      advance
      pure (.scalar tag text plain)
    | some .flowSequenceStart =>
      advance
      pure (.sequence tag (← flowItems fuel true))
    | some .flowMappingStart =>
      advance
      pure (.mapping tag (← flowMembers fuel true))
    | some .blockSequenceStart =>
      if !setting.block then empty tag described
      else
        advance
        pure (.sequence tag (← blockItems fuel))
    | some .blockMappingStart =>
      if !setting.block then empty tag described
      else
        advance
        pure (.mapping tag (← blockMembers fuel))
    | _ => empty tag described
where
  /-- A node of which only the properties are written. -/
  empty (tag : Option String) (described : Bool) : Builder Node :=
    if described then pure (.scalar tag "" (tag.isNone || tag = some "!")) else refuse

/-- A node, unless one of the given tokens shows that it is not written. -/
def buildOr : (fuel : Nat) → List Token → Setting → Builder Node
  | 0, _, _ => refuse
  | fuel + 1, stops, setting => do
    if ← nextIsOneOf stops then pure absent else build fuel setting

/-- The entries of a block sequence. -/
def blockItems : (fuel : Nat) → Builder (List Node)
  | 0 => refuse
  | fuel + 1 => do
    if ← accept .blockEntry then
      let item ← buildOr fuel [.blockEntry, .blockEnd] ⟨true, false⟩
      pure (item :: (← blockItems fuel))
    else
      expect .blockEnd
      pure []

/-- The entries of a sequence that stands at the column of the mapping around it. -/
def bareItems : (fuel : Nat) → Builder (List Node)
  | 0 => refuse
  | fuel + 1 => do
    if ← accept .blockEntry then
      let item ← buildOr fuel [.blockEntry, .key, .value, .blockEnd] ⟨true, false⟩
      pure (item :: (← bareItems fuel))
    else pure []

/-- The members of a block mapping. What is not written of a member is absent. -/
def blockMembers : (fuel : Nat) → Builder (List (Node × Node))
  | 0 => refuse
  | fuel + 1 => do
    let stops : List Token := [.key, .value, .blockEnd]
    if ← accept .key then
      let key ← buildOr fuel stops ⟨true, true⟩
      let value ← if ← accept .value then buildOr fuel stops ⟨true, true⟩ else pure absent
      pure ((key, value) :: (← blockMembers fuel))
    else
      expect .blockEnd
      pure []

/-- The items of a flow sequence. A key mark opens a mapping of one member. -/
def flowItems : (fuel : Nat) → (first : Bool) → Builder (List Node)
  | 0, _ => refuse
  | fuel + 1, first => do
    if ← accept .flowSequenceEnd then pure []
    else
      if !first then expect .flowEntry
      if ← accept .flowSequenceEnd then pure []
      else
        let item ←
          if ← accept .key then do
            let key ← buildOr fuel [.value, .flowEntry, .flowSequenceEnd] ⟨false, false⟩
            let value ←
              if ← accept .value then buildOr fuel [.flowEntry, .flowSequenceEnd] ⟨false, false⟩
              else pure absent
            pure (.mapping none [(key, value)])
          else build fuel ⟨false, false⟩
        pure (item :: (← flowItems fuel false))

/-- The members of a flow mapping. A key may stand alone. -/
def flowMembers : (fuel : Nat) → (first : Bool) → Builder (List (Node × Node))
  | 0, _ => refuse
  | fuel + 1, first => do
    if ← accept .flowMappingEnd then pure []
    else
      if !first then expect .flowEntry
      if ← accept .flowMappingEnd then pure []
      else
        let stops : List Token := [.flowEntry, .flowMappingEnd]
        let member ←
          if ← accept .key then do
            let key ← buildOr fuel (.value :: stops) ⟨false, false⟩
            let value ← if ← accept .value then buildOr fuel stops ⟨false, false⟩ else pure absent
            pure (key, value)
          else do pure (← build fuel ⟨false, false⟩, absent)
        pure (member :: (← flowMembers fuel false))

end

/-- Reads the directives before a document: one version at most, and each handle once. -/
def directives : (fuel : Nat) → (version : Bool) → (own : Dict String) → Builder Unit
  | 0, _, _ => refuse
  | fuel + 1, version, own => do
    match ← peek with
    | some (.version major) =>
      if version || major ≠ 1 then refuse
      advance
      directives fuel true own
    | some (.handle name start) =>
      if own.has name then refuse
      advance
      directives fuel version (own.set name start)
    | some .directive =>
      advance
      directives fuel version own
    | _ => modify fun p => { p with handles := standardHandles.merge own }

/-- Whether the next token is part of the beginning of a document. -/
def opensDocument : Builder Bool := do
  match ← peek with
  | some (.version _) | some (.handle ..) | some .directive | some .documentStart => pure true
  | _ => pure false

def document : (fuel : Nat) → Builder Node
  | fuel => do
    let marked ← opensDocument
    if marked then
      directives fuel false []
      expect .documentStart
    let bare := (← opensDocument) || (← nextIsOneOf [.documentEnd]) || (← peek).isNone
    let n ← if marked && bare then pure absent else build fuel ⟨true, false⟩
    modify fun p => { p with tokens := p.tokens.dropWhile (· = .documentEnd) }
    if (← peek).isSome then refuse
    pure n

end Node

/-- A document as nodes. -/
structure Tree where
  root : Node
  anchors : Anchors

/-- The document of a stream's tokens; a stream without tokens has none. -/
def Tree.ofTokens (tokens : List Token) : Except ReadError Tree := do
  if tokens.isEmpty then return ⟨.absent, []⟩
  let (root, p) ← (Node.document (8 * tokens.length + 8)).run { tokens }
  pure ⟨root, p.anchors⟩

end AtomicCss.Yaml
