import AtomicCss.Document.Slots
import AtomicCss.Yaml.Node
import AtomicCss.Yaml.Scalar

/-!
# Reading YAML

The nodes of a stream become a document. A merge key puts the members of other mappings before the
mapping's own; of members with equal keys the first gives the place and the last the value. Nodes
are begun one level after the other: scalars are read when they are begun, while what a collection
holds waits for its turn. What is wrong with a document is what is met first on that way.
-/
namespace AtomicCss.Yaml

/-- What a node is made into. -/
inductive Making
  | scalar (f : Form)
  | list
  | map
  | set
  /-- A list of pairs. -/
  | pairs
  deriving DecidableEq

namespace Making

/-- What the standard tags ask for. -/
def tagged : Dict Making :=
  [("bool", .scalar .bool), ("float", .scalar .float), ("int", .scalar .int),
    ("null", .scalar .null), ("timestamp", .scalar .timestamp), ("str", .scalar .text),
    ("binary", .scalar .binary), ("merge", .scalar .merge), ("value", .scalar .value),
    ("seq", .list), ("map", .map), ("set", .set), ("omap", .pairs), ("pairs", .pairs)]

def ofTag? (tag : String) : Option Making :=
  tagged.findSome? fun (name, m) => if Node.standardTag ++ name = tag then some m else none

/-- What a node is made into: what its tag asks for, or else what it is. A scalar without a tag has
the form of its text if it is plain, and so has one with the mark of a tag alone. -/
def ofNode? : Node → Option Making
  | .scalar none text plain => some (.scalar (if plain then Form.ofText text else .text))
  | .scalar (some "!") text _ => some (.scalar (Form.ofQuoted text))
  | .sequence none _ | .sequence (some "!") _ => some .list
  | .mapping none _ | .mapping (some "!") _ => some .map
  | .scalar (some tag) _ _ | .sequence (some tag) _ | .mapping (some tag) _ => ofTag? tag
  | .named _ => none

end Making

variable (a : Anchors)

def asksFor (f : Form) (key : Node) : Bool := Making.ofNode? (key.resolved a) = some (.scalar f)

/-- The text of a scalar. A mapping has the text of the member under a lone equals sign. -/
def textOf : (fuel : Nat) → Node → Except ReadError String
  | 0, _ => .error (.fault .endless)
  | fuel + 1, n =>
    match n.resolved a with
    | .scalar _ text _ => .ok text
    | .mapping _ members =>
      match members.find? fun (k, _) => asksFor a .value k with
      | some (_, n) => textOf fuel n
      | none => .error .malformed
    | _ => .error .malformed

/-- How far a text is looked for. -/
def textDepth : Nat := 900

/-- A node as a scalar of a form. What should be a date must be a scalar itself. -/
def scalarOf (f : Form) (n : Node) : Except ReadError Scalar := do
  let text ← textOf a textDepth n
  match n.resolved a, f with
  | .mapping .., .timestamp => throw (.fault .noScalar)
  | _, _ => f.read text

/-- The members of a mapping without its merges. -/
def ownMembers (members : List (Node × Node)) : List (Node × Node) :=
  members.filter fun (k, _) => !asksFor a .merge k

mutual

/-- The members of a mapping, those it merges in first. A mapping that is being merged brings only
its own. -/
def flatten : (fuel : Nat) → (within : List String) → List (Node × Node) →
    Except ReadError (List (Node × Node))
  | 0, _, _ => .ok []
  | fuel + 1, within, members => do
    let merged ← (members.filter fun (k, _) => asksFor a .merge k).mapM fun (_, n) =>
      merged fuel within n
    pure (merged.flatten ++ ownMembers a members)

/-- The members that a merged node brings: those of a mapping, or those of a list of mappings with
the later ones first. -/
def merged : (fuel : Nat) → (within : List String) → Node → Except ReadError (List (Node × Node))
  | 0, _, _ => .ok []
  | fuel + 1, within, n =>
    match n.resolved a with
    | .mapping .. => mergedMapping fuel within n
    | .sequence _ items => do
      let brought ← items.mapM (mergedMapping fuel within)
      pure brought.reverse.flatten
    | _ => .error .malformed

def mergedMapping : (fuel : Nat) → (within : List String) → Node →
    Except ReadError (List (Node × Node))
  | 0, _, _ => .ok []
  | fuel + 1, within, n =>
    match n.resolved a, n with
    | .mapping _ members, .named name =>
      if within.contains name then .ok (ownMembers a members)
      else flatten fuel (name :: within) members
    | .mapping _ members, _ => flatten fuel within members
    | _, _ => .error .malformed

end

/-- A node that a collection holds, and whether it is a key. -/
structure Part where
  node : Node
  isKey : Bool

/-- A lone equals sign is text as a key. -/
def keyNode (n : Node) : Node :=
  match n.resolved a with
  | .scalar _ text _ =>
    if asksFor a .value n then .scalar (some (Node.standardTag ++ "str")) text false else n
  | _ => n

/-- The members of a mapping with its merges made. -/
def membersOf (depth : Nat) (n : Node) : Except ReadError (List (Node × Node)) :=
  match n, n.resolved a with
  | .named name, .mapping _ members => flatten a depth [name] members
  | _, .mapping _ members => flatten a depth [] members
  | _, _ => .error .malformed

/-- The one member of a mapping that is a pair. -/
def pairOf (n : Node) : Except ReadError (Node × Node) :=
  match n.resolved a with
  | .mapping _ [pair] => .ok pair
  | _ => .error .malformed

/-- The nodes that a collection holds, in the order in which they are begun, as far as they are
there, and what is then wrong with the collection. -/
def parts (depth : Nat) (n : Node) : List Part × Option ReadError :=
  match Making.ofNode? (n.resolved a), n.resolved a with
  | some .list, .sequence _ items => (items.map (⟨·, false⟩), none)
  | some .pairs, .sequence _ items =>
    let pairs := items.map (pairOf a)
    let found := (pairs.takeWhile Except.toBool).filterMap Except.toOption
    (found.flatMap fun (k, v) => [⟨k, false⟩, ⟨v, false⟩],
      if found.length = pairs.length then none else some .malformed)
  | some .map, _ | some .set, _ =>
    match membersOf a depth n with
    | .ok members => (members.flatMap fun (k, v) => [⟨keyNode a k, true⟩, ⟨v, false⟩], none)
    | .error e => ([], some e)
  | _, _ => ([], some .malformed)

/-- The nodes that wait for their turn, and the names of those that were begun. -/
structure Agenda where
  begun : List String := []
  waiting : List Node := []

/-- Begins a node: a scalar is read, and a collection, which is no key, waits. -/
def Agenda.begin (g : Agenda) (p : Part) : Except ReadError Agenda := do
  let known := match p.node with
    | .named name => g.begun.contains name
    | _ => false
  let g : Agenda := match p.node with
    | .named name => { g with begun := name :: g.begun }
    | _ => g
  match Making.ofNode? (p.node.resolved a) with
  | none => throw .malformed
  | some (.scalar f) =>
    let _ ← scalarOf a f p.node
    pure g
  | some _ =>
    if p.isKey then throw .malformed
    pure (if known then g else { g with waiting := g.waiting ++ [p.node] })

/-- Begins the nodes in collections, one collection after the other. -/
def Agenda.work (depth : Nat) : (fuel : Nat) → Agenda → Except ReadError Unit
  | 0, _ => pure ()
  | fuel + 1, g =>
    match g.waiting with
    | [] => pure ()
    | n :: waiting => do
      let (ps, fault) := parts a depth n
      let g ← ps.foldlM (Agenda.begin a) { g with waiting }
      match fault with
      | some e => throw e
      | none => Agenda.work depth fuel g

/-- Puts a member among others. -/
def setMember (members : List (Scalar × Document)) (k : Scalar) (d : Document) :
    List (Scalar × Document) :=
  if members.any fun m => m.1.sameKey k then
    members.map fun m => if m.1.sameKey k then (m.1, d) else m
  else members ++ [(k, d)]

/-- Members with equal keys made one. -/
def collect (members : List (Scalar × Document)) : List (Scalar × Document) :=
  members.foldl (fun ms (k, d) => setMember ms k d) []

/-- The names on the way to a node, and how often one of them came again. -/
structure Route where
  names : List String := []
  returns : Nat := 0

/-- How often a document may be followed round a circle. -/
def Route.limit : Nat := 3

/-- The way on through a name, unless it has come again too often. -/
def Route.through? (r : Route) (name : String) : Option Route :=
  let returns := if r.names.contains name then r.returns + 1 else r.returns
  if limit < returns then none else some { names := name :: r.names, returns }

def keyOf (n : Node) : Scalar :=
  match Making.ofNode? (n.resolved a) with
  | some (.scalar f) => (scalarOf a f n).toOption.getD .null
  | _ => .null

def build (depth : Nat) : (fuel : Nat) → Route → Node → Document
  | 0, _, _ => .circle
  | fuel + 1, route, n =>
    match n with
    | .named name =>
      match route.through? name with
      | some route => collection fuel route n
      | none => .circle
    | n => collection fuel route n
where
  collection : (fuel : Nat) → Route → Node → Document
    | 0, _, _ => .circle
    | fuel + 1, route, n =>
      match Making.ofNode? (n.resolved a), n.resolved a with
      | some (.scalar _), _ => .scalar (keyOf a n)
      | some .list, .sequence _ items => .list (items.map (build depth fuel route))
      | some .pairs, .sequence _ items =>
        .list (items.filterMap fun item => (pairOf a item).toOption.map fun (k, v) =>
          .list [build depth fuel route k, build depth fuel route v])
      | some .map, _ =>
        let members := (membersOf a depth n).toOption.getD []
        .map (collect (members.map fun (k, v) =>
          (keyOf a (keyNode a k), build depth fuel route v)))
      | some .set, _ =>
        let members := (membersOf a depth n).toOption.getD []
        .set (Slots.arrange ((collect (members.map fun (k, _) =>
          (keyOf a (keyNode a k), .scalar .null))).map (·.1)))
      | _, _ => .circle

def Tree.document (t : Tree) (size : Nat) : Except ReadError Document := do
  let depth := 4 * size + 8
  let agenda ← Agenda.begin t.anchors {} ⟨t.root, false⟩
  Agenda.work t.anchors depth (depth * depth) agenda
  pure (build t.anchors depth (8 * depth) {} t.root)

def read (text : String) : Except ReadError Document := do
  let tokens ← orMalformed (Token.ofText? text.toList)
  (← Tree.ofTokens tokens).document tokens.length

end AtomicCss.Yaml
