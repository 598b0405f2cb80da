import AtomicCss.Value.Basic

/-!
# Updates deep in a map

A path of keys names a place in nested maps. An update creates the maps on the way, replacing
whatever else stands there, and then replaces the value at the place. If the updater refuses, the
maps on the way stay.
-/
namespace AtomicCss.Tree

inductive Error (ε : Type)
  | emptyPath
  | refused (e : ε)

variable {ε : Type}

/-- The map a value is entered as: anything but a map counts as an empty one. -/
def entered : Option Value → Dict Value
  | some (.map members) => members
  | _ => []

/-- Replaces the value at a path by the updater's result on the present one, `null` if there is
none. Returns the tree as it then is, and the failure if there was one. -/
def update (f : Value → Except ε Value) : Dict Value → List String → Dict Value × Option (Error ε)
  | tree, [] => (tree, some .emptyPath)
  | tree, [k] =>
    match f (tree.getD k .null) with
    | .ok v => (tree.set k v, none)
    | .error e => (tree, some (.refused e))
  | tree, k :: l :: path =>
    let (child, failure) := update f (entered (tree.get? k)) (l :: path)
    (tree.set k (.map child), failure)

/-- Adds items to the list at a path. What is not given counts as an empty list, and text or a map
already there is spread into its elements. -/
def append (tree : Dict Value) (path : List String) (items : List Value) :
    Dict Value × Option (Error NumberError) :=
  update (fun present =>
    if present.isGiven then
      match present.elements? with
      | some present => .ok (.list (present ++ items))
      | none => .error .notNumeric
    else .ok (.list items)) tree path

end AtomicCss.Tree
