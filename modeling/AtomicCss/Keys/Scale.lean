import AtomicCss.Keys.Error

/-!
# Style keys of scales

A scale is a number for all sizes, or a map from sizes to numbers, or a map from sizes to maps from
breakpoints to numbers. Each number gives one key, filed under its size. The size is written into
the key unless it is the token for all sizes or the breakpoint is the one for all widths.
-/
namespace AtomicCss.Keys

/-- The interaction state that the keys of a value share. -/
structure Scope where
  state : Option String := none
  controlState : Bool := false

/-- A key with the size it is filed under. -/
abbrev SizedKey := String × String

def sizedKey (property : String) (scope : Scope) (bucket : String) (value : Value)
    (size breakpoint : Option String) : Except CompileError SizedKey := do
  let key ← encode
    { property, value, size, breakpoint, state := scope.state, controlState := scope.controlState }
  pure (bucket, key)

def writtenSize (size : String) : Option String := if size == allSizes then none else some size

/-- The keys of one size. What is neither a number nor a map gives none. -/
def keysAtSize (property : String) (scope : Scope) (size : String) :
    Value → Except CompileError (List SizedKey)
  | .number n => do pure [← sizedKey property scope size (.number n) (writtenSize size) none]
  | .map widths =>
    widths.mapM fun (breakpoint, v) =>
      if breakpoint == allBreakpoints || size == allSizes then
        sizedKey property scope size v none none
      else sizedKey property scope size v (some size) (some breakpoint)
  | _ => pure []

def responsive (property : String) (scope : Scope) : Value → Except CompileError (List SizedKey)
  | .number n => do pure [← sizedKey property scope allSizes (.number n) none none]
  | .map sizes => do
    pure (← sizes.mapM fun (size, v) => keysAtSize property scope size v).flatten
  | _ => pure []

/-- Files keys under their labels. -/
def file (keys : List (String × String)) (b : Buckets) : Buckets :=
  keys.foldl (fun b (label, key) => b.append label [key]) b

def ofScales (scales : Dict Value) : Except CompileError Buckets := do
  let keys ← scales.mapM fun (property, v) => responsive property {} v
  pure (file keys.flatten [])

end AtomicCss.Keys
