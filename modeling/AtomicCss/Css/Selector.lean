import AtomicCss.Css.Error

/-!
# Selectors of stateful rules

A state applies natively, through a pseudo-class, or by force, through a one-letter class that is
in effect where the activator class `-a` stands. An inline rule asks for the state of the styled
element itself, a reference for that of an ancestor with the activator class.

Main definitions: `Selector.ofStates`, the selectors of a class under a list of states, and
`ActiveState.ofTokens`, which reads the states of a style key.
-/
namespace AtomicCss

/-- The interaction states other than the one at rest. -/
inductive ActiveState
  | hover | pressed | focus | disabled | readOnly | selected
  deriving DecidableEq

namespace ActiveState

def all : List ActiveState := [hover, pressed, focus, disabled, readOnly, selected]

def state : ActiveState → InteractionState
  | hover => .hover
  | pressed => .pressed
  | focus => .focus
  | disabled => .disabled
  | readOnly => .readOnly
  | selected => .selected

def ofName? (s : String) : Option ActiveState := named? all (·.state.name) s

def pseudo? : ActiveState → Option String
  | hover => some "hover"
  | pressed => some "active"
  | focus => some "focus-visible"
  | readOnly => some "read-only"
  | disabled | selected => none

def forcedClass : ActiveState → String
  | hover => "-h"
  | pressed => "-p"
  | selected => "-s"
  | focus => "-f"
  | disabled => "-d"
  | readOnly => "-r"

/-- Reads the states of a style key. Under a reference, a token that is no state counts as lack of
one. -/
def ofTokens (key family : String) (isRef : Bool) (tokens : List String) :
    Except RuleError (List ActiveState) :=
  tokens.mapM fun token =>
    match ofName? token with
    | some s => .ok s
    | none => .error (if isRef then .refWithoutState else .state token family key)

end ActiveState

inductive SimpleSelector
  | ofClass (name : String)
  | pseudo (name : String)
  deriving DecidableEq

def SimpleSelector.text : SimpleSelector → String
  | ofClass name => "." ++ name
  | pseudo name => ":" ++ name

abbrev Compound := List SimpleSelector

def Compound.text (c : Compound) : String := String.join (c.map SimpleSelector.text)

/-- A condition on an element, and possibly one on some ancestor of it. -/
structure Selector where
  ancestor : Option Compound := none
  element : Compound
  deriving DecidableEq

namespace Selector

def text (s : Selector) : String :=
  match s.ancestor with
  | some a => Compound.text a ++ " " ++ Compound.text s.element
  | none => Compound.text s.element

/-- The class under which forced states are in effect. -/
def activator : SimpleSelector := .ofClass "-a"

/-- The class that switches shadows on. -/
def shadowGate : String := "-e"

/-- The pseudo-classes of the states that have one, then the forcing classes of the others. -/
def nativeConditions (states : List ActiveState) : Compound :=
  states.filterMap (fun s => s.pseudo?.map .pseudo)
    ++ (states.filter fun s => s.pseudo?.isNone).map fun s => .ofClass s.forcedClass

def forcedConditions (states : List ActiveState) : Compound :=
  states.map fun s => .ofClass s.forcedClass

/-- The native form, if some state has a pseudo-class. -/
def native? (target : Compound) (isRef : Bool) (states : List ActiveState) : Option Selector :=
  if states.any fun s => s.pseudo?.isSome then
    let conditions := nativeConditions states
    some (if isRef then ⟨some (activator :: conditions), target⟩ else ⟨none, target ++ conditions⟩)
  else none

/-- The forced form. It is wanted on request, and always for the disabled state. -/
def forced? (target : Compound) (isRef : Bool) (force : Bool) (states : List ActiveState) :
    Option Selector :=
  if !states.isEmpty && (force || states.contains .disabled) then
    let conditions := forcedConditions states
    some (if isRef then ⟨some (activator :: conditions), target⟩
      else ⟨none, target ++ conditions ++ [activator]⟩)
  else none

/-- What a rule styles: a class, and the gate that is to stand beside it. -/
def target (className : String) (gate : Option String) : Compound :=
  [some className, Location.known gate].filterMap fun name => name.map .ofClass

/-- The selectors of a class under states, the native one first. Without any the rule is on the
bare class, which a reference cannot be. -/
def ofStates (className : String) (gate : Option String) (isRef force : Bool)
    (states : List ActiveState) : Except RuleError (List Selector) :=
  let target := target className gate
  match [native? target isRef states, forced? target isRef force states].filterMap id with
  | [] => if isRef then .error .refWithoutState else .ok [⟨none, target⟩]
  | selectors => .ok selectors

end Selector
end AtomicCss
