import AtomicCss.Dict
import AtomicCss.Number.Basic
import AtomicCss.Text.Quoted

/-!
# Free-form values

What a design-token file may hold where no fixed shape is demanded: palettes, radii, colors. Map
members keep their order. A flag is no number, but counts as one or zero where a number is asked
for.
-/
namespace AtomicCss

inductive Value
  | null
  | bool (b : Bool)
  | number (n : Number)
  | text (s : String)
  | list (items : List Value)
  | map (members : List (String × Value))

namespace Value

instance : Inhabited Value := ⟨.null⟩

/-- Nothing, a zero and whatever is empty do not count as given. -/
def isGiven : Value → Bool
  | .null => false
  | .bool b => b
  | .number n => !n.isZero
  | .text s => !s.isEmpty
  | .list items => !items.isEmpty
  | .map members => !members.isEmpty

def isNull : Value → Bool
  | .null => true
  | _ => false

def map? : Value → Option (Dict Value)
  | .map members => some members
  | _ => none

def text? : Value → Option String
  | .text s => some s
  | _ => none

def number? : Value → Option Number
  | .number n => some n
  | .bool b => some (.int (if b then 1 else 0))
  | _ => none

/-- What a value yields when run through in order: list items, characters, or keys. -/
def elements? : Value → Option (List Value)
  | .list items => some items
  | .text s => some (s.toList.map fun c => .text (String.ofList [c]))
  | .map members => some (members.map fun m => .text m.1)
  | _ => none

/-- A member that is present and not null. -/
def member? (members : Dict Value) (k : String) : Option Value :=
  (members.get? k).filter fun v => !v.isNull

mutual

def integers : Value → List Int
  | .number (.int n) => [n]
  | .list items => itemIntegers items
  | .map members => memberIntegers members
  | _ => []

def itemIntegers : List Value → List Int
  | [] => []
  | v :: items => integers v ++ itemIntegers items

def memberIntegers : List (String × Value) → List Int
  | [] => []
  | (_, v) :: members => integers v ++ memberIntegers members

end

/-- Whether a value can be written: none of its integers is too long. -/
def IsWritable (v : Value) : Prop := ∀ n ∈ v.integers, Numeral.IsShort n

instance : DecidablePred IsWritable := fun v =>
  inferInstanceAs (Decidable (∀ n ∈ v.integers, Numeral.IsShort n))

mutual

def shown : Value → String
  | .null => "None"
  | .bool b => if b then "True" else "False"
  | .number n => n.text
  | .text s => Quoted.quote s
  | .list items => "[" ++ ", ".intercalate (shownItems items) ++ "]"
  | .map members => "\x7b" ++ ", ".intercalate (shownMembers members) ++ "\x7d"

def shownItems : List Value → List String
  | [] => []
  | v :: items => v.shown :: shownItems items

def shownMembers : List (String × Value) → List String
  | [] => []
  | (k, v) :: members => (Quoted.quote k ++ ": " ++ v.shown) :: shownMembers members

end

mutual

/-- Writes integral floats as integers, at every depth, so that equal numbers agree in text. -/
def normalize : Value → Value
  | .number n => .number n.normalize
  | .list items => .list (normalizeItems items)
  | .map members => .map (normalizeMembers members)
  | v => v

def normalizeItems : List Value → List Value
  | [] => []
  | v :: items => v.normalize :: normalizeItems items

def normalizeMembers : List (String × Value) → List (String × Value)
  | [] => []
  | (k, v) :: members => (k, v.normalize) :: normalizeMembers members

end

mutual

/-- Whether two values are equal: numbers and flags by what they count as, and maps whatever the
order of their members. -/
def same : Value → Value → Bool
  | .null, .null => true
  | .text s, .text t => s == t
  | .list items, .list others => sameItems items others
  | .map members, .map others => members.length == others.length && sameMembers members others
  | a, b =>
    match a.number?, b.number? with
    | some m, some n => m.equal n
    | _, _ => false

def sameItems : List Value → List Value → Bool
  | [], [] => true
  | v :: items, w :: others => v.same w && sameItems items others
  | _, _ => false

/-- Whether each member has an equal one among others. -/
def sameMembers : List (String × Value) → List (String × Value) → Bool
  | [], _ => true
  | (k, v) :: members, others =>
    (match Dict.get? others k with
      | some w => v.same w
      | none => false) && sameMembers members others

end

end Value
end AtomicCss
