import AtomicCss.Calendar
import AtomicCss.Value.Basic

/-!
# Documents

What a parsed file holds. Unlike a free-form value it may have dates, raw bytes and sets, and map
keys that are not text. A file may also refer from within a list or map to that list or map; where
a document has been followed round such a circle often enough, it ends with a mark.
-/
namespace AtomicCss

inductive Scalar
  | null
  | bool (b : Bool)
  | number (n : Number)
  | text (s : String)
  | bytes (b : List UInt8)
  | date (d : Date)
  | moment (m : Moment)
  /-- A time of day on no date. -/
  | clock (text : String)

inductive Document
  | scalar (s : Scalar)
  | list (items : List Document)
  | map (members : List (Scalar × Document))
  | set (items : List Scalar)
  /-- A list or map that has been followed round itself. -/
  | circle

/-- Why something that is in a document cannot be used where it stands. -/
inductive DataFault
  /-- What is written has a form, but there is no such value. -/
  | noSuchValue
  /-- A character code is beyond every limit. -/
  | codeTooLarge
  /-- A word is no flag. -/
  | noSuchFlag
  /-- A number is written without any digit. -/
  | noDigits
  /-- What should be a date has not the form of one. -/
  | noDate
  /-- A date is no scalar. -/
  | noScalar
  /-- Bytes are not the bytes of a text. -/
  | notText
  /-- A list or map holds itself, which nothing written can show. -/
  | circular
  /-- A list or map holds itself, so that what is made of it has no end. -/
  | endless
  /-- Something has no JSON form. -/
  | notJson
  /-- Something else stands where a map is expected. -/
  | notMap
  /-- Something that has no elements stands where elements are run through. -/
  | notElements
  deriving DecidableEq

namespace Scalar

/-- Bytes between quotes, those outside printable ASCII escaped. -/
def shownBytes (b : List UInt8) : String :=
  "b" ++ Quoted.quoteAscii (String.ofList (b.map fun n => Char.ofNat n.toNat))

def decoded? (b : List UInt8) : Option String := String.fromUTF8? ⟨b.toArray⟩

def shown : Scalar → String
  | .null => "None"
  | .bool b => if b then "True" else "False"
  | .number n => n.text
  | .text s => Quoted.quote s
  | .bytes b => shownBytes b
  | .date d => d.shown
  | .moment m => m.shown
  | .clock s => s

/-- A scalar within the wording of a message. -/
def spoken : Scalar → String
  | .text s => s
  | .date d => d.text
  | .moment m => m.spoken
  | s => s.shown

/-- Whether a scalar can be written: it is no integer that is too long. -/
def IsWritable : Scalar → Prop
  | .number (.int n) => Numeral.IsShort n
  | _ => True

instance : DecidablePred IsWritable := fun s => by
  unfold IsWritable
  split <;> infer_instance

def pathText : Scalar → String
  | .bool b => if b then "1" else "0"
  | .text s => Surrogate.mended s
  | s => s.shown

def number? : Scalar → Option Number
  | .number n => some n
  | .bool b => some (.int (if b then 1 else 0))
  | _ => none

/-- Whether two keys name the same member. A flag counts as the number it equals. -/
def sameKey : Scalar → Scalar → Bool
  | .null, .null => true
  | .text s, .text t => s == t
  | .bytes a, .bytes b => a == b
  | .date d, .date e => d = e
  | .moment m, .moment n => m.isSame n
  | .clock s, .clock t => s == t
  | a, b =>
    match a.number?, b.number? with
    | some m, some n => m.equal n
    | _, _ => false

end Scalar

namespace Document

instance : Inhabited Document := ⟨.scalar .null⟩

/-- Nothing, a zero and whatever is empty do not count as given. -/
def isGiven : Document → Bool
  | .scalar .null => false
  | .scalar (.bool b) => b
  | .scalar (.number n) => !n.isZero
  | .scalar (.text s) => !s.isEmpty
  | .scalar (.bytes b) => !b.isEmpty
  | .list items => !items.isEmpty
  | .map members => !members.isEmpty
  | .set items => !items.isEmpty
  | _ => true

/-- The kind of a document, as named in messages. -/
def kindName : Document → String
  | .scalar .null => "NoneType"
  | .scalar (.bool _) => "bool"
  | .scalar (.number (.int _)) => "int"
  | .scalar (.number (.float _)) => "float"
  | .scalar (.text _) => "str"
  | .scalar (.bytes _) => "bytes"
  | .scalar (.date _) => "date"
  | .scalar (.moment _) => "datetime"
  | .scalar (.clock _) => "time"
  | .set _ => "set"
  | .list _ => "list"
  | .map _ | .circle => "dict"

def isNull : Document → Bool
  | .scalar .null => true
  | _ => false

def map? : Document → Option (List (Scalar × Document))
  | .map members => some members
  | _ => none

def items? : Document → Option (List Document)
  | .list items => some items
  | .set items => some (items.map .scalar)
  | _ => none

/-- The member under a text key. -/
def get? (members : List (Scalar × Document)) (k : String) : Option Document :=
  match members with
  | [] => none
  | (.text j, d) :: members => if j = k then some d else get? members k
  | _ :: members => get? members k

/-- The member under a text key, if it is present and not null. -/
def member? (members : List (Scalar × Document)) (k : String) : Option Document :=
  (get? members k).filter fun d => !d.isNull

end Document
end AtomicCss
