import AtomicCss.Document.Basic
import AtomicCss.Json.Writer

/-!
# Documents and values

Every value is a document. A document becomes a value in two ways. Written out, it has text in
place of dates, bytes and keys that are no text, and of members whose keys are then equal one
remains. As JSON it may have flags, numbers and nothing as keys, each of which stays a member of its
own, but neither dates nor bytes nor sets.
-/
namespace AtomicCss.Document

mutual

def ofValue : Value → Document
  | .null => .scalar .null
  | .bool b => .scalar (.bool b)
  | .number n => .scalar (.number n)
  | .text s => .scalar (.text s)
  | .list items => .list (ofItems items)
  | .map members => .map (ofMembers members)

def ofItems : List Value → List Document
  | [] => []
  | v :: items => ofValue v :: ofItems items

def ofMembers : List (String × Value) → List (Scalar × Document)
  | [] => []
  | (k, v) :: members => (.text k, ofValue v) :: ofMembers members

end

/-- A scalar as a value. Bytes that spell no text count as nothing. -/
def scalarValue : Scalar → Value
  | .null => .null
  | .bool b => .bool b
  | .number n => .number n
  | .text s => .text s
  | .bytes b => ((Scalar.decoded? b).map Value.text).getD .null
  | .date d => .text d.text
  | .moment m => .text m.text
  | .clock s => .text s

def keyText : Scalar → String
  | .null => "None"
  | .bool b => if b then "true" else "false"
  | .number (.float x) => if x.isFinite then (Number.float x).text else "None"
  | .number n => n.text
  | s => ((scalarValue s).text?).getD ""

mutual

/-- The document written out. -/
def toValue : Document → Value
  | .scalar s => scalarValue s
  | .list items => .list (toItems items)
  | .map members => .map (Dict.ofList (toMembers members))
  | .set items => .list (items.map scalarValue)
  | .circle => .null

def toItems : List Document → List Value
  | [] => []
  | d :: items => d.toValue :: toItems items

def toMembers : List (Scalar × Document) → List (String × Value)
  | [] => []
  | (k, d) :: members => (keyText k, d.toValue) :: toMembers members

end

/-- Why a scalar cannot be written out. -/
def scalarFault? : Scalar → Option DataFault
  | .bytes b => if (Scalar.decoded? b).isSome then none else some .notText
  | _ => none

/-- Why a scalar cannot be written out as the key of a map. -/
def keyFault? (k : Scalar) : Option DataFault :=
  if k.IsWritable then scalarFault? k else some .noSuchValue

mutual

/-- Why a document cannot be written out. -/
def fault? : Document → Option DataFault
  | .scalar s => scalarFault? s
  | .list items => itemsFault? items
  | .map members => membersFault? members
  | .set items => items.findSome? scalarFault?
  | .circle => some .circular

def itemsFault? : List Document → Option DataFault
  | [] => none
  | d :: items => d.fault?.or (itemsFault? items)

def membersFault? : List (Scalar × Document) → Option DataFault
  | [] => none
  | (k, d) :: members => (keyFault? k).or (d.fault?.or (membersFault? members))

end

/-- The document written out, if it can be. -/
def written (d : Document) : Except DataFault Value :=
  match d.fault? with
  | some e => .error e
  | none => .ok d.toValue

mutual

/-- Whether a document holds itself. -/
def isEndless : Document → Bool
  | .scalar _ | .set _ => false
  | .list items => areEndless items
  | .map members => membersEndless members
  | .circle => true

def areEndless : List Document → Bool
  | [] => false
  | d :: items => d.isEndless || areEndless items

def membersEndless : List (Scalar × Document) → Bool
  | [] => false
  | (_, d) :: members => d.isEndless || membersEndless members

end

def jsonKey (k : Scalar) : Except DataFault String :=
  match k with
  | .null => .ok "null"
  | .bool b => .ok (if b then "true" else "false")
  | .number n => if k.IsWritable then .ok (Json.numberText n) else .error .noSuchValue
  | .text s => .ok s
  | _ => .error .notJson

def jsonScalar (s : Scalar) : Except DataFault Value :=
  match s with
  | .null => .ok .null
  | .bool b => .ok (.bool b)
  | .number n => if s.IsWritable then .ok (.number n) else .error .noSuchValue
  | .text s => .ok (.text s)
  | _ => .error .notJson

mutual

/-- The document as a value of JSON, with a member for each of its own. -/
def jsonValue : Document → Except DataFault Value
  | .scalar s => jsonScalar s
  | .list items => (jsonItems items).map .list
  | .map members => (jsonMembers members).map .map
  | .set _ | .circle => .error .notJson

def jsonItems : List Document → Except DataFault (List Value)
  | [] => pure []
  | d :: items => do pure ((← d.jsonValue) :: (← jsonItems items))

def jsonMembers : List (Scalar × Document) → Except DataFault (List (String × Value))
  | [] => pure []
  | (k, d) :: members => do pure ((← jsonKey k, ← d.jsonValue) :: (← jsonMembers members))

end

/-- The document as a value of JSON that can be written, if it is one. -/
def json (d : Document) : Except DataFault Value :=
  if d.isEndless then .error .endless else d.jsonValue

end AtomicCss.Document
