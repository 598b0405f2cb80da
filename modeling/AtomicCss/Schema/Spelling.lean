import AtomicCss.Number.Numeral

/-!
# Numbers spelled in text

Where a number is asked for, text that spells one counts as it. Spelled in full, an integer is a
minus sign or none and digits without leading zeros. Other spellings are first cleaned: a plus
sign, leading zeros, a fraction of zeros and single bars are dropped. Only ASCII digits spell.
-/
namespace AtomicCss.Spelling

inductive Fault
  | noInteger
  | tooLong
  deriving DecidableEq

/-- The digits of an integer spelled in full. -/
def digits (cs : List Char) : Except Fault Nat :=
  let run := cs.takeWhile Char.isDigit
  if run.isEmpty then .error .noInteger
  else if run.head? = some '0' && cs.length ≠ 1 then .error .noInteger
  else if Numeral.digitLimit < run.length then .error .tooLong
  else if run.length ≠ cs.length then .error .noInteger
  else .ok (Numeral.ofDigits (run.map fun c => c.toNat - '0'.toNat))

/-- An integer spelled in full. -/
def inFull : List Char → Except Fault Int
  | '-' :: cs => (digits cs).map Int.negOfNat
  | cs => (digits cs).map Int.ofNat

/-- Drops what leads a number after its first zero, of which `last` is what was dropped before. A
point keeps what stands before it, and so does the end. -/
def dropLeading (last : Char) : List Char → Option (List Char)
  | [] => some [last]
  | c :: cs =>
    if c = '0' || c = '_' then dropLeading c cs
    else if c.isDigit || c = '-' then some (c :: cs)
    else if c = '.' then some (last :: c :: cs)
    else none

def dropZeros : List Char → Option (List Char)
  | '0' :: cs => dropLeading '0' cs
  | '-' :: c :: cs => if c.isDigit then some ('-' :: c :: cs) else none
  | c :: cs => if c.isDigit then some (c :: cs) else none
  | [] => none

def dropFraction (cs : List Char) : List Char :=
  let fraction := (cs.dropWhile (· ≠ '.')).drop 1
  if !fraction.isEmpty && fraction.all (· = '0') then cs.takeWhile (· ≠ '.') else cs

/-- Whether two bars stand side by side. -/
def hasDoubleBar : List Char → Bool
  | '_' :: '_' :: _ => true
  | _ :: cs => hasDoubleBar cs
  | [] => false

/-- The text without its bars, if they are single and inside. -/
def withoutBars? (cs : List Char) : Option (List Char) :=
  if cs.head? = some '_' || cs.getLast? = some '_' || hasDoubleBar cs then none
  else some (cs.filter (· ≠ '_'))

/-- A spelling without all that may be dropped from it. -/
def cleaned? (cs : List Char) : Option (List Char) := do
  let unsigned ← match cs with
    | '+' :: '-' :: _ => none
    | '+' :: cs => some cs
    | cs => some cs
  let digits := dropFraction (← dropZeros unsigned)
  some ((withoutBars? digits).getD digits)

def integer (s : String) : Except Fault Int :=
  let cs := Blank.trim Blank.isSpace s.toList
  match inFull cs, cleaned? cs with
  | .error .noInteger, some cs => inFull cs
  | result, _ => result

/-- A float written in ASCII without bars, with no white space around it. -/
def plainFloat? (cs : List Char) : Option Float :=
  if cs.all fun c => c ≠ '_' && ' ' < c && c < '\x7f' then Numeral.float? cs else none

/-- A float as spelled. A text with bars may have no white space around it. -/
def float? (s : String) : Option Float :=
  (plainFloat? (Blank.trim Blank.isSpace s.toList)).orElse fun _ =>
    (withoutBars? s.toList).bind plainFloat?

/-- A number as spelled: an integer if it can be one. -/
def number? (s : String) : Option Number :=
  match integer s with
  | .ok n => some (.int n)
  | .error _ => (float? s).map .float

end AtomicCss.Spelling
