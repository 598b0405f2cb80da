/-!
# Issues found in a document

Checking a document gives either a value or all the issues found, each with its path and a code.
Checks of several parts run independently and their issues add up.
-/
namespace AtomicCss

inductive IssueCode
  | stringType | stringUnicode | intType | intParsing | intParsingSize | intFromFloat | finiteNumber
  | boolParsing | boolType | listType | dictType | modelType | extraForbidden | invalidKey | enum
  | numberOrMap
  | rule (message : String)

namespace IssueCode

def name : IssueCode → String
  | stringType => "string_type"
  | stringUnicode => "string_unicode"
  | intType => "int_type"
  | intParsing => "int_parsing"
  | intParsingSize => "int_parsing_size"
  | intFromFloat => "int_from_float"
  | finiteNumber => "finite_number"
  | boolParsing => "bool_parsing"
  | boolType => "bool_type"
  | listType => "list_type"
  | dictType => "dict_type"
  | modelType => "model_type"
  | extraForbidden => "extra_forbidden"
  | invalidKey => "invalid_key"
  | enum => "enum"
  | numberOrMap => "number_or_map"
  | rule _ => "value_error"

def message? : IssueCode → Option String
  | rule m => some m
  | _ => none

end IssueCode

structure Issue where
  path : List String
  code : IssueCode

namespace Issue

/-- Orders by path, step by step, a shorter path first, and then by code. -/
def atMost (a b : Issue) : Bool :=
  if a.path = b.path then
    if a.code.name = b.code.name then decide (a.code.message? = b.code.message?)
        || decide ((a.code.message?.getD "") < (b.code.message?.getD ""))
    else decide (a.code.name < b.code.name)
  else decide (a.path < b.path)

def same (a b : Issue) : Bool :=
  a.path == b.path && a.code.name == b.code.name && a.code.message? == b.code.message?

/-- The issues in order, each once. -/
def report (issues : List Issue) : List Issue :=
  (issues.mergeSort atMost).foldr (fun i rest =>
    match rest with
    | j :: _ => if i.same j then rest else i :: rest
    | [] => [i]) []

end Issue

inductive Checked (α : Type)
  | valid (a : α)
  | invalid (issues : List Issue)

namespace Checked

variable {α β : Type}

def issues : Checked α → List Issue
  | valid _ => []
  | invalid is => is

def fail (code : IssueCode) : Checked α := invalid [⟨[], code⟩]

def map (f : α → β) : Checked α → Checked β
  | valid a => valid (f a)
  | invalid is => invalid is

/-- Both results, or the issues of both. -/
def both (a : Checked α) (b : Checked β) : Checked (α × β) :=
  match a, b with
  | valid a, valid b => valid (a, b)
  | a, b => invalid (a.issues ++ b.issues)

/-- All results, or the issues of all. -/
def all : List (Checked α) → Checked (List α)
  | [] => valid []
  | a :: rest => (both a (all rest)).map fun (a, rest) => a :: rest

/-- A further check, made only of what is valid so far. -/
def andThen (a : Checked α) (f : α → Checked β) : Checked β :=
  match a with
  | valid a => f a
  | invalid is => invalid is

/-- A check of a part: its issues lie below the given steps. -/
def below (steps : List String) : Checked α → Checked α
  | valid a => valid a
  | invalid is => invalid (is.map fun i => { i with path := steps ++ i.path })

instance : Functor Checked := ⟨fun f a => a.map f, fun a b => b.map fun _ => a⟩

instance : Seq Checked := ⟨fun f a => (both f (a ())).map fun (f, a) => f a⟩

instance : Pure Checked := ⟨valid⟩

end Checked
end AtomicCss
