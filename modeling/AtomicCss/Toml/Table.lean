import AtomicCss.Dict
import AtomicCss.Document.Basic

/-!
# TOML tables

A table is declared once: by a header, or by the dotted keys of one section. A table that was only
passed through on the way to another may still be declared. What a value brings along, inline
tables and arrays, is complete and takes no further members.
-/
namespace AtomicCss.Toml

/-- How a table came to be. Sections are counted by their headers. -/
inductive Mark
  | passed
  | declared
  | dotted (within : Nat)
  deriving DecidableEq

inductive Item
  | value (d : Document)
  | table (mark : Mark) (members : List (String × Item))
  /-- An array of tables, the last one first. -/
  | tables (items : List (List (String × Item)))

abbrev Members := List (String × Item)

/-- Whether a table takes no further declaration in a section. -/
def Mark.isClosed (present : Nat) : Mark → Bool
  | passed => false
  | declared => true
  | dotted n => n != present

namespace Members

/-- Changes the table that a header names, which is there. -/
def change (f : Members → Option Members) : List String → Members → Option Members
  | [], ms => f ms
  | k :: path, ms =>
    match Dict.get? ms k with
    | some (.table mark inner) =>
      (change f path inner).map fun inner => Dict.set ms k (.table mark inner)
    | some (.tables (inner :: before)) =>
      (change f path inner).map fun inner => Dict.set ms k (.tables (inner :: before))
    | _ => none

/-- Changes the members that a path leads to, making the tables on the way. -/
def reach (f : Members → Option Members) : List String → Members → Option Members
  | [], ms => f ms
  | k :: path, ms =>
    match Dict.get? ms k with
    | none => (reach f path []).map fun inner => Dict.set ms k (.table .passed inner)
    | some (.table mark inner) =>
      (reach f path inner).map fun inner => Dict.set ms k (.table mark inner)
    | some (.tables (inner :: before)) =>
      (reach f path inner).map fun inner => Dict.set ms k (.tables (inner :: before))
    | some _ => none

def declare (present : Nat) (name : String) (ms : Members) : Option Members :=
  match Dict.get? ms name with
  | none => some (Dict.set ms name (.table .declared []))
  | some (.table mark inner) =>
    if mark.isClosed present then none else some (Dict.set ms name (.table .declared inner))
  | some _ => none

/-- Adds a table to an array of tables. -/
def declareMore (name : String) (ms : Members) : Option Members :=
  match Dict.get? ms name with
  | none => some (Dict.set ms name (.tables [[]]))
  | some (.tables items) => some (Dict.set ms name (.tables ([] :: items)))
  | some _ => none

/-- Declares the table of a header. -/
def open? (present : Nat) (array : Bool) (path : List String) (ms : Members) : Option Members :=
  match path.getLast? with
  | none => none
  | some name => reach (if array then declareMore name else declare present name) path.dropLast ms

/-- Enters a value under a dotted key. -/
def enter (present : Nat) (d : Document) : List String → Members → Option Members
  | [], _ => none
  | [k], ms => if Dict.has ms k then none else some (Dict.set ms k (.value d))
  | k :: path, ms =>
    match Dict.get? ms k with
    | none =>
      (enter present d path []).map fun inner => Dict.set ms k (.table (.dotted present) inner)
    | some (.table mark inner) =>
      if mark.isClosed present then none
      else
        (enter present d path inner).map fun inner =>
          Dict.set ms k (.table (.dotted present) inner)
    | some _ => none

end Members

mutual

def Item.document : Item → Document
  | .value d => d
  | .table _ members => .map (documentMembers members)
  | .tables items => .list (documentTables items)

def documentMembers : List (String × Item) → List (Scalar × Document)
  | [] => []
  | (k, i) :: members => (.text k, i.document) :: documentMembers members

def documentTables : List (List (String × Item)) → List Document
  | [] => []
  | members :: before => documentTables before ++ [.map (documentMembers members)]

end

end AtomicCss.Toml
