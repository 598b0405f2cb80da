/-!
# Maps in insertion order

A dictionary is the list of its members in the order in which their keys were first set. Setting a
key that is present changes its value and moves nothing; a new key goes to the end.
-/
namespace AtomicCss

abbrev Dict (α : Type) := List (String × α)

namespace Dict

variable {α β : Type}

def get? (d : Dict α) (k : String) : Option α :=
  match d with
  | [] => none
  | (j, v) :: d => if j = k then some v else get? d k

def getD (d : Dict α) (k : String) (v : α) : α := (get? d k).getD v

def has (d : Dict α) (k : String) : Bool := (get? d k).isSome

def set (d : Dict α) (k : String) (v : α) : Dict α :=
  match d with
  | [] => [(k, v)]
  | (j, w) :: d => if j = k then (j, v) :: d else (j, w) :: set d k v

/-- Replaces the value under a key by what `f` makes of the present one. -/
def update (d : Dict α) (k : String) (f : Option α → α) : Dict α := set d k (f (get? d k))

/-- Sets every member of `e` in `d`, in order. -/
def merge (d e : Dict α) : Dict α := e.foldl (fun d (k, v) => set d k v) d

/-- The dictionary in which each member is set in turn; the last of equal keys has its say. -/
def ofList (members : List (String × α)) : Dict α := merge [] members

def keys (d : Dict α) : List String := d.map (·.1)

def values (d : Dict α) : List α := d.map (·.2)

def mapValues (f : α → β) (d : Dict α) : Dict β := d.map fun (k, v) => (k, f v)

def append (d : Dict (List α)) (k : String) (items : List α) : Dict (List α) :=
  d.update k fun present => present.getD [] ++ items

end Dict

/-- Lists filed under labels. -/
abbrev Buckets := Dict (List String)

end AtomicCss
