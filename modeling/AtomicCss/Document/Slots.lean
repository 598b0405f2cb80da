import AtomicCss.Document.Basic

/-!
# The order of the items of a set

The items of a set have no order of their own. Numbers stand in the slots of a table: each goes to
the slot that its residue names, or else to a free one not far from there. Sets with other items
keep the order in which they were made.
-/
namespace AtomicCss.Slots

/-- The prime to which numbers are reduced. -/
def modulus : Nat := 0x1FFFFFFFFFFFFFFF

/-- A residue with its sign, as 64 bits hold it. One below zero counts as two below. -/
def signedResidue (negative : Bool) (r : Nat) : Nat :=
  if negative && r ≠ 0 then 0x10000000000000000 - max r 2 else r

def residue : Number → Nat
  | .int n => signedResidue (n < 0) (n.natAbs % modulus)
  | .float x =>
    match Binary.ofFloat x with
    | .finite m q => signedResidue (m < 0) (m.natAbs * Nat.pow 2 (q % 61).toNat % modulus)
    | .infinite negative => signedResidue negative 314159
    | .notANumber => 0

/-- The least power of two from eight on that is greater than a bound. -/
def sizeAbove (bound : Nat) : Nat := max 8 (Nat.pow 2 (bound.log2 + 1))

/-- The number of slots for so many items: eight for up to four. -/
def tableSize (count : Nat) : Nat := if count < 5 then 8 else sizeAbove (2 * count)

/-- The slots tried from one on: nine more after it if the table goes so far. -/
def run (size slot : Nat) : List Nat :=
  if slot + 9 < size then (List.range 10).map (slot + ·) else [slot]

/-- The first free slot for a residue, tried from a slot on. If none of the run is free, further
bits of the residue and the slot together name the next. -/
def slotFrom (size : Nat) (taken : List Nat) : (fuel : Nat) → (residue slot : Nat) → Nat
  | 0, _, slot => slot
  | fuel + 1, residue, slot =>
    match (run size slot).find? fun s => !taken.contains s with
    | some s => s
    | none =>
      let residue := residue / 32
      slotFrom size taken fuel residue ((5 * slot + 1 + residue) % size)

def slots (size : Nat) (residues : List Nat) : List Nat :=
  residues.foldl (fun taken r => taken ++ [slotFrom size taken (size + 16) r (r % size)]) []

/-- The items of a set in order. -/
def arrange (items : List Scalar) : List Scalar :=
  match items.mapM Scalar.number? with
  | none => items
  | some numbers =>
    let places := slots (tableSize items.length) (numbers.map residue)
    ((places.zip items).mergeSort fun a b => a.1 ≤ b.1).map (·.2)

end AtomicCss.Slots
