import AtomicCss.Proofs.Rereading
import Mathlib.Data.List.Induction

/-!
# Data such as a JSON text holds

No integer of a JSON text is too long to be written. Checks do not make any longer ones: text that
spells an integer has only so many digits. So effects that have been read from such data have keys.
-/
namespace AtomicCss

namespace Numeral

end Numeral

namespace Spelling

end Spelling

namespace Document

/-- A document that holds what a JSON text can hold: a value without integers that are too long. -/
def IsPlain (d : Document) : Prop := ∃ v : Value, v.IsWritable ∧ d = ofValue v

theorem isWritable_toValue_map {members : List (Scalar × Document)}
    (h : ∀ m ∈ members, m.2.toValue.IsWritable) : (Document.map members).toValue.IsWritable := by
  rw [toValue, Value.isWritable_map]
  intro m hm
  rcases Dict.mem_of_mem_merge hm with hm | hm
  · cases hm
  · rw [toMembers_eq] at hm
    obtain ⟨m', hm', rfl⟩ := List.mem_map.1 hm
    exact h m' hm'

mutual

theorem isWritable_toValue_ofValue : ∀ {v : Value}, v.IsWritable → (ofValue v).toValue.IsWritable
  | .null, h | .bool _, h | .number _, h | .text _, h => h
  | .list _, h => Value.isWritable_list.2 (isWritable_toItems (Value.isWritable_list.1 h))
  | .map _, h => isWritable_toValue_map (isWritable_ofMembers (Value.isWritable_map.1 h))

theorem isWritable_toItems : ∀ {items : List Value}, (∀ v ∈ items, v.IsWritable) →
    ∀ v ∈ toItems (ofItems items), v.IsWritable
  | [], _ => List.forall_mem_nil _
  | _ :: _, h => by
    obtain ⟨hv, hitems⟩ := List.forall_mem_cons.1 h
    exact List.forall_mem_cons.2 ⟨isWritable_toValue_ofValue hv, isWritable_toItems hitems⟩

theorem isWritable_ofMembers : ∀ {members : List (String × Value)},
    (∀ m ∈ members, m.2.IsWritable) → ∀ m ∈ ofMembers members, m.2.toValue.IsWritable
  | [], _ => List.forall_mem_nil _
  | _ :: _, h => by
    obtain ⟨hm, hmembers⟩ := List.forall_mem_cons.1 h
    exact List.forall_mem_cons.2 ⟨isWritable_toValue_ofValue hm, isWritable_ofMembers hmembers⟩

end

end Document

namespace Value

mutual

theorem integers_numeralsOnly : ∀ v : Value, v.numeralsOnly.integers = v.integers
  | .null | .bool _ | .number (.int _) | .text _ => rfl
  | .number (.float x) => by
    rw [numeralsOnly]
    split <;> rfl
  | .list items => itemIntegers_numeralsOnly items
  | .map members => memberIntegers_numeralsOnly members

theorem itemIntegers_numeralsOnly : ∀ items : List Value,
    itemIntegers (numeralsOnlyItems items) = itemIntegers items
  | [] => rfl
  | v :: items => by
    rw [numeralsOnlyItems, itemIntegers, itemIntegers, integers_numeralsOnly v,
      itemIntegers_numeralsOnly items]

theorem memberIntegers_numeralsOnly : ∀ members : List (String × Value),
    memberIntegers (numeralsOnlyMembers members) = memberIntegers members
  | [] => rfl
  | (_, v) :: members => by
    rw [numeralsOnlyMembers, memberIntegers, memberIntegers, integers_numeralsOnly v,
      memberIntegers_numeralsOnly members]

end

end Value

end AtomicCss
