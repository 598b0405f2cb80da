import AtomicCss.Proofs.EffectKeys
import AtomicCss.Proofs.ReorderedKeys

/-!
# Reading what is written

What a check gives, written out as a document, passes the same check and gives the same. This is
shown for one kind of check after the other: keys that have been read once stay distinct, fields are
written under the first of the names under which they are read, and rules hold of what they have
held of. Free-form documents come back if they are as JSON has them.
-/
namespace AtomicCss

namespace Document

/-- A document as JSON has it: floats have numerals, and keys are text and distinct. Half of a
surrogate pair in a key is no text. -/
inductive IsJson : Document → Prop
  | null : IsJson (.scalar .null)
  | bool (b : Bool) : IsJson (.scalar (.bool b))
  | int (n : Int) : IsJson (.scalar (.number (.int n)))
  | float (x : Float) (finite : x.isFinite = true) : IsJson (.scalar (.number (.float x)))
  | text (s : String) : IsJson (.scalar (.text s))
  | list (items : List Document) (all : ∀ d ∈ items, IsJson d) : IsJson (.list items)
  | map (members : Dict Document) (nodup : (members.map (·.1)).Nodup)
    (whole : ∀ m ∈ members, Surrogate.isBroken m.1 = false) (all : ∀ m ∈ members, IsJson m.2) :
    IsJson (freeMap members)

theorem toItems_eq (items : List Document) : toItems items = items.map toValue := by
  induction items with
  | nil => rfl
  | cons d items ih => rw [toItems, ih, List.map_cons]

theorem ofItems_eq (items : List Value) : ofItems items = items.map ofValue := by
  induction items with
  | nil => rfl
  | cons v items ih => rw [ofItems, ih, List.map_cons]

theorem ofMembers_eq (members : List (String × Value)) :
    ofMembers members = members.map fun m => (.text m.1, ofValue m.2) := by
  induction members with
  | nil => rfl
  | cons m members ih => rw [ofMembers, ih, List.map_cons]

theorem get?_ofMembers (members : Dict Value) (k : String) :
    get? (ofMembers members) k = (members.get? k).map ofValue := by
  induction members with
  | nil => rfl
  | cons m members ih =>
    rw [ofMembers, get?, Dict.get?_cons, ih]
    split <;> rfl

end Document

theorem Value.numeralsOnlyItems_eq (items : List Value) :
    numeralsOnlyItems items = items.map numeralsOnly := by
  induction items with
  | nil => rfl
  | cons v items ih => rw [numeralsOnlyItems, ih, List.map_cons]

namespace Document.IsJson

variable {d : Document}

/-- Nothing of what JSON has is lost when it is written out. -/
theorem ofValue_numeralsOnly (h : d.IsJson) : ofValue d.numeralsOnly = d := by
  induction h with
  | null | bool | int | text => rfl
  | float x finite =>
    rw [numeralsOnly, toValue, scalarValue, Value.numeralsOnly, if_pos finite]
    rfl
  | list items _ ih =>
    rw [numeralsOnly, toValue, toItems_eq, Value.numeralsOnly, Value.numeralsOnlyItems_eq,
      ofValue, ofItems_eq, List.map_map, List.map_map]
    exact congrArg Document.list ((List.map_congr_left ih).trans (List.map_id items))
  | map members nodup _ _ ih =>
    rw [numeralsOnly_freeMap nodup, ofValue, ofMembers_eq, List.map_map, freeMap]
    refine congrArg Document.map (List.map_congr_left fun m hm => ?_)
    exact congrArg (Scalar.text m.1, ·) (ih m hm)

theorem isWritable (h : d.IsJson) : d.IsWritable := by
  induction h with
  | null | bool | int | float | text => rfl
  | list items _ ih => exact isWritable_list.2 ih
  | map members _ _ _ ih => exact isWritable_freeMap.2 fun k d hm => ih (k, d) hm

end Document.IsJson

namespace Check

open Checked

theorem isBroken_of_textOf? {broken : IssueCode} {k : Scalar} {s : String}
    (h : textOf? broken k = some (.valid s)) : Surrogate.isBroken s = false := by
  have hwhole : ∀ (t : String) (code : IssueCode),
      (if Surrogate.isBroken t then Checked.fail code else .valid t) = .valid s →
        Surrogate.isBroken s = false := by
    intro t code h
    split at h
    · cases h
    · next ht =>
      cases h
      exact Bool.not_eq_true _ ▸ ht
  cases k with
  | text t => exact hwhole t _ (Option.some.inj h)
  | bytes b =>
    rw [textOf?] at h
    split at h
    · exact hwhole _ _ (Option.some.inj h)
    · cases h
  | _ => cases h

theorem isBroken_of_scalarText {k : Scalar} {s : String} (h : scalarText k = .valid s) :
    Surrogate.isBroken s = false := by
  rw [scalarText] at h
  cases htext : textOf? .stringUnicode k with
  | none =>
    rw [htext] at h
    cases h
  | some x =>
    rw [htext] at h
    obtain rfl : x = .valid s := h
    exact isBroken_of_textOf? htext

theorem scalarText_text {s : String} (h : Surrogate.isBroken s = false) :
    scalarText (.text s) = .valid s := by
  simp [scalarText, textOf?, h]

theorem named_text {α : Type} {ofName? : String → Option α} {s : String} {a : α}
    (hs : Surrogate.isBroken s = false) (ha : ofName? s = some a) :
    named ofName? (.text s) = .valid a := by
  simp [named, textOf?, hs, ha]

/-- What a check gives, if it is of a kind, is given again by the document that is written for
it. -/
def Rereads {α : Type} (check : Document → Checked α) (write : α → Document) (P : α → Prop) :
    Prop :=
  ∀ d a, check d = .valid a → P a → check (write a) = .valid a

section

variable {α κ ν : Type}

theorem Rereads.mono {check : Document → Checked α} {write write' : α → Document}
    {P P' : α → Prop} (h : Rereads check write P) (hP : ∀ a, P' a → P a)
    (hwrite : ∀ a, P' a → write' a = write a) : Rereads check write' P' := by
  intro d a ha ha'
  rw [hwrite a ha']
  exact h d a ha (hP a ha')

theorem rereads_valid : Rereads Checked.valid id fun _ => True := fun _ _ _ _ => rfl

theorem rereads_text : Rereads text (fun s => .ofValue (.text s)) fun _ => True := by
  intro d s h _
  cases d with
  | scalar k => exact scalarText_text (isBroken_of_scalarText h)
  | _ => cases h

theorem rereads_integer : Rereads integer (fun n => .ofValue (.number (.int n))) fun _ => True :=
  fun _ _ _ _ => rfl

theorem rereads_flag : Rereads flag (fun b => .ofValue (.bool b)) fun _ => True :=
  fun _ _ _ _ => rfl

theorem rereads_number : Rereads number (fun n => .ofValue (.number n)) fun _ => True :=
  fun _ _ _ _ => rfl

theorem rereads_word (p : DecorationProperty) :
    Rereads (word p) (fun w => .ofValue (.text w.1)) fun _ => True := by
  have hwhole : ∀ w ∈ p.words.map Prod.fst, Surrogate.isBroken w = false := by
    cases p <;> decide
  intro d w _ _
  exact named_text (hwhole w.1 w.2) (dif_pos w.2)

theorem rereads_listOf {item : Document → Checked α} {write : α → Document} {P : α → Prop}
    (hitem : Rereads item write P) :
    Rereads (listOf item) (fun l => .list (l.map write)) fun l => ∀ a ∈ l, P a := by
  intro d l h hl
  have hread : ∀ a ∈ l, item (write a) = .valid a := by
    intro a ha
    obtain ⟨_, e, -, -, he⟩ := exists_of_mem_listOf h ha
    exact hitem e a he (hl a ha)
  refine all_eq_valid.2 (List.ext_getElem (by simp) fun n _ hn => ?_)
  rw [List.length_map] at hn
  simp only [List.getElem_map, List.getElem_zipIdx]
  exact below_eq_valid.2 (hread l[n] (List.getElem_mem hn))

/-- A map whose keys and values are read again is read again. -/
theorem mapOf_written {key : Scalar → Checked κ} {value : Document → Checked ν}
    {write : ν → Document} {r : List (κ × ν)} (name : κ → Scalar)
    (hkey : ∀ m ∈ r, key (name m.1) = .valid m.1)
    (hvalue : ∀ m ∈ r, value (write m.2) = .valid m.2) :
    mapOf key value (.map (r.map fun m => (name m.1, write m.2))) = .valid r := by
  rw [mapOf, all_eq_valid, List.map_map]
  refine List.map_congr_left fun m hm => ?_
  exact both_eq_valid.2 ⟨below_eq_valid.2 (hkey m hm), below_eq_valid.2 (hvalue m hm)⟩

theorem rereads_dictOf {value : Document → Checked ν} {write : ν → Document} {P : ν → Prop}
    (hvalue : Rereads value write P) :
    Rereads (dictOf value) (fun r => .map (r.map fun m => (.text m.1, write m.2)))
      fun r => ∀ m ∈ r, P m.2 := by
  intro d r h hr
  obtain ⟨members, hmembers, rfl⟩ := map_eq_valid.1 h
  have hread : ∀ m ∈ Dict.ofList members, Surrogate.isBroken m.1 = false
      ∧ value (write m.2) = .valid m.2 := by
    intro m hm
    have hmem := (Dict.mem_of_mem_merge hm).resolve_left List.not_mem_nil
    obtain ⟨_, k, e, -, -, hk, he⟩ := exists_of_mem_mapOf hmembers hmem
    exact ⟨isBroken_of_scalarText hk, hvalue e m.2 he (hr m hm)⟩
  refine map_eq_valid.2 ⟨_, mapOf_written .text
    (fun m hm => scalarText_text (hread m hm).1) fun m hm => (hread m hm).2, ?_⟩
  exact Dict.ofList_of_nodup (Dict.nodup_keys_ofList members)

theorem rereads_namedOf [DecidableEq κ] {ofName? : String → Option κ} {name : κ → String}
    (hname : ∀ k, named ofName? (.text (name k)) = .valid k) {value : Document → Checked ν}
    {write : ν → Document} {P : ν → Prop} (hvalue : Rereads value write P) :
    Rereads (namedOf ofName? value) (fun r => .map (r.map fun m => (.text (name m.1), write m.2)))
      fun r => ∀ m ∈ r, P m.2 := by
  intro d r h hr
  obtain ⟨members, hmembers, rfl⟩ := map_eq_valid.1 h
  have hread : ∀ m ∈ merged members, value (write m.2) = .valid m.2 := by
    intro m hm
    obtain ⟨_, k, e, -, -, -, he⟩ := exists_of_mem_mapOf hmembers (mem_of_mem_merged hm)
    exact hvalue e m.2 he (hr m hm)
  refine map_eq_valid.2 ⟨_, mapOf_written (fun k => .text (name k))
    (fun m _ => hname m.1) hread, ?_⟩
  exact merged_of_nodup (nodup_merged members)

theorem rereads_listOf_ofValue {item : Document → Checked α} {write : α → Value} {P : α → Prop}
    (hitem : Rereads item (fun a => .ofValue (write a)) P) :
    Rereads (listOf item) (fun l => .ofValue (.list (l.map write))) fun l => ∀ a ∈ l, P a := by
  refine (rereads_listOf hitem).mono (fun _ hl => hl) fun l _ => ?_
  rw [Document.ofValue, Document.ofItems_eq, List.map_map]
  rfl

theorem rereads_dictOf_ofValue {value : Document → Checked ν} {write : ν → Value} {P : ν → Prop}
    (hvalue : Rereads value (fun a => .ofValue (write a)) P) :
    Rereads (dictOf value) (fun r => .ofValue (.map (r.map fun m => (m.1, write m.2))))
      fun r => ∀ m ∈ r, P m.2 := by
  refine (rereads_dictOf hvalue).mono (fun _ hr => hr) fun r _ => ?_
  rw [Document.ofValue, Document.ofMembers_eq, List.map_map]
  rfl

theorem rereads_namedOf_ofValue [DecidableEq κ] {ofName? : String → Option κ} {name : κ → String}
    (hname : ∀ k, named ofName? (.text (name k)) = .valid k) {value : Document → Checked ν}
    {write : ν → Value} {P : ν → Prop} (hvalue : Rereads value (fun a => .ofValue (write a)) P) :
    Rereads (namedOf ofName? value)
      (fun r => .ofValue (.map (r.map fun m => (name m.1, write m.2))))
      fun r => ∀ m ∈ r, P m.2 := by
  refine (rereads_namedOf hname hvalue).mono (fun _ hr => hr) fun r _ => ?_
  rw [Document.ofValue, Document.ofMembers_eq, List.map_map]
  rfl

/-- A further rule on what has been read holds of it again. -/
theorem Rereads.andThen {check : Document → Checked α} {write : α → Document} {P : α → Prop}
    (h : Rereads check write P) (rule? : α → Option IssueCode) :
    Rereads (fun d => (check d).andThen fun a =>
      match rule? a with
      | some code => .fail code
      | none => .valid a) write P := by
  intro d a ha hP
  obtain ⟨hread, hnone⟩ := andThen_rule_eq_valid.1 ha
  exact andThen_rule_eq_valid.2 ⟨h d a hread hP, hnone⟩

theorem given?_ofMembers {members : Dict Value} {name : String} {v : Value}
    (hv : members.get? name = some v) (others : List String) :
    given? (Document.ofMembers members) (name :: others) = some (name, .ofValue v) := by
  rw [given?, List.findSome?_cons, Document.get?_ofMembers, hv]
  rfl

/-- A field is read again from members that have it under its first name. -/
theorem optional_written {check : Document → Checked α} {write : α → Value} {P : α → Prop}
    (hcheck : Rereads check (fun a => .ofValue (write a)) P)
    (hnull : ∀ a, (write a).isNull = false) {m : List (Scalar × Document)} {name : String}
    {others : List String} {a? : Option α} (h : optional m (name :: others) check = .valid a?)
    (hP : ∀ a ∈ a?, P a) {members : Dict Value} (hname : members.get? name = a?.map write)
    {names : List String} (hnames : Dict.keys members ⊆ names) (hothers : ∀ k ∈ others, k ∉ names) :
    optional (Document.ofMembers members) (name :: others) check = .valid a? := by
  cases a? with
  | none =>
    have hnone : given? (Document.ofMembers members) (name :: others) = none := by
      rw [given?, List.findSome?_eq_none_iff]
      intro k hk
      rw [Document.get?_ofMembers]
      rcases List.mem_cons.1 hk with rfl | hk
      · rw [hname]
        rfl
      · have hnot : k ∉ Dict.keys members := fun hmem => hothers k hk (hnames hmem)
        rw [Dict.mem_keys_iff, Option.not_isSome_iff_eq_none] at hnot
        rw [hnot]
        rfl
    rw [optional, hnone]
  | some a =>
    obtain ⟨_, d, -, hd⟩ := exists_of_optional h
    have hread : check (.ofValue (write a)) = .valid a := hcheck d a hd (hP a rfl)
    have hnull := hnull a
    rw [optional, given?_ofMembers hname]
    cases hv : write a with
    | null =>
      rw [hv] at hnull
      cases hnull
    | _ =>
      rw [hv] at hread
      exact map_eq_valid.2 ⟨a, below_eq_valid.2 hread, rfl⟩

theorem withDefault_written {check : Document → Checked α} {write : α → Value} {P : α → Prop}
    (hcheck : Rereads check (fun a => .ofValue (write a)) P) {default : α}
    (hdefault : check (.ofValue (write default)) = .valid default)
    {m : List (Scalar × Document)} {name : String} {a : α}
    (h : withDefault m name default check = .valid a) (hP : P a) {members : Dict Value}
    (hname : members.get? name = some (write a)) :
    withDefault (Document.ofMembers members) name default check = .valid a := by
  have hread : check (.ofValue (write a)) = .valid a := by
    rw [withDefault] at h
    split at h
    · cases h
      exact hdefault
    · exact hcheck _ a (below_eq_valid.1 h) hP
  rw [withDefault, Document.get?_ofMembers, hname]
  exact below_eq_valid.2 hread

theorem noOthers_ofMembers {members : Dict Value} {fields : List (List String)}
    (h : Dict.keys members ⊆ fields.filterMap List.head?) :
    noOthers (Document.ofMembers members) fields = .valid () := by
  refine map_eq_valid.2 ⟨members.map fun _ => (), ?_, rfl⟩
  rw [all_eq_valid, Document.ofMembers_eq, List.map_map, List.map_map]
  refine List.map_congr_left fun m hm => ?_
  obtain ⟨names, hnames, hhead⟩ := List.mem_filterMap.1 (h (Dict.mem_keys_of_mem hm))
  obtain ⟨others, rfl⟩ := List.head?_eq_some_iff.1 hhead
  obtain ⟨v, hv⟩ := Option.isSome_iff_exists.1 (Dict.mem_keys_iff.1 (Dict.mem_keys_of_mem hm))
  have hused : m.1 ∈ fields.filterMap fun names =>
      (given? (Document.ofMembers members) names).map (·.1) :=
    List.mem_filterMap.2 ⟨_, hnames, by rw [given?_ofMembers hv]; rfl⟩
  rw [Document.ofMembers_eq] at hused
  simp [hused]

/-- A structure is read again if the fields it is written with are, each under its first name. -/
theorem rereads_closed {fields : List (List String)}
    {check : List (Scalar × Document) → Checked α} {write : α → Value} {P : α → Prop}
    (h : ∀ m a, check m = .valid a → P a → ∃ members, write a = .map members
      ∧ Dict.keys members ⊆ fields.filterMap List.head?
      ∧ check (Document.ofMembers members) = .valid a) :
    Rereads (closed fields check) (fun a => .ofValue (write a)) P := by
  intro d a ha hP
  obtain ⟨m, hm, -⟩ := exists_of_closed ha
  obtain ⟨members, hwrite, hfields, hcheck⟩ := h m a hm hP
  dsimp only
  rw [hwrite]
  exact map_eq_valid.2 ⟨((), a), both_eq_valid.2 ⟨noOthers_ofMembers hfields, hcheck⟩, rfl⟩

end

end Check
end AtomicCss
