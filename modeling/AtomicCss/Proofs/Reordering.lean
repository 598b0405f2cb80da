import AtomicCss.Proofs.Matched
import AtomicCss.Proofs.Tree

/-!
# Maps in another order

What it is for two schemas to say the same in another order: each map has the same keys, no key
twice, and under each key values that agree. Below the fixed levels of a schema the order may
differ as deep as the parts of a style are walked, but not inside a color.
-/
namespace AtomicCss

variable {κ α β : Type}

theorem eq_of_rel {a b : Option α} (h : Option.Rel Eq a b) : a = b := by
  cases h with
  | none => rfl
  | some h => rw [h]

/-- What is kept of related values by conditions that are the same for them. -/
theorem rel_filter {R : α → β → Prop} {p : α → Bool} {q : β → Bool} {a : Option α} {b : Option β}
    (h : Option.Rel R a b) (hpq : ∀ x y, R x y → p x = q y) :
    Option.Rel R (a.filter p) (b.filter q) := by
  cases h with
  | none => exact .none
  | @some x y hxy =>
    rw [Option.filter_some, Option.filter_some, hpq x y hxy]
    cases q y with
    | true => exact .some hxy
    | false => exact .none

theorem rel_map {γ δ : Type} {R : α → β → Prop} {S : γ → δ → Prop} {f : α → γ} {g : β → δ}
    {a : Option α} {b : Option β} (h : Option.Rel R a b) (hfg : ∀ x y, R x y → S (f x) (g y)) :
    Option.Rel S (a.map f) (b.map g) := by
  cases h with
  | none => exact .none
  | some hxy => exact .some (hfg _ _ hxy)

theorem rel_bind {γ δ : Type} {R : α → β → Prop} {S : γ → δ → Prop} {f : α → Option γ}
    {g : β → Option δ} {a : Option α} {b : Option β} (h : Option.Rel R a b)
    (hfg : ∀ x ∈ a, ∀ y, R x y → Option.Rel S (f x) (g y)) :
    Option.Rel S (a.bind f) (b.bind g) := by
  cases h with
  | none => exact .none
  | some hxy => exact hfg _ rfl _ hxy

/-- Maps with the same keys in some order, none of them twice, and related values under each. -/
structure Reordered (R : κ → α → β → Prop) (d : List (κ × α)) (e : List (κ × β)) : Prop where
  nodup : (d.map (·.1)).Nodup
  matched : Matched (fun m n => m.1 = n.1 ∧ R m.1 m.2 n.2) d e

namespace Reordered

variable {R : κ → α → β → Prop} {d : List (κ × α)} {e : List (κ × β)}

theorem keys_perm (h : Reordered R d e) : (d.map (·.1)).Perm (e.map (·.1)) :=
  matched_eq_iff.1 (h.matched.map fun _ _ hmn => hmn.1)

theorem nodup_right (h : Reordered R d e) : (e.map (·.1)).Nodup :=
  h.keys_perm.nodup_iff.1 h.nodup

theorem nil : Reordered R [] [] := ⟨List.nodup_nil, .of_forall₂ .nil⟩

/-- Maps that may both be absent, an absent one read as empty. -/
theorem getD {d? : Option (List (κ × α))} {e? : Option (List (κ × β))}
    (h : Option.Rel (Reordered R) d? e?) : Reordered R (d?.getD []) (e?.getD []) := by
  cases h with
  | none => exact nil
  | some h => exact h

theorem map {κ' γ δ : Type} {S : κ' → γ → δ → Prop} {k : κ → κ'} (hk : Function.Injective k)
    {f : κ → α → γ} {g : κ → β → δ} (hfg : ∀ i a b, R i a b → S (k i) (f i a) (g i b))
    (h : Reordered R d e) :
    Reordered S (d.map fun m => (k m.1, f m.1 m.2)) (e.map fun m => (k m.1, g m.1 m.2)) where
  nodup := by
    have hkeys := h.nodup.map hk
    rw [List.map_map] at hkeys ⊢
    exact hkeys
  matched := by
    apply h.matched.map
    rintro ⟨i, a⟩ ⟨_, b⟩ ⟨rfl, hab⟩
    exact ⟨rfl, hfg i a b hab⟩

theorem isEmpty_eq (h : Reordered R d e) : d.isEmpty = e.isEmpty := by
  rw [Bool.eq_iff_iff, List.isEmpty_iff_length_eq_zero, List.isEmpty_iff_length_eq_zero,
    h.matched.length_eq]

/-- A look-up that finds just what a map has under a key finds related values, or none. -/
theorem look {k : κ} (h : Reordered R d e) {look : List (κ × α) → Option α}
    {look' : List (κ × β) → Option β}
    (hlook : ∀ d, (d.map (·.1)).Nodup → ∀ v, look d = some v ↔ (k, v) ∈ d)
    (hlook' : ∀ e, (e.map (·.1)).Nodup → ∀ w, look' e = some w ↔ (k, w) ∈ e) :
    Option.Rel (R k) (look d) (look' e) := by
  obtain ⟨m, hperm, hforall⟩ := h.matched
  cases hd : look d with
  | some v =>
    have hm := hperm.mem_iff.1 ((hlook d h.nodup v).1 hd)
    obtain ⟨⟨k', w⟩, he, rfl, hR⟩ := exists_right_of_forall₂ hforall hm
    rw [(hlook' e h.nodup_right w).2 he]
    exact .some hR
  | none =>
    cases he : look' e with
    | none => exact .none
    | some w =>
      obtain ⟨⟨k', v⟩, hm, rfl, -⟩ :=
        exists_left_of_forall₂ hforall ((hlook' e h.nodup_right w).1 he)
      rw [(hlook d h.nodup v).2 (hperm.mem_iff.2 hm)] at hd
      cases hd

end Reordered

theorem Dict.get?_eq_some_iff {d : Dict α} (hd : (d.map (·.1)).Nodup) {k : String} {v : α} :
    get? d k = some v ↔ (k, v) ∈ d := ⟨mem_of_get?, get?_of_mem hd⟩

theorem Dict.perm_of_get? {d e : Dict α} (hd : (d.map (·.1)).Nodup) (he : (e.map (·.1)).Nodup)
    (h : ∀ k, get? d k = get? e k) : d.Perm e := by
  apply (List.perm_ext_iff_of_nodup hd.of_map he.of_map).2
  rintro ⟨k, v⟩
  rw [← get?_eq_some_iff hd, ← get?_eq_some_iff he, h]

theorem Reordered.get? {R : String → α → β → Prop} {d : Dict α} {e : Dict β}
    (h : Reordered R d e) (k : String) : Option.Rel (R k) (d.get? k) (e.get? k) :=
  h.look (fun _ hd _ => Dict.get?_eq_some_iff hd) fun _ he _ => Dict.get?_eq_some_iff he

theorem Reordered.getDocument? {R : Scalar → Document → Document → Prop}
    {d e : List (Scalar × Document)} (h : Reordered R d e) (k : String) :
    Option.Rel (R (.text k)) (Document.get? d k) (Document.get? e k) :=
  h.look (fun _ hd _ => ⟨Document.mem_of_get?, Document.get?_of_mem hd⟩)
    fun _ he _ => ⟨Document.mem_of_get?, Document.get?_of_mem he⟩

/-- Values that agree up to the order of members, down to a depth of nesting. -/
def Value.ReorderedTo : Nat → Value → Value → Prop
  | 0, v, w => v = w
  | n + 1, v, w => v = w ∨ ∃ d e : List (String × Value), v = .map d ∧ w = .map e
      ∧ Reordered (fun _ => Value.ReorderedTo n) d e

namespace Document

/-- Documents that agree up to the order of members, down to a depth of nesting. -/
def ReorderedTo : Nat → Document → Document → Prop
  | 0, d, e => d = e
  | n + 1, d, e => d = e ∨ ∃ m n' : List (Scalar × Document), d = .map m ∧ e = .map n'
      ∧ Reordered (fun _ => ReorderedTo n) m n'

/-- No two keys of a map are the same when they are written as text, nor those of the maps in it
down to a depth of nesting. -/
def DistinctKeys : Nat → Document → Prop
  | n + 1, .map members =>
    (members.map fun m => keyText m.1).Nodup ∧ ∀ m ∈ members, DistinctKeys n m.2
  | _, _ => True

/-- How deep the order may differ below a state: as deep as below any, and below `selected`, which
holds states itself, one level more. -/
def depthIn (n : Nat) (state : String) : Nat :=
  if state = InteractionState.selected.name then n + 1 else n

/-- Tracks that agree up to the order of their states and of those below `selected`. -/
def StatesReordered (d e : Document) : Prop :=
  d = e ∨ ∃ m n, d = .map m ∧ e = .map n
    ∧ Reordered (fun k => ReorderedTo (depthIn 0 k.spoken)) m n

/-- Roles that agree up to the order of tracks and states. -/
def TracksReordered (d e : Document) : Prop :=
  d = e ∨ ∃ m n, d = .map m ∧ e = .map n ∧ Reordered (fun _ => StatesReordered) m n

end Document

theorem Value.reorderedTo_refl (n : Nat) (v : Value) : v.ReorderedTo n v := by
  cases n with
  | zero => rfl
  | succ n => exact .inl rfl

/-- Values that may both be absent, an absent one read as nothing. -/
theorem Value.reorderedTo_getD {n : Nat} {v? w? : Option Value}
    (h : Option.Rel (Value.ReorderedTo n) v? w?) :
    (v?.getD .null).ReorderedTo n (w?.getD .null) := by
  cases h with
  | none => exact reorderedTo_refl n .null
  | some h => exact h

theorem Value.ReorderedTo.isNull_eq {n : Nat} {v w : Value} (h : v.ReorderedTo n w) :
    v.isNull = w.isNull := by
  cases n with
  | zero => rw [h]
  | succ n =>
    rcases h with rfl | ⟨d, e, rfl, rfl, -⟩
    · rfl
    · rfl

theorem Document.reorderedTo_refl (n : Nat) (d : Document) : d.ReorderedTo n d := by
  cases n with
  | zero => rfl
  | succ n => exact .inl rfl

theorem Document.ReorderedTo.isNull_eq {n : Nat} {d e : Document} (h : d.ReorderedTo n e) :
    d.isNull = e.isNull := by
  cases n with
  | zero => rw [h]
  | succ n =>
    rcases h with rfl | ⟨m, n', rfl, rfl, -⟩
    · rfl
    · rfl

/-- The members of maps under a key, those of what is no map being none. -/
theorem Value.ReorderedTo.member? {n : Nat} {v w : Value} (h : v.ReorderedTo (n + 1) w)
    (k : String) : Option.Rel (Value.ReorderedTo n) (Value.member? (v.map?.getD []) k)
      (Value.member? (w.map?.getD []) k) := by
  rcases h with rfl | ⟨d, e, rfl, rfl, h⟩
  · cases Value.member? (v.map?.getD []) k with
    | none => exact .none
    | some v => exact .some (reorderedTo_refl n v)
  · exact rel_filter (h.get? k) fun _ _ hxy => by rw [hxy.isNull_eq]

theorem Document.ReorderedTo.get? {n : Nat} {d e : Document} (h : d.ReorderedTo (n + 1) e)
    (k : String) : Option.Rel (Document.ReorderedTo n) (Document.get? (d.map?.getD []) k)
      (Document.get? (e.map?.getD []) k) := by
  rcases h with rfl | ⟨l, r, rfl, rfl, h⟩
  · cases Document.get? (d.map?.getD []) k with
    | none => exact .none
    | some d => exact .some (reorderedTo_refl n d)
  · exact h.getDocument? k

namespace Document

theorem toMembers_eq (members : List (Scalar × Document)) :
    toMembers members = members.map fun m => (keyText m.1, m.2.toValue) := by
  induction members with
  | nil => rfl
  | cons m members ih => rw [toMembers, ih, List.map_cons]

/-- A map whose keys stay distinct is written out member by member. -/
theorem toValue_map {members : List (Scalar × Document)}
    (h : (members.map fun m => keyText m.1).Nodup) :
    (map members).toValue = .map (members.map fun m => (keyText m.1, m.2.toValue)) := by
  rw [toValue, toMembers_eq, Dict.ofList_of_nodup]
  simpa [Dict.keys, Function.comp_def] using h

/-- Documents that agree up to order are written out as values that do. -/
theorem ReorderedTo.toValue {n : Nat} {d e : Document} (h : d.ReorderedTo n e)
    (hkeys : d.DistinctKeys n) : d.toValue.ReorderedTo n e.toValue := by
  induction n generalizing d e with
  | zero =>
    obtain rfl : d = e := h
    rfl
  | succ n ih =>
    rcases h with rfl | ⟨l, r, rfl, rfl, h⟩
    · exact .inl rfl
    · obtain ⟨hl, hbelow⟩ := hkeys
      have hr : (r.map fun m => keyText m.1).Nodup := by
        have hperm := h.keys_perm.map keyText
        simp only [List.map_map, Function.comp_def] at hperm
        exact hperm.nodup_iff.1 hl
      refine .inr ⟨_, _, toValue_map hl, toValue_map hr, ?_, ?_⟩
      · simpa [Function.comp_def] using hl
      · refine h.matched.mem.map fun a b hab => ?_
        obtain ⟨⟨ha, -⟩, hkey, hab⟩ := hab
        exact ⟨congrArg keyText hkey, ih hab (hbelow a ha)⟩

end Document

theorem Value.numeralsOnlyMembers_eq (members : List (String × Value)) :
    numeralsOnlyMembers members = members.map fun m => (m.1, m.2.numeralsOnly) := by
  induction members with
  | nil => rfl
  | cons m members ih => rw [numeralsOnlyMembers, ih, List.map_cons]

theorem Value.ReorderedTo.numeralsOnly {n : Nat} {v w : Value} (h : v.ReorderedTo n w) :
    v.numeralsOnly.ReorderedTo n w.numeralsOnly := by
  induction n generalizing v w with
  | zero =>
    obtain rfl : v = w := h
    rfl
  | succ n ih =>
    rcases h with rfl | ⟨d, e, rfl, rfl, h⟩
    · exact .inl rfl
    · simp only [Value.numeralsOnly, numeralsOnlyMembers_eq]
      refine .inr ⟨_, _, rfl, rfl, h.map (k := fun k => k) (f := fun _ v => v.numeralsOnly)
        (g := fun _ v => v.numeralsOnly) Function.injective_id fun _ _ _ => ih⟩

/-- Shadows that agree up to the order of states. -/
structure Shadow.ReorderedTo (s t : Shadow) : Prop where
  x : Option.Rel (Reordered fun _ => Eq) s.x t.x
  y : Option.Rel (Reordered fun _ => Eq) s.y t.y
  blur : Option.Rel (Reordered fun _ => Eq) s.blur t.blur
  color : Option.Rel (Reordered fun _ => Eq) s.color t.color

namespace Effects

/-- Effects that agree up to the order of states, sizes and breakpoints. -/
structure ReorderedTo (e f : Effects) : Prop where
  shadow : Option.Rel Shadow.ReorderedTo e.shadow f.shadow
  borderRadius : Option.Rel (Reordered fun k => Document.ReorderedTo (Document.depthIn 2 k))
    e.borderRadius f.borderRadius

/-- No two keys of a map in the border radius are the same when they are written as text. -/
def DistinctKeys (e : Effects) : Prop :=
  ∀ m ∈ e.borderRadius.getD [], m.2.DistinctKeys (Document.depthIn 2 m.1)

end Effects

/-- Elements that agree up to the order of members. -/
structure Element.ReorderedTo (e f : Element) : Prop where
  decorations : e.decorations = f.decorations
  /-- Scale properties, and below them sizes and breakpoints. -/
  scales : Option.Rel (Reordered fun _ a b => Value.ReorderedTo 2 a.toValue b.toValue)
    e.scales f.scales
  /-- Palettes, and below them properties, roles, tracks and states. -/
  palettes : Option.Rel
    (Reordered fun _ => Reordered fun _ => Reordered fun _ => Document.TracksReordered)
    e.palettes f.palettes
  effects : Option.Rel Effects.ReorderedTo e.effects f.effects

namespace Schema

/-- Schemas that agree up to the order of members. -/
structure ReorderedTo (s t : Schema) : Prop where
  name : s.name = t.name
  version : s.version = t.version
  author : s.author = t.author
  breakpoints : Reordered (fun _ => Eq) s.breakpoints t.breakpoints
  components : Reordered
    (fun _ c d => Reordered (fun _ => Element.ReorderedTo) c.elements d.elements)
    s.components t.components

/-- In the border radii of a schema no two keys of a map are the same when they are written as
text. -/
def DistinctRadiusKeys (s : Schema) : Prop :=
  ∀ place ∈ s.places, ∀ e ∈ place.2.2.effects, e.DistinctKeys

namespace ReorderedTo

variable {s t : Schema}

theorem distinctPlaces (h : s.ReorderedTo t) : s.DistinctPlaces := by
  have hplaces := Dict.nodup_places h.components.nodup (fun c => c.elements) fun j c hc => by
    obtain ⟨m, hperm, hm⟩ := h.components.matched
    obtain ⟨d, -, -, hcd⟩ := exists_right_of_forall₂ hm (hperm.mem_iff.1 hc)
    exact hcd.nodup
  simpa [DistinctPlaces, places, Dict.keys, List.map_flatMap, Function.comp_def] using hplaces

/-- The elements stand at the same places and agree up to order. -/
theorem places (h : s.ReorderedTo t) :
    Matched (fun m n => (m.1 = n.1 ∧ m.2.1 = n.2.1) ∧ m.2.2.ReorderedTo n.2.2) s.places t.places :=
  h.components.matched.flatMap fun _ _ hcd => hcd.2.matched.map fun _ _ hef =>
    ⟨⟨hcd.1, hef.1⟩, hef.2⟩

theorem symm_distinctPlaces (h : s.ReorderedTo t) : t.DistinctPlaces := by
  have hplaces : (s.places.map fun m => (m.1, m.2.1)).Perm (t.places.map fun m => (m.1, m.2.1)) :=
    matched_eq_iff.1 (h.places.map fun _ _ hmn => Prod.ext hmn.1.1 hmn.1.2)
  exact hplaces.nodup_iff.1 h.distinctPlaces

end ReorderedTo
end Schema
end AtomicCss
