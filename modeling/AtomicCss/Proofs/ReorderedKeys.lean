import AtomicCss.Proofs.Filing
import AtomicCss.Proofs.Reordering
import AtomicCss.Proofs.Sheets

/-!
# The keys of reordered sections

Elements that agree up to the order of members are compiled to the same keys, each as often, in
whatever order. Sizes, breakpoints and properties are walked in the order of the file, states and
tracks in fixed orders, in which only look-ups matter.
-/
namespace AtomicCss

namespace Keys

section Responsive

variable {property : String} {scope : Scope} {v w : Value} {l r : List SizedKey}

theorem keysAtSize_perm {size : String} (h : v.ReorderedTo 1 w)
    (hl : keysAtSize property scope size v = .ok l)
    (hr : keysAtSize property scope size w = .ok r) : l.Perm r := by
  rcases h with rfl | ⟨d, e, rfl, rfl, h⟩
  · rw [Except.ok.inj (hl.symm.trans hr)]
  · refine matched_eq_iff.1 (h.matched.of_mapM ?_ hl hr)
    rintro ⟨breakpoint, v⟩ ⟨_, w⟩ a b ⟨rfl, hvw⟩ - ha hb
    obtain rfl : v = w := hvw
    exact Except.ok.inj (ha.symm.trans hb)

theorem responsive_perm (h : v.ReorderedTo 2 w) (hl : responsive property scope v = .ok l)
    (hr : responsive property scope w = .ok r) : l.Perm r := by
  rcases h with rfl | ⟨d, e, rfl, rfl, h⟩
  · rw [Except.ok.inj (hl.symm.trans hr)]
  · simp only [responsive, bind_eq_ok, pure_eq_ok] at hl hr
    obtain ⟨ls, hls, rfl⟩ := hl
    obtain ⟨rs, hrs, rfl⟩ := hr
    apply Matched.flatten_perm
    refine h.matched.of_mapM ?_ hls hrs
    rintro ⟨size, v⟩ ⟨_, w⟩ a b ⟨rfl, hvw⟩ - ha hb
    exact keysAtSize_perm hvw ha hb

end Responsive

/-- Maps of a border radius that agree up to order: below a state down to the breakpoints. -/
abbrev RadiusReordered : Dict Value → Dict Value → Prop :=
  Reordered fun k => Value.ReorderedTo (Document.depthIn 2 k)

theorem radiusInState_perm {label : String} {scope : Scope} {v? w? : Option Value}
    (h : Option.Rel (Value.ReorderedTo 2) v? w?) {l r : List (String × String)}
    (hl : radiusInState label scope v? = .ok l) (hr : radiusInState label scope w? = .ok r) :
    l.Perm r := by
  cases h with
  | none => rw [Except.ok.inj (hl.symm.trans hr)]
  | some hvw =>
    simp only [radiusInState, bind_eq_ok, pure_eq_ok] at hl hr
    obtain ⟨ls, hls, rfl⟩ := hl
    obtain ⟨rs, hrs, rfl⟩ := hr
    exact (responsive_perm hvw hls hrs).map _

/-- A walk in a fixed order over states whose values agree up to order. -/
theorem radiusInStates_perm {states : List InteractionState} {label : InteractionState → String}
    {scope : InteractionState → Scope} {d e : Dict Value}
    (h : ∀ s ∈ states, Option.Rel (Value.ReorderedTo 2) (Value.member? d s.name)
      (Value.member? e s.name)) {ls rs : List (List (String × String))}
    (hl : states.mapM (fun s => radiusInState (label s) (scope s) (Value.member? d s.name))
      = .ok ls)
    (hr : states.mapM (fun s => radiusInState (label s) (scope s) (Value.member? e s.name))
      = .ok rs) : ls.flatten.Perm rs.flatten := by
  apply Matched.flatten_perm
  have hsame : Matched Eq states states := matched_eq_iff.2 (.refl states)
  refine hsame.mem.of_mapM ?_ hl hr
  rintro s _ a b ⟨⟨hs, -⟩, rfl⟩ - ha hb
  exact radiusInState_perm (h s hs) ha hb

theorem ofBorderRadius_perm {d e : Dict Value} (h : RadiusReordered d e) {a b : Buckets}
    (ha : ofBorderRadius d = .ok a) (hb : ofBorderRadius e = .ok b) :
    (Entry.bucketKeys (some a)).Perm (Entry.bucketKeys (some b)) := by
  have hplain : ∀ s ∈ InteractionState.inEffect, Option.Rel (Value.ReorderedTo 2)
      (Value.member? d s.name) (Value.member? e s.name) := by
    intro s hs
    have hdepth : ∀ s ∈ InteractionState.inEffect, Document.depthIn 2 s.name = 2 := by decide
    have hlook := h.get? s.name
    rw [hdepth s hs] at hlook
    exact rel_filter hlook fun _ _ hvw => by rw [hvw.isNull_eq]
  have hselected : (d.getD InteractionState.selected.name .null).ReorderedTo 3
      (e.getD InteractionState.selected.name .null) :=
    Value.reorderedTo_getD (h.get? InteractionState.selected.name)
  simp only [ofBorderRadius, bind_eq_ok, pure_eq_ok] at ha hb
  obtain ⟨plain, hp, below, hs, rfl⟩ := ha
  obtain ⟨plain', hp', below', hs', rfl⟩ := hb
  refine (bucketKeys_file_perm _).trans (List.Perm.trans ?_ (bucketKeys_file_perm _).symm)
  rw [List.flatten_append, List.flatten_append]
  apply List.Perm.map
  apply List.Perm.append
  · exact radiusInStates_perm hplain hp hp'
  · exact radiusInStates_perm (fun s _ => hselected.member? s.name) hs hs'

section Shadow

variable {s t : Shadow} (free : Document → Value)

/-- A part of a shadow that is given by state, or empty. -/
theorem shadowPart_eq {α : Type} {shadow : Dict Value} {part : String} {f : α → Value}
    {a? : Option (List (InteractionState × α))} (h : shadow.get? part = a?.map (byState f)) :
    shadowPart shadow part = (a?.getD []).map fun m => (m.1.name, f m.2) := by
  rw [shadowPart, Dict.getD, h]
  cases a? <;> rfl

/-- A part of shadows that is the same up to the order of states. -/
theorem reordered_shadowPart {α : Type} {shadow shadow' : Dict Value} {part : String}
    {f : α → Value} {a? b? : Option (List (InteractionState × α))}
    (h : Option.Rel (Reordered fun _ => Eq) a? b?) (ha : shadow.get? part = a?.map (byState f))
    (hb : shadow'.get? part = b?.map (byState f)) :
    Reordered (fun _ => Eq) (shadowPart shadow part) (shadowPart shadow' part) := by
  rw [shadowPart_eq ha, shadowPart_eq hb]
  exact (Reordered.getD h).map (f := fun _ => f) (g := fun _ => f)
    InteractionState.name_injective fun _ _ _ hab => congrArg f hab

def SameParts (shadow shadow' : Dict Value) : Prop :=
  ∀ part ∈ shadowParts,
    Reordered (fun _ => Eq) (shadowPart shadow part.1) (shadowPart shadow' part.1)

theorem get?_membersWith (s : Shadow) :
    Dict.get? (s.membersWith free) "x" = s.x.map (byState .number)
      ∧ Dict.get? (s.membersWith free) "y" = s.y.map (byState .number)
      ∧ Dict.get? (s.membersWith free) "blur" = s.blur.map (byState .number)
      ∧ Dict.get? (s.membersWith free) "color" = s.color.map (byState fun c => free (.list c)) := by
  simp [Shadow.membersWith, Dict.get?_list_append, get?_optionalMember]

/-- Shadows, written out, that agree up to the order of states. -/
def ShadowReordered (d e : Dict Value) : Prop :=
  ∃ s t : Shadow, s.ReorderedTo t ∧ d = s.membersWith free ∧ e = t.membersWith free

theorem sameParts (h : s.ReorderedTo t) : SameParts (s.membersWith free) (t.membersWith free) := by
  obtain ⟨hx, hy, hblur, hcolor⟩ := get?_membersWith free s
  obtain ⟨hx', hy', hblur', hcolor'⟩ := get?_membersWith free t
  intro part hpart
  simp only [shadowParts, List.mem_cons, List.not_mem_nil, or_false] at hpart
  rcases hpart with rfl | rfl | rfl | rfl
  · exact reordered_shadowPart h.x hx hx'
  · exact reordered_shadowPart h.y hy hy'
  · exact reordered_shadowPart h.blur hblur hblur'
  · exact reordered_shadowPart h.color hcolor hcolor'

theorem isEmpty_membersWith (h : s.ReorderedTo t) :
    (s.membersWith free).isEmpty = (t.membersWith free).isEmpty := by
  have hnone : ∀ {α β : Type} {R : α → β → Prop} {a? : Option α} {b? : Option β},
      Option.Rel R a? b? → (a? = none ↔ b? = none) := by
    intro _ _ _ _ _ h
    cases h <;> simp
  have hmember : ∀ {α : Type} (name : String) (f : α → Value) (a? : Option α),
      optionalMember name f a? = [] ↔ a? = none := by
    intro _ _ _ a?
    cases a? <;> simp [optionalMember]
  rw [Bool.eq_iff_iff]
  simp only [Shadow.membersWith, List.isEmpty_iff, List.append_eq_nil_iff, hmember, hnone h.x,
    hnone h.y, hnone h.blur, hnone h.color]

variable {shadow shadow' : Dict Value} (h : SameParts shadow shadow')
include h

theorem SameParts.shadowStates_perm : (shadowStates shadow).Perm (shadowStates shadow') := by
  apply (List.perm_ext_iff_of_nodup (nodup_eraseDups _) (nodup_eraseDups _)).2
  intro state
  rw [List.mem_eraseDups, List.mem_eraseDups, List.mem_cons, List.mem_cons, List.mem_flatMap,
    List.mem_flatMap]
  refine or_congr_right (exists_congr fun part => and_congr_right fun hpart => ?_)
  exact (h part hpart).keys_perm.mem_iff

theorem SameParts.shadowKey_eq (state : String) :
    shadowKey shadow state = shadowKey shadow' state := by
  have hmember : ∀ part ∈ shadowParts, ∀ k, Value.member? (shadowPart shadow part.1) k
      = Value.member? (shadowPart shadow' part.1) k := by
    intro part hpart k
    rw [Value.member?, Value.member?, eq_of_rel ((h part hpart).get? k)]
  have hvalues : shadowValues shadow state = shadowValues shadow' state := by
    apply List.map_congr_left
    intro part hpart
    simp only [shadowValue, hmember part hpart]
  rw [shadowKey, shadowKey, hvalues]

theorem SameParts.ofShadow_perm {a b : Buckets} (ha : ofShadow shadow = .ok a)
    (hb : ofShadow shadow' = .ok b) :
    (Entry.bucketKeys (some a)).Perm (Entry.bucketKeys (some b)) := by
  have hkeys : ∀ {shadow : Dict Value} {b : Buckets}, ofShadow shadow = .ok b →
      ∃ keys, (shadowStates shadow).mapM (shadowKey shadow) = .ok keys ∧ b = file keys [] := by
    intro shadow b hb
    rw [ofShadow] at hb
    split at hb
    · cases hb
    · simp only [bind_eq_ok, pure_eq_ok] at hb
      simpa [eq_comm] using hb
  obtain ⟨keys, hmap, rfl⟩ := hkeys ha
  obtain ⟨keys', hmap', rfl⟩ := hkeys hb
  refine (bucketKeys_file_perm _).trans (List.Perm.trans ?_ (bucketKeys_file_perm _).symm)
  apply List.Perm.map
  refine matched_eq_iff.1 ((matched_eq_iff.2 h.shadowStates_perm).of_mapM ?_ hmap hmap')
  rintro state _ a b rfl - ha hb
  rw [h.shadowKey_eq] at ha
  exact Except.ok.inj (ha.symm.trans hb)

end Shadow

/-- The keys of a part of the effects that both elements have or both lack. -/
theorem ofPart_perm {R : Dict Value → Dict Value → Prop}
    {keys : Dict Value → Except CompileError Buckets} {effects effects' : Dict Value}
    {name : String} (h : Option.Rel R ((effects.getD name .null).map?)
      ((effects'.getD name .null).map?))
    (hempty : ∀ d e, R d e → d.isEmpty = e.isEmpty)
    (hkeys : ∀ d e a b, R d e → keys d = .ok a → keys e = .ok b →
      (Entry.bucketKeys (some a)).Perm (Entry.bucketKeys (some b))) {a b : Buckets}
    (ha : ofPart effects name keys = .ok a) (hb : ofPart effects' name keys = .ok b) :
    (Entry.bucketKeys (some a)).Perm (Entry.bucketKeys (some b)) := by
  have hfilled := rel_filter (p := fun d => !d.isEmpty) (q := fun d => !d.isEmpty) h
    fun d e hde => by rw [hempty d e hde]
  rw [ofPart] at ha hb
  generalize ((effects.getD name .null).map?).filter (fun d => !d.isEmpty) = d? at ha hfilled
  generalize ((effects'.getD name .null).map?).filter (fun d => !d.isEmpty) = e? at hb hfilled
  cases hfilled with
  | none => rw [← pure_eq_ok.1 ha, ← pure_eq_ok.1 hb]
  | some hde => exact hkeys _ _ _ _ hde ha hb

end Keys

/-- The border radius of effects is written out state by state. -/
theorem numeralsOnly_freeMap {radius : Dict Document} (h : (radius.map (·.1)).Nodup) :
    (freeMap radius).numeralsOnly = .map (radius.map fun m => (m.1, m.2.numeralsOnly)) := by
  have hkeys : (radius.map fun m => (Scalar.text m.1, m.2)).map (fun m => Document.keyText m.1)
      = radius.map (·.1) := by
    rw [List.map_map]
    rfl
  rw [Document.numeralsOnly, freeMap, Document.toValue_map (hkeys.symm ▸ h), Value.numeralsOnly,
    Value.numeralsOnlyMembers_eq, List.map_map, List.map_map]
  rfl

/-- Border radii that agree up to order are written out as maps that do. -/
theorem radiusReordered {radius radius' : Dict Document}
    (h : Reordered (fun k => Document.ReorderedTo (Document.depthIn 2 k)) radius radius')
    (hkeys : ∀ m ∈ radius, m.2.DistinctKeys (Document.depthIn 2 m.1)) :
    Keys.RadiusReordered (radius.map fun m => (m.1, m.2.numeralsOnly))
      (radius'.map fun m => (m.1, m.2.numeralsOnly)) where
  nodup := by
    rw [List.map_map]
    exact h.nodup
  matched := by
    apply h.matched.mem.map
    rintro ⟨k, d⟩ ⟨_, e⟩ ⟨⟨hd, -⟩, rfl, hde⟩
    exact ⟨rfl, (hde.toValue (hkeys _ hd)).numeralsOnly⟩

namespace Compiled.SectionsOf

variable {e f : Element} {entry entry' : Entry} {section? section?' : Option Keys.PaletteSection}

theorem map?_effectMembers (e : Element) :
    ((effectMembers e).getD "shadow" .null).map?
        = (e.effects.bind (·.shadow)).map (·.membersWith Document.numeralsOnly)
      ∧ ((effectMembers e).getD "borderRadius" .null).map?
        = (e.effects.bind (·.borderRadius)).bind fun r => (freeMap r).numeralsOnly.map? := by
  rw [effectMembers]
  cases e.effects with
  | none => exact ⟨rfl, rfl⟩
  | some x =>
    obtain ⟨shadow, radius⟩ := x
    simp only [Option.map_some, Option.getD_some, Effects.membersWith, Dict.getD,
      Dict.get?_list_append, Keys.get?_optionalMember]
    cases shadow <;> cases radius <;> simp [Value.map?]

/-- The keys of effects that agree up to order. -/
theorem effectKeys_perm (h : Option.Rel Effects.ReorderedTo e.effects f.effects)
    (hkeys : ∀ x ∈ e.effects, x.DistinctKeys) (he : SectionsOf e entry section?)
    (hf : SectionsOf f entry' section?') :
    (Entry.bucketKeys entry.effects).Perm (Entry.bucketKeys entry'.effects) := by
  obtain ⟨shadow, radius, hs, hr, hperm⟩ := he.exists_effectKeys
  obtain ⟨shadow', radius', hs', hr', hperm'⟩ := hf.exists_effectKeys
  obtain ⟨hshadow, hradius⟩ := map?_effectMembers e
  obtain ⟨hshadow', hradius'⟩ := map?_effectMembers f
  refine hperm.trans (List.Perm.trans (List.Perm.append ?_ ?_) hperm'.symm)
  · have hrel : Option.Rel (Keys.ShadowReordered Document.numeralsOnly)
        ((e.effects.bind (·.shadow)).map (·.membersWith Document.numeralsOnly))
        ((f.effects.bind (·.shadow)).map (·.membersWith Document.numeralsOnly)) :=
      rel_map (rel_bind h fun _ _ _ hxy => hxy.shadow) fun s t hst => ⟨s, t, hst, rfl, rfl⟩
    rw [← hshadow, ← hshadow'] at hrel
    refine Keys.ofPart_perm hrel ?_ ?_ hs hs'
    · rintro _ _ ⟨s, t, hst, rfl, rfl⟩
      exact Keys.isEmpty_membersWith _ hst
    · rintro _ _ a b ⟨s, t, hst, rfl, rfl⟩ ha hb
      exact (Keys.sameParts _ hst).ofShadow_perm ha hb
  · have hrel : Option.Rel Keys.RadiusReordered
        ((e.effects.bind (·.borderRadius)).bind fun r => (freeMap r).numeralsOnly.map?)
        ((f.effects.bind (·.borderRadius)).bind fun r => (freeMap r).numeralsOnly.map?) := by
      refine rel_bind (rel_bind h fun _ _ _ hxy => hxy.borderRadius) fun r hr r' hrr' => ?_
      obtain ⟨x, hx, hr⟩ := Option.bind_eq_some_iff.1 hr
      have hdistinct := hkeys x hx
      rw [Effects.DistinctKeys, hr] at hdistinct
      rw [numeralsOnly_freeMap hrr'.nodup, numeralsOnly_freeMap hrr'.nodup_right]
      exact .some (radiusReordered hrr' hdistinct)
    rw [← hradius, ← hradius'] at hrel
    exact Keys.ofPart_perm hrel (fun _ _ h => h.isEmpty_eq)
      (fun _ _ _ _ h => Keys.ofBorderRadius_perm h) hr hr'

/-- The keys of scales that agree up to order. -/
theorem scaleKeys_perm
    (h : Option.Rel (Reordered fun _ a b => Value.ReorderedTo 2 a.toValue b.toValue) e.scales
      f.scales) (he : SectionsOf e entry section?) (hf : SectionsOf f entry' section?') :
    (Entry.bucketKeys entry.scales).Perm (Entry.bucketKeys entry'.scales) := by
  obtain ⟨parts, hparts, hperm⟩ := he.exists_scaleKeys
  obtain ⟨parts', hparts', hperm'⟩ := hf.exists_scaleKeys
  refine hperm.trans (List.Perm.trans (List.Perm.map _ ?_) hperm'.symm)
  apply Matched.flatten_perm
  refine (Reordered.getD h).matched.of_mapM ?_ hparts hparts'
  rintro ⟨p, scale⟩ ⟨_, scale'⟩ a b ⟨rfl, hscale⟩ - ha hb
  exact Keys.responsive_perm hscale ha hb

end Compiled.SectionsOf
end AtomicCss
