import AtomicCss.Css.Color
import AtomicCss.Proofs.Filing
import AtomicCss.Proofs.Reordering

/-!
# The colors of reordered palettes

Palettes that agree up to the order of members have the same colors, apart from the order of members
of what stands under `selected` and is itself a color. Such a color is a map, and the key of a map
has no rule.
-/
namespace AtomicCss

/-- Colors of one state whose values agree up to order. -/
structure StateColor.ReorderedTo (c d : StateColor) : Prop where
  state : c.state = d.state
  controlState : c.controlState = d.controlState
  value : c.value.ReorderedTo 1 d.value

/-- Colors at one place and of one state whose values agree up to order. -/
structure AuthoredColor.ReorderedTo (c d : AuthoredColor) : Prop
    extends c.toStateColor.ReorderedTo d.toStateColor where
  palette : c.palette = d.palette
  property : c.property = d.property
  role : c.role = d.role
  track : c.track = d.track

theorem StateColor.reorderedTo_refl (c : StateColor) : c.ReorderedTo c :=
  ⟨rfl, rfl, Document.reorderedTo_refl 1 c.value⟩

namespace Keys

theorem hasRest_eq (d : Document) :
    hasRest d = (Document.get? (d.map?.getD []) InteractionState.rest.name).isSome := by
  cases h : d.map? with
  | none => simp [hasRest, h, Document.get?]
  | some members => simp [hasRest, h]

/-- The colors of a state, if what the tracks have under each state agrees up to order. -/
theorem colorsIn_matched {m n : List (Scalar × Document)}
    (h : ∀ k, Option.Rel (Document.ReorderedTo (Document.depthIn 0 k)) (Document.get? m k)
      (Document.get? n k)) (s : InteractionState) :
    Matched StateColor.ReorderedTo (colorsIn m s) (colorsIn n s) := by
  have hlook : Option.Rel (Document.ReorderedTo (Document.depthIn 0 s.name))
      (Document.member? m s.name) (Document.member? n s.name) :=
    rel_filter (h s.name) fun _ _ hde => by rw [hde.isNull_eq]
  have hrefl : ∀ l : List StateColor, Matched StateColor.ReorderedTo l l :=
    fun l => .of_forall₂ (List.forall₂_same.2 fun c _ => c.reorderedTo_refl)
  rw [colorsIn, colorsIn]
  generalize Document.member? m s.name = d? at hlook
  generalize Document.member? n s.name = e? at hlook
  cases hlook with
  | none => exact hrefl []
  | @some d e hde =>
    by_cases hs : s = .selected
    · -- Below `selected` the members are looked up, and each is the same.
      subst hs
      replace hde : d.ReorderedTo 1 e := hde
      have hget : ∀ k, Document.get? (d.map?.getD []) k = Document.get? (e.map?.getD []) k :=
        fun k => eq_of_rel (hde.get? k)
      have hrest : hasRest d = hasRest e := by rw [hasRest_eq, hasRest_eq, hget]
      cases hd : hasRest e with
      | true =>
        simp only [hrest, hd, Document.member?, hget]
        exact hrefl _
      | false =>
        simp only [hrest, hd, Bool.and_false, Bool.false_eq_true, if_false]
        exact .of_forall₂ (.cons ⟨rfl, rfl, hde⟩ .nil)
    · have hdepth : Document.depthIn 0 s.name = 0 := by
        cases s <;> first | rfl | exact absurd rfl hs
      rw [hdepth] at hde
      obtain rfl : d = e := hde
      exact hrefl _

/-- What tracks that agree up to the order of states have under a state. -/
theorem get?_trackStates {role role' : Document} (h : role.TracksReordered role') (t : Track)
    (k : String) : Option.Rel (Document.ReorderedTo (Document.depthIn 0 k))
      (Document.get? (trackStates role t) k) (Document.get? (trackStates role' t) k) := by
  have hrefl : ∀ d? : Option Document,
      Option.Rel (Document.ReorderedTo (Document.depthIn 0 k)) d? d? := by
    intro d?
    cases d? with
    | none => exact .none
    | some d => exact .some (Document.reorderedTo_refl _ d)
  rcases h with rfl | ⟨m, n, rfl, rfl, h⟩
  · exact hrefl _
  · have hlook := h.getDocument? t.name
    simp only [trackStates, Document.map?, Option.getD_some]
    generalize Document.get? m t.name = d? at hlook
    generalize Document.get? n t.name = e? at hlook
    cases hlook with
    | none => exact hrefl none
    | some hde =>
      rcases hde with rfl | ⟨m, n, rfl, rfl, hmn⟩
      · exact hrefl _
      · exact hmn.getDocument? k

theorem colorsOnTrack_matched {role role' : Document} (h : role.TracksReordered role')
    (t : Track) :
    Matched StateColor.ReorderedTo (colorsOnTrack role t) (colorsOnTrack role' t) := by
  have hstates : Matched Eq InteractionState.inPalette InteractionState.inPalette :=
    matched_eq_iff.2 (.refl _)
  apply hstates.flatMap
  rintro s _ rfl
  exact colorsIn_matched (get?_trackStates h t) s

end Keys

/-- Palettes that agree up to order have colors that do. -/
theorem Palettes.colors_matched {p q : Palettes}
    (h : Reordered (fun _ => Reordered fun _ => Reordered fun _ => Document.TracksReordered) p q) :
    Matched AuthoredColor.ReorderedTo p.colors q.colors := by
  apply h.matched.flatMap
  rintro ⟨palette, properties⟩ ⟨_, properties'⟩ ⟨rfl, hproperties⟩
  apply hproperties.matched.flatMap
  rintro ⟨property, roles⟩ ⟨_, roles'⟩ ⟨rfl, hroles⟩
  apply hroles.matched.flatMap
  rintro ⟨role, d⟩ ⟨_, d'⟩ ⟨rfl, hd⟩
  have htracks : Matched Eq Track.all Track.all := matched_eq_iff.2 (.refl _)
  apply htracks.flatMap
  rintro t _ rfl
  exact (Keys.colorsOnTrack_matched hd t).map fun _ _ hcd => ⟨hcd, rfl, rfl, rfl, rfl⟩

namespace Json

theorem exists_write_map (f : Layout) (depth : Nat) (members : List (String × Value)) :
    ∃ front, (write f depth (.map members)).toList = front ++ ['\x7d'] := by
  cases members with
  | nil => exact ⟨['\x7b'], by rw [write]; rfl⟩
  | cons m members =>
    obtain ⟨k, v⟩ := m
    rw [write, String.toList_append]
    exact ⟨_, rfl⟩

end Json

namespace AuthoredColor

theorem emit_congr {c d : AuthoredColor} (h : c.ReorderedTo d)
    (hvalue : Keys.unwrapRef c.value = Keys.unwrapRef d.value) : c.emit = d.emit := by
  simp only [emit, Keys.emit, hvalue, h.palette, h.property, h.role, h.track, h.state,
    h.controlState]

/-- The key of a map has no brackets at its end. -/
theorem bracketed?_key_of_map {c : AuthoredColor} {e : Keys.Emission} (h : c.emit = .ok e)
    {members : List (Scalar × Document)} (hmap : (Keys.unwrapRef c.value).1 = .map members) :
    Rule.bracketed? e.key.toList = none := by
  obtain ⟨json, hjson, hkey, -⟩ := emit_eq_ok.1 h
  obtain ⟨entries, rfl⟩ : ∃ entries, json = .map entries := by
    rw [hmap] at hjson
    obtain ⟨-, hentries⟩ := Document.json_eq_ok.1 hjson
    rw [Document.jsonValue] at hentries
    obtain ⟨entries, -, rfl⟩ := map_eq_ok.1 hentries
    exact ⟨entries, rfl⟩
  obtain ⟨front, hfront⟩ :=
    Json.exists_write_map .key 0 (Value.normalizeMembers entries)
  have htext : (StyleKey.valueText (c.coordinates (.map entries)).value).toList
      = front ++ ['\x7d'] := by
    rw [← hfront]
    rfl
  rw [((c.inVocabulary_coordinates _).eq_of_encode hkey).1]
  simp only [String.toList_append, htext, ← List.append_assoc]
  exact Rule.bracketed?_eq_none (by decide) (by decide)

/-- Colors that agree up to order have the same key, unless the key has no rule. -/
theorem emit_eq {c d : AuthoredColor} (h : c.ReorderedTo d) {e f : Keys.Emission}
    (he : c.emit = .ok e) (hf : d.emit = .ok f)
    (hrule : (Rule.bracketed? e.key.toList).isSome = true) : e = f := by
  suffices hvalue : Keys.unwrapRef c.value = Keys.unwrapRef d.value by
    rw [emit_congr h hvalue] at he
    exact Except.ok.inj (he.symm.trans hf)
  rcases h.value with heq | ⟨m, n, hc, hd, hmn⟩
  · rw [heq]
  · have hget : Document.get? m "ref" = Document.get? n "ref" := eq_of_rel (hmn.getDocument? "ref")
    rw [hc, hd, Keys.unwrapRef, Keys.unwrapRef, ← hget]
    cases href : Document.get? m "ref" with
    | some color => rfl
    | none =>
      have hmap : (Keys.unwrapRef c.value).1 = .map m := by rw [hc, Keys.unwrapRef, href]
      rw [bracketed?_key_of_map he hmap] at hrule
      cases hrule

end AuthoredColor

/-- Palettes of entries that are filed from the same keys, in whatever order. -/
structure Entry.SameColors (e f : Entry) : Prop where
  palettes : ∀ palette, palette ∈ Dict.keys (e.palettes.getD [])
    ↔ palette ∈ Dict.keys (f.palettes.getD [])
  hasColor : ∀ palette key, e.HasColor palette key ↔ f.HasColor palette key
  keys : e.paletteKeys.Perm f.paletteKeys

theorem Compiled.SectionsOf.sameColors {e f : Element} {entry entry' : Entry}
    {section? section?' : Option Keys.PaletteSection}
    (h : Option.Rel
      (Reordered fun _ => Reordered fun _ => Reordered fun _ => Document.TracksReordered)
      e.palettes f.palettes)
    (hrules : ∀ palette key, entry.HasColor palette key →
      (Rule.bracketed? key.toList).isSome = true) (he : SectionsOf e entry section?)
    (hf : SectionsOf f entry' section?') : entry.SameColors entry' := by
  obtain ⟨es, hes, hentry, -⟩ := he.exists_colorKeys
  obtain ⟨es', hes', hentry', -⟩ := hf.exists_colorKeys
  have hperm : es.Perm es' := by
    refine matched_eq_iff.1 ((Palettes.colors_matched (Reordered.getD h)).of_mapM ?_ hes hes')
    intro c d e f hcd hmem hc hd
    have hcolor := (Entry.hasColor_iff hentry).2 ⟨e, hmem, rfl, rfl⟩
    exact AuthoredColor.emit_eq hcd hc hd (hrules _ _ hcolor)
  constructor
  · intro palette
    rw [hentry, hentry', Keys.mem_keys_foldl_fileByLabel, Keys.mem_keys_foldl_fileByLabel]
    simp only [hperm.mem_iff]
  · intro palette key
    rw [Entry.hasColor_iff hentry, Entry.hasColor_iff hentry']
    simp only [hperm.mem_iff]
  · have hkeys : ∀ {entry : Entry} {es : List Keys.Emission},
        entry.palettes.getD [] = es.foldl Keys.fileByLabel [] →
        entry.paletteKeys.Perm (es.map (·.key)) := by
      intro entry es hentry
      rw [Entry.paletteKeys, hentry]
      exact Keys.allKeys_foldl_perm es
    exact (hkeys hentry).trans ((hperm.map _).trans (hkeys hentry').symm)

end AtomicCss
