import AtomicCss.Proofs.AlikeValues
import AtomicCss.Proofs.Naming
import AtomicCss.Proofs.PaletteColors

/-!
# Equal colors share a class

Colors with real numbers have the same text exactly if they are alike, and in one tree of keys they
share a class where they are used alike and never if they are not alike. Texts within colors count
as the same if their 16-bit units are: a character and the two halves of its surrogate pair, kept
one by one, are written as the same two escapes.
-/
namespace AtomicCss

namespace Document

mutual

theorem isEndless_ofValue : ∀ v : Value, (ofValue v).isEndless = false
  | .null | .bool _ | .number _ | .text _ => rfl
  | .list items => areEndless_ofItems items
  | .map members => membersEndless_ofMembers members

theorem areEndless_ofItems : ∀ items : List Value, areEndless (ofItems items) = false
  | [] => rfl
  | v :: items => by
    rw [ofItems, areEndless, isEndless_ofValue v, areEndless_ofItems items, Bool.or_self]

theorem membersEndless_ofMembers : ∀ members : List (String × Value),
    membersEndless (ofMembers members) = false
  | [] => rfl
  | (_, v) :: members => by
    rw [ofMembers, membersEndless, isEndless_ofValue v, membersEndless_ofMembers members,
      Bool.or_self]

end

theorem jsonScalar_number {n : Number} {v : Value} : jsonScalar (.number n) = .ok v
    ↔ (Value.number n).IsWritable ∧ .number n = v := by
  have hscalar : (Scalar.number n).IsWritable ↔ (Value.number n).IsWritable := by
    cases n <;> simp [Scalar.IsWritable, Value.IsWritable, Value.integers]
  rw [jsonScalar, ← hscalar]
  split
  · next h => simp [h]
  · next h => simp [h]

mutual

/-- A value is its own JSON, unless one of its integers is too long to be written. -/
theorem jsonValue_ofValue : ∀ v w : Value,
    (ofValue v).jsonValue = .ok w ↔ v.IsWritable ∧ v = w
  | .null, _ | .bool _, _ | .text _, _ => by
    simp [ofValue, jsonValue, jsonScalar, Value.IsWritable, Value.integers]
  | .number _, _ => jsonScalar_number
  | .list items, _ => by
    simp [ofValue, jsonValue, map_eq_ok, jsonItems_ofItems items, Value.isWritable_list, and_assoc]
  | .map members, _ => by
    simp [ofValue, jsonValue, map_eq_ok, jsonMembers_ofMembers members, Value.isWritable_map,
      and_assoc]

theorem jsonItems_ofItems : ∀ items others : List Value,
    jsonItems (ofItems items) = .ok others ↔ (∀ v ∈ items, v.IsWritable) ∧ items = others
  | [], _ => by simp [ofItems, jsonItems, pure_eq_ok]
  | v :: items, _ => by
    simp only [ofItems, jsonItems, bind_eq_ok, pure_eq_ok, jsonValue_ofValue v,
      jsonItems_ofItems items]
    simp [and_assoc]

theorem jsonMembers_ofMembers : ∀ members others : List (String × Value),
    jsonMembers (ofMembers members) = .ok others
      ↔ (∀ m ∈ members, m.2.IsWritable) ∧ members = others
  | [], _ => by simp [ofMembers, jsonMembers, pure_eq_ok]
  | (k, v) :: members, _ => by
    simp only [ofMembers, jsonMembers, jsonKey, bind_eq_ok, pure_eq_ok, jsonValue_ofValue v,
      jsonMembers_ofMembers members]
    simp [and_assoc]

end

theorem json_ofValue_eq_ok {v w : Value} : (ofValue v).json = .ok w ↔ v.IsWritable ∧ v = w := by
  rw [json_eq_ok, isEndless_ofValue, jsonValue_ofValue]
  exact and_iff_right rfl

end Document

namespace AuthoredColor

/-- Two colors are for one property in one state, and both are references or neither is. -/
structure SameUse (c d : AuthoredColor) : Prop where
  property : c.property = d.property
  state : c.state = d.state
  controlState : c.controlState = d.controlState
  isRef : (Keys.unwrapRef c.value).2 = (Keys.unwrapRef d.value).2

/-- A color that is a value, alone or by reference, has a key, and a tree has the key. -/
structure HasKey (c : AuthoredColor) (v : Value) (t : KeyTree) (key : String) : Prop where
  isValue : (Keys.unwrapRef c.value).1 = .ofValue v
  written : ∃ e, c.emit = .ok e ∧ e.key = key
  mem : key ∈ t.keys

variable {c d : AuthoredColor} {v w : Value} {t : KeyTree} {j k : String}

theorem HasKey.encode_eq (h : c.HasKey v t k) :
    StyleKey.encode (c.coordinates v) = .ok k := by
  obtain ⟨e, he, rfl⟩ := h.written
  obtain ⟨json, hjson, hkey, -⟩ := emit_eq_ok.1 he
  rw [h.isValue, Document.json_ofValue_eq_ok] at hjson
  rwa [hjson.2]

theorem HasKey.jsonText_eq (hc : c.HasKey v t k) (hd : d.HasKey w t k) :
    StyleKey.jsonText v = StyleKey.jsonText w := by
  have hread := StyleKey.Coordinates.decode_of_encode (c.inVocabulary_coordinates v) hc.encode_eq
  have hread' := StyleKey.Coordinates.decode_of_encode (d.inVocabulary_coordinates w) hd.encode_eq
  exact congrArg StyleKey.Decoded.value (Except.ok.inj (hread.symm.trans hread'))

/-- Colors of one text that are used alike have one key. -/
theorem SameUse.key_eq (huse : c.SameUse d) (hc : c.HasKey v t j) (hd : d.HasKey w t k)
    (htext : StyleKey.jsonText v = StyleKey.jsonText w) : j = k := by
  have hcoordinates : c.coordinates v = d.coordinates w := by
    rw [coordinates, coordinates, huse.property, huse.state, huse.controlState, huse.isRef, htext]
  have hkey := hc.encode_eq
  rw [hcoordinates, hd.encode_eq] at hkey
  exact (Except.ok.inj hkey).symm

end AuthoredColor

namespace Keys

theorem colorText_ofValue_eq_ok {v : Value} {s : String} :
    colorText (.ofValue v) = .ok s ↔ v.IsWritable ∧ StyleKey.jsonText v = s := by
  simp only [colorText, bind_eq_ok, mapError_eq_ok, pure_eq_ok, Document.json_ofValue_eq_ok]
  constructor
  · rintro ⟨_, ⟨hv, rfl⟩, hs⟩
    exact ⟨hv, hs⟩
  · rintro ⟨hv, hs⟩
    exact ⟨v, ⟨hv, rfl⟩, hs⟩

/-- A color with real numbers has a text unless one of its integers is too long to be written. Two
colors have the same one exactly if they are alike, their texts compared by 16-bit units, or as they
are where no half of a pair is kept. Where they are alike they share a class for one use, and colors
that share a class are alike. -/
theorem colorText_tellsColors {v w : Value} (hv : ∀ n ∈ v.numbers, n.IsReal)
    (hw : ∀ n ∈ w.numbers, n.IsReal) :
    ((∃ s, colorText (.ofValue v) = .ok s) ↔ v.IsWritable)
      ∧ (∀ s u, colorText (.ofValue v) = .ok s → colorText (.ofValue w) = .ok u →
        (s = u ↔ v.Alike Json.SameUnits w)
        ∧ ((∀ text ∈ v.strings ++ w.strings, Surrogate.isBroken text = false) →
          (s = u ↔ v.Alike (· = ·) w)))
      ∧ ∀ (c d : AuthoredColor) (t : KeyTree) (j k : String),
        c.HasKey v t j → d.HasKey w t k →
        (ClassName.of (Usage.classNames t) j = ClassName.of (Usage.classNames t) k →
          v.Alike Json.SameUnits w)
        ∧ (c.SameUse d → v.Alike Json.SameUnits w →
          ClassName.of (Usage.classNames t) j = ClassName.of (Usage.classNames t) k) := by
  have htext := StyleKey.jsonText_eq_iff hv hw
  refine ⟨?texts, ?equal, fun c d t j k hc hd => ⟨fun hclass => ?_, fun huse halike => ?_⟩⟩
  case texts =>
    simp only [colorText_ofValue_eq_ok, exists_and_left, exists_eq', and_true]
  case equal =>
    intro s u hs hu
    obtain ⟨-, rfl⟩ := colorText_ofValue_eq_ok.1 hs
    obtain ⟨-, rfl⟩ := colorText_ofValue_eq_ok.1 hu
    refine ⟨htext, fun hmended => ?_⟩
    obtain ⟨hs, hu⟩ := List.forall_mem_append.1 hmended
    exact htext.trans (Value.alike_congr v w fun s hsmem u humem =>
      Json.sameUnits_iff_eq (hs s hsmem) (hu u humem))
  · obtain rfl := Usage.classNames_inj hc.mem hd.mem hclass
    exact htext.1 (hc.jsonText_eq hd)
  · rw [huse.key_eq hc hd (htext.2 halike)]

def floatBlack : Value :=
  .list [.number (.float (.ofBits 0x8000000000000000)), .number (.int 0), .number (.float 0),
    .number (.float 1)]

def integerBlack : Value :=
  .list [.number (.int 0), .number (.int 0), .number (.int 0), .number (.int 1)]

def boxOf (color : Value) : AuthoredColor :=
  ⟨⟨.rest, false, .ofValue color⟩, "brand", .boxColor, "primary", .soft⟩

def blackKeys : PaletteKeys := [("brand", [("primary", [("rest", ["boxColor__[0,0,0,1]"])])])]

def blackTree : KeyTree := [("card", [("box", { palettes := some blackKeys })])]

theorem hasKey_boxOf {color : Value} (hlist : ∃ items, color = .list items)
    (hwritable : color.IsWritable)
    (htext : StyleKey.jsonText color = "[0,0,0,1]") :
    (boxOf color).HasKey color blackTree "boxColor__[0,0,0,1]" where
  isValue := by
    obtain ⟨items, rfl⟩ := hlist
    rfl
  written := by
    obtain ⟨items, rfl⟩ := hlist
    refine ⟨⟨"brand", "primary", _, .soft, "boxColor__[0,0,0,1]"⟩, AuthoredColor.emit_eq_ok.2
      ⟨.list items, Document.json_ofValue_eq_ok.2 ⟨hwritable, rfl⟩, ?_, rfl, rfl, rfl, rfl⟩, rfl⟩
    rw [AuthoredColor.coordinates, htext]
    rfl
  mem := by decide

theorem colorText_black :
    (∃ s, colorText (.ofValue floatBlack) = .ok s ∧ colorText (.ofValue integerBlack) = .ok s)
      ∧ ∃ j k, (boxOf floatBlack).HasKey floatBlack blackTree j
        ∧ (boxOf integerBlack).HasKey integerBlack blackTree k
        ∧ ClassName.of (Usage.classNames blackTree) j
          = ClassName.of (Usage.classNames blackTree) k := by
  have hfloats : ∀ n ∈ floatBlack.numbers, n.IsReal := by
    have hfinite : Float.isFinite (.ofBits 0x8000000000000000) = true
        ∧ Float.isFinite 0 = true ∧ Float.isFinite 1 = true := by decide +kernel
    simpa [floatBlack, Value.numbers, Value.itemNumbers, Number.IsReal] using hfinite
  have hintegers : ∀ n ∈ integerBlack.numbers, n.IsReal := by
    simp [integerBlack, Value.numbers, Value.itemNumbers, Number.IsReal]
  have halike : floatBlack.Alike Json.SameUnits integerBlack := by
    simp only [floatBlack, integerBlack, Value.Alike, Value.ItemsAlike]
    decide +kernel
  have hfloat : floatBlack.IsWritable := by decide
  have hinteger : integerBlack.IsWritable := by decide
  have hfloatKey := hasKey_boxOf ⟨_, rfl⟩ hfloat (by decide +kernel)
  have hintegerKey := hasKey_boxOf ⟨_, rfl⟩ hinteger (by decide +kernel)
  obtain ⟨⟨s, hs⟩, hequal, hclass⟩ :=
    (colorText_tellsColors hfloats hintegers).imp_left fun htext => htext.2 hfloat
  obtain ⟨u, hu⟩ := (colorText_tellsColors hintegers hfloats).1.2 hinteger
  have hsame := (hequal s u hs hu).1.2 halike
  exact ⟨⟨s, hs, hsame ▸ hu⟩, _, _, hfloatKey, hintegerKey,
    (hclass _ _ _ _ _ hfloatKey hintegerKey).2 ⟨rfl, rfl, rfl, rfl⟩ halike⟩

/-- A grinning face. -/
def grin : Value := .text (String.ofList [Char.ofNat 0x1F600])

/-- The two halves of the surrogate pair of a grinning face, each kept by itself. -/
def grinHalves : Value :=
  .text (String.ofList [Surrogate.kept 0xD83D, Surrogate.kept 0xDE00])

/-- The text does not tell a character from its lone halves, and an integer that is too long to be
written has none. -/
theorem colorText_grinHalves : ((∃ s, colorText (.ofValue grinHalves) = .ok s
      ∧ colorText (.ofValue grin) = .ok s) ∧ ¬grinHalves.Alike (· = ·) grin)
    ∧ ∀ s, colorText (.ofValue (.number (.int (10 ^ Numeral.digitLimit)))) ≠ .ok s := by
  have htext : StyleKey.jsonText grinHalves = StyleKey.jsonText grin := by decide +kernel
  have hhalves : grinHalves.IsWritable := List.forall_mem_nil _
  have hlong : ¬(Value.number (.int (10 ^ Numeral.digitLimit))).IsWritable := by decide +kernel
  refine ⟨⟨⟨_, colorText_ofValue_eq_ok.2 ⟨hhalves, rfl⟩, ?_⟩, ?_⟩, ?_⟩
  · exact colorText_ofValue_eq_ok.2 ⟨List.forall_mem_nil _, htext.symm⟩
  · exact fun h => absurd (show String.ofList _ = String.ofList _ from h) (by decide +kernel)
  · exact fun s h => hlong (colorText_ofValue_eq_ok.1 h).1

end Keys
end AtomicCss
