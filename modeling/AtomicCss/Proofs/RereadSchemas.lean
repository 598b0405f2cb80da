import AtomicCss.Proofs.Rereading

/-!
# Schemas are read again

Every section of an element, and so every schema, is read again from the document that is written
for it. Fields that are left out stay left out, what is nothing in a palette stays there, and the
numbers of scales, which may have been spelled, stand as numbers in what is written.
-/
namespace AtomicCss

theorem Dict.keys_list_append {α : Type} (d e : Dict α) :
    keys (d ++ e : List (String × α)) = keys d ++ keys e := List.map_append

theorem mem_keys_optionalMember {α : Type} {name k : String} {f : α → Value} {a? : Option α} :
    k ∈ Dict.keys (optionalMember name f a?) ↔ k = name ∧ a?.isSome := by
  cases a? <;> simp [optionalMember, Dict.keys]

namespace Decorations

variable (d : Decorations)

theorem keys_members : Dict.keys d.members
    ⊆ ["textFont", "textItalic", "textWeight", "textLineType", "textAlign", "borderStyle"] := by
  intro k hk
  simp only [members, Dict.keys_list_append, List.mem_append, mem_keys_optionalMember,
    DecorationProperty.name] at hk
  simp only [List.mem_cons]
  tauto

theorem get?_members :
    Dict.get? d.members "textFont" = d.textFont.map (fun fs => .list (fs.map .text))
      ∧ Dict.get? d.members "textItalic" = d.textItalic.map .bool
      ∧ Dict.get? d.members "textWeight" = d.textWeight.map (fun w => .text w.1)
      ∧ Dict.get? d.members "textLineType" = d.textLineType.map (fun w => .text w.1)
      ∧ Dict.get? d.members "textAlign" = d.textAlign.map (fun w => .text w.1)
      ∧ Dict.get? d.members "borderStyle" = d.borderStyle.map (fun w => .text w.1) := by
  simp [members, Dict.get?_list_append, Keys.get?_optionalMember, DecorationProperty.name]

end Decorations

theorem Shadow.keys_membersWith (free : Document → Value) (s : Shadow) :
    Dict.keys (s.membersWith free) ⊆ ["x", "y", "blur", "color"] := by
  intro k hk
  simp only [membersWith, Dict.keys_list_append, List.mem_append, mem_keys_optionalMember] at hk
  simp only [List.mem_cons]
  tauto

namespace Effects

variable (free : Document → Value) (x : Effects)

theorem keys_membersWith : Dict.keys (x.membersWith free) ⊆ ["shadow", "borderRadius"] := by
  intro k hk
  simp only [membersWith, Dict.keys_list_append, List.mem_append, mem_keys_optionalMember] at hk
  simp only [List.mem_cons]
  tauto

theorem get?_membersWith :
    Dict.get? (x.membersWith free) "shadow" = x.shadow.map (fun s => .map (s.membersWith free))
      ∧ Dict.get? (x.membersWith free) "borderRadius"
        = x.borderRadius.map (fun r => free (freeMap r)) := by
  simp [membersWith, Dict.get?_list_append, Keys.get?_optionalMember]

end Effects

namespace Element

variable (free : Document → Value) (e : Element)

def membersWith : Dict Value := (e.toValueWith free).map?.getD []

theorem toValueWith_eq : e.toValueWith free = .map (e.membersWith free) := rfl

theorem keys_membersWith :
    Dict.keys (e.membersWith free) ⊆ ["decorations", "scales", "palettes", "effects"] := by
  intro k hk
  simp only [membersWith, toValueWith, Value.map?, Option.getD_some, Dict.keys_list_append,
    List.mem_append, mem_keys_optionalMember] at hk
  simp only [List.mem_cons]
  tauto

theorem get?_membersWith :
    Dict.get? (e.membersWith free) "decorations" = e.decorations.map (fun d => .map d.members)
      ∧ Dict.get? (e.membersWith free) "scales" = e.scales.map (fun s => .map (Scales.members s))
      ∧ Dict.get? (e.membersWith free) "palettes"
        = e.palettes.map (fun p => .map (p.members.mapValues free))
      ∧ Dict.get? (e.membersWith free) "effects"
        = e.effects.map (fun x => .map (x.membersWith free)) := by
  simp [membersWith, toValueWith, Value.map?, Dict.get?_list_append, Keys.get?_optionalMember]

end Element

namespace Schema

variable (free : Document → Value) (s : Schema)

def membersWith : Dict Value := (s.toValueWith free).map?.getD []

theorem toValueWith_eq : s.toValueWith free = .map (s.membersWith free) := rfl

theorem get?_membersWith :
    Dict.get? (s.membersWith free) "name" = some (.text s.name)
      ∧ Dict.get? (s.membersWith free) "version"
        = s.version.map (fun v => .list (v.map fun n => .number (.int n)))
      ∧ Dict.get? (s.membersWith free) "author" = s.author.map .text
      ∧ Dict.get? (s.membersWith free) "breakpoints"
        = some (.map (s.breakpoints.map fun m => (m.1, .number (.int m.2))))
      ∧ Dict.get? (s.membersWith free) "components"
        = some (.map (s.components.map fun m => (m.1, m.2.toValueWith free))) := by
  simp [membersWith, toValueWith, Value.map?, Dict.get?_list_append, Dict.get?_cons,
    Keys.get?_optionalMember]

end Schema

namespace Check

open Checked

theorem rereads_decorations :
    Rereads decorations (fun d => .ofValue (.map d.members)) fun _ => True := by
  refine rereads_closed fun m a h _ => ⟨_, rfl, a.keys_members, ?_⟩
  simp only [seq_eq_valid, functor_map_eq_valid] at h
  obtain ⟨_, style, ⟨_, align, ⟨_, line, ⟨_, weight, ⟨_, italic, ⟨font, hfont, rfl⟩, hitalic, rfl⟩,
    hweight, rfl⟩, hline, rfl⟩, halign, rfl⟩, hstyle, rfl⟩ := h
  let d : Decorations := ⟨font, italic, weight, line, align, style⟩
  obtain ⟨hf, hi, hw, hl, ha, hs⟩ := d.get?_members
  have hfonts := rereads_listOf_ofValue rereads_text
  have hnames := d.keys_members
  rw [optional_written hfonts (fun _ => rfl) hfont (by simp) hf hnames (by decide),
    optional_written rereads_flag (fun _ => rfl) hitalic (by simp) hi hnames (by decide),
    optional_written (rereads_word _) (fun _ => rfl) hweight (by simp) hw hnames (by decide),
    optional_written (rereads_word _) (fun _ => rfl) hline (by simp) hl hnames (by decide),
    optional_written (rereads_word _) (fun _ => rfl) halign (by simp) ha hnames (by decide),
    optional_written (rereads_word _) (fun _ => rfl) hstyle (by simp) hs hnames (by decide)]
  rfl

/-- What is read by size or by breakpoint. -/
def sized? {ν : Type} (value? : Document → Option ν) :
    List (Scalar × Document) → Option (List (String × ν))
  | [] => some []
  | (k, d) :: rest => do some ((← sizeName? k, ← value? d) :: (← sized? value? rest))

/-- A number, or what is read by size or by breakpoint. -/
def numberOr? {ν σ : Type} (number : Number → σ) (sized : Dict ν → σ)
    (value? : Document → Option ν) : Document → Option σ
  | .map members => (sized? value? members).map fun r => sized (.ofList r)
  | d => (number? d).map number

theorem widths?_eq (members : List (Scalar × Document)) :
    widths? members = sized? number? members := by
  induction members with
  | nil => rfl
  | cons m members ih => rw [widths?, sized?, ih]

theorem sizes?_eq (members : List (Scalar × Document)) :
    sizes? members = sized? sizeScale? members := by
  induction members with
  | nil => rfl
  | cons m members ih => rw [sizes?, sized?, ih]

theorem sizeScale?_eq (d : Document) : sizeScale? d = numberOr? .number .widths number? d := by
  cases d with
  | map members => rw [sizeScale?, numberOr?, widths?_eq]
  | _ => rfl

theorem scale?_eq (d : Document) : scale? d = numberOr? .number .sizes sizeScale? d := by
  cases d with
  | map members => rw [scale?, numberOr?, sizes?_eq]
  | _ => rfl

section

variable {ν σ : Type} {value? : Document → Option ν} {write : ν → Value}
  (hvalue : ∀ d v, value? d = some v → value? (.ofValue (write v)) = some v)

theorem sized?_eq_some {members : List (Scalar × Document)} {r : List (String × ν)} :
    sized? value? members = some r
      ↔ List.Forall₂ (fun m n => sizeName? m.1 = some n.1 ∧ value? m.2 = some n.2) members r := by
  induction members generalizing r with
  | nil => cases r <;> simp [sized?]
  | cons m members ih =>
    cases r <;> simp [sized?, Option.bind_eq_some_iff, ih, Prod.ext_iff, and_assoc]

include hvalue

theorem sized?_written {members : List (Scalar × Document)} {r : List (String × ν)}
    (h : sized? value? members = some r) :
    sized? value? (Document.ofMembers ((Dict.ofList r).map fun m => (m.1, write m.2)))
      = some (Dict.ofList r) := by
  rw [sized?_eq_some, Document.ofMembers_eq, List.map_map, List.forall₂_map_left_iff,
    List.forall₂_same]
  intro m hm
  have hmem := (Dict.mem_of_mem_merge hm).resolve_left List.not_mem_nil
  obtain ⟨n, -, hsize, hread⟩ := exists_left_of_forall₂ (sized?_eq_some.1 h) hmem
  have hwhole : Surrogate.isBroken m.1 = false := by
    rw [sizeName?] at hsize
    split at hsize
    · next hs =>
      cases hsize
      exact isBroken_of_scalarText hs
    · cases hsize
  refine ⟨?_, hvalue _ _ hread⟩
  rw [Function.comp_apply, sizeName?, scalarText_text hwhole]

theorem numberOr?_written (number : Number → σ) (sized : Dict ν → σ) (toValue : σ → Value)
    (hnumber : ∀ n, toValue (number n) = .number n)
    (hsized : ∀ r, toValue (sized r) = .map (r.map fun m => (m.1, write m.2)))
    {d : Document} {s : σ} (h : numberOr? number sized value? d = some s) :
    numberOr? number sized value? (.ofValue (toValue s)) = some s := by
  cases d with
  | scalar k =>
    obtain ⟨n, -, rfl⟩ := Option.map_eq_some_iff.1 h
    rw [hnumber]
    rfl
  | map members =>
    obtain ⟨r, hr, rfl⟩ := Option.map_eq_some_iff.1 h
    rw [hsized, Document.ofValue, numberOr?, sized?_written hvalue hr, Option.map_some,
      Dict.ofList_of_nodup (Dict.nodup_keys_ofList r)]
  | _ => cases h

end

theorem rereads_scale : Rereads scale (fun s => .ofValue s.toValue) fun _ => True := by
  have hnumber : ∀ d n, number? d = some n → number? (.ofValue (.number n)) = some n :=
    fun _ _ _ => rfl
  have hwidths : ∀ d s, sizeScale? d = some s → sizeScale? (.ofValue s.toValue) = some s := by
    intro d s h
    rw [sizeScale?_eq] at h ⊢
    exact numberOr?_written hnumber _ _ SizeScale.toValue (fun _ => rfl) (fun _ => rfl) h
  intro d s h _
  rw [scale] at h ⊢
  split at h
  · next s' hs =>
    cases h
    rw [scale?_eq] at hs ⊢
    rw [numberOr?_written hwidths _ _ Scale.toValue (fun _ => rfl) (fun _ => rfl) hs]
  · cases h

theorem rereads_scales : Rereads scales (fun s => .ofValue (.map s.members)) fun _ => True := by
  have hname : ∀ p : ScaleProperty, named ScaleProperty.ofName? (.text p.name) = .valid p := by
    intro p
    cases p <;> rfl
  have hread := (rereads_namedOf_ofValue hname rereads_scale).andThen brokenScaleRule?
  exact hread.mono (fun _ _ _ _ => trivial) fun _ _ => rfl

theorem rereads_palettes :
    Rereads palettes (fun p => .ofValue (.map (p.members.mapValues Document.numeralsOnly)))
      fun p => ∀ f ∈ p.members.values, f.IsJson := by
  have hname : ∀ p : ColorProperty, named ColorProperty.ofName? (.text p.name) = .valid p := by
    intro p
    cases p <;> rfl
  refine (rereads_dictOf (rereads_namedOf hname (rereads_dictOf rereads_valid))).mono
    (fun _ _ _ _ _ _ _ _ => trivial) fun p hp => ?_
  rw [Document.ofValue, Document.ofMembers_eq, Dict.mapValues, List.map_map, Palettes.members,
    List.map_map]
  refine congrArg Document.map (List.map_congr_left fun m hm => ?_)
  exact congrArg (Scalar.text m.1, ·)
    (hp _ (List.mem_map.2 ⟨_, List.mem_map.2 ⟨m, hm, rfl⟩, rfl⟩)).ofValue_numeralsOnly

theorem named_state (s : InteractionState) :
    named InteractionState.ofName? (.text s.name) = .valid s := by
  cases s <;> rfl

theorem rereads_shadow :
    Rereads shadow (fun s => .ofValue (.map (s.membersWith Document.numeralsOnly)))
      fun s => ∀ f ∈ s.free, f.IsJson := by
  refine rereads_closed fun m a h hfree => ⟨_, rfl, a.keys_membersWith _, ?_⟩
  simp only [seq_eq_valid, functor_map_eq_valid] at h
  obtain ⟨_, color, ⟨_, blur, ⟨_, y, ⟨x, hx, rfl⟩, hy, rfl⟩, hblur, rfl⟩, hcolor, rfl⟩ := h
  let s : Shadow := ⟨x, y, blur, color⟩
  have hnames := s.keys_membersWith Document.numeralsOnly
  obtain ⟨hgetx, hgety, hgetb, hgetc⟩ := Keys.get?_membersWith Document.numeralsOnly s
  have hnumbers := rereads_namedOf_ofValue named_state rereads_number
  have hlist : Rereads (listOf .valid) (fun c => .ofValue (Document.numeralsOnly (.list c)))
      fun c => (Document.list c).IsJson :=
    (rereads_listOf rereads_valid).mono (fun _ _ _ _ => trivial) fun c hc => by
      rw [hc.ofValue_numeralsOnly, List.map_id]
  have hcolors := rereads_namedOf_ofValue named_state hlist
  have hfree' : ∀ r ∈ color, ∀ m ∈ r, (Document.list m.2).IsJson := by
    rintro r rfl m hm
    exact hfree _ (List.mem_map.2 ⟨m, hm, rfl⟩)
  rw [optional_written hnumbers (fun _ => rfl) hx (by simp) hgetx hnames (by simp),
    optional_written hnumbers (fun _ => rfl) hy (by simp) hgety hnames (by simp),
    optional_written hnumbers (fun _ => rfl) hblur (by simp) hgetb hnames (by simp),
    optional_written hcolors (fun _ => rfl) hcolor hfree' hgetc hnames (by simp)]
  rfl

theorem rereads_borderRadius :
    Rereads borderRadius (fun r => .ofValue (freeMap r).numeralsOnly)
      fun r => (freeMap r).IsJson := by
  have hread := (rereads_dictOf rereads_valid).andThen fun states =>
    states.findSome? fun m => brokenRadiusRule? m.1 m.2
  refine hread.mono (fun _ _ _ _ => trivial) fun r hr => ?_
  rw [hr.ofValue_numeralsOnly]
  rfl

theorem rereads_effects :
    Rereads effects (fun x => .ofValue (.map (x.membersWith Document.numeralsOnly)))
      fun x => ∀ f ∈ x.free, f.IsJson := by
  refine rereads_closed fun m a h hfree => ⟨_, rfl, a.keys_membersWith _, ?_⟩
  simp only [seq_eq_valid, functor_map_eq_valid] at h
  obtain ⟨_, radius, ⟨shadow, hshadow, rfl⟩, hradius, rfl⟩ := h
  let x : Effects := ⟨shadow, radius⟩
  have hnames := x.keys_membersWith Document.numeralsOnly
  obtain ⟨hgets, hgetr⟩ := x.get?_membersWith Document.numeralsOnly
  have hs : ∀ s ∈ shadow, ∀ f ∈ s.free, f.IsJson := by
    rintro s rfl f hf
    exact hfree f (List.mem_append_left _ hf)
  have hr : ∀ r ∈ radius, (freeMap r).IsJson := by
    rintro r rfl
    exact hfree _ (List.mem_append_right _ (List.mem_singleton_self _))
  rw [optional_written rereads_shadow (fun _ => rfl) hshadow hs hgets hnames (by simp),
    optional_written rereads_borderRadius (fun _ => rfl) hradius hr hgetr hnames (by decide)]
  rfl

theorem rereads_element :
    Rereads element (fun e => .ofValue (e.toValueWith Document.numeralsOnly))
      fun e => ∀ f ∈ e.free, f.IsJson := by
  refine rereads_closed fun m a h hfree => ⟨_, a.toValueWith_eq _, a.keys_membersWith _, ?_⟩
  simp only [seq_eq_valid, functor_map_eq_valid] at h
  obtain ⟨_, effects, ⟨_, palettes, ⟨_, scales, ⟨decorations, hdecorations, rfl⟩, hscales, rfl⟩,
    hpalettes, rfl⟩, heffects, rfl⟩ := h
  let e : Element := ⟨decorations, scales, palettes, effects⟩
  have hnames := e.keys_membersWith Document.numeralsOnly
  obtain ⟨hgetd, hgets, hgetp, hgete⟩ := e.get?_membersWith Document.numeralsOnly
  have hp : ∀ p ∈ palettes, ∀ f ∈ p.members.values, f.IsJson := by
    rintro p rfl f hf
    exact hfree f (List.mem_append_left _ hf)
  have hx : ∀ x ∈ effects, ∀ f ∈ x.free, f.IsJson := by
    rintro x rfl f hf
    exact hfree f (List.mem_append_right _ hf)
  rw [optional_written rereads_decorations (fun _ => rfl) hdecorations (by simp) hgetd hnames
      (by simp),
    optional_written rereads_scales (fun _ => rfl) hscales (by simp) hgets hnames (by simp),
    optional_written rereads_palettes (fun _ => rfl) hpalettes hp hgetp hnames (by simp),
    optional_written rereads_effects (fun _ => rfl) heffects hx hgete hnames (by simp)]
  rfl

theorem rereads_component :
    Rereads component (fun c => .ofValue (c.toValueWith Document.numeralsOnly))
      fun c => ∀ f ∈ c.free, f.IsJson := by
  refine rereads_closed fun m a h hfree => ⟨_, rfl, List.Subset.refl _, ?_⟩
  obtain ⟨elements, helements, rfl⟩ := functor_map_eq_valid.1 h
  have hread := rereads_dictOf_ofValue rereads_element
  have hall : ∀ m ∈ elements, ∀ f ∈ m.2.free, f.IsJson :=
    fun m hm f hf => hfree f (List.mem_flatMap.2 ⟨m, hm, hf⟩)
  rw [withDefault_written hread rfl helements hall rfl]
  rfl

theorem rereads_schema :
    Rereads schema (fun s => .ofValue (s.toValueWith Document.numeralsOnly))
      fun s => ∀ f ∈ s.free, f.IsJson := by
  intro d s h hfree
  cases d with
  | map m =>
    simp only [schema, seq_eq_valid, functor_map_eq_valid] at h
    obtain ⟨_, components, ⟨_, breakpoints, ⟨_, author, ⟨_, version, ⟨name, hname, rfl⟩, hversion,
      rfl⟩, hauthor, rfl⟩, hbreakpoints, rfl⟩, hcomponents, rfl⟩ := h
    let s : Schema := ⟨name, version, author, breakpoints, components⟩
    obtain ⟨hgetn, hgetv, hgeta, hgetb, hgetc⟩ := s.get?_membersWith Document.numeralsOnly
    have hnames := List.Subset.refl (Dict.keys (s.membersWith Document.numeralsOnly))
    have hwidths := rereads_dictOf_ofValue rereads_integer
    have hread := rereads_dictOf_ofValue rereads_component
    have hall : ∀ m ∈ components, ∀ f ∈ m.2.free, f.IsJson :=
      fun m hm f hf => hfree f (List.mem_flatMap.2 ⟨m, hm, hf⟩)
    change schema (.map (Document.ofMembers (s.membersWith Document.numeralsOnly))) = _
    rw [schema, withDefault_written rereads_text rfl hname trivial hgetn,
      optional_written (rereads_listOf_ofValue rereads_integer) (fun _ => rfl) hversion (by simp)
        hgetv hnames (by simp),
      optional_written rereads_text (fun _ => rfl) hauthor (by simp) hgeta hnames (by simp),
      withDefault_written hwidths rfl hbreakpoints (fun _ _ => trivial) hgetb,
      withDefault_written hread rfl hcomponents hall hgetc]
    rfl
  | _ => cases h

end Check
end AtomicCss
