import AtomicCss.Proofs.EffectKeys
import AtomicCss.Proofs.ReorderedKeys

/-!
# The keys of shadows

A shadow has one key for the state at rest and for each state that one of its parts names. The key
holds what the shadow is in the state: of each part the value for the state, or else the value at
rest, or else the default.
-/
namespace AtomicCss

namespace Shadow

/-- A part's value in a state: its own, or else that at rest. -/
def valueIn? {α : Type} (values? : Option (List (InteractionState × α)))
    (state : InteractionState) : Option α :=
  ((values?.getD []).lookup state).or ((values?.getD []).lookup .rest)

def black : Value := .list [.number 0, .number 0, .number 0, .number 1]

structure InState where
  x : Number
  y : Number
  blur : Number
  color : Value

namespace InState

def values (v : InState) : List Value := [.number v.x, .number v.y, .number v.blur, v.color]

/-- Whether none of the integers of the parts is too long to be written. -/
def IsWritable (v : InState) : Prop := (Value.list v.values).IsWritable

def key (v : InState) (state : InteractionState) : String :=
  "shadow" ++ (if state = .rest then "" else "--" ++ state.name)
    ++ ("__" ++ StyleKey.jsonText (.list v.values))

end InState

variable (free : Document → Value) (s : Shadow)

/-- What the shadow is in a state, its colors as `free` shows them. -/
def inState (state : InteractionState) : InState where
  x := (valueIn? s.x state).getD 0
  y := (valueIn? s.y state).getD 0
  blur := (valueIn? s.blur state).getD 0
  color := ((valueIn? s.color state).map fun c => free (.list c)).getD black

/-- The state at rest and the states that the parts name. -/
def states : List InteractionState :=
  .rest :: ((s.x.getD []).map Prod.fst ++ (s.y.getD []).map Prod.fst
    ++ (s.blur.getD []).map Prod.fst ++ (s.color.getD []).map Prod.fst)

end Shadow

namespace Keys

theorem get?_byState {α : Type} (f : α → Value) (values : List (InteractionState × α))
    (state : InteractionState) :
    Dict.get? (values.map fun m => (m.1.name, f m.2)) state.name
      = (values.lookup state).map f := by
  induction values with
  | nil => rfl
  | cons m values ih =>
    rw [List.map_cons, Dict.get?_cons, List.lookup_cons, ih]
    by_cases h : m.1 = state
    · subst h
      rw [if_pos rfl, beq_self_eq_true, Option.map_some]
    · have hname : m.1.name ≠ state.name := fun hname => h (InteractionState.name_injective hname)
      rw [if_neg hname, beq_false_of_ne (Ne.symm h)]

theorem mem_of_lookup {α : Type} {values : List (InteractionState × α)} {state : InteractionState}
    {a : α} (h : values.lookup state = some a) : (state, a) ∈ values := by
  obtain ⟨front, back, rfl, -⟩ := List.lookup_eq_some_iff.1 h
  simp

theorem member?_byState {α : Type} {f : α → Value} {values : List (InteractionState × α)}
    (hf : ∀ m ∈ values, (f m.2).isNull = false) (state : InteractionState) :
    Value.member? (values.map fun m => (m.1.name, f m.2)) state.name
      = (values.lookup state).map f := by
  rw [Value.member?, get?_byState]
  cases h : values.lookup state with
  | none => rfl
  | some a => simp [Option.filter, hf _ (mem_of_lookup h)]

variable {free : Document → Value} {s : Shadow}

/-- A part of a shadow has the value for the state, or else the value at rest, or else the
default. -/
theorem shadowValue_eq {α : Type} {shadow : Dict Value} {part : String} {f : α → Value}
    {values? : Option (List (InteractionState × α))}
    (hpart : shadow.get? part = values?.map (byState f))
    (hf : ∀ m ∈ values?.getD [], (f m.2).isNull = false) (state : InteractionState)
    (default : Value) : shadowValue shadow state.name part default
      = ((Shadow.valueIn? values? state).map f).getD default := by
  rw [shadowValue, shadowPart_eq hpart, member?_byState hf, member?_byState hf, Shadow.valueIn?]
  cases (values?.getD []).lookup state <;> rfl

/-- No color is shown as nothing. -/
def ShowsColors (free : Document → Value) (s : Shadow) : Prop :=
  ∀ m ∈ s.color.getD [], (free (.list m.2)).isNull = false

theorem shadowValues_membersWith (h : ShowsColors free s) (state : InteractionState) :
    shadowValues (s.membersWith free) state.name = (s.inState free state).values := by
  obtain ⟨hx, hy, hblur, hcolor⟩ := get?_membersWith free s
  have hnumber : ∀ (values? : Option (List (InteractionState × Number))),
      ((Shadow.valueIn? values? state).map Value.number).getD (.number 0)
        = .number ((Shadow.valueIn? values? state).getD 0) := by
    intro values?
    cases Shadow.valueIn? values? state <;> rfl
  simp only [shadowValues, shadowParts, List.map_cons, List.map_nil,
    shadowValue_eq hx (fun _ _ => rfl), shadowValue_eq hy (fun _ _ => rfl),
    shadowValue_eq hblur (fun _ _ => rfl), shadowValue_eq hcolor h, hnumber]
  rfl

theorem mem_shadowStates {label : String} : label ∈ shadowStates (s.membersWith free)
    ↔ ∃ state ∈ s.states, state.name = label := by
  obtain ⟨hx, hy, hblur, hcolor⟩ := get?_membersWith free s
  rw [shadowStates, List.mem_eraseDups]
  have hnamed : Dict.keys (shadowPart (s.membersWith free) "x")
        ++ (Dict.keys (shadowPart (s.membersWith free) "y")
        ++ (Dict.keys (shadowPart (s.membersWith free) "blur")
        ++ Dict.keys (shadowPart (s.membersWith free) "color")))
      = (s.states.tail).map InteractionState.name := by
    simp only [Dict.keys, shadowPart_eq hx, shadowPart_eq hy, shadowPart_eq hblur,
      shadowPart_eq hcolor, Shadow.states, List.tail_cons, List.map_append, List.map_map,
      List.append_assoc]
    rfl
  simp only [shadowParts, List.flatMap_cons, List.flatMap_nil, List.append_nil, hnamed]
  rw [← List.map_cons, List.mem_map]
  rfl

theorem shadowKey_membersWith (h : ShowsColors free s) {state : InteractionState}
    {k : String × String} : shadowKey (s.membersWith free) state.name = .ok k
      ↔ (s.inState free state).IsWritable ∧ k = (state.name, (s.inState free state).key state) := by
  obtain ⟨label, key⟩ := k
  have hkey : StyleKey.encode { property := "shadow", state := some state.name
                                value := .text (StyleKey.jsonText
                                  (.list (s.inState free state).values)) }
      = .ok ((s.inState free state).key state) := by
    cases state <;> rfl
  rw [shadowKey_eq_ok, shadowValues_membersWith h, hkey, Shadow.InState.IsWritable, Prod.mk.injEq,
    Except.ok.injEq, eq_comm (b := key)]
  tauto

/-- A shadow whose integers can be written has one key for each of its states. -/
theorem exists_ofShadow_membersWith (h : ShowsColors free s)
    (hwritable : ∀ state ∈ s.states, (s.inState free state).IsWritable) :
    ∃ buckets, ofShadow (s.membersWith free) = .ok buckets
      ∧ (Dict.keys buckets).Nodup
      ∧ (∀ label, label ∈ Dict.keys buckets ↔ ∃ state ∈ s.states, state.name = label)
      ∧ ∀ state ∈ s.states,
        Dict.get? buckets state.name = some [(s.inState free state).key state] := by
  obtain ⟨keys, hkeys⟩ : ∃ keys, (shadowStates (s.membersWith free)).mapM
      (shadowKey (s.membersWith free)) = .ok keys := by
    refine exists_mapM_ok fun label hlabel => ?_
    obtain ⟨state, hstate, rfl⟩ := mem_shadowStates.1 hlabel
    exact ⟨_, (shadowKey_membersWith h).2 ⟨hwritable state hstate, rfl⟩⟩
  have hlabels : keys.map Prod.fst = shadowStates (s.membersWith free) := by
    rw [map_of_mapM_ok hkeys fun state key hkey => (shadowKey_eq_ok.1 hkey).1]
    exact List.map_id _
  have hnodup : (keys.map Prod.fst).Nodup := by
    rw [hlabels]
    exact nodup_eraseDups _
  refine ⟨file keys [], ?_, (keys_file keys).1, fun label => ?_, fun state hstate => ?_⟩
  · rw [ofShadow, shadowFault?_of_maps fun part v => exists_map_of_shadow free s]
    exact bind_eq_ok.2 ⟨keys, hkeys, rfl⟩
  · rw [(keys_file keys).2, hlabels, mem_shadowStates]
  · have hmem : state.name ∈ shadowStates (s.membersWith free) :=
      mem_shadowStates.2 ⟨state, hstate, rfl⟩
    obtain ⟨key, hkey, heq⟩ := exists_of_mapM_ok hkeys hmem
    obtain ⟨-, rfl⟩ := (shadowKey_membersWith h).1 heq
    exact get?_file hnodup hkey

/-- A shadow that has keys has integers that can be written. -/
theorem isWritable_of_ofShadow (h : ShowsColors free s) {buckets : Buckets}
    (hbuckets : ofShadow (s.membersWith free) = .ok buckets) :
    ∀ state ∈ s.states, (s.inState free state).IsWritable := by
  intro state hstate
  rw [ofShadow, shadowFault?_of_maps fun part v => exists_map_of_shadow free s] at hbuckets
  obtain ⟨keys, hkeys, -⟩ := bind_eq_ok.1 hbuckets
  obtain ⟨key, -, heq⟩ := exists_of_mapM_ok hkeys (mem_shadowStates.2 ⟨state, hstate, rfl⟩)
  exact ((shadowKey_membersWith h).1 heq).1

end Keys
end AtomicCss
