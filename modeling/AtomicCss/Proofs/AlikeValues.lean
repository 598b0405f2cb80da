import AtomicCss.Proofs.CodeUnits
import AtomicCss.Proofs.EqualNumbers
import AtomicCss.Proofs.JsonRoundTrip

/-!
# Values of one text

Two values are alike if they differ only in how equal numbers are given, as integers or as floats.
The compact JSON of values, whole floats made integers, is the same exactly for values that are
alike, texts compared by their 16-bit units. What comes first in a text tells the kind of value,
and a value is known from its text also when more follows.
-/
namespace AtomicCss

namespace Value

mutual

/-- Whether two values are the same but for integers in place of equal floats, given which texts
count as the same. Members are compared in their order, and a flag is like no number. -/
def Alike (same : String → String → Prop) : Value → Value → Prop
  | .null, .null => True
  | .bool a, .bool b => a = b
  | .number m, .number n => m.equal n = true
  | .text s, .text t => same s t
  | .list items, .list others => ItemsAlike same items others
  | .map members, .map others => MembersAlike same members others
  | _, _ => False

def ItemsAlike (same : String → String → Prop) : List Value → List Value → Prop
  | [], [] => True
  | v :: items, w :: others => v.Alike same w ∧ ItemsAlike same items others
  | _, _ => False

def MembersAlike (same : String → String → Prop) :
    List (String × Value) → List (String × Value) → Prop
  | [], [] => True
  | (k, v) :: members, (l, w) :: others =>
    same k l ∧ v.Alike same w ∧ MembersAlike same members others
  | _, _ => False

end

mutual

def numbers : Value → List Number
  | .number n => [n]
  | .list items => itemNumbers items
  | .map members => memberNumbers members
  | _ => []

def itemNumbers : List Value → List Number
  | [] => []
  | v :: items => v.numbers ++ itemNumbers items

def memberNumbers : List (String × Value) → List Number
  | [] => []
  | (_, v) :: members => v.numbers ++ memberNumbers members

end

mutual

def strings : Value → List String
  | .text s => [s]
  | .list items => itemStrings items
  | .map members => memberStrings members
  | _ => []

def itemStrings : List Value → List String
  | [] => []
  | v :: items => v.strings ++ itemStrings items

def memberStrings : List (String × Value) → List String
  | [] => []
  | (k, v) :: members => k :: (v.strings ++ memberStrings members)

end

section

variable {same other : String → String → Prop}

mutual

theorem alike_congr : ∀ v w : Value, (∀ s ∈ v.strings, ∀ t ∈ w.strings, (same s t ↔ other s t)) →
    (v.Alike same w ↔ v.Alike other w)
  | .null, w | .bool _, w | .number _, w => fun _ => by cases w <;> rfl
  | .text s, w => fun h => by
    cases w with
    | text t => exact h s List.mem_cons_self t List.mem_cons_self
    | _ => rfl
  | .list items, w => fun h => by
    cases w with
    | list others => exact itemsAlike_congr items others h
    | _ => rfl
  | .map members, w => fun h => by
    cases w with
    | map others => exact membersAlike_congr members others h
    | _ => rfl

theorem itemsAlike_congr : ∀ items others : List Value,
    (∀ s ∈ itemStrings items, ∀ t ∈ itemStrings others, (same s t ↔ other s t)) →
    (ItemsAlike same items others ↔ ItemsAlike other items others)
  | [], [] | [], _ :: _ | _ :: _, [] => fun _ => Iff.rfl
  | v :: items, w :: others => fun h => and_congr
    (alike_congr v w fun s hs t ht => h s (List.mem_append_left _ hs) t (List.mem_append_left _ ht))
    (itemsAlike_congr items others fun s hs t ht =>
      h s (List.mem_append_right _ hs) t (List.mem_append_right _ ht))

theorem membersAlike_congr : ∀ members others : List (String × Value),
    (∀ s ∈ memberStrings members, ∀ t ∈ memberStrings others, (same s t ↔ other s t)) →
    (MembersAlike same members others ↔ MembersAlike other members others)
  | [], [] | [], _ :: _ | _ :: _, [] => fun _ => Iff.rfl
  | (k, v) :: members, (l, w) :: others => fun h => and_congr
    (h k List.mem_cons_self l List.mem_cons_self)
    (and_congr
      (alike_congr v w fun s hs t ht =>
        h s (List.mem_cons_of_mem _ (List.mem_append_left _ hs))
          t (List.mem_cons_of_mem _ (List.mem_append_left _ ht)))
      (membersAlike_congr members others fun s hs t ht =>
        h s (List.mem_cons_of_mem _ (List.mem_append_right _ hs))
          t (List.mem_cons_of_mem _ (List.mem_append_right _ ht))))

end

end

/-- The kinds of values, as the first character of a text tells them apart. -/
inductive Kind
  | null
  | bool
  | number
  | text
  | list
  | map
  deriving DecidableEq

def kind : Value → Kind
  | .null => .null
  | .bool _ => .bool
  | .number _ => .number
  | .text _ => .text
  | .list _ => .list
  | .map _ => .map

theorem kind_normalize (v : Value) : v.normalize.kind = v.kind := by
  cases v <;> rfl

theorem Alike.kind_eq {same : String → String → Prop} {v w : Value} (h : v.Alike same w) :
    v.kind = w.kind := by
  cases v <;> cases w <;> first | rfl | exact h.elim

end Value

namespace Json

open Value

def kindOf (c : Char) : Kind :=
  if c = 'n' then .null
  else if c = 't' ∨ c = 'f' then .bool
  else if c = '"' then .text
  else if c = '[' then .list
  else if c = '\x7b' then .map
  else .number

theorem kindOf_of_isDigit {c : Char} (hc : c.isDigit = true) : kindOf c = .number := by
  simp (disch := decide) [kindOf, Numeral.ne_of_isDigit hc]

/-- The first character of a value's text tells its kind. -/
theorem exists_write_kind (f : Layout) (depth : Nat) (v : Value) :
    ∃ c cs, (write f depth v).toList = c :: cs ∧ kindOf c = v.kind := by
  cases v with
  | null => exact ⟨'n', "ull".toList, by rw [write]; rfl, rfl⟩
  | bool b =>
    cases b with
    | true => exact ⟨'t', "rue".toList, by rw [write]; rfl, rfl⟩
    | false => exact ⟨'f', "alse".toList, by rw [write]; rfl, rfl⟩
  | number n =>
    rw [write]
    rcases numberText_cases n with ⟨negative, c, cs, htext, hc, -⟩ | ⟨c, cs, htext, hc, -⟩
    · cases negative with
      | true => exact ⟨'-', c :: cs, htext, rfl⟩
      | false => exact ⟨c, cs, htext, kindOf_of_isDigit hc⟩
    · refine ⟨c, cs, htext, ?_⟩
      simp only [List.mem_cons, List.not_mem_nil, or_false] at hc
      rcases hc with rfl | rfl | rfl <;> rfl
  | text s => exact ⟨'"', _, by rw [write, exists_stringText], rfl⟩
  | list items =>
    cases items with
    | nil => exact ⟨'[', [']'], by rw [write]; rfl, rfl⟩
    | cons v items => exact ⟨'[', _, write_list f depth v items, rfl⟩
  | map members =>
    cases members with
    | nil => exact ⟨'\x7b', ['\x7d'], by rw [write]; rfl, rfl⟩
    | cons m members => exact ⟨'\x7b', _, write_map f depth m members, rfl⟩

/-- A value, once whole floats are integers, is known from its compact text up to what is alike, and
so is what follows, unless a number could go on with it. -/
def IsKnown (v : Value) : Prop :=
  ∀ (w : Value) (depth : Nat) (rest more : List Char), (∀ n ∈ w.numbers, n.IsReal) →
    EndsNumber rest → EndsNumber more →
    ((write .key depth v.normalize).toList ++ rest = (write .key depth w.normalize).toList ++ more
      ↔ v.Alike SameUnits w ∧ rest = more)

/-- The items of a list are known from their texts up to the bracket. -/
def AreKnown (vs : List Value) : Prop :=
  ∀ (ws : List Value) (depth : Nat) (rest more : List Char), (∀ n ∈ itemNumbers ws, n.IsReal) →
    (itemsChars .key depth (normalizeItems vs) ++ ']' :: rest
        = itemsChars .key depth (normalizeItems ws) ++ ']' :: more
      ↔ ItemsAlike SameUnits vs ws ∧ rest = more)

/-- The members of a map are known from their texts up to the brace. -/
def MembersKnown (ms : List (String × Value)) : Prop :=
  ∀ (ns : List (String × Value)) (depth : Nat) (rest more : List Char),
    (∀ n ∈ memberNumbers ns, n.IsReal) →
    (membersChars .key depth (normalizeMembers ms) ++ '\x7d' :: rest
        = membersChars .key depth (normalizeMembers ns) ++ '\x7d' :: more
      ↔ MembersAlike SameUnits ms ns ∧ rest = more)

variable {v w : Value} {depth : Nat} {rest more : List Char}

/-- Values of different kinds are not alike, nor are their texts the same. -/
theorem write_append_iff_of_kind (h : v.kind ≠ w.kind) :
    (write .key depth v.normalize).toList ++ rest = (write .key depth w.normalize).toList ++ more
      ↔ v.Alike SameUnits w ∧ rest = more := by
  obtain ⟨c, cs, hcs, hc⟩ := exists_write_kind .key depth v.normalize
  obtain ⟨d, ds, hds, hd⟩ := exists_write_kind .key depth w.normalize
  rw [hcs, hds, List.cons_append, List.cons_append]
  refine iff_of_false (fun heq => h ?_) fun halike => h halike.1.kind_eq
  rw [← kind_normalize v, ← kind_normalize w, ← hc, ← hd, (List.cons.inj heq).1]

theorem toList_break_key (depth : Nat) : (Layout.key.break depth).toList = [] := rfl

theorem write_list_key (depth : Nat) (vs : List Value) :
    (write .key depth (.list vs)).toList = '[' :: (itemsChars .key (depth + 1) vs ++ [']']) := by
  cases vs with
  | nil => rw [write]; rfl
  | cons v vs =>
    rw [write_list, toList_break_key, toList_break_key, List.nil_append, List.nil_append]

theorem write_map_key (depth : Nat) (ms : List (String × Value)) :
    (write .key depth (.map ms)).toList
      = '\x7b' :: (membersChars .key (depth + 1) ms ++ ['\x7d']) := by
  cases ms with
  | nil => rw [write]; rfl
  | cons m ms =>
    rw [write_map, toList_break_key, toList_break_key, List.nil_append, List.nil_append]

theorem isKnown_null : IsKnown .null := by
  intro w depth rest more _ _ _
  cases w with
  | null => simp [Value.normalize, Alike]
  | _ => exact write_append_iff_of_kind nofun

theorem isKnown_bool (b : Bool) : IsKnown (.bool b) := by
  intro w depth rest more _ _ _
  cases w with
  | bool b' => cases b <;> cases b' <;> simp [Value.normalize, write, Alike]
  | _ => exact write_append_iff_of_kind nofun

theorem isKnown_number {m : Number} (hm : m.IsReal) : IsKnown (.number m) := by
  intro w depth rest more hw hrest hmore
  cases w with
  | number n =>
    have hn : n.IsReal := hw n List.mem_cons_self
    simp only [Value.normalize, write, Alike, ← Number.normalize_eq_iff hm hn]
    constructor
    · exact eq_of_numberText_append hrest hmore hm.normalize hn.normalize
    · rintro ⟨hnumber, rfl⟩
      rw [hnumber]
  | _ => exact write_append_iff_of_kind nofun

theorem isKnown_text (s : String) : IsKnown (.text s) := by
  intro w depth rest more _ _ _
  cases w with
  | text t =>
    simp only [Value.normalize, write, Alike]
    exact stringText_append_iff s t rest more
  | _ => exact write_append_iff_of_kind nofun

theorem isKnown_list {vs : List Value} (h : AreKnown vs) : IsKnown (.list vs) := by
  intro w depth rest more hw _ _
  cases w with
  | list ws =>
    have hitems := h ws (depth + 1) rest more hw
    simpa only [Value.normalize, write_list_key, Alike, List.cons_append, List.append_assoc,
      List.nil_append, List.cons.injEq, true_and] using hitems
  | _ => exact write_append_iff_of_kind nofun

theorem isKnown_map {ms : List (String × Value)} (h : MembersKnown ms) : IsKnown (.map ms) := by
  intro w depth rest more hw _ _
  cases w with
  | map ns =>
    have hmembers := h ns (depth + 1) rest more hw
    simpa only [Value.normalize, write_map_key, Alike, List.cons_append, List.append_assoc,
      List.nil_append, List.cons.injEq, true_and] using hmembers
  | _ => exact write_append_iff_of_kind nofun

theorem bracket_ne_itemsChars (v : Value) (vs : List Value) (cs ds : List Char) :
    ']' :: cs ≠ itemsChars .key depth (v :: vs) ++ ds := by
  obtain ⟨c, tail, hc, -, hclose⟩ := exists_itemsChars .key depth v vs
  rw [hc, List.cons_append]
  exact fun h => hclose (List.cons.inj h).1.symm

theorem brace_ne_membersChars (m : String × Value) (ms : List (String × Value))
    (cs ds : List Char) : '\x7d' :: cs ≠ membersChars .key depth (m :: ms) ++ ds := by
  obtain ⟨tail, hc⟩ := exists_membersChars .key depth m ms
  rw [hc, List.cons_append]
  exact fun h => absurd (List.cons.inj h).1 (by decide)

/-- After an item, either the list ends or a comma stands before the next. -/
theorem writeItems_append_iff (vs ws : List Value) :
    (writeItems .key depth vs).toList ++ ']' :: rest
        = (writeItems .key depth ws).toList ++ ']' :: more
      ↔ itemsChars .key depth vs ++ ']' :: rest = itemsChars .key depth ws ++ ']' :: more := by
  have hcomma : ∀ (v : Value) (vs : List Value) (cs ds : List Char),
      ']' :: cs ≠ (writeItems .key depth (v :: vs)).toList ++ ds := by
    intro v vs cs ds
    rw [writeItems_cons, List.cons_append]
    exact fun h => absurd (List.cons.inj h).1 (by decide)
  cases vs with
  | nil =>
    cases ws with
    | nil => rfl
    | cons w ws => exact iff_of_false (hcomma w ws _ _) (bracket_ne_itemsChars w ws _ _)
  | cons v vs =>
    cases ws with
    | nil => exact iff_of_false (hcomma v vs _ _).symm (bracket_ne_itemsChars v vs _ _).symm
    | cons w ws =>
      rw [writeItems_cons, writeItems_cons, toList_break_key, List.cons_append, List.cons_append,
        List.cons.injEq, List.nil_append, List.nil_append]
      exact and_iff_right rfl

theorem writeMembers_append_iff (ms ns : List (String × Value)) :
    (writeMembers .key depth ms).toList ++ '\x7d' :: rest
        = (writeMembers .key depth ns).toList ++ '\x7d' :: more
      ↔ membersChars .key depth ms ++ '\x7d' :: rest
        = membersChars .key depth ns ++ '\x7d' :: more := by
  have hcomma : ∀ (m : String × Value) (ms : List (String × Value)) (cs ds : List Char),
      '\x7d' :: cs ≠ (writeMembers .key depth (m :: ms)).toList ++ ds := by
    intro m ms cs ds
    rw [writeMembers_cons, List.cons_append]
    exact fun h => absurd (List.cons.inj h).1 (by decide)
  cases ms with
  | nil =>
    cases ns with
    | nil => rfl
    | cons n ns => exact iff_of_false (hcomma n ns _ _) (brace_ne_membersChars n ns _ _)
  | cons m ms =>
    cases ns with
    | nil => exact iff_of_false (hcomma m ms _ _).symm (brace_ne_membersChars m ms _ _).symm
    | cons n ns =>
      rw [writeMembers_cons, writeMembers_cons, toList_break_key, List.cons_append,
        List.cons_append, List.cons.injEq, List.nil_append, List.nil_append]
      exact and_iff_right rfl

theorem areKnown_nil : AreKnown [] := by
  intro ws depth rest more _
  cases ws with
  | nil => simp [normalizeItems, itemsChars, ItemsAlike]
  | cons w ws => exact iff_of_false (bracket_ne_itemsChars _ _ _ _) fun h => h.1

theorem areKnown_cons {vs : List Value} (hv : IsKnown v) (hvs : AreKnown vs) :
    AreKnown (v :: vs) := by
  intro ws depth rest more hws
  have hends : ∀ (us : List Value) (cs : List Char),
      EndsNumber ((writeItems .key depth us).toList ++ ']' :: cs) := fun us cs =>
    endsNumber_writeItems .key depth us (endsNumber_cons (by decide) cs)
  cases ws with
  | nil => exact iff_of_false (bracket_ne_itemsChars _ _ _ _).symm fun h => h.1
  | cons w ws =>
    obtain ⟨hw, hws⟩ := List.forall_mem_append.1 hws
    rw [normalizeItems, normalizeItems, itemsChars, itemsChars, List.append_assoc,
      List.append_assoc, hv w depth _ _ hw (hends _ _) (hends _ _), writeItems_append_iff,
      hvs ws depth rest more hws, ItemsAlike, and_assoc]

theorem membersKnown_nil : MembersKnown [] := by
  intro ns depth rest more _
  cases ns with
  | nil => simp [normalizeMembers, membersChars, MembersAlike]
  | cons n ns => exact iff_of_false (brace_ne_membersChars _ _ _ _) fun h => h.1

theorem membersKnown_cons {k : String} {ms : List (String × Value)} (hv : IsKnown v)
    (hms : MembersKnown ms) : MembersKnown ((k, v) :: ms) := by
  intro ns depth rest more hns
  have hends : ∀ (us : List (String × Value)) (cs : List Char),
      EndsNumber ((writeMembers .key depth us).toList ++ '\x7d' :: cs) := fun us cs =>
    endsNumber_writeMembers .key depth us (endsNumber_cons (by decide) cs)
  cases ns with
  | nil => exact iff_of_false (brace_ne_membersChars _ _ _ _).symm fun h => h.1
  | cons n ns =>
    obtain ⟨l, w⟩ := n
    obtain ⟨hw, hns⟩ := List.forall_mem_append.1 hns
    simp only [normalizeMembers, membersChars, List.append_assoc]
    rw [show Layout.key.ascii = true from rfl, stringText_append_iff, List.append_cancel_left_eq,
      hv w depth _ _ hw (hends _ _) (hends _ _), writeMembers_append_iff,
      hms ns depth rest more hns, MembersAlike, and_assoc, and_assoc]

mutual

theorem isKnown : ∀ v : Value, (∀ n ∈ v.numbers, n.IsReal) → IsKnown v
  | .null => fun _ => isKnown_null
  | .bool b => fun _ => isKnown_bool b
  | .number n => fun h => isKnown_number (h n List.mem_cons_self)
  | .text s => fun _ => isKnown_text s
  | .list vs => fun h => isKnown_list (areKnown vs h)
  | .map ms => fun h => isKnown_map (membersKnown ms h)

theorem areKnown : ∀ vs : List Value, (∀ n ∈ itemNumbers vs, n.IsReal) → AreKnown vs
  | [] => fun _ => areKnown_nil
  | v :: vs => fun h => areKnown_cons (isKnown v (List.forall_mem_append.1 h).1)
    (areKnown vs (List.forall_mem_append.1 h).2)

theorem membersKnown : ∀ ms : List (String × Value), (∀ n ∈ memberNumbers ms, n.IsReal) →
    MembersKnown ms
  | [] => fun _ => membersKnown_nil
  | (_, v) :: ms => fun h => membersKnown_cons (isKnown v (List.forall_mem_append.1 h).1)
    (membersKnown ms (List.forall_mem_append.1 h).2)

end

end Json

/-- Values have the same compact text exactly if they are alike. -/
theorem StyleKey.jsonText_eq_iff {v w : Value} (hv : ∀ n ∈ v.numbers, n.IsReal)
    (hw : ∀ n ∈ w.numbers, n.IsReal) :
    jsonText v = jsonText w ↔ v.Alike Json.SameUnits w := by
  have hends : Json.EndsNumber [] := by simp [Json.EndsNumber]
  have hknown := Json.isKnown v hv w 0 [] [] hw hends hends
  rw [List.append_nil, List.append_nil, String.toList_inj] at hknown
  rw [jsonText, jsonText, Json.text, Json.text, hknown]
  exact and_iff_left rfl

end AtomicCss
