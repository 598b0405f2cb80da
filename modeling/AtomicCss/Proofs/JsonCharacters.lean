import AtomicCss.Json.Writer
import AtomicCss.Proofs.NumberTexts

/-!
# Characters of JSON texts

The strings of a JSON text hold their own characters and those of escapes. Control characters are
escaped, so the text has none but the line breaks of its layout.
-/
namespace AtomicCss.Json

def escapeMarks : List Char :=
  ['\\', '"', 'n', 'r', 't', 'f', 'b', 'u', '0', '1', '2', '3', '4', '5', '6', '7', '8', '9', 'a',
    'c', 'd', 'e']

theorem mem_escapeMarks_of_unitEscape {n : Nat} {c : Char} (h : c ∈ unitEscape n) :
    c ∈ escapeMarks := by
  have hdigit : ∀ k, Quoted.hexDigit (k % 16) ∈ escapeMarks := by
    have hall : ∀ k < 16, Quoted.hexDigit k ∈ escapeMarks := by decide
    exact fun k => hall _ (Nat.mod_lt k (by decide))
  simp only [unitEscape, Quoted.hex, List.mem_cons, List.mem_append, List.not_mem_nil, or_false,
    false_or, or_assoc] at h
  rcases h with rfl | rfl | rfl | rfl | rfl | rfl
  · decide
  · decide
  all_goals exact hdigit _

/-- A character is written as it is, unless it is a control character, or with an escape. -/
theorem mem_stringChar {ascii : Bool} {c d : Char} (h : d ∈ stringChar ascii c) :
    d = c ∧ ¬c.toNat < 0x20 ∨ d ∈ escapeMarks := by
  rw [stringChar] at h
  split_ifs at h with hquote hescape hn hr ht hf hb hunits
  iterate 7
    · right
      simp only [List.mem_cons, List.not_mem_nil, or_false] at h
      rcases h with rfl | rfl <;> decide
  · right
    rw [charEscape] at h
    split at h
    · exact mem_escapeMarks_of_unitEscape h
    · exact (List.mem_append.1 h).elim mem_escapeMarks_of_unitEscape mem_escapeMarks_of_unitEscape
  · exact .inl ⟨List.mem_singleton.1 h, fun hlow => hunits (.inl hlow)⟩

section Control

variable {c : Char} (hc : c.toNat < 0x20)
include hc

theorem ne_of_control {d : Char} (hd : 0x20 ≤ d.toNat) : c ≠ d := by
  rintro rfl
  omega

theorem notMem_of_control {cs : List Char} (h : (cs.all fun d => 0x20 ≤ d.toNat) = true) :
    c ∉ cs :=
  fun hmem => ne_of_control hc (of_decide_eq_true (List.all_eq_true.1 h c hmem)) rfl

theorem notMem_stringText (ascii : Bool) (s : String) : c ∉ (stringText ascii s).toList := by
  have hquote : c ≠ '"' := ne_of_control hc (by decide)
  have hchar : ∀ d, c ∉ stringChar ascii d := by
    intro d h
    rcases mem_stringChar h with ⟨rfl, hlow⟩ | h
    · exact hlow hc
    · exact notMem_of_control hc (by decide) h
  simp [stringText, hquote, hchar]

theorem notMem_numberText (n : Number) : c ∉ (numberText n).toList := by
  have hdigit : c.isDigit = false := by
    cases h : c.isDigit with
    | false => rfl
    | true =>
      rw [Char.isDigit, Bool.and_eq_true] at h
      exact absurd (of_decide_eq_true h.1) (Nat.not_le.2 (Nat.lt_of_lt_of_le hc (by decide)))
  have htext := Number.notMem_text hdigit (notMem_of_control hc (by decide)) n
  cases n with
  | int n => exact htext
  | float x =>
    rw [Number.text, Decimal.Notation.text] at htext
    rw [numberText, Decimal.Notation.text]
    split at htext
    · exact notMem_of_control hc (by decide)
    · rw [String.toList_append, List.mem_append, not_or]
      exact ⟨by split <;> exact notMem_of_control hc (by decide), notMem_of_control hc (by decide)⟩
    · exact htext

theorem notMem_colon (f : Layout) : c ∉ f.colon.toList := by
  rw [Layout.colon]
  split <;> exact notMem_of_control hc (by decide)

variable {f : Layout} (hbreak : ∀ depth, c ∉ (f.break depth).toList)
include hbreak

mutual

/-- The text of a value has no control character that its layout does not put there. -/
theorem notMem_write : ∀ (depth : Nat) (v : Value), c ∉ (write f depth v).toList
  | _, .null => by rw [write]; exact notMem_of_control hc (by decide)
  | _, .bool b => by cases b <;> rw [write] <;> exact notMem_of_control hc (by decide)
  | _, .number n => by rw [write]; exact notMem_numberText hc n
  | _, .text s => by rw [write]; exact notMem_stringText hc f.ascii s
  | _, .list [] => by rw [write]; exact notMem_of_control hc (by decide)
  | depth, .list (v :: items) => by
    have hopen := ne_of_control hc (d := '[') (by decide)
    have hclose := ne_of_control hc (d := ']') (by decide)
    simp [write, hopen, hclose, hbreak, notMem_write _ v, notMem_writeItems _ items]
  | _, .map [] => by rw [write]; exact notMem_of_control hc (by decide)
  | depth, .map ((k, v) :: members) => by
    have hopen := ne_of_control hc (d := '\x7b') (by decide)
    have hclose := ne_of_control hc (d := '\x7d') (by decide)
    simp [write, hopen, hclose, hbreak, notMem_colon hc, notMem_stringText hc, notMem_write _ v,
      notMem_writeMembers _ members]

theorem notMem_writeItems : ∀ (depth : Nat) (items : List Value),
    c ∉ (writeItems f depth items).toList
  | _, [] => by simp [writeItems]
  | depth, v :: items => by
    have hcomma := ne_of_control hc (d := ',') (by decide)
    simp [writeItems, hcomma, hbreak, notMem_write _ v, notMem_writeItems _ items]

theorem notMem_writeMembers : ∀ (depth : Nat) (members : List (String × Value)),
    c ∉ (writeMembers f depth members).toList
  | _, [] => by simp [writeMembers]
  | depth, (k, v) :: members => by
    have hcomma := ne_of_control hc (d := ',') (by decide)
    simp [writeMembers, hcomma, hbreak, notMem_colon hc, notMem_stringText hc, notMem_write _ v,
      notMem_writeMembers _ members]

end

end Control

end AtomicCss.Json
