import AtomicCss.Usage
import AtomicCss.Proofs.Dict
import AtomicCss.Proofs.Tree

/-!
# Class names tell keys apart

The words that name keys differ from each other and consist of small letters, so a name stands for
one key, and names can be joined with spaces and read back.
-/
namespace AtomicCss

namespace ClassName

/-- A text of one or more small letters. -/
def IsWord (cs : List Char) : Prop := cs ≠ [] ∧ ∀ c ∈ cs, 'a' ≤ c ∧ c ≤ 'z'

theorem letter_mem (n : Nat) : 'a' ≤ letter n ∧ letter n ≤ 'z' := by
  have h : ∀ i < 26, 'a' ≤ Char.ofNat ('a'.toNat + i) ∧ Char.ofNat ('a'.toNat + i) ≤ 'z' := by
    decide
  exact h (n % 26) (Nat.mod_lt n (by decide))

theorem letter_inj {m n : Nat} (h : letter m = letter n) : m % 26 = n % 26 := by
  have hinj : ∀ i < 26, ∀ j < 26,
      Char.ofNat ('a'.toNat + i) = Char.ofNat ('a'.toNat + j) → i = j := by decide
  exact hinj _ (Nat.mod_lt m (by decide)) _ (Nat.mod_lt n (by decide)) h

theorem word_ne_nil (n : Nat) : word n ≠ [] := by
  rw [word]
  split <;> simp

theorem isWord_word (n : Nat) : IsWord (word n) := by
  refine ⟨word_ne_nil n, ?_⟩
  induction n using word.induct with
  | case1 n hn =>
    rw [word, if_pos hn]
    simpa using letter_mem n
  | case2 n hn ih =>
    rw [word, if_neg hn]
    intro c hc
    rcases List.mem_append.1 hc with hc | hc
    · exact ih c hc
    · rw [List.mem_singleton.1 hc]
      exact letter_mem n

theorem word_injective {m n : Nat} (h : word m = word n) : m = n := by
  induction m using word.induct generalizing n with
  | case1 m hm =>
    rw [word, if_pos hm, word] at h
    split at h
    · next hn =>
      have := letter_inj (List.cons.inj h).1
      omega
    · exact absurd (List.append_eq_singleton_iff.1 h.symm) (by simp [word_ne_nil])
  | case2 m hm ih =>
    rw [word, if_neg hm, word.eq_1 n] at h
    split at h
    · exact absurd (List.append_eq_singleton_iff.1 h) (by simp [word_ne_nil])
    · next hn =>
      obtain ⟨hfront, hlast⟩ := List.append_inj' h rfl
      have hmod := letter_inj (List.cons.inj hlast).1
      have hdiv := ih hfront
      omega

theorem get?_assign {keys : List String} (h : keys.Nodup) {n : Nat} (hn : n < keys.length) :
    (assign keys).get? keys[n] = some (String.ofList (word n)) := by
  have hkeys : Dict.keys (keys.zipIdx.map fun p => (p.1, String.ofList (word p.2))) = keys := by
    simp only [Dict.keys, List.map_map, Function.comp_def, List.zipIdx_map_fst]
  have hnodup := hkeys.symm ▸ h
  have hassign : assign keys = keys.zipIdx.map fun p => (p.1, String.ofList (word p.2)) :=
    Dict.ofList_of_nodup hnodup
  rw [hassign]
  refine Dict.get?_of_mem hnodup (List.mem_map.2 ⟨(keys[n], n), ?_, rfl⟩)
  rw [List.mem_zipIdx_iff_getElem?]
  exact List.getElem?_eq_getElem hn

theorem of_assign_inj {keys : List String} (h : keys.Nodup) {j k : String} (hj : j ∈ keys)
    (hk : k ∈ keys) (heq : of (assign keys) j = of (assign keys) k) : j = k := by
  obtain ⟨m, hm, rfl⟩ := List.getElem_of_mem hj
  obtain ⟨n, hn, rfl⟩ := List.getElem_of_mem hk
  rw [of, of, Dict.getD, Dict.getD, get?_assign h hm, get?_assign h hn] at heq
  have := word_injective (String.ofList_injective heq)
  subst this
  rfl

theorem isWord_of_assign {keys : List String} (h : keys.Nodup) {k : String} (hk : k ∈ keys) :
    IsWord (of (assign keys) k).toList := by
  obtain ⟨n, hn, rfl⟩ := List.getElem_of_mem hk
  rw [of, Dict.getD, get?_assign h hn, Option.getD_some, String.toList_ofList]
  exact isWord_word n

end ClassName

namespace Usage

theorem mem_keys_count {counts : Dict Nat} {key k : String} :
    k ∈ Dict.keys (count counts key) ↔ k = key ∨ k ∈ Dict.keys counts := Dict.mem_keys_set

theorem mem_keys_ofKeys {keys : List String} {k : String} :
    k ∈ Dict.keys (ofKeys keys) ↔ k ∈ keys := by
  have hfold : ∀ counts : Dict Nat, k ∈ Dict.keys (keys.foldl count counts)
      ↔ k ∈ Dict.keys counts ∨ k ∈ keys := by
    induction keys with
    | nil => simp
    | cons key keys ih =>
      intro counts
      rw [List.foldl_cons, ih, mem_keys_count, List.mem_cons]
      tauto
  have hperm := ((keys.foldl count []).mergeSort_perm before).map (·.1)
  rw [ofKeys, Dict.keys, hperm.mem_iff]
  simpa [Dict.keys] using hfold []

theorem nodup_keys_foldl_count (keys : List String) {counts : Dict Nat}
    (h : (Dict.keys counts).Nodup) : (Dict.keys (keys.foldl count counts)).Nodup := by
  induction keys generalizing counts with
  | nil => exact h
  | cons key keys ih => exact ih (Dict.nodup_keys_set h _ _)

theorem nodup_keys_ofKeys (keys : List String) : (Dict.keys (ofKeys keys)).Nodup := by
  have hperm := ((keys.foldl count []).mergeSort_perm before).map (·.1)
  rw [ofKeys, Dict.keys, hperm.nodup_iff]
  exact nodup_keys_foldl_count keys Dict.nodup_keys_nil

/-- Counts that are in order already are the usage. -/
theorem ofKeys_of_pairwise {keys : List String}
    (h : (keys.foldl count []).Pairwise fun a b => before a b = true) :
    ofKeys keys = keys.foldl count [] := List.mergeSort_of_pairwise h

theorem classNames_inj {t : KeyTree} {j k : String} (hj : j ∈ t.keys) (hk : k ∈ t.keys)
    (h : ClassName.of (classNames t) j = ClassName.of (classNames t) k) : j = k :=
  ClassName.of_assign_inj (nodup_keys_ofKeys _) (mem_keys_ofKeys.2 hj) (mem_keys_ofKeys.2 hk) h

theorem isWord_classNames {t : KeyTree} {k : String} (hk : k ∈ t.keys) :
    ClassName.IsWord (ClassName.of (classNames t) k).toList :=
  ClassName.isWord_of_assign (nodup_keys_ofKeys _) (mem_keys_ofKeys.2 hk)

end Usage
end AtomicCss
