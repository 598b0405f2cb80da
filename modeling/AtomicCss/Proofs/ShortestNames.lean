import AtomicCss.Proofs.Naming
import AtomicCss.Proofs.ReorderedTree
import Mathlib.Algebra.BigOperators.Fin
import Mathlib.Algebra.Order.BigOperators.Group.Finset
import Mathlib.Data.Finset.Max
import Mathlib.Data.List.GetD
import Mathlib.Tactic.Linarith

/-!
# No naming is shorter

The names are all words over the alphabet in order of length, and the keys take them in order of
use. So every other naming of the keys by distinct words takes at least as many characters, each
name being counted as often as its key occurs.
-/
namespace AtomicCss

open Finset

namespace ClassName

theorem exists_letter_eq {c : Char} (h : 'a' ≤ c ∧ c ≤ 'z') : ∃ i < 26, letter i = c := by
  refine ⟨c.toNat - 'a'.toNat, ?_, ?_⟩
  · have hle : c.toNat ≤ 'z'.toNat := h.2
    have hz : 'z'.toNat - 'a'.toNat = 25 := by decide
    omega
  · have hle : c.toNat ≤ 'z'.toNat := h.2
    have hge : 'a'.toNat ≤ c.toNat := h.1
    have hz : 'z'.toNat - 'a'.toNat = 25 := by decide
    rw [letter, Nat.mod_eq_of_lt (by omega), Nat.add_sub_cancel' hge, Char.ofNat_toNat]

/-- Every word has an index. -/
theorem exists_word_eq {cs : List Char} (h : IsWord cs) : ∃ n, word n = cs := by
  obtain ⟨hne, hletters⟩ := h
  induction cs using List.reverseRecOn with
  | nil => exact absurd rfl hne
  | append_singleton front c ih =>
    obtain ⟨i, hi, hc⟩ := exists_letter_eq (hletters c (by simp))
    by_cases hfront : front = []
    · refine ⟨i, ?_⟩
      rw [word, if_pos hi, hc, hfront, List.nil_append]
    · obtain ⟨m, hm⟩ := ih hfront fun c hc => hletters c (List.mem_append_left _ hc)
      have hdiv : (26 * (m + 1) + i) / 26 - 1 = m := by omega
      have hmod : letter (26 * (m + 1) + i) = letter i := by
        rw [letter, letter, Nat.mul_add_mod]
      refine ⟨26 * (m + 1) + i, ?_⟩
      rw [word, if_neg (by omega), hdiv, hmod, hm, hc]

theorem length_word_pos (n : Nat) : 1 ≤ (word n).length :=
  List.length_pos_iff.2 (word_ne_nil n)

/-- Later words are not shorter. -/
theorem length_word_mono : Monotone fun n => (word n).length := by
  intro m n h
  induction n using word.induct generalizing m with
  | case1 n hn =>
    have hm : m < 26 := by omega
    dsimp only
    rw [word.eq_1 m, word.eq_1 n, if_pos hm, if_pos hn]
    exact le_rfl
  | case2 n hn ih =>
    by_cases hm : m < 26
    · dsimp only
      rw [word.eq_1 m, if_pos hm]
      exact length_word_pos n
    · have hfront := ih (m := m / 26 - 1) (by omega)
      dsimp only at hfront ⊢
      rw [word.eq_1 m, word.eq_1 n, if_neg hm, if_neg hn]
      simpa using hfront

end ClassName

/-- Any numbers give at least the sum that the first ones give, as many of them. -/
theorem sum_range_card_le {f : Nat → Nat} (hf : Monotone f) (s : Finset Nat) :
    ∑ i ∈ range s.card, f i ≤ ∑ i ∈ s, f i := by
  induction s using Finset.induction_on_max with
  | empty => simp
  | insert a s hmax ih =>
    have hnot : a ∉ s := fun ha => lt_irrefl a (hmax a ha)
    have hcard : s.card ≤ a := by
      have hsub : s ⊆ range a := fun x hx => mem_range.2 (hmax x hx)
      simpa using card_le_card hsub
    rw [card_insert_of_notMem hnot, sum_range_succ, sum_insert hnot, add_comm (f a)]
    exact Nat.add_le_add ih (hf hcard)

/-- If costs fall and one list of lengths starts with no more than another wherever it is broken
off, then it costs no more. The bound `b` stands for the costs to come: what the first list has
saved so far is still saved at that cost. -/
theorem sum_mul_le_of_sum_le {cost length other : Nat → Nat} {m : Nat}
    (hcost : ∀ i j, i ≤ j → j < m → cost j ≤ cost i)
    (hsum : ∀ n ≤ m, ∑ i ∈ range n, length i ≤ ∑ i ∈ range n, other i)
    (b : Nat) (hb : ∀ i < m, b ≤ cost i) :
    ∑ i ∈ range m, cost i * length i + b * ∑ i ∈ range m, other i
      ≤ ∑ i ∈ range m, cost i * other i + b * ∑ i ∈ range m, length i := by
  induction m generalizing b with
  | zero => simp
  | succ m ih =>
    have hstep := ih (fun i j hij hj => hcost i j hij (by omega)) (fun n hn => hsum n (by omega))
      (cost m) (fun i hi => hcost i m (by omega) (by omega))
    have hsaved := hsum (m + 1) le_rfl
    have hlast := hb m (by omega)
    simp only [sum_range_succ] at hsaved ⊢
    obtain ⟨d, hd⟩ := Nat.exists_eq_add_of_le hsaved
    obtain ⟨e, he⟩ := Nat.exists_eq_add_of_le hlast
    rw [hd]
    rw [he] at hstep ⊢
    nlinarith [Nat.zero_le (e * d)]

namespace Usage

/-- Each key stands with the number of its occurrences. -/
theorem eq_count_of_mem_ofKeys {keys : List String} {k : String} {n : Nat}
    (h : (k, n) ∈ ofKeys keys) : n = keys.count k := by
  rw [ofKeys, List.mem_mergeSort] at h
  have hget := Dict.get?_of_mem (nodup_keys_foldl_count keys Dict.nodup_keys_nil) h
  rw [get?_foldl_count] at hget
  by_cases hk : k ∈ keys
  · simpa [hk] using hget.symm
  · simp [hk] at hget

/-- The keys stand in the order of falling use. -/
theorem pairwise_count_ofKeys (keys : List String) :
    (Dict.keys (ofKeys keys)).Pairwise fun j k => keys.count k ≤ keys.count j := by
  have hsorted : (ofKeys keys).Pairwise fun a b => before a b = true := by
    apply List.pairwise_mergeSort
    · intro a b c hab hbc
      exact (before_iff a c).2 (((before_iff a b).1 hab).trans ((before_iff b c).1 hbc))
    · intro a b
      rw [Bool.or_eq_true, before_iff, before_iff]
      exact le_total _ _
  rw [Dict.keys, List.pairwise_map]
  apply hsorted.imp_of_mem
  rintro ⟨j, m⟩ ⟨k, n⟩ hj hk hbefore
  rw [← eq_count_of_mem_ofKeys hj, ← eq_count_of_mem_ofKeys hk]
  by_cases h : m = n
  · exact h.ge
  · simp [before, h] at hbefore
    omega

end Usage

namespace KeyTree

/-- A naming of the keys of a tree by distinct words. -/
structure IsNaming (t : KeyTree) (name : String → String) : Prop where
  distinct : ∀ j ∈ t.keys, ∀ k ∈ t.keys, name j = name k → j = k
  words : ∀ k ∈ t.keys, ClassName.IsWord (name k).toList

/-- The characters of all names, each counted as often as its key occurs. -/
def totalLength (t : KeyTree) (name : String → String) : Nat :=
  ∑ k ∈ t.keys.toFinset, t.keys.count k * (name k).length

/-- A naming to which no other is preferable. -/
structure IsShortestNaming (t : KeyTree) (name : String → String) : Prop
    extends IsNaming t name where
  least : ∀ other, t.IsNaming other → t.totalLength name ≤ t.totalLength other

theorem isNaming_classNames (t : KeyTree) : t.IsNaming (ClassName.of (Usage.classNames t)) where
  distinct _ hj _ hk h := Usage.classNames_inj hj hk h
  words _ hk := Usage.isWord_classNames hk

/-- The number of different keys. -/
def keyCount (t : KeyTree) : Nat := (Usage.ofTree t).keys.length

def keyAt (t : KeyTree) (i : Nat) : String := (Usage.ofTree t).keys.getD i ""

theorem nodup_ofTree (t : KeyTree) : (Usage.ofTree t).keys.Nodup := Usage.nodup_keys_ofKeys _

theorem keyAt_eq {t : KeyTree} {i : Nat} (hi : i < (Usage.ofTree t).keys.length) :
    t.keyAt i = (Usage.ofTree t).keys[i] := List.getD_eq_getElem _ _ hi

theorem keyAt_mem {t : KeyTree} {i : Nat} (hi : i < t.keyCount) : t.keyAt i ∈ t.keys := by
  rw [keyAt_eq hi]
  exact Usage.mem_keys_ofKeys.1 (List.getElem_mem hi)

theorem keyAt_inj {t : KeyTree} {i j : Nat} (hi : i < t.keyCount) (hj : j < t.keyCount)
    (h : t.keyAt i = t.keyAt j) : i = j := by
  rw [keyAt_eq hi, keyAt_eq hj] at h
  exact t.nodup_ofTree.getElem_inj_iff.1 h

theorem count_keyAt_le {t : KeyTree} {i j : Nat} (hij : i ≤ j) (hj : j < t.keyCount) :
    t.keys.count (t.keyAt j) ≤ t.keys.count (t.keyAt i) := by
  rcases hij.lt_or_eq with hlt | rfl
  · rw [keyAt_eq hj, keyAt_eq (hlt.trans hj)]
    exact List.pairwise_iff_getElem.1 (Usage.pairwise_count_ofKeys t.keys) i j _ hj hlt
  · exact le_rfl

/-- The key at a place has the word of this index for its class name. -/
theorem length_classNames_keyAt {t : KeyTree} {i : Nat} (hi : i < t.keyCount) :
    (ClassName.of (Usage.classNames t) (t.keyAt i)).length = (ClassName.word i).length := by
  rw [keyAt_eq hi, ClassName.of, Dict.getD, Usage.classNames,
    ClassName.get?_assign t.nodup_ofTree hi, Option.getD_some, String.length_ofList]

/-- The total length, key by key in the order of use. -/
theorem totalLength_eq (t : KeyTree) (name : String → String) : t.totalLength name
    = ∑ i ∈ range t.keyCount, t.keys.count (t.keyAt i) * (name (t.keyAt i)).length := by
  have hset : t.keys.toFinset = (Usage.ofTree t).keys.toFinset := by
    ext k
    rw [List.mem_toFinset, List.mem_toFinset]
    exact Usage.mem_keys_ofKeys.symm
  rw [totalLength, hset, List.sum_toFinset _ t.nodup_ofTree, ← Fin.sum_univ_fun_getElem,
    Finset.sum_range]
  apply Fintype.sum_congr
  intro i
  rw [keyAt_eq i.isLt]

/-- The first keys cannot be named by fewer characters than the first words have. -/
theorem IsNaming.sum_length_word_le {t : KeyTree} {name : String → String} (h : t.IsNaming name)
    {n : Nat} (hn : n ≤ t.keyCount) :
    ∑ i ∈ range n, (ClassName.word i).length ≤ ∑ i ∈ range n, (name (t.keyAt i)).length := by
  have hlt : ∀ i ∈ range n, i < t.keyCount := fun i hi => (mem_range.1 hi).trans_le hn
  have hindex : ∀ k, ∃ i, k ∈ t.keys → ClassName.word i = (name k).toList := by
    intro k
    by_cases hk : k ∈ t.keys
    · obtain ⟨i, hi⟩ := ClassName.exists_word_eq (h.words k hk)
      exact ⟨i, fun _ => hi⟩
    · exact ⟨0, fun hk' => absurd hk' hk⟩
  choose index hindex using hindex
  have hinj : Set.InjOn (fun i => index (t.keyAt i)) (range n : Set Nat) := by
    intro i hi j hj hij
    have hname : name (t.keyAt i) = name (t.keyAt j) := by
      rw [← String.toList_inj, ← hindex _ (keyAt_mem (hlt i hi)),
        ← hindex _ (keyAt_mem (hlt j hj))]
      exact congrArg ClassName.word hij
    exact keyAt_inj (hlt i hi) (hlt j hj)
      (h.distinct _ (keyAt_mem (hlt i hi)) _ (keyAt_mem (hlt j hj)) hname)
  calc ∑ i ∈ range n, (ClassName.word i).length
      = ∑ i ∈ range ((range n).image fun i => index (t.keyAt i)).card,
          (ClassName.word i).length := by
        rw [card_image_of_injOn hinj, card_range]
    _ ≤ ∑ i ∈ (range n).image fun i => index (t.keyAt i), (ClassName.word i).length :=
        sum_range_card_le ClassName.length_word_mono _
    _ = ∑ i ∈ range n, (ClassName.word (index (t.keyAt i))).length := sum_image hinj
    _ = ∑ i ∈ range n, (name (t.keyAt i)).length := by
        apply sum_congr rfl
        intro i hi
        rw [hindex _ (keyAt_mem (hlt i hi)), String.length_toList]

/-- No naming of a tree's keys is shorter than that by class names. -/
theorem isShortestNaming_classNames (t : KeyTree) :
    t.IsShortestNaming (ClassName.of (Usage.classNames t)) := by
  refine ⟨t.isNaming_classNames, ?_⟩
  intro other hother
  have hle := sum_mul_le_of_sum_le (m := t.keyCount)
    (fun i j hij hj => t.count_keyAt_le hij hj) (fun n hn => hother.sum_length_word_le hn) 0
    fun _ _ => Nat.zero_le _
  rw [zero_mul, zero_mul, add_zero, add_zero] at hle
  rw [totalLength_eq, totalLength_eq]
  calc ∑ i ∈ range t.keyCount, t.keys.count (t.keyAt i)
          * (ClassName.of (Usage.classNames t) (t.keyAt i)).length
      = ∑ i ∈ range t.keyCount, t.keys.count (t.keyAt i) * (ClassName.word i).length := by
        apply sum_congr rfl
        intro i hi
        rw [length_classNames_keyAt (mem_range.1 hi)]
    _ ≤ ∑ i ∈ range t.keyCount, t.keys.count (t.keyAt i) * (other (t.keyAt i)).length := hle

end KeyTree
end AtomicCss
