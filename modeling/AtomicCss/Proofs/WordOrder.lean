import AtomicCss.Proofs.ShortestNames
import Mathlib.Data.List.Shortlex
import Mathlib.Data.Set.Function

/-!
# The numbering of class names

Every word over the alphabet is the class name at exactly one index, and the names stand in the
order of length and then alphabet: with the last letter cut off, a later name has the same front
and a later letter, or a later front.
-/
namespace AtomicCss.ClassName

theorem letter_lt {m n : Nat} (h : m % 26 < n % 26) : letter m < letter n := by
  have hlt : ∀ j < 26, ∀ i < j, Char.ofNat ('a'.toNat + i) < Char.ofNat ('a'.toNat + j) := by
    decide
  exact hlt _ (Nat.mod_lt n (by decide)) _ h

/-- Words of one length that differ keep their order whatever letters follow. -/
theorem lex_append {s t : List Char} (hlength : s.length = t.length)
    (h : List.Lex (· < ·) s t) (u v : List Char) : List.Lex (· < ·) (s ++ u) (t ++ v) := by
  induction h with
  | nil => cases hlength
  | cons _ ih => exact .cons (ih (Nat.succ.inj hlength))
  | rel h => exact .rel h

theorem shortlex_append {s t : List Char} (h : List.Shortlex (· < ·) s t) (a b : Char) :
    List.Shortlex (· < ·) (s ++ [a]) (t ++ [b]) := by
  rcases List.shortlex_def.1 h with hless | ⟨hlength, hlex⟩
  · refine .of_length_lt ?_
    simpa using hless
  · refine .of_lex ?_ (lex_append hlength hlex [a] [b])
    simpa using hlength

theorem shortlex_word {m n : Nat} (h : m < n) : List.Shortlex (· < ·) (word m) (word n) := by
  induction n using word.induct generalizing m with
  | case1 n hn =>
    rw [word.eq_1 m, word.eq_1 n, if_pos (by omega), if_pos hn, List.shortlex_singleton_iff]
    exact letter_lt (by omega)
  | case2 n hn ih =>
    rw [word.eq_1 n, if_neg hn]
    by_cases hm : m < 26
    · refine .of_length_lt ?_
      rw [word, if_pos hm, List.length_append]
      exact Nat.lt_add_of_pos_left (length_word_pos _)
    · rw [word.eq_1 m, if_neg hm]
      obtain hfront | hfront : m / 26 - 1 < n / 26 - 1 ∨ m / 26 - 1 = n / 26 - 1 := by omega
      · exact shortlex_append (ih hfront) _ _
      · rw [hfront]
        exact .append_left ((List.shortlex_singleton_iff _ _).2 (letter_lt (by omega))) _

theorem shortlex_word_iff {m n : Nat} : List.Shortlex (· < ·) (word m) (word n) ↔ m < n := by
  refine ⟨fun h => ?_, shortlex_word⟩
  by_contra hle
  rcases Nat.lt_or_eq_of_le (not_lt.1 hle) with hlt | rfl
  · exact Std.Asymm.asymm _ _ h (shortlex_word hlt)
  · exact Std.Asymm.asymm _ _ h h

/-- A numbering of the words over the alphabet: each has one index, and greater indices have longer
words, or words of the same length that come later in the alphabet. -/
structure NumbersWords (f : Nat → String) : Prop where
  bijOn : Set.BijOn f Set.univ {s | IsWord s.toList}
  shortlex_iff : ∀ m n, List.Shortlex (· < ·) (f m).toList (f n).toList ↔ m < n

/-- Every index has a class name, and the class names are numbered by their indices. -/
theorem exists_numbersWords_token : ∃ f, (∀ n : Nat, token n = .ok (f n)) ∧ NumbersWords f := by
  refine ⟨fun n => String.ofList (word n), fun n => rfl, ⟨?_, ?_, ?_⟩, fun m n => ?_⟩
  · intro n _
    change IsWord (String.ofList (word n)).toList
    rw [String.toList_ofList]
    exact isWord_word n
  · intro m _ n _ h
    exact word_injective (String.ofList_injective h)
  · intro s hs
    obtain ⟨n, hn⟩ := exists_word_eq hs
    refine ⟨n, Set.mem_univ n, ?_⟩
    dsimp only
    rw [hn, String.ofList_toList]
  · rw [String.toList_ofList, String.toList_ofList]
    exact shortlex_word_iff

end AtomicCss.ClassName
