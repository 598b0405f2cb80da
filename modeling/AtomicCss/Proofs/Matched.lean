import AtomicCss.Proofs.Results
import Mathlib.Data.List.Perm.Basic

/-!
# Lists that match in some order

Two lists match under a relation if the items of one, in some order, are related one by one to
those of the other. What is gathered item by item from matching lists matches again, and lists that
match under equality are permutations of each other.
-/
namespace AtomicCss

variable {ε α β γ δ : Type}

/-- Lists whose items are related one by one once those of the first are put in some order. -/
def Matched (R : α → β → Prop) : List α → List β → Prop :=
  Relation.Comp List.Perm (List.Forall₂ R)

namespace Matched

variable {R : α → β → Prop} {l : List α} {r : List β}

theorem of_forall₂ (h : List.Forall₂ R l r) : Matched R l r := ⟨l, .refl l, h⟩

theorem symm (h : Matched R l r) : Matched (fun b a => R a b) r l := by
  obtain ⟨m, hperm, h⟩ := h
  have hback : Relation.Comp (List.Forall₂ fun b a => R a b) List.Perm r l :=
    ⟨m, h.flip, hperm.symm⟩
  rwa [List.forall₂_comp_perm_eq_perm_comp_forall₂] at hback

theorem mem (h : Matched R l r) : Matched (fun a b => (a ∈ l ∧ b ∈ r) ∧ R a b) l r := by
  obtain ⟨m, hperm, h⟩ := h
  obtain ⟨hlength, hzip⟩ := List.forall₂_iff_zip.1 h
  refine ⟨m, hperm, List.forall₂_iff_zip.2 ⟨hlength, fun {a b} hab => ⟨?_, hzip hab⟩⟩⟩
  have hmem := List.of_mem_zip hab
  exact ⟨hperm.mem_iff.2 hmem.1, hmem.2⟩

theorem perm_left {l' : List α} (h : Matched R l r) (hl : l'.Perm l) : Matched R l' r := by
  obtain ⟨m, hperm, h⟩ := h
  exact ⟨m, hl.trans hperm, h⟩

theorem perm_right {r' : List β} (h : Matched R l r) (hr : r'.Perm r) : Matched R l r' :=
  (h.symm.perm_left hr).symm

theorem append {l' : List α} {r' : List β} (h : Matched R l r) (h' : Matched R l' r') :
    Matched R (l ++ l') (r ++ r') := by
  obtain ⟨m, hperm, h⟩ := h
  obtain ⟨m', hperm', h'⟩ := h'
  exact ⟨m ++ m', hperm.append hperm', List.rel_append h h'⟩

theorem map {S : γ → δ → Prop} {f : α → γ} {g : β → δ} (hfg : ∀ a b, R a b → S (f a) (g b))
    (h : Matched R l r) : Matched S (l.map f) (r.map g) := by
  obtain ⟨m, hperm, h⟩ := h
  refine ⟨m.map f, hperm.map f, ?_⟩
  rw [List.forall₂_map_left_iff, List.forall₂_map_right_iff]
  exact h.imp hfg

theorem filter {p : α → Bool} {q : β → Bool} (hpq : ∀ a b, R a b → (p a = true ↔ q b = true))
    (h : Matched R l r) : Matched R (l.filter p) (r.filter q) := by
  obtain ⟨m, hperm, h⟩ := h
  exact ⟨m.filter p, hperm.filter p, List.rel_filter (fun _ _ hab => hpq _ _ hab) h⟩

theorem flatMap {S : γ → δ → Prop} {f : α → List γ} {g : β → List δ}
    (hfg : ∀ a b, R a b → Matched S (f a) (g b)) (h : Matched R l r) :
    Matched S (l.flatMap f) (r.flatMap g) := by
  obtain ⟨m, hperm, h⟩ := h
  have hmatched : Matched S (m.flatMap f) (r.flatMap g) := by
    clear hperm
    induction h with
    | nil => exact of_forall₂ .nil
    | cons hab _ ih => exact (hfg _ _ hab).append ih
  obtain ⟨m', hperm', h'⟩ := hmatched
  exact ⟨m', (hperm.flatMap_right f).trans hperm', h'⟩

/-- The results of two traversals match if those of related items are related. -/
theorem of_mapM {S : γ → δ → Prop} {f : α → Except ε γ} {g : β → Except ε δ} {l' : List γ}
    {r' : List δ} (hfg : ∀ a b c d, R a b → c ∈ l' → f a = .ok c → g b = .ok d → S c d)
    (h : Matched R l r) (hl : l.mapM f = .ok l') (hr : r.mapM g = .ok r') :
    Matched S l' r' := by
  obtain ⟨m, hperm, h⟩ := h
  obtain ⟨m', hm, hperm'⟩ := List.perm_comp_forall₂ hperm.symm (mapM_eq_ok.1 hl)
  replace hfg := fun a b c d hab hc => hfg a b c d hab (hperm'.mem_iff.1 hc)
  refine ⟨m', hperm'.symm, ?_⟩
  replace hr := mapM_eq_ok.1 hr
  clear hperm hl hperm'
  induction h generalizing m' r' with
  | nil =>
    cases hm
    cases hr
    exact .nil
  | cons hab _ ih =>
    cases hm with
    | cons hc hm =>
      cases hr with
      | cons hd hr =>
        refine .cons (hfg _ _ _ _ hab List.mem_cons_self hc hd)
          (ih _ hm (fun a b c d hab h => ?_) hr)
        exact hfg a b c d hab (List.mem_cons_of_mem _ h)

/-- A property of items that is the same for related ones is had in both lists or in neither. -/
theorem exists_iff {P : α → Prop} {Q : β → Prop} (hPQ : ∀ a b, R a b → (P a ↔ Q b))
    (h : Matched R l r) : (∃ a ∈ l, P a) ↔ ∃ b ∈ r, Q b := by
  obtain ⟨m, hperm, h⟩ := h
  constructor
  · rintro ⟨a, ha, hP⟩
    obtain ⟨b, hb, hab⟩ := exists_right_of_forall₂ h (hperm.mem_iff.1 ha)
    exact ⟨b, hb, (hPQ a b hab).1 hP⟩
  · rintro ⟨b, hb, hQ⟩
    obtain ⟨a, ha, hab⟩ := exists_left_of_forall₂ h hb
    exact ⟨a, hperm.mem_iff.2 ha, (hPQ a b hab).2 hQ⟩

theorem length_eq (h : Matched R l r) : l.length = r.length := by
  obtain ⟨m, hperm, h⟩ := h
  rw [hperm.length_eq, h.length_eq]

end Matched

theorem matched_eq_iff {l r : List α} : Matched Eq l r ↔ l.Perm r := by
  constructor
  · rintro ⟨m, hperm, h⟩
    rw [List.forall₂_eq_eq_eq] at h
    exact h ▸ hperm
  · exact fun h => ⟨r, h, List.forall₂_same.2 fun _ _ => rfl⟩

/-- Lists of lists that match up to order hold the same items. -/
theorem Matched.flatten_perm {l r : List (List α)} (h : Matched (fun a b => a.Perm b) l r) :
    l.flatten.Perm r.flatten := by
  rw [← matched_eq_iff, ← List.flatMap_id, ← List.flatMap_id]
  exact h.flatMap fun _ _ hab => matched_eq_iff.2 hab

end AtomicCss
