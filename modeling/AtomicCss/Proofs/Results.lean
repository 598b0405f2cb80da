import Mathlib.Data.List.Forall2

/-!
# Computations that succeed

A computation with a result had a result at every step. A traversal succeeds exactly if it does at
every item, so its results stand beside the items they come from.
-/
namespace AtomicCss

variable {ε δ α β γ : Type}

theorem bind_eq_ok {x : Except ε α} {f : α → Except ε β} {b : β} :
    (x >>= f) = .ok b ↔ ∃ a, x = .ok a ∧ f a = .ok b := by
  cases x with
  | error e => simp [bind, Except.bind]
  | ok a => simp [bind, Except.bind]

theorem bind_eq_error {x : Except ε α} {f : α → Except ε β} {e : ε} :
    (x >>= f) = .error e ↔ x = .error e ∨ ∃ a, x = .ok a ∧ f a = .error e := by
  cases x <;> simp [bind, Except.bind]

theorem pure_eq_ok {a b : α} : (pure a : Except ε α) = .ok b ↔ a = b :=
  ⟨fun h => Except.ok.inj h, fun h => congrArg Except.ok h⟩

theorem map_eq_ok {x : Except ε α} {f : α → β} {b : β} :
    x.map f = .ok b ↔ ∃ a, x = .ok a ∧ f a = b := by
  cases x <;> simp [Except.map]

theorem mapError_eq_ok {x : Except ε α} {f : ε → δ} {a : α} :
    x.mapError f = .ok a ↔ x = .ok a := by
  cases x <;> simp [Except.mapError]

theorem mapError_eq_error {x : Except ε α} {f : ε → δ} {d : δ} :
    x.mapError f = .error d ↔ ∃ e, x = .error e ∧ f e = d := by
  cases x <;> simp [Except.mapError]

theorem exists_of_toOption_map {x : Except ε α} {f : α → β} {b : β}
    (h : x.toOption.map f = some b) : ∃ a, x = .ok a ∧ f a = b := by
  cases x with
  | error e => simp [Except.toOption] at h
  | ok a => exact ⟨a, rfl, by simpa [Except.toOption] using h⟩

theorem exists_of_isSome_toOption {x : Except ε α} (h : x.toOption.isSome = true) :
    ∃ a, x = .ok a := by
  cases x with
  | error e => simp [Except.toOption] at h
  | ok a => exact ⟨a, rfl⟩

theorem exists_error_iff {x : Except ε α} : (∃ e, x = .error e) ↔ ¬∃ a, x = .ok a := by
  cases x <;> simp

theorem mapM_eq_ok {f : α → Except ε β} {l : List α} {r : List β} :
    l.mapM f = .ok r ↔ List.Forall₂ (fun a b => f a = .ok b) l r := by
  induction l generalizing r with
  | nil => rw [List.mapM_nil, List.forall₂_nil_left_iff, pure_eq_ok, eq_comm]
  | cons a l ih =>
    simp only [List.mapM_cons, bind_eq_ok, pure_eq_ok, List.forall₂_cons_left_iff, ih]
    constructor
    · rintro ⟨b, hb, bs, hbs, rfl⟩
      exact ⟨b, bs, hb, hbs, rfl⟩
    · rintro ⟨b, bs, hb, hbs, rfl⟩
      exact ⟨b, hb, bs, hbs, rfl⟩

theorem mapM_option_eq_ok {f : α → Except ε β} {a? : Option α} {b? : Option β} :
    a?.mapM f = .ok b?
      ↔ a? = none ∧ b? = none ∨ ∃ a b, a? = some a ∧ b? = some b ∧ f a = .ok b := by
  cases a? with
  | none =>
    have hnone : (none : Option α).mapM f = pure none := rfl
    rw [hnone, pure_eq_ok]
    simp [eq_comm]
  | some a =>
    have hsome : (some a).mapM f = some <$> f a := rfl
    rw [hsome]
    cases hf : f a <;> simp [hf, Functor.map, Except.map, eq_comm]

section Forall₂

variable {R : α → β → Prop} {l : List α} {r : List β}

theorem exists_right_of_forall₂ (h : List.Forall₂ R l r) {a : α} (ha : a ∈ l) :
    ∃ b ∈ r, R a b := by
  induction h with
  | nil => simp at ha
  | cons hab _ ih =>
    rcases List.mem_cons.1 ha with rfl | ha
    · exact ⟨_, List.mem_cons_self, hab⟩
    · obtain ⟨b, hb, hR⟩ := ih ha
      exact ⟨b, List.mem_cons_of_mem _ hb, hR⟩

theorem exists_left_of_forall₂ (h : List.Forall₂ R l r) {b : β} (hb : b ∈ r) :
    ∃ a ∈ l, R a b :=
  (exists_right_of_forall₂ h.flip hb).imp fun _ h => h

end Forall₂

/-- Every item of a traversal that succeeds has its result among the results. -/
theorem exists_of_mapM_ok {f : α → Except ε β} {l : List α} {r : List β} (h : l.mapM f = .ok r)
    {a : α} (ha : a ∈ l) : ∃ b ∈ r, f a = .ok b :=
  exists_right_of_forall₂ (mapM_eq_ok.1 h) ha

/-- The results of a traversal are those of its items. -/
theorem mem_mapM_ok {f : α → Except ε β} {l : List α} {r : List β} (h : l.mapM f = .ok r) {b : β} :
    b ∈ r ↔ ∃ a ∈ l, f a = .ok b := by
  constructor
  · exact exists_left_of_forall₂ (mapM_eq_ok.1 h)
  · rintro ⟨a, ha, hb⟩
    obtain ⟨c, hc, hac⟩ := exists_of_mapM_ok h ha
    rwa [Except.ok.inj (hb.symm.trans hac)]

/-- What a result has in common with its item stands in the order of the items. -/
theorem map_of_mapM_ok {f : α → Except ε β} {l : List α} {r : List β} (h : l.mapM f = .ok r)
    {g : α → γ} {g' : β → γ} (hg : ∀ a b, f a = .ok b → g' b = g a) : r.map g' = l.map g := by
  replace h := mapM_eq_ok.1 h
  induction h with
  | nil => rfl
  | cons hab _ ih => rw [List.map_cons, List.map_cons, ih, hg _ _ hab]

/-- A traversal of items that all have a result succeeds. -/
theorem exists_mapM_ok {f : α → Except ε β} {l : List α} (h : ∀ a ∈ l, ∃ b, f a = .ok b) :
    ∃ r, l.mapM f = .ok r := by
  induction l with
  | nil => exact ⟨[], rfl⟩
  | cons a l ih =>
    obtain ⟨b, hb⟩ := h a List.mem_cons_self
    obtain ⟨r, hr⟩ := ih fun a ha => h a (List.mem_cons_of_mem _ ha)
    exact ⟨b :: r, by rw [List.mapM_cons, hb, hr]; rfl⟩

/-- A traversal fails at one of its items. -/
theorem exists_of_mapM_error {f : α → Except ε β} {l : List α} {e : ε}
    (h : l.mapM f = .error e) : ∃ a ∈ l, f a = .error e := by
  induction l with
  | nil => cases h
  | cons a l ih =>
    rw [List.mapM_cons, bind_eq_error] at h
    rcases h with ha | ⟨b, -, h⟩
    · exact ⟨a, List.mem_cons_self, ha⟩
    · rcases bind_eq_error.1 h with hl | ⟨_, -, hpure⟩
      · obtain ⟨a', ha', he⟩ := ih hl
        exact ⟨a', List.mem_cons_of_mem _ ha', he⟩
      · cases hpure

theorem mapM_append_ok {f : α → Except ε β} {l l' : List α} {r r' : List β}
    (h : l.mapM f = .ok r) (h' : l'.mapM f = .ok r') : (l ++ l').mapM f = .ok (r ++ r') :=
  mapM_eq_ok.2 (List.rel_append (mapM_eq_ok.1 h) (mapM_eq_ok.1 h'))

theorem mapM_map_ok {f : β → Except ε γ} {g : α → β} {l : List α} {r : List γ} :
    (l.map g).mapM f = .ok r ↔ l.mapM (fun a => f (g a)) = .ok r := by
  rw [mapM_eq_ok, mapM_eq_ok, List.forall₂_map_left_iff]

/-- A traversal whose steps are traversals themselves is one traversal. -/
theorem mapM_flatMap_ok {f : β → Except ε γ} {g : α → List β} {h : α → Except ε (List γ)}
    (hstep : ∀ a r, h a = .ok r → (g a).mapM f = .ok r) {l : List α} {rs : List (List γ)}
    (hrun : l.mapM h = .ok rs) : (l.flatMap g).mapM f = .ok rs.flatten := by
  replace hrun := mapM_eq_ok.1 hrun
  induction hrun with
  | nil => rfl
  | cons hab _ ih =>
    rw [List.flatMap_cons, List.flatten_cons]
    exact mapM_append_ok (hstep _ _ hab) ih

theorem foldlM_flatMap {f : β → γ → Except ε β} {g : α → List γ} {l : List α} {b : β} :
    (l.flatMap g).foldlM f b = l.foldlM (fun b a => (g a).foldlM f b) b := by
  induction l generalizing b with
  | nil => rfl
  | cons a l ih => simp only [List.flatMap_cons, List.foldlM_append, List.foldlM_cons, ih]

theorem exists_foldlM_ok {f : β → α → Except ε β} {l : List α}
    (h : ∀ a ∈ l, ∀ b, ∃ c, f b a = .ok c) {b : β} : ∃ c, l.foldlM f b = .ok c := by
  induction l generalizing b with
  | nil => exact ⟨b, rfl⟩
  | cons a l ih =>
    obtain ⟨c, hc⟩ := h a List.mem_cons_self b
    rw [List.foldlM_cons, hc]
    exact ih fun a ha => h a (List.mem_cons_of_mem _ ha)

/-- What every step preserves, given the items before it, holds of the result of a run. -/
theorem foldlM_invariant {P : List α → β → Prop} {f : β → α → Except ε β}
    (step : ∀ pre a b c, P pre b → f b a = .ok c → P (pre ++ [a]) c) {l pre : List α} {b c : β}
    (hb : P pre b) (h : l.foldlM f b = .ok c) : P (pre ++ l) c := by
  induction l generalizing pre b with
  | nil =>
    rw [List.append_nil, ← pure_eq_ok.1 h]
    exact hb
  | cons a l ih =>
    rw [List.foldlM_cons] at h
    obtain ⟨d, hd, h⟩ := bind_eq_ok.1 h
    rw [List.append_cons]
    exact ih (step pre a b d hb hd) h

end AtomicCss
