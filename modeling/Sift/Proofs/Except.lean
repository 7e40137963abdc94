import Mathlib.Data.List.Forall2
import Mathlib.Data.List.Induction

namespace Sift.Except

variable {α β σ ε : Type}

theorem bind_eq_ok {x : Except ε α} {f : α → Except ε β} {b : β} :
    x >>= f = .ok b ↔ ∃ a, x = .ok a ∧ f a = .ok b := by
  cases x with
  | error e => simp [bind, Except.bind]
  | ok a => simp [bind, Except.bind]

theorem bind_eq_error {x : Except ε α} {f : α → Except ε β} {e : ε} :
    x >>= f = .error e ↔ x = .error e ∨ ∃ a, x = .ok a ∧ f a = .error e := by
  cases x with
  | error e => simp [bind, Except.bind]
  | ok a => simp [bind, Except.bind]

theorem map_eq_error {x : Except ε α} {f : α → β} {e : ε} : x.map f = .error e ↔ x = .error e := by
  cases x <;> simp [Except.map]

theorem map_eq_ok {x : Except ε α} {f : α → β} {b : β} : x.map f = .ok b ↔ ∃ a, x = .ok a ∧ f a = b := by
  cases x <;> simp [Except.map]

theorem mapError_eq_ok {ε' : Type} {f : ε → ε'} {x : Except ε α} {a : α} :
    x.mapError f = .ok a ↔ x = .ok a := by
  cases x <;> simp [Except.mapError]

theorem pure_eq_ok {a b : α} : (pure a : Except ε α) = .ok b ↔ a = b := by simp [pure, Except.pure]

/-- What holds of no items and is kept by each item after those before it holds of them all. -/
theorem foldlM_invariant {f : σ → α → Except ε σ} (inv : List α → σ → Prop) {s t : σ} {l : List α}
    (hs : inv [] s) (h : ∀ l a s t, inv l s → f s a = .ok t → inv (l ++ [a]) t)
    (hf : l.foldlM f s = .ok t) : inv l t := by
  induction l using List.reverseRecOn generalizing t with
  | nil =>
      rw [List.foldlM_nil, pure_eq_ok] at hf
      exact hf ▸ hs
  | append_singleton l a ih =>
      rw [List.foldlM_append, bind_eq_ok] at hf
      obtain ⟨u, hu, ht⟩ := hf
      rw [List.foldlM_cons, bind_eq_ok] at ht
      obtain ⟨v, hv, hn⟩ := ht
      rw [List.foldlM_nil, pure_eq_ok] at hn
      exact hn ▸ h l a u v (ih hu) hv

/-- A fold that fails does so at one item, after those before it. -/
theorem foldlM_eq_error {f : σ → α → Except ε σ} {l : List α} {s : σ} {e : ε}
    (h : l.foldlM f s = .error e) : ∃ before a after t,
      l = before ++ a :: after ∧ before.foldlM f s = .ok t ∧ f t a = .error e := by
  induction l generalizing s with
  | nil => cases h
  | cons b l ih =>
      rw [List.foldlM_cons, bind_eq_error] at h
      rcases h with hb | ⟨t, hb, h⟩
      · exact ⟨[], b, l, s, rfl, rfl, hb⟩
      · obtain ⟨before, a, after, u, rfl, hu, ha⟩ := ih h
        refine ⟨b :: before, a, after, u, rfl, ?_, ha⟩
        rw [List.foldlM_cons, bind_eq_ok]
        exact ⟨t, hb, hu⟩

theorem mapM_eq_ok {f : α → Except ε β} {l : List α} {m : List β} :
    l.mapM f = .ok m ↔ List.Forall₂ (fun a b => f a = .ok b) l m := by
  induction l generalizing m with
  | nil => simp [pure, Except.pure, eq_comm]
  | cons a l ih =>
      simp only [List.mapM_cons, bind_eq_ok, pure_eq_ok, ih, List.forall₂_cons_left_iff]
      constructor
      · rintro ⟨b, hb, n, hn, rfl⟩
        exact ⟨b, n, hb, hn, rfl⟩
      · rintro ⟨b, n, hb, hn, rfl⟩
        exact ⟨b, hb, n, hn, rfl⟩

theorem mapM_append_eq_ok {f : α → Except ε β} {l l' : List α} {m : List β} :
    (l ++ l').mapM f = .ok m ↔ ∃ n n', l.mapM f = .ok n ∧ l'.mapM f = .ok n' ∧ m = n ++ n' := by
  simp only [List.mapM_append, bind_eq_ok, pure_eq_ok]
  constructor
  · rintro ⟨n, hn, n', hn', rfl⟩
    exact ⟨n, n', hn, hn', rfl⟩
  · rintro ⟨n, n', hn, hn', rfl⟩
    exact ⟨n, hn, n', hn', rfl⟩

theorem filterAuxM_eq (f : α → Except ε Bool) (l acc : List α) :
    List.filterAuxM f l acc = (List.filterAuxM f l []).map (· ++ acc) := by
  induction l generalizing acc with
  | nil => rfl
  | cons a l ih =>
      rw [List.filterAuxM, List.filterAuxM]
      cases f a with
      | error e => rfl
      | ok b =>
          change List.filterAuxM f l _ = (List.filterAuxM f l _).map _
          rw [ih, ih (cond b [a] [])]
          cases List.filterAuxM f l [] <;> cases b <;> simp [Except.map]

theorem filterM_cons_eq_ok {f : α → Except ε Bool} {a : α} {l m : List α} :
    (a :: l).filterM f = .ok m ↔
      ∃ b n, f a = .ok b ∧ l.filterM f = .ok n ∧ m = if b then a :: n else n := by
  rw [List.filterM, List.filterM, List.filterAuxM]
  cases f a with
  | error e => simp [bind, Except.bind]
  | ok b =>
      change (List.filterAuxM f l (cond b [a] [])).bind _ = _ ↔ _
      rw [filterAuxM_eq]
      cases List.filterAuxM f l [] with
      | error e => simp [Except.map, Except.bind, bind]
      | ok n => cases b <;> simp [Except.map, Except.bind, bind, pure, Except.pure, eq_comm]

/-- What is kept is what a test that agrees where it matters keeps. -/
theorem eq_filter_of_filterM {f : α → Except ε Bool} {p : α → Bool} {l m : List α}
    (hp : ∀ a, f a = .ok true ↔ p a = true) (h : l.filterM f = .ok m) : m = l.filter p := by
  induction l generalizing m with
  | nil => exact (pure_eq_ok.1 h).symm
  | cons a l ih =>
      obtain ⟨b, n, hb, hn, rfl⟩ := filterM_cons_eq_ok.1 h
      have ha : p a = b := by rw [Bool.eq_iff_iff, ← hp a, hb, Except.ok.injEq]
      rw [List.filter_cons, ha, ih hn]

def FailsWith (P : ε → Prop) (x : Except ε α) : Prop := ∀ e, x = .error e → P e

inductive Agree (R : α → β → Prop) : Except ε α → Except ε β → Prop where
  | error (e : ε) : Agree R (.error e) (.error e)
  | ok {a : α} {b : β} (h : R a b) : Agree R (.ok a) (.ok b)

variable {γ δ τ : Type} {R : α → β → Prop} {S : γ → δ → Prop} {x : Except ε α} {y : Except ε β}

theorem Agree.of_error {e : ε} (h : Agree R (.error e) y) : y = .error e := by
  cases h
  rfl

theorem Agree.of_ok {a : α} (h : Agree R (.ok a) y) : ∃ b, y = .ok b ∧ R a b := by
  cases h with
  | ok h => exact ⟨_, rfl, h⟩

theorem Agree.eq {z : Except ε α} (h : Agree Eq x z) : x = z := by
  cases h with
  | error e => rfl
  | ok h => rw [h]

theorem Agree.bind {f : α → Except ε γ} {g : β → Except ε δ} (h : Agree R x y)
    (hf : ∀ a b, R a b → Agree S (f a) (g b)) : Agree S (x >>= f) (y >>= g) := by
  cases h with
  | error e => exact .error e
  | ok h => exact hf _ _ h

theorem Agree.map {f : α → γ} {g : β → δ} (h : Agree R x y) (hf : ∀ a b, R a b → S (f a) (g b)) :
    Agree S (x.map f) (y.map g) := by
  cases h with
  | error e => exact .error e
  | ok h => exact .ok (hf _ _ h)

theorem Agree.map_eq {f : α → γ} {g : β → γ} (h : Agree R x y) (hf : ∀ a b, R a b → f a = g b) :
    x.map f = y.map g := by
  cases h with
  | error e => rfl
  | ok h => exact congrArg Except.ok (hf _ _ h)

theorem agree_bind {f : α → Except ε γ} {g : α → Except ε δ} (x : Except ε α)
    (h : ∀ a, Agree S (f a) (g a)) : Agree S (x >>= f) (x >>= g) := by
  cases x with
  | error e => exact .error e
  | ok a => exact h a

theorem agree_foldlM {R : σ → τ → Prop} {S : α → β → Prop} {f : σ → α → Except ε σ}
    {g : τ → β → Except ε τ} (h : ∀ s t a b, R s t → S a b → Agree R (f s a) (g t b)) {l : List α}
    {m : List β} (hl : List.Forall₂ S l m) {s : σ} {t : τ} (hs : R s t) :
    Agree R (l.foldlM f s) (m.foldlM g t) := by
  induction hl generalizing s t with
  | nil => exact .ok hs
  | cons ha hl ih =>
      rw [List.foldlM_cons, List.foldlM_cons]
      exact (h _ _ _ _ hs ha).bind fun s' t' hs' => ih hs'

end Sift.Except
