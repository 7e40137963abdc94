import Mathlib.Data.List.Infix
import Sift.Proofs.Classes.Terms
import Sift.Proofs.Group.Stack

namespace Sift

def Criterion.IsCloser (c : Criterion) : Prop :=
  c.field = "" ∧ c.groupFunction = none ∧ c.junctors = [.close]

instance (c : Criterion) : Decidable c.IsCloser :=
  inferInstanceAs (Decidable (c.field = "" ∧ c.groupFunction = none ∧ c.junctors = [.close]))

namespace Group

@[simp] theorem opens_concat_opens (js : List Junctor) (k : Combinator) (n : Bool) :
    opens (js ++ [.opens k n]) = opens js + 1 := by
  simp [opens]

@[simp] theorem opens_concat_close (js : List Junctor) : opens (js ++ [.close]) = opens js := by
  simp [opens]

@[simp] theorem closes_concat_opens (js : List Junctor) (k : Combinator) (n : Bool) :
    closes (js ++ [.opens k n]) = closes js := by
  simp [closes]

@[simp] theorem closes_concat_close (js : List Junctor) : closes (js ++ [.close]) = closes js + 1 := by
  simp [closes]

theorem not_overclosed_nil : ¬ Overclosed [] := by
  rintro ⟨p, hp, hl⟩
  rw [List.prefix_nil.1 hp] at hl
  exact Nat.lt_irrefl _ hl

theorem overclosed_concat {js : List Junctor} {j : Junctor} :
    Overclosed (js ++ [j]) ↔ Overclosed js ∨ opens (js ++ [j]) < closes (js ++ [j]) := by
  simp only [Overclosed, List.prefix_concat_iff]
  constructor
  · rintro ⟨p, rfl | hp, hl⟩
    · exact .inr hl
    · exact .inl ⟨p, hp, hl⟩
  · rintro (⟨p, hp, hl⟩ | hl)
    · exact ⟨p, .inr hp, hl⟩
    · exact ⟨_, .inl rfl, hl⟩

end Group

open Sift.Group (opens closes Overclosed)

namespace Classes

theorem nest_append (depth : Nat) (js ks : List Junctor) :
    nest depth (js ++ ks) = nest (nest depth js) ks :=
  List.foldl_append

theorem nest_concat_opens (depth : Nat) (js : List Junctor) (k : Combinator) (n : Bool) :
    nest depth (js ++ [.opens k n]) = nest depth js + 1 :=
  nest_append ..

theorem nest_concat_close (depth : Nat) (js : List Junctor) :
    nest depth (js ++ [.close]) = nest depth js - 1 :=
  nest_append ..

/-- The depth of a list that closes only what it has opened is what it leaves open. -/
theorem nest_add_closes {js : List Junctor} (h : ¬ Overclosed js) : nest 0 js + closes js = opens js := by
  induction js using List.reverseRecOn with
  | nil => rfl
  | append_singleton js j ih =>
      rw [Group.overclosed_concat, not_or] at h
      obtain ⟨hj, hl⟩ := h
      have hi := ih hj
      cases j with
      | opens k n =>
          rw [nest_concat_opens, Group.opens_concat_opens, Group.closes_concat_opens]
          omega
      | close =>
          rw [Group.opens_concat_close, Group.closes_concat_close] at hl ⊢
          rw [nest_concat_close]
          omega

theorem overclosed_concat_opens {js : List Junctor} {k : Combinator} {n : Bool} :
    Overclosed (js ++ [.opens k n]) ↔ Overclosed js := by
  rw [Group.overclosed_concat, or_iff_left_of_imp]
  intro h
  rw [Group.opens_concat_opens, Group.closes_concat_opens] at h
  exact ⟨js, List.prefix_rfl, by omega⟩

theorem overclosed_concat_close {js : List Junctor} :
    Overclosed (js ++ [.close]) ↔ Overclosed js ∨ nest 0 js = 0 := by
  rw [Group.overclosed_concat]
  by_cases h : Overclosed js
  · exact iff_of_true (.inl h) (.inl h)
  · have hn := nest_add_closes h
    rw [or_iff_right h, or_iff_right h, Group.opens_concat_close, Group.closes_concat_close]
    omega

theorem overclosed_append {js ks : List Junctor} (h : .close ∉ ks) :
    Overclosed (js ++ ks) ↔ Overclosed js := by
  induction ks generalizing js with
  | nil => rw [List.append_nil]
  | cons k ks ih =>
      rw [List.mem_cons, not_or] at h
      cases k with
      | close => exact absurd rfl h.1
      | opens k n => rw [List.append_cons, ih h.2, overclosed_concat_opens]

def depthOf (p : Classes) (having : Bool) : Nat := if having then p.havingDepth else p.whereDepth

def junctorsOf (p : Classes) (having : Bool) : List Junctor := (p.termsOf having).flatMap Criterion.junctors

theorem junctorsOf_push (p : Classes) (c : Criterion) (having : Bool) :
    (p.push c).junctorsOf having =
      p.junctorsOf having ++ if having = p.goesToHaving c then c.junctors else [] := by
  rw [junctorsOf, termsOf_push, List.flatMap_append, junctorsOf]
  split <;> simp

theorem depthOf_push (p : Classes) (c : Criterion) (having : Bool) :
    (p.push c).depthOf having =
      if having = p.goesToHaving c then nest (p.depthOf having) c.junctors else p.depthOf having := by
  unfold push
  cases p.goesToHaving c <;> cases having <;> simp [depthOf]

/-- The depth of a class is that of its own terms, whatever stands between them. -/
theorem depthOf_ofTerms (o : Options) (ts : List Criterion) (having : Bool) :
    (ofTerms o ts).depthOf having = nest 0 ((ofTerms o ts).junctorsOf having) := by
  induction ts using List.reverseRecOn with
  | nil => cases having <;> rfl
  | append_singleton ts c ih =>
      rw [ofTerms_concat, depthOf_push, junctorsOf_push, nest_append, ← ih]
      split <;> rfl

theorem perm_junctorsOf (o : Options) (ts : List Criterion) :
    ((ofTerms o ts).junctorsOf false ++ (ofTerms o ts).junctorsOf true).Perm
      (ts.flatMap Criterion.junctors) := by
  rw [junctorsOf, junctorsOf, ← List.flatMap_append]
  exact (perm_terms_ofTerms o ts).flatMap_right _

/-- A closer goes to the rows unless only groups of rows have one open. -/
theorem goesToHaving_of_isCloser {c : Criterion} (h : c.IsCloser) (p : Classes) :
    p.goesToHaving c = true ↔ p.depthOf false = 0 ∧ 0 < p.depthOf true := by
  obtain ⟨hf, hg, -⟩ := h
  simp [goesToHaving, Criterion.isAggregate, hf, hg, depthOf]

/-- Where a closer goes nothing is open only if nothing is open at all. -/
theorem depthOf_goesToHaving_eq_zero {c : Criterion} (h : c.IsCloser) (p : Classes) :
    p.depthOf (p.goesToHaving c) = 0 ↔ p.depthOf false + p.depthOf true = 0 := by
  have hg := goesToHaving_of_isCloser h p
  cases hp : p.goesToHaving c with
  | false =>
      rw [hp] at hg
      simp only [Bool.false_eq_true, false_iff] at hg
      omega
  | true =>
      rw [hp] at hg
      simp only [true_iff] at hg
      omega

theorem nest_flatMap_junctors {o : Options} {ts : List Criterion}
    (h : ¬ Overclosed (ts.flatMap Criterion.junctors))
    (hc : ∀ having, ¬ Overclosed ((ofTerms o ts).junctorsOf having)) :
    nest 0 (ts.flatMap Criterion.junctors) = (ofTerms o ts).depthOf false + (ofTerms o ts).depthOf true := by
  have ho := (perm_junctorsOf o ts).countP_eq fun j => j ≠ .close
  have hl := (perm_junctorsOf o ts).count_eq .close
  rw [List.countP_append] at ho
  rw [List.count_append] at hl
  have hn := nest_add_closes h
  have hw := nest_add_closes (hc false)
  have hh := nest_add_closes (hc true)
  rw [depthOf_ofTerms, depthOf_ofTerms]
  unfold opens closes at *
  omega

/-- A closer closes a group too many where it goes. -/
theorem exists_overclosed_push {c : Criterion} (h : c.IsCloser) (p : Classes) :
    (∃ having, Overclosed ((p.push c).junctorsOf having)) ↔
      (∃ having, Overclosed (p.junctorsOf having)) ∨ nest 0 (p.junctorsOf (p.goesToHaving c)) = 0 := by
  simp only [junctorsOf_push, h.2.2]
  constructor
  · rintro ⟨having, ho⟩
    split at ho
    · rename_i hg
      rw [overclosed_concat_close] at ho
      exact ho.imp (fun ho => ⟨having, ho⟩) fun ho => hg ▸ ho
    · rw [List.append_nil] at ho
      exact .inl ⟨having, ho⟩
  · rintro (⟨having, ho⟩ | ho)
    · refine ⟨having, ?_⟩
      split
      · exact overclosed_concat_close.2 (.inl ho)
      · rwa [List.append_nil]
    · refine ⟨p.goesToHaving c, ?_⟩
      rw [if_pos rfl]
      exact overclosed_concat_close.2 (.inr ho)

/-- A group that is closed without being open is missed in one of the classes if and only if it is missed in
both counted together. -/
theorem exists_overclosed_iff (o : Options) {ts : List Criterion}
    (h : ∀ c ∈ ts, .close ∈ c.junctors → c.IsCloser) :
    (∃ having, Overclosed ((ofTerms o ts).junctorsOf having)) ↔ Overclosed (ts.flatMap Criterion.junctors) := by
  induction ts using List.reverseRecOn with
  | nil =>
      refine iff_of_false ?_ Group.not_overclosed_nil
      rintro ⟨having, ho⟩
      cases having <;> exact Group.not_overclosed_nil ho
  | append_singleton ts c ih =>
      rw [List.forall_mem_append, List.forall_mem_singleton] at h
      have hi := ih h.1
      rw [ofTerms_concat, List.flatMap_append, List.flatMap_singleton]
      by_cases hm : .close ∈ c.junctors
      · have hc := h.2 hm
        rw [exists_overclosed_push hc, hc.2.2, overclosed_concat_close, ← hi]
        by_cases ho : ∃ having, Overclosed ((ofTerms o ts).junctorsOf having)
        · exact iff_of_true (.inl ho) (.inl ho)
        · rw [or_iff_right ho, or_iff_right ho, ← depthOf_ofTerms, depthOf_goesToHaving_eq_zero hc,
            nest_flatMap_junctors (hi.not.1 ho) (not_exists.1 ho)]
      · rw [overclosed_append hm, ← hi]
        apply exists_congr
        intro having
        rw [junctorsOf_push]
        apply overclosed_append
        split
        · exact hm
        · simp

/-- What is closed too much in a list of terms is closed too much after one of them. -/
theorem overclosed_flatMap_iff {ts : List Criterion} (h : ∀ c ∈ ts, .close ∈ c.junctors → c.IsCloser) :
    Overclosed (ts.flatMap Criterion.junctors) ↔ ∃ before, before <+: ts ∧
      opens (before.flatMap Criterion.junctors) < closes (before.flatMap Criterion.junctors) := by
  constructor
  · intro ho
    induction ts using List.reverseRecOn with
    | nil => exact absurd ho Group.not_overclosed_nil
    | append_singleton ts c ih =>
        rw [List.forall_mem_append, List.forall_mem_singleton] at h
        have hi (ho : Overclosed (ts.flatMap Criterion.junctors)) : ∃ before, before <+: ts ++ [c] ∧
            opens (before.flatMap Criterion.junctors) < closes (before.flatMap Criterion.junctors) := by
          obtain ⟨before, hb, hl⟩ := ih h.1 ho
          exact ⟨before, hb.trans (List.prefix_append _ _), hl⟩
        rw [List.flatMap_append, List.flatMap_singleton] at ho
        by_cases hm : .close ∈ c.junctors
        · have hj : c.junctors = [.close] := (h.2 hm).2.2
          rw [hj, Group.overclosed_concat, ← hj] at ho
          rcases ho with ho | hl
          · exact hi ho
          · exact ⟨ts ++ [c], List.prefix_rfl, by simpa using hl⟩
        · exact hi ((overclosed_append hm).1 ho)
  · rintro ⟨before, ⟨after, rfl⟩, hl⟩
    refine ⟨before.flatMap Criterion.junctors, ?_, hl⟩
    rw [List.flatMap_append]
    exact List.prefix_append _ _

end Classes

namespace Classes

variable {cs : Criteria} {p : Classes} {ts : List Criterion}

/-- Closers of their own never split a list of terms into classes that cannot be built. Both classes are
built if and only if after no term more groups are closed than are opened, whichever class they are of. -/
theorem build_both_iff (h : ofCriteria cs = .ok p) (ht : cs.Gives ts)
    (hc : ∀ c ∈ ts, .close ∈ c.junctors → c.IsCloser) (leaf : Criterion → Condition) :
    ((∃ w, Group.build leaf p.whereTerms = .ok w) ∧ ∃ v, Group.build leaf p.havingTerms = .ok v) ↔
      ∀ before, before <+: ts →
        closes (before.flatMap Criterion.junctors) ≤ opens (before.flatMap Criterion.junctors) := by
  obtain ⟨o, he⟩ := termsOf_eq_ofTerms h ht
  have hw : p.whereTerms.flatMap Criterion.junctors = (ofTerms o ts).junctorsOf false := by
    rw [junctorsOf, ← he]
    rfl
  have hh : p.havingTerms.flatMap Criterion.junctors = (ofTerms o ts).junctorsOf true := by
    rw [junctorsOf, ← he]
    rfl
  have hb := (exists_overclosed_iff o hc).trans (overclosed_flatMap_iff hc)
  rw [Bool.exists_bool] at hb
  rw [Group.exists_build_iff, Group.exists_build_iff, hw, hh, ← not_or, hb]
  simp only [not_exists, not_and, Nat.not_lt]

theorem build_both_iff_interleaved :
    let cs : Criteria := [.term "(|id" (.int 1), .term "!(&name@COUNT(%s)" (.int 2), .criterion .closer,
      .term ")" (.bool true), .term "id" (.int 3)]
    let ts := [{ Criterion.plain "id" (.int 1) with junctors := [.opens .any false] },
      { Criterion.plain "name" (.int 2) with
        index := 1, junctors := [.opens .all true], groupFunction := some "COUNT(%s)" },
      { Criterion.closer with index := 2 }, { Criterion.closer with index := 3 },
      { Criterion.plain "id" (.int 3) with index := 4 }]
    ∃ p, ofCriteria cs = .ok p ∧ cs.Gives ts ∧ (∀ c ∈ ts, .close ∈ c.junctors → c.IsCloser) ∧
      p.whereTerms.map Criterion.index = [0, 2, 4] ∧ p.havingTerms.map Criterion.index = [1, 3] ∧
      ∀ leaf, (∃ w, Group.build leaf p.whereTerms = .ok w) ∧ ∃ v, Group.build leaf p.havingTerms = .ok v := by
  intro cs ts
  have ht : cs.Gives ts := .cons (.term rfl) (.cons (.term rfl)
    (.cons (.criterion .closer (by simp [Criterion.closer, Criterion.plain]))
      (.cons (.term rfl) (.cons (.term rfl) .nil))))
  have hc : ∀ c ∈ ts, .close ∈ c.junctors → c.IsCloser := by decide
  refine ⟨_, rfl, ht, hc, rfl, rfl, fun leaf => (build_both_iff rfl ht hc leaf).2 ?_⟩
  simp only [← List.mem_inits]
  decide

end Classes

end Sift
