import Mathlib.Data.List.Forall2
import Sift.Proofs.Classes

namespace Sift

theorem Entry.Gives.unique {index : Nat} {e : Entry} {c d : Criterion} (hc : e.Gives index c)
    (hd : e.Gives index d) : c = d := by
  cases hc with
  | term h =>
      cases hd with
      | term h' => exact Except.ok.inj (h.symm.trans h')
  | criterion => cases hd; rfl

namespace Criteria

def Gives (cs : Criteria) (ts : List Criterion) : Prop :=
  List.Forall₂ (fun e c => e.1.Gives e.2 c) (cs.filter Entry.isTerm).zipIdx ts

variable {cs : Criteria} {ts : List Criterion} {e : Entry}

theorem Gives.concat {c : Criterion} (h : cs.Gives ts) (hc : e.Gives (cs.filter Entry.isTerm).length c) :
    Criteria.Gives (cs ++ [e]) (ts ++ [c]) := by
  rw [Gives, List.filter_append, List.filter_cons_of_pos hc.isTerm, List.filter_nil, List.zipIdx_append,
    Nat.zero_add]
  exact List.rel_append h (.cons hc .nil)

theorem Gives.concat_of_not_isTerm (h : cs.Gives ts) (he : e.isTerm = false) :
    Criteria.Gives (cs ++ [e]) ts := by
  rw [Gives, List.filter_append, List.filter_cons_of_neg (by simp [he]), List.filter_nil, List.append_nil]
  exact h

theorem Gives.unique {ts' : List Criterion} (h : cs.Gives ts) (h' : cs.Gives ts') : ts = ts' := by
  have hu : Relator.RightUnique fun (e : Entry × Nat) c => e.1.Gives e.2 c := fun _ _ _ hc hd => hc.unique hd
  exact hu.forall₂ h h'

end Criteria

namespace Classes

def termsOf (p : Classes) (having : Bool) : List Criterion := if having then p.havingTerms else p.whereTerms

theorem terms_eq (p : Classes) : p.terms = p.termsOf false ++ p.termsOf true := rfl

theorem termsOf_push (p : Classes) (c : Criterion) (having : Bool) :
    (p.push c).termsOf having = p.termsOf having ++ if having = p.goesToHaving c then [c] else [] := by
  unfold push
  cases p.goesToHaving c <;> cases having <;> simp [termsOf]

def ofTerms (o : Options) (ts : List Criterion) : Classes := ts.foldl push (start o)

theorem ofTerms_concat (o : Options) (ts : List Criterion) (c : Criterion) :
    ofTerms o (ts ++ [c]) = (ofTerms o ts).push c :=
  List.foldl_concat ..

theorem perm_terms_ofTerms (o : Options) (ts : List Criterion) : (ofTerms o ts).terms.Perm ts := by
  induction ts using List.reverseRecOn with
  | nil => exact List.Perm.refl _
  | append_singleton ts c ih =>
      rw [ofTerms_concat]
      exact (perm_terms_push _ c).trans (ih.append_right [c])

variable {cs : Criteria} {p : Classes} {ts : List Criterion}

theorem Holds.nodup_terms (h : Holds cs p) : p.terms.Nodup :=
  (h.numbered.nodup_iff.2 List.nodup_range).of_map

theorem push_setSelectables (p : Classes) (ss : List Selectable) (c : Criterion) :
    push { p with selectables := ss } c = { p.push c with selectables := ss } := by
  unfold push
  cases hg : p.goesToHaving c <;> simp_all [goesToHaving]

/-- Accepted entries become terms that are put in their classes one after the other. -/
theorem exists_ofTerms (h : ofCriteria cs = .ok p) :
    ∃ o ts, cs.Gives ts ∧ p = { ofTerms o ts with selectables := p.selectables } := by
  rw [ofCriteria, Except.bind_eq_ok] at h
  obtain ⟨o, -, hf⟩ := h
  have hi := Except.foldlM_invariant (fun es p => Holds es p ∧ ∃ ts, Criteria.Gives es ts ∧
    p = { ofTerms o ts with selectables := p.selectables }) ⟨holds_start o, [], .nil, rfl⟩ ?_ hf
  · exact ⟨o, hi.2⟩
  · rintro es e q q' ⟨hq, ts, ht, he⟩ ha
    refine ⟨hq.add ha, ?_⟩
    rcases add_cases ha with ⟨o, rfl, rfl⟩ | ⟨s, rfl, rfl⟩ | ⟨c, hc, rfl⟩
    · exact ⟨ts, ht.concat_of_not_isTerm rfl, he⟩
    · refine ⟨ts, ht.concat_of_not_isTerm rfl, ?_⟩
      rw [he]
    · refine ⟨ts ++ [c], ht.concat (hq.nextIndex ▸ hc), ?_⟩
      rw [ofTerms_concat, push_selectables, ← push_setSelectables, ← he]

theorem termsOf_eq_ofTerms (h : ofCriteria cs = .ok p) (ht : cs.Gives ts) :
    ∃ o, ∀ having, p.termsOf having = (ofTerms o ts).termsOf having := by
  obtain ⟨o, ts', ht', he⟩ := exists_ofTerms h
  obtain rfl := ht.unique ht'
  refine ⟨o, fun having => ?_⟩
  rw [he]
  rfl

end Classes

end Sift
