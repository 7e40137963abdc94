import Sift.Proofs.Classes.Depth
import Sift.Proofs.Prefix

namespace Sift

open Sift.Group (opens closes)

namespace Group

/-- What a mark of a term does to the open groups. They are listed from the inside out, each by whether its
first term is an aggregate. -/
def enter (having : Bool) (groups : List Bool) : Junctor → List Bool
  | .opens .. => having :: groups
  | .close => groups.tail

/-- The groups that are open after some terms. A group is closed by the first closer after it that has not
closed another one, be it of its class or not. -/
def openAfter (ts : List Criterion) : List Bool :=
  ts.foldl (fun groups c => c.junctors.foldl (enter c.isAggregate) groups) []

theorem openAfter_concat (ts : List Criterion) (c : Criterion) :
    openAfter (ts ++ [c]) = c.junctors.foldl (enter c.isAggregate) (openAfter ts) :=
  List.foldl_concat ..

theorem count_foldl_enter {js : List Junctor} (h : .close ∉ js) (having : Bool) (groups : List Bool) (b : Bool) :
    (js.foldl (enter having) groups).count b = groups.count b + if b = having then opens js else 0 := by
  induction js generalizing groups with
  | nil => simp [opens]
  | cons j js ih =>
      rw [List.mem_cons, not_or] at h
      cases j with
      | close => exact absurd rfl h.1
      | opens k n =>
          rw [List.foldl_cons, ih h.2, enter, List.count_cons, opens_opens_cons]
          by_cases hb : b = having
          · simp [hb]; omega
          · simp [hb, Ne.symm hb]

end Group

open Sift.Group (openAfter)

namespace Classes

theorem nest_of_notMem {js : List Junctor} (h : .close ∉ js) (depth : Nat) :
    nest depth js = depth + opens js := by
  induction js using List.reverseRecOn with
  | nil => rfl
  | append_singleton js j ih =>
      rw [List.mem_append, not_or, List.mem_singleton] at h
      cases j with
      | close => exact absurd rfl h.2
      | opens k n => rw [nest_concat_opens, ih h.1, Group.opens_concat_opens, Nat.add_assoc]

def Counts (p : Classes) (groups : List Bool) : Prop := ∀ having, p.depthOf having = groups.count having

variable {p : Classes} {groups : List Bool} {c : Criterion}

def Follows (p : Classes) (groups : List Bool) (c : Criterion) : Prop :=
  c.IsCloser → ∀ having ∈ groups.head?, p.goesToHaving c = having

theorem Counts.push_opens (h : p.Counts groups) (hc : .close ∉ c.junctors)
    (ho : ∀ j ∈ c.junctors, j ≠ .close → c.field ≠ "") :
    (p.push c).Counts (c.junctors.foldl (Group.enter c.isAggregate) groups) := by
  intro having
  rw [depthOf_push, Group.count_foldl_enter hc, nest_of_notMem hc, h having]
  cases hj : c.junctors with
  | nil => simp [opens]
  | cons j js =>
      rw [hj, List.mem_cons, not_or] at hc
      have hf : c.field ≠ "" := ho j (by simp [hj]) (Ne.symm hc.1)
      rw [goesToHaving_of_field hf]
      split <;> rfl

theorem Counts.push_closer (h : p.Counts groups) (hc : c.IsCloser) (hf : p.Follows groups c) :
    (p.push c).Counts groups.tail := by
  intro having
  rw [depthOf_push, hc.2.2, ← List.nil_append [Junctor.close], nest_concat_close, h having]
  change (if _ then groups.count having - 1 else _) = _
  cases groups with
  | nil => simp
  | cons g groups =>
      rw [hf hc g rfl, List.tail_cons, List.count_cons]
      by_cases hg : having = g
      · simp [hg]
      · simp [hg, Ne.symm hg]

theorem Counts.push (h : p.Counts groups) (hc : .close ∈ c.junctors → c.IsCloser)
    (ho : ∀ j ∈ c.junctors, j ≠ .close → c.field ≠ "") (hf : p.Follows groups c) :
    (p.push c).Counts (c.junctors.foldl (Group.enter c.isAggregate) groups) := by
  by_cases hm : .close ∈ c.junctors
  · have hj := h.push_closer (hc hm) hf
    rwa [(hc hm).2.2]
  · exact h.push_opens hm ho

/-- Only where an aggregate has opened the innermost group, and another group is open around it that no
aggregate has opened, a closer does not go to the class of the group it closes. -/
theorem Counts.follows_iff (h : p.Counts groups) (hc : c.IsCloser) :
    p.Follows groups c ↔ (groups.head? = some true → false ∉ groups) := by
  rw [Follows, forall_prop_of_true hc]
  have hg := goesToHaving_of_isCloser hc p
  rw [h false, h true] at hg
  cases groups with
  | nil => simp
  | cons g groups =>
      cases g with
      | false =>
          have hn : p.goesToHaving c = false := by
            rw [← Bool.not_eq_true, hg]
            simp
          simp [hn]
      | true =>
          rw [List.count_eq_zero, List.count_cons_self] at hg
          simp [hg]

variable {o : Options} {ts : List Criterion}

theorem prefix_termsOf {before : List Criterion} (h : before <+: ts) (having : Bool) :
    (ofTerms o before).termsOf having <+: (ofTerms o ts).termsOf having := by
  obtain ⟨after, rfl⟩ := h
  induction after using List.reverseRecOn with
  | nil => rw [List.append_nil]
  | append_singleton after c ih =>
      rw [← List.append_assoc, ofTerms_concat, termsOf_push]
      exact ih.trans (List.prefix_append _ _)

/-- A term is found where it went when it came, and nowhere else. -/
theorem mem_termsOf_iff (hd : (ofTerms o ts).terms.Nodup) {before : List Criterion}
    (h : before ++ [c] <+: ts) {having : Bool} :
    c ∈ (ofTerms o ts).termsOf having ↔ (ofTerms o before).goesToHaving c = having := by
  have hm : c ∈ (ofTerms o ts).termsOf ((ofTerms o before).goesToHaving c) := by
    apply (prefix_termsOf h _).subset
    rw [ofTerms_concat, termsOf_push, if_pos rfl]
    exact List.mem_append_right _ (List.mem_singleton_self c)
  constructor
  · intro hc
    have hdis := List.disjoint_of_nodup_append hd
    by_contra hne
    cases hg : (ofTerms o before).goesToHaving c <;> cases having <;> simp_all
    · exact hdis hm hc
    · exact hdis hc hm
  · rintro rfl
    exact hm

/-- As long as all closers go to the class of the group they close, the depths count the open groups. -/
theorem counts_ofTerms (hc : ∀ c ∈ ts, .close ∈ c.junctors → c.IsCloser)
    (ho : ∀ c ∈ ts, ∀ j ∈ c.junctors, j ≠ .close → c.field ≠ "")
    (hf : ∀ before c, before ++ [c] <+: ts → (ofTerms o before).Follows (openAfter before) c) :
    (ofTerms o ts).Counts (openAfter ts) := by
  induction ts using List.reverseRecOn with
  | nil => intro having; cases having <;> rfl
  | append_singleton ts c ih =>
      rw [List.forall_mem_append, List.forall_mem_singleton] at hc ho
      rw [forall_prefix_concat] at hf
      rw [ofTerms_concat, Group.openAfter_concat]
      exact (ih hc.1 ho.1 hf.1).push hc.2 ho.2 hf.2

/-- All closers go to the class of the group they close if and only if none of them closes a group of an
aggregate inside another one. -/
theorem follows_ofTerms_iff (hc : ∀ c ∈ ts, .close ∈ c.junctors → c.IsCloser)
    (ho : ∀ c ∈ ts, ∀ j ∈ c.junctors, j ≠ .close → c.field ≠ "") :
    (∀ before c, before ++ [c] <+: ts → (ofTerms o before).Follows (openAfter before) c) ↔
      ∀ before c, before ++ [c] <+: ts → c.IsCloser →
        (openAfter before).head? = some true → false ∉ openAfter before := by
  induction ts using List.reverseRecOn with
  | nil => simp
  | append_singleton ts c ih =>
      rw [List.forall_mem_append, List.forall_mem_singleton] at hc ho
      rw [forall_prefix_concat, forall_prefix_concat, ← ih hc.1 ho.1]
      apply and_congr_right
      intro hf
      have hn : (ofTerms o ts).Counts (openAfter ts) := counts_ofTerms hc.1 ho.1 hf
      exact ⟨fun h hs => (hn.follows_iff hs).1 h, fun h hs => (hn.follows_iff hs).2 (h hs) hs⟩

/-- A term with a field goes to the class that it belongs to itself. A closer goes to the class of the group
that it closes, at all places, if and only if no group of an aggregate is closed while another group is open
around it that is none. -/
theorem closers_follow_iff {cs : Criteria} (h : ofCriteria cs = .ok p) (ht : cs.Gives ts)
    (hc : ∀ c ∈ ts, .close ∈ c.junctors → c.IsCloser)
    (ho : ∀ c ∈ ts, ∀ j ∈ c.junctors, j ≠ .close → c.field ≠ "") :
    (∀ c ∈ ts, c.field ≠ "" → c ∈ p.termsOf c.isAggregate) ∧
      ((∀ before c, before ++ [c] <+: ts → c.IsCloser →
          ∀ having ∈ (openAfter before).head?, c ∈ p.termsOf having) ↔
        ∀ before c, before ++ [c] <+: ts → c.IsCloser →
          (openAfter before).head? = some true → false ∉ openAfter before) := by
  obtain ⟨o, he⟩ := termsOf_eq_ofTerms h ht
  have hd : (ofTerms o ts).terms.Nodup := by
    rw [terms_eq, ← he, ← he]
    exact (holds_ofCriteria h).nodup_terms
  constructor
  · intro c hm hf
    obtain ⟨before, after, rfl⟩ := List.append_of_mem hm
    have hp : before ++ [c] <+: before ++ c :: after := ⟨after, by simp⟩
    rw [he, mem_termsOf_iff hd hp]
    exact goesToHaving_of_field hf _
  · rw [← follows_ofTerms_iff (o := o) hc ho]
    simp only [Follows, he]
    constructor
    · intro hf before c hp hs having hh
      exact (mem_termsOf_iff hd hp).1 (hf before c hp hs having hh)
    · intro hf before c hp hs having hh
      exact (mem_termsOf_iff hd hp).2 (hf before c hp hs having hh)

theorem closers_follow_iff_inner :
    let cs : Criteria := [.term "(|name@COUNT(%s)" (.int 2), .term "(&id" (.int 1), .term ")" (.bool true),
      .criterion .closer]
    let ts := [{ Criterion.plain "name" (.int 2) with
        junctors := [.opens .any false], groupFunction := some "COUNT(%s)" },
      { Criterion.plain "id" (.int 1) with index := 1, junctors := [.opens .all false] },
      { Criterion.closer with index := 2 }, { Criterion.closer with index := 3 }]
    ∃ p, ofCriteria cs = .ok p ∧ cs.Gives ts ∧ (∀ c ∈ ts, .close ∈ c.junctors → c.IsCloser) ∧
      (∀ c ∈ ts, ∀ j ∈ c.junctors, j ≠ .close → c.field ≠ "") ∧
      p.whereTerms.map Criterion.index = [1, 2] ∧ p.havingTerms.map Criterion.index = [0, 3] ∧
      ∀ before c, before ++ [c] <+: ts → c.IsCloser →
        ∀ having ∈ (openAfter before).head?, c ∈ p.termsOf having := by
  intro cs ts
  have ht : cs.Gives ts := .cons (.term rfl) (.cons (.term rfl) (.cons (.term rfl)
    (.cons (.criterion .closer (by simp [Criterion.closer, Criterion.plain])) .nil)))
  have hc : ∀ c ∈ ts, .close ∈ c.junctors → c.IsCloser := by decide
  have ho : ∀ c ∈ ts, ∀ j ∈ c.junctors, j ≠ .close → c.field ≠ "" := by decide
  have hi : ∀ before ∈ ts.inits, (openAfter before).head? = some true → false ∉ openAfter before := by decide
  refine ⟨_, rfl, ht, hc, ho, rfl, rfl, (closers_follow_iff rfl ht hc ho).2.2 ?_⟩
  intro before c hp _
  exact hi before ((List.mem_inits ..).2 ((List.prefix_append _ _).trans hp))

/-- A closer that comes while a group of an aggregate is open inside a group that is none closes the outer one. -/
theorem not_closers_follow_nested :
    let cs : Criteria := [.term "(|a" (.int 1), .term "(|b@SUM(%s)" (.int 2), .term ")" (.bool true),
      .term "c" (.int 3)]
    let ts := [{ Criterion.plain "a" (.int 1) with junctors := [.opens .any false] },
      { Criterion.plain "b" (.int 2) with
        index := 1, junctors := [.opens .any false], groupFunction := some "SUM(%s)" },
      { Criterion.closer with index := 2 }, { Criterion.plain "c" (.int 3) with index := 3 }]
    ∃ p, ofCriteria cs = .ok p ∧ cs.Gives ts ∧ (∀ c ∈ ts, .close ∈ c.junctors → c.IsCloser) ∧
      (∀ c ∈ ts, ∀ j ∈ c.junctors, j ≠ .close → c.field ≠ "") ∧
      p.whereTerms.map Criterion.index = [0, 2, 3] ∧ p.havingTerms.map Criterion.index = [1] ∧
      ¬ ∀ before c, before ++ [c] <+: ts → c.IsCloser →
        ∀ having ∈ (openAfter before).head?, c ∈ p.termsOf having := by
  intro cs ts
  have ht : cs.Gives ts :=
    .cons (.term rfl) (.cons (.term rfl) (.cons (.term rfl) (.cons (.term rfl) .nil)))
  obtain ⟨p, hp, hw, hh⟩ : ∃ p, ofCriteria cs = .ok p ∧ p.whereTerms.map Criterion.index = [0, 2, 3] ∧
      p.havingTerms.map Criterion.index = [1] := ⟨_, rfl, rfl, rfl⟩
  refine ⟨p, hp, ht, by decide, by decide, hw, hh, ?_⟩
  intro h
  have hm := h (ts.take 2) { Criterion.closer with index := 2 } ⟨ts.drop 3, rfl⟩ (by decide) true rfl
  have hi : 2 ∈ p.havingTerms.map Criterion.index := List.mem_map_of_mem hm
  rw [hh] at hi
  simp at hi

end Classes

end Sift
