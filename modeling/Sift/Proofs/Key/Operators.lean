import Sift.Proofs.Key.Marks

namespace Sift.Key

def signs (negated : Bool) (op : Option Comparator) : List Char :=
  (if negated then ['!'] else []) ++ (op.map fun op => op.symbol.toList).getD []

theorem after?_mark (i j : Junctor) (cs : List Char) :
    Text.after? (mark i) (mark j ++ cs) = if i = j then some cs else none := by
  rcases i with ⟨_ | _, _ | _⟩ | _ <;> rcases j with ⟨_ | _, _ | _⟩ | _ <;> simp [mark, Text.after?]

theorem after?_mark_signs (i : Junctor) (negated : Bool) (op : Option Comparator) :
    Text.after? (mark i) (signs negated op) = none := by
  rcases i with ⟨_ | _, _ | _⟩ | _ <;> cases negated <;> rcases op with _ | _ | _ | _ | _ | _ <;> rfl

theorem collapse_signs (negated : Bool) (op : Option Comparator) :
    collapse (signs negated op) = signs negated op := by
  cases negated <;> rcases op with _ | _ | _ | _ | _ | _ <;> rfl

theorem collapse_marks (js : List Junctor) (cs : List Char) :
    collapse (marks js ++ cs) = marks js ++ collapse cs := by
  induction js with
  | nil => rfl
  | cons j js ih => rcases j with ⟨_ | _, _ | _⟩ | _ <;> simp [mark, collapse, ih]

theorem takeJunctors_drop (k : Nat) (ops : Operators) (js : List Junctor) (negated : Bool)
    (op : Option Comparator) :
    takeJunctors (junctorTexts.drop k) ops (marks js ++ signs negated op) =
      ({ ops with junctors := ops.junctors ++ (ascend k js).1 },
        marks (ascend k js).2 ++ signs negated op) := by
  -- the recursion is on the rows of the table that remain
  by_cases hk : k < 5
  · obtain ⟨i, hi, hd⟩ := exists_place hk
    rw [hd]
    cases js with
    | nil =>
        have hn := takeJunctors_drop (k + 1) ops [] negated op
        simpa only [marks_nil, List.nil_append, takeJunctors, after?_mark_signs, ascend] using hn
    | cons j js =>
        by_cases hj : i = j
        · subst hj
          have hn := takeJunctors_drop (k + 1) { ops with junctors := ops.junctors ++ [i] } js negated op
          simp only [marks_cons, List.append_assoc, takeJunctors, after?_mark, if_true, hn, ascend, hi,
            Nat.le_refl]
          simp
        · have hp : place j ≠ k := fun h => hj (place_inj (hi.trans h.symm))
          have hn := takeJunctors_drop (k + 1) ops (j :: js) negated op
          rw [ascend_of_place_ne hp] at hn
          simpa only [marks_cons, List.append_assoc, takeJunctors, after?_mark, hj, if_false] using hn
  · have hd : junctorTexts.drop k = [] := List.drop_eq_nil_of_le (by change 5 ≤ k; omega)
    have ha : ascend k js = ([], js) := by
      cases js with
      | nil => rfl
      | cons j js =>
          have := place_lt j
          simp only [ascend, if_neg (show ¬ k ≤ place j by omega)]
    simp [hd, ha, takeJunctors]
termination_by 5 - k

theorem takeNegation_mark (ops : Operators) (j : Junctor) (cs : List Char) :
    takeNegation ops (mark j ++ cs) =
      ({ ops with negations := ops.negations + j.isNegated.toNat }, mark j.plain ++ cs) := by
  rcases j with ⟨_ | _, _ | _⟩ | _ <;> rfl

theorem takeNegation_signs (ops : Operators) (negated : Bool) (op : Option Comparator) :
    takeNegation ops (signs negated op) =
      ({ ops with negations := ops.negations + negated.toNat }, signs false op) := by
  cases negated <;> rcases op with _ | _ | _ | _ | _ | _ <;> rfl

theorem takeComparators_mark (field : String) (v : Value) (ops : Operators) (j : Junctor)
    (cs : List Char) :
    takeComparators field v comparatorTexts ops (mark j.plain ++ cs) = .ok (ops, mark j.plain ++ cs) := by
  rcases j with ⟨_ | _, _⟩ | _ <;> rfl

theorem takeComparators_signs (field : String) {v : Value} (hn : v.isNull = false)
    (ha : v.isArray = false) (ops : Operators) (ho : ops.comparator = none) (op : Option Comparator) :
    takeComparators field v comparatorTexts ops (signs false op) =
      .ok (⟨ops.junctors, ops.negations, op⟩, []) := by
  have hc : ∀ op : Comparator, op.check field v = .ok () := by
    intro op
    simp [Comparator.check, hn, ha]
  rcases op with _ | _ | _ | _ | _ | _ <;>
    simp [takeComparators, comparatorTexts, signs, Comparator.symbol, Text.after?, ho, hc, bind, Except.bind]
  rw [← ho]

theorem pass_last (field : String) {v : Value} (hn : v.isNull = false) (ha : v.isArray = false)
    {ops : Operators} (ho : ops.comparator = none) {js : List Junctor} (h : (ascend 0 js).2 = [])
    (negated : Bool) (op : Option Comparator) :
    pass field v ops (marks js ++ signs negated op) =
      .ok (⟨ops.junctors ++ (ascend 0 js).1, ops.negations + negated.toNat, op⟩, []) := by
  have ht := takeJunctors_drop 0 ops js negated op
  rw [h, marks_nil, List.nil_append] at ht
  simp only [pass, collapse_marks, collapse_signs]
  rw [show junctorTexts = junctorTexts.drop 0 from rfl, ht]
  dsimp only
  rw [takeNegation_signs]
  exact takeComparators_signs field hn ha
    ⟨ops.junctors ++ (ascend 0 js).1, ops.negations + negated.toNat, ops.comparator⟩ ho op

theorem pass_more (field : String) (v : Value) (ops : Operators) {js rest : List Junctor} {j : Junctor}
    (h : (ascend 0 js).2 = j :: rest) (negated : Bool) (op : Option Comparator) :
    pass field v ops (marks js ++ signs negated op) =
      .ok (⟨ops.junctors ++ (ascend 0 js).1, ops.negations + j.isNegated.toNat, ops.comparator⟩,
        marks (j.plain :: rest) ++ signs negated op) := by
  have ht := takeJunctors_drop 0 ops js negated op
  rw [h, marks_cons, List.append_assoc] at ht
  simp only [pass, collapse_marks, collapse_signs, marks_cons, List.append_assoc]
  rw [show junctorTexts = junctorTexts.drop 0 from rfl, ht]
  dsimp only
  rw [takeNegation_mark, takeComparators_mark]

theorem reduce_succ (field : String) (v : Value) (n : Nat) (ops : Operators) (cs : List Char) :
    reduce field v (n + 1) ops cs = (pass field v ops cs).bind fun p => reduce field v n p.1 p.2 := by
  cases cs with
  | nil => cases n <;> rfl
  | cons c cs => rfl

/-- Each pass takes at least one mark or all signs, so there are enough passes if there are as many as
marks and signs. -/
theorem reduce_marks (field : String) {v : Value} (hn : v.isNull = false) (ha : v.isArray = false)
    (negated : Bool) (op : Option Comparator) (n : Nat) (js : List Junctor) (ops : Operators)
    (ho : ops.comparator = none) (hl : js.length + negated.toNat + op.toList.length ≤ n) :
    reduce field v n ops (marks js ++ signs negated op) =
      .ok ⟨ops.junctors ++ (heard 0 js).1, ops.negations + (heard 0 js).2 + negated.toNat, op⟩ := by
  induction n generalizing js ops with
  | zero =>
      have hj : js = [] := List.length_eq_zero_iff.1 (by omega)
      have hg : negated = false := by cases negated <;> simp_all
      have hp : op = none := by cases op <;> simp_all
      subst hj hg hp
      obtain ⟨junctors, negations, comparator⟩ := ops
      cases ho
      simp [heard, signs, reduce]
  | succ n ih =>
      rw [reduce_succ]
      cases h : (ascend 0 js).2 with
      | nil =>
          rw [pass_last field hn ha ho h, heard_of_ascend_nil h]
          cases n <;> rfl
      | cons j rest =>
          have hr := length_of_ascend h
          rw [pass_more field v ops h, heard_of_ascend_cons h]
          have hi := ih (j.plain :: rest)
            ⟨ops.junctors ++ (ascend 0 js).1, ops.negations + j.isNegated.toNat, ops.comparator⟩ ho
            (by simp only [List.length_cons]; omega)
          apply hi.trans
          simp only [List.append_assoc, Except.ok.injEq, Operators.mk.injEq, and_true, true_and]
          omega

end Sift.Key
