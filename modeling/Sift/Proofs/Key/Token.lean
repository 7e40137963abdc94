import Sift.Proofs.Key.Marks

namespace Sift.Key

/-- The words of the operator language. A negation is one of its own, also where it stands before a
group. -/
inductive Token where
  | opens (k : Combinator)
  | close
  | negation
  | compare (op : Comparator)
  deriving DecidableEq

namespace Token

def text : Token → List Char
  | opens k => mark (.opens k false)
  | close => mark .close
  | negation => ['!']
  | compare op => op.symbol.toList

def junctor? : Token → Option Junctor
  | opens k => some (.opens k false)
  | close => some .close
  | _ => none

def comparator? : Token → Option Comparator
  | compare op => some op
  | _ => none

def table : List Token :=
  (comparatorTexts.map fun row => compare row.2) ++ [opens .any, opens .all, close, negation]

def comparison? (cs : List Char) : Option (Comparator × List Char) :=
  comparatorTexts.findSome? fun row => (Text.after? row.1 cs).map (row.2, ·)

def next? (cs : List Char) : Option (Token × List Char) :=
  table.findSome? fun t => (Text.after? t.text cs).map (t, ·)

end Token

def spell (ts : List Token) : List Char := ts.flatMap Token.text

def comparators (ts : List Token) : List Comparator := ts.filterMap Token.comparator?

inductive Lexes : List Char → List Token → List Char → Prop where
  | nil (cs : List Char) : Lexes cs [] cs
  | cons {cs rest last : List Char} {t : Token} {ts : List Token} (h : Token.next? cs = some (t, rest))
      (hs : Lexes rest ts last) : Lexes cs (t :: ts) last

@[simp] theorem spell_nil : spell [] = [] := rfl

@[simp] theorem spell_cons (t : Token) (ts : List Token) : spell (t :: ts) = t.text ++ spell ts := rfl

theorem comparators_append (ts us : List Token) : comparators (ts ++ us) = comparators ts ++ comparators us :=
  List.filterMap_append

namespace Token

variable {t : Token} {cs rest : List Char}

theorem next?_eq_some (h : next? cs = some (t, rest)) : cs = t.text ++ rest := by
  obtain ⟨u, -, hu⟩ := List.exists_of_findSome?_eq_some h
  obtain ⟨tail, ht, he⟩ := Option.map_eq_some_iff.1 hu
  cases he
  exact Text.after?_eq_some.1 ht

theorem next?_eq_none_iff : next? cs = none ↔ ∀ t ∈ table, Text.after? t.text cs = none := by
  rw [next?, List.findSome?_eq_none_iff]
  simp only [Option.map_eq_none_iff]

theorem fst_of_mem_comparatorTexts : ∀ row ∈ comparatorTexts, row.1 = row.2.symbol.toList := by
  simp [comparatorTexts, Comparator.symbol]

theorem findSome?_compare {rows : List (List Char × Comparator)}
    (h : ∀ row ∈ rows, row.1 = row.2.symbol.toList) (cs : List Char) :
    (rows.map fun row => compare row.2).findSome? (fun t => (Text.after? t.text cs).map (t, ·)) =
      (rows.findSome? fun row => (Text.after? row.1 cs).map (row.2, ·)).map fun p => (compare p.1, p.2) := by
  induction rows with
  | nil => rfl
  | cons row rows ih =>
      obtain ⟨hr, hs⟩ := List.forall_mem_cons.1 h
      rw [List.map_cons, List.findSome?_cons, List.findSome?_cons, ih hs, hr, text]
      cases Text.after? row.2.symbol.toList cs <;> rfl

theorem next?_of_comparison? {op : Comparator} (h : comparison? cs = some (op, rest)) :
    next? cs = some (compare op, rest) := by
  rw [next?, table, List.findSome?_append, findSome?_compare fst_of_mem_comparatorTexts, ← comparison?, h]
  rfl

theorem comparison?_eq_none_iff :
    comparison? cs = none ↔ ∀ row ∈ comparatorTexts, Text.after? row.1 cs = none := by
  rw [comparison?, List.findSome?_eq_none_iff]
  simp only [Option.map_eq_none_iff]

/-- No other word begins like one that is not a comparator. -/
theorem next?_text (h : t.comparator? = none) (cs : List Char) : next? (t.text ++ cs) = some (t, cs) := by
  rcases t with ⟨_ | _⟩ | _ | _ | op
  · rfl
  · rfl
  · rfl
  · rfl
  · cases h

/-- Only what follows can make another comparator out of one. -/
theorem next?_compare (op : Comparator) (h : cs.head? ≠ some '=') :
    next? ((compare op).text ++ cs) = some (compare op, cs) := by
  cases op with
  | eq | lte | gte => rfl
  | lt | gt =>
      cases cs with
      | nil => rfl
      | cons c cs =>
          have hc : '=' ≠ c := fun hc => h (congrArg some hc.symm)
          simp [next?, table, comparatorTexts, text, mark, Comparator.symbol, Text.after?, hc]

theorem text_ne_nil (t : Token) : t.text ≠ [] := by
  rcases t with ⟨_ | _⟩ | _ | _ | ⟨_ | _ | _ | _ | _⟩ <;> exact List.cons_ne_nil _ _

theorem eq_of_head?_text (h : t.text.head? = some '=') : t = compare .eq := by
  cases t with
  | opens k => cases k <;> cases h
  | close | negation => cases h
  | compare op =>
      cases op with
      | eq => rfl
      | lt | lte | gt | gte => cases h

end Token

theorem Lexes.eq_append {cs rest : List Char} {ts : List Token} (h : Lexes cs ts rest) :
    cs = spell ts ++ rest := by
  induction h with
  | nil => rfl
  | cons h _ ih => rw [Token.next?_eq_some h, ih, spell_cons, List.append_assoc]

theorem Lexes.length_le {cs rest : List Char} {ts : List Token} (h : Lexes cs ts rest) :
    ts.length + rest.length ≤ cs.length := by
  induction h with
  | nil => exact Nat.le_of_eq (Nat.zero_add _)
  | @cons cs rest last t ts h _ ih =>
      have ht := List.length_pos_iff.2 t.text_ne_nil
      rw [Token.next?_eq_some h, List.length_append, List.length_cons]
      omega

theorem Lexes.append {cs mid rest : List Char} {ts us : List Token} (h : Lexes cs ts mid)
    (h' : Lexes mid us rest) : Lexes cs (ts ++ us) rest := by
  induction h with
  | nil => exact h'
  | cons h _ ih => exact .cons h (ih h')

/-- Words are read in one way, so all that is read of a text is the beginning of the whole. -/
theorem Lexes.whole {cs mid : List Char} {ts us : List Token} (h : Lexes cs ts mid) (h' : Lexes cs us []) :
    ∃ vs, us = ts ++ vs ∧ Lexes mid vs [] := by
  induction h generalizing us with
  | nil => exact ⟨us, rfl, h'⟩
  | cons h _ ih =>
      cases h' with
      | nil => cases h
      | cons h' hs =>
          rw [h, Option.some.injEq, Prod.mk.injEq] at h'
          obtain ⟨rfl, rfl⟩ := h'
          obtain ⟨vs, rfl, hv⟩ := ih hs
          exact ⟨vs, rfl, hv⟩

theorem head?_spell_ne {ts : List Token} (h : comparators ts = []) : (spell ts).head? ≠ some '=' := by
  cases ts with
  | nil => simp
  | cons t ts =>
      rw [spell_cons, List.head?_append_of_ne_nil _ t.text_ne_nil]
      intro ht
      rw [Token.eq_of_head?_text ht] at h
      cases h

/-- Words with one comparator at most are read as they are written. -/
theorem lexes_spell {ts : List Token} (h : (comparators ts).length ≤ 1) : Lexes (spell ts) ts [] := by
  induction ts with
  | nil => exact .nil []
  | cons t ts ih =>
      cases ht : t.comparator? with
      | none =>
          rw [comparators, List.filterMap_cons_none ht] at h
          exact .cons (Token.next?_text ht (spell ts)) (ih h)
      | some op =>
          rw [comparators, List.filterMap_cons_some ht, List.length_cons] at h
          have hn : comparators ts = [] := List.length_eq_zero_iff.1 (Nat.le_zero.1 (Nat.le_of_succ_le_succ h))
          have hc : t = .compare op := by
            cases t with
            | compare op' => exact congrArg Token.compare (Option.some.inj ht)
            | opens | close | negation => cases ht
          rw [hc]
          apply Lexes.cons (Token.next?_compare op (head?_spell_ne hn))
          exact ih (by rw [hn]; exact Nat.zero_le 1)

theorem lexes_iff {cs : List Char} {ts : List Token} (h : (comparators ts).length ≤ 1) :
    Lexes cs ts [] ↔ spell ts = cs := by
  constructor
  · intro hl
    rw [hl.eq_append, List.append_nil]
  · rintro rfl
    exact lexes_spell h

end Sift.Key
