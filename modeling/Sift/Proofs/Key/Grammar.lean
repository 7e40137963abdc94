import Sift.Proofs.Comparison
import Sift.Proofs.Key.Reading
import Sift.Proofs.Key.Runs
import Sift.Proofs.Key.Token

namespace Sift.Key

structure Takes (ops : Operators) (ts : List Token) (ops' : Operators) : Prop where
  junctors : ops'.junctors.map Junctor.plain = ops.junctors.map Junctor.plain ++ ts.filterMap Token.junctor?
  negations : ops'.junctors.countP Junctor.isNegated + ops'.negations =
    ops.junctors.countP Junctor.isNegated + ops.negations + ts.count .negation
  comparator : ops'.comparator.toList = ops.comparator.toList ++ comparators ts

structure Admits (v : Value) (ops : Operators) (ts : List Token) : Prop where
  single : (ops.comparator.toList ++ comparators ts).length ≤ 1
  fits : ∀ op ∈ comparators ts, op.Fits v

variable {field : String} {v : Value} {ops ops' ops'' : Operators} {cs rest : List Char} {ts us : List Token}

theorem Takes.refl (ops : Operators) : Takes ops [] ops := by
  refine ⟨?_, rfl, ?_⟩
  · rw [List.filterMap_nil, List.append_nil]
  · rw [comparators, List.filterMap_nil, List.append_nil]

theorem Takes.append (h : Takes ops ts ops') (h' : Takes ops' us ops'') : Takes ops (ts ++ us) ops'' := by
  refine ⟨?_, ?_, ?_⟩
  · rw [h'.junctors, h.junctors, List.filterMap_append, List.append_assoc]
  · rw [h'.negations, h.negations, List.count_append, Nat.add_assoc]
  · rw [h'.comparator, h.comparator, comparators_append, List.append_assoc]

theorem Admits.of_append (h : Admits v ops (ts ++ us)) : Admits v ops ts := by
  have hs := h.single
  have hf := h.fits
  rw [comparators_append] at hs hf
  refine ⟨?_, fun op ho => hf op (List.mem_append_left _ ho)⟩
  simp only [List.length_append] at hs ⊢
  omega

theorem Admits.of_takes (h : Admits v ops (ts ++ us)) (ht : Takes ops ts ops') : Admits v ops' us := by
  have hs := h.single
  have hf := h.fits
  rw [comparators_append] at hs hf
  refine ⟨?_, fun op ho => hf op (List.mem_append_right _ ho)⟩
  rwa [ht.comparator, List.append_assoc]

def words : Junctor → List Token
  | .opens k negated => if negated then [.negation, .opens k] else [.opens k]
  | .close => [.close]

theorem lexes_mark (j : Junctor) (cs : List Char) : Lexes (mark j ++ cs) (words j) cs := by
  cases j with
  | close => exact .cons (Token.next?_text (t := .close) rfl cs) (.nil cs)
  | opens k negated =>
      have hk := Token.next?_text (t := .opens k) rfl cs
      cases negated with
      | false => exact .cons hk (.nil cs)
      | true =>
          have hn := Token.next?_text (t := .negation) rfl (mark (.opens k false) ++ cs)
          cases k with
          | all | any => exact .cons hn (.cons hk (.nil cs))

theorem takes_words (ops : Operators) (j : Junctor) :
    Takes ops (words j) { ops with junctors := ops.junctors ++ [j] } := by
  have hj : [j].map Junctor.plain = (words j).filterMap Token.junctor? := by
    rcases j with ⟨k, _ | _⟩ | _ <;> rfl
  have hn : [j].countP Junctor.isNegated = (words j).count .negation := by
    rcases j with ⟨k, _ | _⟩ | _ <;> rfl
  have hc : comparators (words j) = [] := by
    rcases j with ⟨k, _ | _⟩ | _ <;> rfl
  refine ⟨?_, ?_, ?_⟩
  · rw [List.map_append, hj]
  · rw [List.countP_append, hn]
    exact Nat.add_right_comm _ _ _
  · rw [hc, List.append_nil]

theorem fst_of_mem_junctorTexts : ∀ row ∈ junctorTexts, row.1 = mark row.2 := by
  simp [junctorTexts, mark]

/-- Each row that is gone through takes its mark or stands for nothing in front. -/
theorem takes_takeJunctors {table : List (List Char × Junctor)} (h : ∀ row ∈ table, row.1 = mark row.2)
    (ops : Operators) (cs : List Char) :
    ∃ ts, Lexes cs ts (takeJunctors table ops cs).2 ∧ Takes ops ts (takeJunctors table ops cs).1 ∧
      (ts = [] → ∀ row ∈ table, Text.after? row.1 cs = none) := by
  induction table generalizing ops cs with
  | nil => exact ⟨[], .nil cs, .refl ops, by simp⟩
  | cons row table ih =>
      obtain ⟨start, j⟩ := row
      obtain ⟨hr, ht⟩ := List.forall_mem_cons.1 h
      rw [takeJunctors]
      cases ha : Text.after? start cs with
      | none =>
          obtain ⟨ts, hl, hts, hn⟩ := ih ht ops cs
          exact ⟨ts, hl, hts, fun he => List.forall_mem_cons.2 ⟨ha, hn he⟩⟩
      | some rest =>
          obtain rfl : cs = mark j ++ rest := hr ▸ Text.after?_eq_some.1 ha
          obtain ⟨ts, hl, hts, -⟩ := ih ht { ops with junctors := ops.junctors ++ [j] } rest
          refine ⟨words j ++ ts, (lexes_mark j rest).append hl, (takes_words ops j).append hts, ?_⟩
          intro he
          rcases j with ⟨k, _ | _⟩ | _ <;> cases he

theorem takes_takeNegation (ops : Operators) (cs : List Char) :
    ∃ ts, Lexes cs ts (takeNegation ops cs).2 ∧ Takes ops ts (takeNegation ops cs).1 ∧
      (ts = [] → Text.after? Token.negation.text cs = none) := by
  unfold takeNegation
  split
  · rename_i rest
    have hn := Token.next?_text (t := .negation) rfl rest
    refine ⟨[.negation], .cons hn (.nil rest), ⟨?_, rfl, ?_⟩, by simp⟩
    · exact (List.append_nil _).symm
    · exact (List.append_nil _).symm
  · rename_i hc
    refine ⟨[], .nil cs, .refl ops, fun _ => ?_⟩
    cases cs with
    | nil => rfl
    | cons c cs =>
        have hn : '!' ≠ c := fun h => hc cs (h ▸ rfl)
        simp [Token.text, Text.after?, hn]

theorem takeComparators_append {before : List (List Char × Comparator)}
    (h : ∀ row ∈ before, Text.after? row.1 cs = none) (table : List (List Char × Comparator)) :
    takeComparators field v (before ++ table) ops cs = takeComparators field v table ops cs := by
  induction before with
  | nil => rfl
  | cons row before ih =>
      obtain ⟨hr, hb⟩ := List.forall_mem_cons.1 h
      rw [List.cons_append, takeComparators, hr]
      exact ih hb

theorem takeComparators_of_unmatched {table : List (List Char × Comparator)}
    (h : ∀ row ∈ table, Text.after? row.1 cs = none) :
    takeComparators field v table ops cs = .ok (ops, cs) := by
  have ht := @takeComparators_append field v ops cs table h []
  rwa [List.append_nil] at ht

/-- A second comparator is refused, whichever it is. -/
theorem unmatched_of_takeComparators {op : Comparator} (ho : ops.comparator = some op)
    {table : List (List Char × Comparator)} (h : takeComparators field v table ops cs = .ok (ops', rest)) :
    ∀ row ∈ table, Text.after? row.1 cs = none := by
  induction table with
  | nil => simp
  | cons row table ih =>
      rw [takeComparators] at h
      cases ha : Text.after? row.1 cs with
      | none =>
          rw [ha] at h
          exact List.forall_mem_cons.2 ⟨ha, ih h⟩
      | some tail =>
          rw [ha, ho] at h
          cases h

/-- The comparator in front is taken, and the rows that remain are tried on what follows on it. -/
theorem takeComparators_of_comparison? {op : Comparator} (h : Token.comparison? cs = some (op, rest)) :
    ∃ table ⊆ comparatorTexts, takeComparators field v comparatorTexts ops cs =
      match ops.comparator with
      | some existing => .error (.duplicateComparator field existing)
      | none =>
        (op.check field v).bind fun _ => takeComparators field v table { ops with comparator := some op } rest := by
  obtain ⟨before, row, table, ht, hr, hb⟩ := List.findSome?_eq_some_iff.1 h
  obtain ⟨tail, ha, he⟩ := Option.map_eq_some_iff.1 hr
  cases he
  refine ⟨table, ?_, ?_⟩
  · rw [ht]
    exact fun r hm => List.mem_append_right _ (List.mem_cons_of_mem _ hm)
  · rw [ht, takeComparators_append (by simpa only [Option.map_eq_none_iff] using hb), takeComparators, ha]
    rfl

theorem takes_takeComparators (h : takeComparators field v comparatorTexts ops cs = .ok (ops', rest)) :
    ∃ ts, Lexes cs ts rest ∧ Takes ops ts ops' ∧
      (ts = [] → ∀ row ∈ comparatorTexts, Text.after? row.1 cs = none) := by
  cases hc : Token.comparison? cs with
  | none =>
      have hn := Token.comparison?_eq_none_iff.1 hc
      rw [takeComparators_of_unmatched hn] at h
      cases h
      exact ⟨[], .nil cs, .refl ops, fun _ => hn⟩
  | some p =>
      obtain ⟨op, tail⟩ := p
      obtain ⟨table, -, he⟩ := @takeComparators_of_comparison? field v ops cs tail op hc
      rw [he] at h
      cases ho : ops.comparator with
      | some existing =>
          rw [ho] at h
          cases h
      | none =>
          rw [ho] at h
          obtain ⟨⟨⟩, -, ht⟩ := Except.bind_eq_ok.1 h
          rw [takeComparators_of_unmatched (unmatched_of_takeComparators rfl ht)] at ht
          cases ht
          refine ⟨[.compare op], .cons (Token.next?_of_comparison? hc) (.nil _), ⟨?_, rfl, ?_⟩, by simp⟩
          · exact (List.append_nil _).symm
          · rw [ho]
            rfl

theorem not_admits_takeComparators {e : CriteriaError}
    (h : takeComparators field v comparatorTexts ops cs = .error e) :
    ∃ ts rest, Lexes cs ts rest ∧ ¬ Admits v ops ts := by
  cases hc : Token.comparison? cs with
  | none =>
      rw [takeComparators_of_unmatched (Token.comparison?_eq_none_iff.1 hc)] at h
      cases h
  | some p =>
      obtain ⟨op, tail⟩ := p
      have hl : Lexes cs [.compare op] tail := .cons (Token.next?_of_comparison? hc) (.nil tail)
      obtain ⟨table, hs, he⟩ := @takeComparators_of_comparison? field v ops cs tail op hc
      rw [he] at h
      cases ho : ops.comparator with
      | some existing =>
          refine ⟨_, _, hl, fun ha => ?_⟩
          have hg := ha.single
          rw [ho] at hg
          exact absurd hg (by simp [comparators, Token.comparator?])
      | none =>
          rw [ho] at h
          rcases Except.bind_eq_error.1 h with hk | ⟨⟨⟩, hk, ht⟩
          · refine ⟨_, _, hl, fun ha => ?_⟩
            rw [Comparator.check_eq_ok.2 (ha.fits op List.mem_cons_self)] at hk
            cases hk
          · cases hn : Token.comparison? tail with
            | none =>
                have hr := Token.comparison?_eq_none_iff.1 hn
                rw [takeComparators_of_unmatched fun row hm => hr row (hs hm)] at ht
                cases ht
            | some p =>
                obtain ⟨op', tail'⟩ := p
                refine ⟨[.compare op, .compare op'], tail',
                  hl.append (.cons (Token.next?_of_comparison? hn) (.nil tail')), fun ha => ?_⟩
                have hg := ha.single
                rw [ho] at hg
                exact absurd hg (by simp [comparators, Token.comparator?])

theorem next?_eq_none (hj : ∀ row ∈ junctorTexts, Text.after? row.1 cs = none)
    (hn : Text.after? Token.negation.text cs = none)
    (hc : ∀ row ∈ comparatorTexts, Text.after? row.1 cs = none) : Token.next? cs = none := by
  rw [Token.next?_eq_none_iff, Token.table, List.forall_mem_append, List.forall_mem_map]
  constructor
  · intro row hr
    rw [Token.text, ← Token.fst_of_mem_comparatorTexts row hr]
    exact hc row hr
  · simp only [junctorTexts, List.forall_mem_cons] at hj
    obtain ⟨hor, hand, -, -, hclose, -⟩ := hj
    simp only [List.forall_mem_cons]
    exact ⟨hor, hand, hclose, hn, List.forall_mem_nil _⟩

/-- Before comparators are tried, a pass has taken group marks and a negation. -/
theorem exists_pass_eq (field : String) (v : Value) (ops : Operators) (cs : List Char) :
    ∃ ts ops' rest, Lexes (collapse cs) ts rest ∧ Takes ops ts ops' ∧
      pass field v ops cs = takeComparators field v comparatorTexts ops' rest ∧
      (ts = [] → (∀ row ∈ junctorTexts, Text.after? row.1 (collapse cs) = none) ∧
        Text.after? Token.negation.text (collapse cs) = none) := by
  obtain ⟨ts, hl, ht, hj⟩ := takes_takeJunctors fst_of_mem_junctorTexts ops (collapse cs)
  obtain ⟨⟨ops₁, mid⟩, hp⟩ : ∃ p, takeJunctors junctorTexts ops (collapse cs) = p := ⟨_, rfl⟩
  rw [hp] at hl ht
  obtain ⟨us, hl', ht', hn⟩ := takes_takeNegation ops₁ mid
  obtain ⟨⟨ops₂, rest⟩, hp'⟩ : ∃ p, takeNegation ops₁ mid = p := ⟨_, rfl⟩
  rw [hp'] at hl' ht'
  refine ⟨ts ++ us, ops₂, rest, hl.append hl', ht.append ht', ?_, ?_⟩
  · rw [pass, hp]
    dsimp only
    rw [hp']
  · intro he
    obtain ⟨rfl, rfl⟩ := List.append_eq_nil_iff.1 he
    have hm : collapse cs = mid := hl.eq_append
    rw [← hm] at hn
    exact ⟨hj rfl, hn rfl⟩

/-- A pass takes words from the front, and none only if there is none. -/
theorem takes_pass (h : pass field v ops cs = .ok (ops', rest)) :
    ∃ ts, Lexes (collapse cs) ts rest ∧ Takes ops ts ops' ∧ (ts = [] → Token.next? (collapse cs) = none) := by
  obtain ⟨ts, ops₁, mid, hl, ht, hp, hm⟩ := exists_pass_eq field v ops cs
  rw [hp] at h
  obtain ⟨us, hl', ht', hc⟩ := takes_takeComparators h
  refine ⟨ts ++ us, hl.append hl', ht.append ht', ?_⟩
  intro he
  obtain ⟨rfl, rfl⟩ := List.append_eq_nil_iff.1 he
  have hmid : collapse cs = mid := hl.eq_append
  rw [← hmid] at hc
  exact next?_eq_none (hm rfl).1 (hm rfl).2 (hc rfl)

theorem not_admits_pass {e : CriteriaError} (h : pass field v ops cs = .error e) :
    ∃ ts rest, Lexes (collapse cs) ts rest ∧ ¬ Admits v ops ts := by
  obtain ⟨ts, ops₁, mid, hl, ht, hp, -⟩ := exists_pass_eq field v ops cs
  rw [hp] at h
  obtain ⟨us, rest, hl', hn⟩ := not_admits_takeComparators h
  exact ⟨ts ++ us, rest, hl.append hl', fun ha => hn (ha.of_takes ht)⟩

theorem takes_reduce {n : Nat} (h : reduce field v n ops cs = .ok ops') :
    ∃ ts, Lexes (collapse cs) ts [] ∧ Takes ops ts ops' := by
  induction n generalizing ops cs with
  | zero =>
      cases cs with
      | nil =>
          cases h
          exact ⟨[], .nil [], .refl _⟩
      | cons c cs => cases h
  | succ n ih =>
      rw [reduce_succ] at h
      obtain ⟨⟨ops₁, rest⟩, hp, hr⟩ := Except.bind_eq_ok.1 h
      obtain ⟨ts, hl, ht, -⟩ := takes_pass hp
      obtain ⟨us, hl', ht'⟩ := ih hr
      rw [collapse_of_suffix ⟨_, hl.eq_append.symm⟩] at hl'
      exact ⟨ts ++ us, hl.append hl', ht.append ht'⟩

/-- As long as words remain a pass takes one, so there are enough passes if there are as many as
characters. -/
theorem exists_reduce {n : Nat} (h : Lexes (collapse cs) ts []) (ha : Admits v ops ts) (hn : cs.length ≤ n) :
    ∃ ops', reduce field v n ops cs = .ok ops' := by
  induction n generalizing ops cs ts with
  | zero =>
      have hc : cs = [] := List.length_eq_zero_iff.1 (Nat.le_zero.1 hn)
      exact ⟨ops, by rw [hc]; rfl⟩
  | succ n ih =>
      rw [reduce_succ]
      cases hp : pass field v ops cs with
      | error e =>
          obtain ⟨us, rest, hl, hf⟩ := not_admits_pass hp
          obtain ⟨vs, rfl, -⟩ := hl.whole h
          exact absurd ha.of_append hf
      | ok p =>
          obtain ⟨ops₁, rest⟩ := p
          obtain ⟨us, hl, ht, hs⟩ := takes_pass hp
          obtain ⟨vs, rfl, hv⟩ := hl.whole h
          have hr : collapse rest = rest := collapse_of_suffix ⟨_, hl.eq_append.symm⟩
          apply ih (hr.symm ▸ hv) (ha.of_takes ht)
          have hle := hl.length_le
          have hcs := length_collapse_le cs
          cases us with
          | cons u us =>
              rw [List.length_cons] at hle
              dsimp only
              omega
          | nil =>
              -- nothing was taken, so nothing is left
              cases hv with
              | nil => exact Nat.zero_le n
              | cons hv _ =>
                  have hm := hl.eq_append
                  rw [spell_nil, List.nil_append] at hm
                  rw [← hm, hs rfl] at hv
                  cases hv

theorem count_spell (ts : List Token) : (spell ts).count '!' = ts.count .negation := by
  induction ts with
  | nil => rfl
  | cons t ts ih =>
      have ht : t.text.count '!' = [t].count .negation := by
        rcases t with ⟨_ | _⟩ | _ | _ | ⟨_ | _ | _ | _ | _⟩ <;> rfl
      rw [spell_cons, List.count_append, ih, ht, ← List.count_append, List.singleton_append]

/-- The words of a run of operators: its runs of negations are reduced to none or one, and of comparators
there is one at most, which fits the value. -/
structure Spells (ts : List Token) (r : List Char) (v : Value) : Prop where
  text : spell ts = halved r
  single : (comparators ts).length ≤ 1
  fits : ∀ op ∈ comparators ts, op.Fits v

theorem Spells.lexes {r : List Char} (h : Spells ts r v) : Lexes (collapse r) ts [] := by
  rw [lexes_iff h.single, collapse_eq_halved, h.text]

theorem Spells.admits {r : List Char} (h : Spells ts r v) : Admits v .none ts :=
  ⟨h.single, h.fits⟩

theorem spells_of_reduce {r : List Char} {n : Nat} (h : reduce field v n .none r = .ok ops) :
    ∃ ts, Spells ts r v ∧ Takes .none ts ops := by
  obtain ⟨ts, hl, ht⟩ := takes_reduce h
  have hc : ops.comparator.toList = comparators ts := ht.comparator
  refine ⟨ts, ⟨?_, ?_, ?_⟩, ht⟩
  · rw [← collapse_eq_halved, hl.eq_append, List.append_nil]
  · rw [← hc]
    cases ops.comparator <;> simp
  · intro op ho
    rw [← hc, Option.mem_toList] at ho
    exact reduce_fits h (by simp [Operators.none]) op ho

theorem Spells.unique {r : List Char} (h : Spells ts r v) (h' : Spells us r v) : ts = us := by
  obtain ⟨vs, rfl, hv⟩ := h.lexes.whole h'.lexes
  have hn := hv.length_le
  have hz : vs = [] := List.length_eq_zero_iff.1 (by simpa using hn)
  rw [hz, List.append_nil]

/-- A key of a field and as many operators before it as there are passes is read if and only if they are
words of the operator language. The term has the groups of these words, up to negations, and their
comparator, and all negations count that are left of the runs of them. -/
theorem read_operators_iff {field : String} (hf : Fits field) {r : String}
    (hr : ∀ c ∈ r.toList, isOperator c = true) (hl : r.length ≤ maxPasses) (v : Value) (index : Nat) :
    ((∃ c, read (r ++ field) v index = .ok c) ↔ ∃ ts, Spells ts r.toList v.raw) ∧
      ∀ c ts, read (r ++ field) v index = .ok c → Spells ts r.toList v.raw →
        c.field = field ∧ c.value = v.raw ∧
        c.junctors.map Junctor.plain = ts.filterMap Token.junctor? ∧
        c.comparator = (comparators ts).head? ∧
        c.junctors.countP Junctor.isNegated + c.negations = oddRuns r.toList := by
  have hk : r ++ field = String.ofList (r.toList ++ field.toList) := by
    rw [← String.toList_append, String.ofList_toList]
  rw [hk, read_append hf hr]
  refine ⟨⟨?_, ?_⟩, ?_⟩
  · rintro ⟨c, hc⟩
    obtain ⟨ops, ho, -⟩ := Except.map_eq_ok.1 hc
    obtain ⟨ts, hts, -⟩ := spells_of_reduce ho
    exact ⟨ts, hts⟩
  · rintro ⟨ts, hts⟩
    rw [← String.length_toList] at hl
    obtain ⟨ops, ho⟩ : ∃ ops, reduce field v.raw maxPasses .none r.toList = .ok ops :=
      exists_reduce hts.lexes hts.admits hl
    exact ⟨_, Except.map_eq_ok.2 ⟨ops, ho, rfl⟩⟩
  · intro c ts hc hts
    obtain ⟨ops, ho, rfl⟩ := Except.map_eq_ok.1 hc
    obtain ⟨us, hus, ht⟩ := spells_of_reduce ho
    obtain rfl := hus.unique hts
    refine ⟨rfl, rfl, ht.junctors, ?_, ?_⟩
    · have hh : ops.comparator.toList = comparators us := ht.comparator
      rw [← hh, Option.head?_toList]
    · have hn : ops.junctors.countP Junctor.isNegated + ops.negations = us.count .negation := by
        rw [ht.negations]
        exact Nat.zero_add _
      rw [← count_halved, ← hts.text, count_spell]
      exact hn

theorem read_operators_iff_mixed :
    Fits "age" ∧ (∀ c ∈ "!!!(|)!!)<=!(&".toList, isOperator c = true) ∧ "!!!(|)!!)<=!(&".length ≤ maxPasses ∧
      ∃ c, read ("!!!(|)!!)<=!(&" ++ "age") .null 3 = .ok c ∧
        c.junctors.map Junctor.plain = [.opens .any false, .close, .close, .opens .all false] ∧
        c.comparator = some .lte ∧ c.junctors.countP Junctor.isNegated + c.negations = 2 := by
  have hf : Fits "age" := ⟨by simp [isOperator], by simp [splitters]⟩
  have hr : ∀ c ∈ "!!!(|)!!)<=!(&".toList, isOperator c = true := by
    rw [← List.all_eq_true]
    rfl
  have hs : Spells [.negation, .opens .any, .close, .close, .compare .lte, .negation, .opens .all]
      "!!!(|)!!)<=!(&".toList (Value.null.raw) :=
    ⟨by decide, by decide, List.forall_mem_singleton.2 ((@Comparator.check_eq_ok .lte "age" .null).1 rfl)⟩
  obtain ⟨h, hc⟩ := read_operators_iff hf hr (by decide) .null 3
  obtain ⟨c, hk⟩ := h.2 ⟨_, hs⟩
  obtain ⟨-, -, hj, ho, hn⟩ := hc c _ hk hs
  exact ⟨hf, hr, by decide, c, hk, hj, ho, hn⟩

end Sift.Key
