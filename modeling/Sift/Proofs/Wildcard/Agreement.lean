import Sift.Proofs.Coercion
import Sift.Proofs.Parameters
import Sift.Proofs.Wildcard.Reading

namespace Sift.Wildcard

open Pattern (Line Reader Spans Walk)
open Pattern.Reader (Runs)

variable {t : Array Char} {ps : List Part} {pss : List (List Part)} {i j : Nat}

section Matching

theorem contains_single {c d : Char} : (Pattern.CharSet.single d).contains c = true ↔ c = d := by
  rw [Pattern.CharSet.single, Pattern.CharSet.contains, Bool.and_eq_true, decide_eq_true_iff, decide_eq_true_iff]
  constructor
  · rintro ⟨hl, hr⟩
    exact Char.le_antisymm hr hl
  · rintro rfl
    exact ⟨Char.le_refl c, Char.le_refl c⟩

theorem spans_dot (ht : '\n' ∉ t.toList) : Spans t Part.dot i j ↔ j = i + 1 ∧ i < t.size := by
  rw [Part.dot, Spans]
  apply and_congr_right
  rintro -
  constructor
  · rintro ⟨c, hc, -⟩
    exact (Array.getElem?_eq_some_iff.1 hc).1
  · intro hi
    refine ⟨t[i], Array.getElem?_eq_getElem hi, ?_⟩
    have hc : t[i] ≠ '\n' := by
      intro hc
      rw [← hc, Array.mem_toList_iff] at ht
      exact ht (Array.getElem_mem hi)
    rw [Pattern.CharSet.contains, Bool.not_eq_true', ← Bool.not_eq_true, contains_single]
    exact hc

theorem walk_dot (ht : '\n' ∉ t.toList) {n : Nat} (hi : i ≤ t.size) :
    Walk (Spans t Part.dot) n i j ↔ j = i + n ∧ i + n ≤ t.size := by
  induction n generalizing i with
  | zero => simp [Walk, hi]
  | succ n ih =>
      rw [Walk]
      constructor
      · rintro ⟨k, hk, hj⟩
        obtain ⟨rfl, hi⟩ := (spans_dot ht).1 hk
        obtain ⟨rfl, hj⟩ := (ih hi).1 hj
        omega
      · rintro ⟨rfl, hj⟩
        have hi : i < t.size := by omega
        exact ⟨i + 1, (spans_dot ht).2 ⟨rfl, hi⟩, (ih hi).2 (by omega)⟩

theorem spans_any (ht : '\n' ∉ t.toList) (hi : i ≤ t.size) :
    Spans t Part.any.pattern i j ↔ i ≤ j ∧ j ≤ t.size := by
  rw [Part.pattern, Spans]
  constructor
  · rintro ⟨n, -, hw⟩
    obtain ⟨rfl, hj⟩ := (walk_dot ht hi).1 hw
    omega
  · rintro ⟨hj, hs⟩
    refine ⟨j - i, by simp, (walk_dot ht hi).2 ?_⟩
    omega

theorem spans_one (ht : '\n' ∉ t.toList) (hi : i ≤ t.size) :
    Spans t Part.one.pattern i j ↔ j = i ∨ j = i + 1 ∧ i < t.size := by
  rw [Part.pattern, Spans]
  constructor
  · rintro ⟨n, hn, hw⟩
    have hn : n ≤ 1 := hn 1 rfl
    obtain ⟨rfl, hj⟩ := (walk_dot ht hi).1 hw
    omega
  · rintro (rfl | ⟨rfl, hj⟩)
    · exact ⟨0, by simp, rfl⟩
    · exact ⟨1, by simp, (walk_dot ht hi).2 ⟨rfl, hj⟩⟩

theorem spans_char {c : Char} : Spans t (Part.char c).pattern i j ↔ j = i + 1 ∧ t[i]? = some c := by
  simp only [Part.pattern, Spans, contains_single]
  simp

theorem head?_drop (t : Array Char) (i : Nat) : (t.toList.drop i).head? = t[i]? := by
  rw [List.head?_drop, Array.getElem?_toList]

/-- Parts stand between a place of a text and its end if and only if the rest of the text fits them. -/
theorem line_iff_fits (ht : '\n' ∉ t.toList) (hi : i ≤ t.size) :
    Line t (ps.map Part.pattern) i t.size ↔ fits ps (t.toList.drop i) = true := by
  induction ps generalizing i with
  | nil =>
      simp [Line, fits]
      omega
  | cons p ps ih =>
      rw [List.map_cons, Line]
      cases p with
      | any =>
          simp only [spans_any ht hi, fits, List.any_eq_true, List.mem_range, List.length_drop,
            Array.length_toList, List.drop_drop]
          constructor
          · rintro ⟨k, ⟨hk, hs⟩, hl⟩
            refine ⟨k - i, by omega, ?_⟩
            rw [Nat.add_sub_cancel' hk]
            exact (ih hs).1 hl
          · rintro ⟨n, hn, hf⟩
            have hs : i + n ≤ t.size := by omega
            exact ⟨i + n, ⟨Nat.le_add_right i n, hs⟩, (ih hs).2 hf⟩
      | one =>
          have hd : (!(t.toList.drop i).isEmpty) = true ↔ i < t.size := by
            simp
          simp only [spans_one ht hi, fits, Bool.or_eq_true, Bool.and_eq_true, List.tail_drop, hd]
          constructor
          · rintro ⟨k, rfl | ⟨rfl, hs⟩, hl⟩
            · exact .inl ((ih hi).1 hl)
            · exact .inr ⟨hs, (ih hs).1 hl⟩
          · rintro (hf | ⟨hs, hf⟩)
            · exact ⟨i, .inl rfl, (ih hi).2 hf⟩
            · exact ⟨i + 1, .inr ⟨rfl, hs⟩, (ih hs).2 hf⟩
      | char c =>
          simp only [spans_char, fits, head?_drop, List.tail_drop, Bool.and_eq_true, decide_eq_true_iff]
          constructor
          · rintro ⟨k, ⟨rfl, hc⟩, hl⟩
            exact ⟨hc, (ih (Array.getElem?_eq_some_iff.1 hc).1).1 hl⟩
          · rintro ⟨hc, hf⟩
            exact ⟨i + 1, ⟨rfl, hc⟩, (ih (Array.getElem?_eq_some_iff.1 hc).1).2 hf⟩

end Matching

section Whole

theorem before?_isNone (hi : i ≤ t.size) : (Pattern.before? t i).isNone = true ↔ i = 0 := by
  rw [Pattern.before?]
  split
  · simp_all
  · simp
    omega

theorem spans_textStart (hi : i ≤ t.size) : Spans t (.edge .textStart) i j ↔ i = 0 ∧ j = 0 := by
  rw [Spans, Pattern.Edge.holds, before?_isNone hi]
  omega

theorem spans_textEnd (hi : i ≤ t.size) : Spans t (.edge .textEnd) i j ↔ i = t.size ∧ j = t.size := by
  rw [Spans, Pattern.Edge.holds]
  simp
  omega

def list (pss : List (List Part)) : Reader :=
  let body := (addTexts ⟨.initial, [], []⟩ pss).whole
  ⟨.initial, ⟨.initial, [], [⟨some (.edge .textEnd), 0⟩, ⟨some body.whole, body.depth + 1⟩,
    ⟨some (.edge .textStart), 0⟩]⟩, [], []⟩

theorem runs_list (hp : ∀ ps ∈ pss, ∀ p ∈ ps, p.isPlain = true) :
    Runs .initial ('^' :: '(' :: (alternatives pss ++ [')', '$'])) (list pss) := by
  let started : Reader := { Reader.initial with group := Reader.initial.group.add (.edge .textStart) 0 }
  let opened := started.enter started.flags
  let body := (addTexts opened.group pss).whole
  let closed : Reader := { started with group := started.group.add body.whole (body.depth + 1) }
  have he : Runs closed ['$'] (list pss) := .step rfl rfl (Nat.le_refl _) (.done _)
  have hc : Runs { opened with group := addTexts opened.group pss } [')', '$'] (list pss) := by
    have ho : (addTexts opened.group pss).outer = .initial := outer_addTexts _ _
    have hs : ({ opened with group := addTexts opened.group pss } : Reader).step? ')' ['$'] =
        some (closed, ['$']) := by
      change some (({ closed with flags := (addTexts opened.group pss).outer } : Reader), _) = _
      rw [ho]
      rfl
    exact .step rfl hs (Nat.le_refl _) he
  obtain ⟨hb, hr⟩ := runs_alternatives rfl hp (by simp) hc
  exact .step rfl rfl (Nat.le_refl _) (.step rfl (open?_of_head? (r := started) rfl hr) (Nat.le_refl _) hb)

theorem depth_list (pss : List (List Part)) : (list pss).group.whole.depth ≤ Reader.maxDepth := by
  have hb : (addTexts ⟨.initial, [], []⟩ pss).whole.depth ≤ 3 :=
    depth_whole_addTexts rfl (List.forall_mem_nil _)
  have hl : (list pss).group.branch.depth ≤ 5 := by
    apply Pattern.Group.depth_branch
    refine List.forall_mem_cons.2 ⟨Nat.zero_le _, List.forall_mem_cons.2 ⟨Nat.succ_le_succ hb, ?_⟩⟩
    exact List.forall_mem_cons.2 ⟨Nat.zero_le _, List.forall_mem_nil _⟩
  have hw := Pattern.Group.depth_whole hl (List.forall_mem_nil _)
  exact hw.trans (by decide)

theorem spans_list (hn : pss ≠ []) (ht : '\n' ∉ t.toList) (hi : i ≤ t.size) :
    Spans t (list pss).group.whole.whole i j ↔
      i = 0 ∧ j = t.size ∧ ∃ ps ∈ pss, fits ps t.toList = true := by
  have hb (k : Nat) : Spans t (addTexts ⟨.initial, [], []⟩ pss).whole.whole 0 k ↔
      ∃ ps ∈ pss, Line t (ps.map Part.pattern) 0 k := by
    rw [spans_whole_addTexts rfl hn]
    simp
  have hf : (∃ ps ∈ pss, Line t (ps.map Part.pattern) 0 t.size) ↔ ∃ ps ∈ pss, fits ps t.toList = true := by
    simp only [line_iff_fits ht (Nat.zero_le _), List.drop_zero]
  have hl : Spans t (list pss).group.whole.whole i j ↔ Line t
      [.edge .textStart, (addTexts ⟨.initial, [], []⟩ pss).whole.whole, .edge .textEnd] i j := by
    rw [Pattern.Group.spans_whole, Pattern.Group.spans_branch]
    simp [list]
  rw [hl, ← hf]
  constructor
  · rintro ⟨k, hk, l, hm, hj⟩
    obtain ⟨rfl, rfl⟩ := (spans_textStart hi).1 hk
    have hle := Pattern.le_of_spans (Nat.zero_le _) hm
    obtain ⟨rfl, rfl⟩ := (spans_textEnd hle).1 (Pattern.line_singleton.1 hj)
    exact ⟨rfl, rfl, (hb _).1 hm⟩
  · rintro ⟨rfl, rfl, hm⟩
    refine ⟨0, (spans_textStart (Nat.zero_le _)).2 ⟨rfl, rfl⟩, t.size, (hb _).2 hm, ?_⟩
    exact Pattern.line_singleton.2 ((spans_textEnd (Nat.le_refl _)).2 ⟨rfl, rfl⟩)

theorem toList_anyOf (texts : List String) :
    (anyOf texts).toList = '^' :: '(' :: (alternatives (texts.map fun u => parts u.toList) ++ [')', '$']) := by
  have hm : (texts.map toPattern).map String.toList =
      (texts.map fun u => parts u.toList).map fun ps => ps.flatMap Part.regexp := by
    rw [List.map_map, List.map_map]
    exact List.map_congr_left fun u _ => toList_toPattern u
  rw [anyOf, String.toList_append, String.toList_append, String.toList_intercalate, hm]
  simp [alternatives]

end Whole

/-- A list is matched by the pattern made of it as its texts say. -/
def Agrees (texts : List String) : Prop :=
  ∃ p, Pattern.ofText? (anyOf texts) = some p ∧ ∀ t : String, '\n' ∉ t.toList →
    (p.occursIn t = true ↔ ∃ u ∈ texts, fits (parts u.toList) t.toList = true)

theorem agrees_of_plain {texts : List String} (hn : texts ≠ []) (hp : ∀ u ∈ texts, Plain u) : Agrees texts := by
  have hl : texts.map (fun u => parts u.toList) ≠ [] := mt List.map_eq_nil_iff.1 hn
  have hr : Runs .initial (anyOf texts).toList (list (texts.map fun u => parts u.toList)) := by
    rw [toList_anyOf]
    apply runs_list
    intro ps hps
    obtain ⟨u, hu, rfl⟩ := List.mem_map.1 hps
    exact hp u hu
  refine ⟨_, Reader.ofText?_of_runs hr rfl (depth_list _), ?_⟩
  intro t ht
  have ht : '\n' ∉ t.toList.toArray.toList := ht
  rw [Pattern.occursIn_iff]
  constructor
  · rintro ⟨i, j, hi, hs⟩
    obtain ⟨-, -, ps, hps, hf⟩ := (spans_list hl ht hi).1 hs
    obtain ⟨u, hu, rfl⟩ := List.mem_map.1 hps
    exact ⟨u, hu, hf⟩
  · rintro ⟨u, hu, hf⟩
    have hm := List.mem_map_of_mem (f := fun u : String => parts u.toList) hu
    exact ⟨0, _, Nat.zero_le _, (spans_list hl ht (Nat.zero_le _)).2 ⟨rfl, rfl, _, hm, hf⟩⟩

/-- A list of texts of which one has a wildcard is tested by one pattern, which is bound as it is whatever type
the parameter has. The pattern is valid, and matches the texts without line breaks that fit one of the list. -/
theorem compile_list (s : Scope) (c : Criterion) (texts : List String) (hs : s.wildcards = true)
    (hv : c.value = .array (texts.map .text)) (hw : ∃ u ∈ texts, ∃ p ∈ parts u.toList, p.mark? ≠ none)
    (hp : ∀ u ∈ texts, Plain u) :
    (s.compile c).condition = Scope.negate c.negations
        (.regexp { Path.qualify c.field with template := c.template } c.parameterName) ∧
      (s.compile c).bound = some (.text (anyOf texts)) ∧
      (∀ declared, Sql.Bound.ofValue (Coercion.coerce declared (.text (anyOf texts))) = .text (anyOf texts)) ∧
      Agrees texts := by
  obtain ⟨u, hu, hw⟩ := hw
  have hn : texts ≠ [] := List.ne_nil_of_mem hu
  have ht : (texts.map Value.text).map Scope.patternText = texts := by
    rw [List.map_map]
    exact List.map_id texts
  have ho : texts.any occurs = true := List.any_eq_true.2 ⟨u, hu, (occurs_iff u).2 hw⟩
  have hl : s.test c = ⟨.regexp { Path.qualify c.field with template := c.template } c.parameterName,
      some (.text (anyOf texts))⟩ := by
    obtain ⟨v, vs, hvs⟩ := List.exists_cons_of_ne_nil (mt List.map_eq_nil_iff.1 hn : texts.map Value.text ≠ [])
    rw [hvs] at hv ht
    rw [Scope.test, hv]
    simp only [ht, hs, ho, Bool.and_self, if_true]
    rfl
  refine ⟨?_, ?_, ?_, agrees_of_plain hn hp⟩
  · rw [Scope.compile, hl]
  · rw [Scope.compile, hl]
  · intro declared
    rw [Coercion.coerce_anchored declared (head?_anyOf texts)]
    rfl

theorem compile_list_names :
    let s : Scope := ⟨true, .musicians, Named.empty⟩
    let texts := ["A%", "\\%_b", "c"]
    (s.compile (.plain "name" (.array (texts.map .text)))).bound = some (.text "^(A.*|\\%.?b|c)$") ∧ Agrees texts := by
  intro s texts
  obtain ⟨-, hb, -, ha⟩ := compile_list s (.plain "name" (.array (texts.map .text))) texts rfl rfl
    ⟨"A%", by decide, .any, by decide, by decide⟩ (by decide)
  have ht : anyOf texts = "^(A.*|\\%.?b|c)$" := by decide
  rw [hb, ht]
  exact ⟨rfl, ha⟩

theorem not_agrees_of_answer {texts : List String} {t : String} (ht : '\n' ∉ t.toList)
    (h : (Pattern.ofText? (anyOf texts)).map (·.occursIn t) ≠
      some (texts.any fun u => fits (parts u.toList) t.toList)) : ¬ Agrees texts := by
  rintro ⟨p, hp, ha⟩
  apply h
  rw [hp, Option.map_some, Option.some.injEq, Bool.eq_iff_iff, ha t ht, List.any_eq_true]

/-- Nothing else is escaped: whichever special character stands in a text with a wildcard, there is one that the
pattern does not match as the text says. -/
theorem not_agrees_special : ∀ c ∈ special, ¬ Agrees [String.ofList ['a', c, 'b', '%']] := by
  have h : (special.all fun c => ["axb", "ab", "b", "a", String.ofList ['a', c, 'b']].any fun t =>
      '\n' ∉ t.toList ∧ (Pattern.ofText? (anyOf [String.ofList ['a', c, 'b', '%']])).map (·.occursIn t) ≠
        some ([String.ofList ['a', c, 'b', '%']].any fun u => fits (parts u.toList) t.toList)) = true := by
    decide +kernel
  intro c hc
  obtain ⟨t, -, ht⟩ := List.any_eq_true.1 (List.all_eq_true.1 h c hc)
  obtain ⟨ht, ha⟩ := of_decide_eq_true ht
  exact not_agrees_of_answer ht ha

theorem not_agrees_dot : ¬ Agrees ["a.b%"] := not_agrees_special '.' (by decide)

end Sift.Wildcard
