import Sift.Proofs.Sql.Template
import Sift.Sql.Quoted

namespace Sift.Sql

variable {q : Char}

theorem unquoteRest_cons_of_ne {c : Char} (h : c ≠ q) (cs : List Char) :
    unquoteRest q (c :: cs) = (unquoteRest q cs).map fun (s, after) => (c :: s, after) := by
  cases cs with
  | nil => simp [unquoteRest, h]
  | cons d cs => rw [unquoteRest, if_neg h]

theorem unquoteRest_of_head? {after : List Char} (h : after.head? ≠ some q) :
    unquoteRest q (q :: after) = some ([], after) := by
  cases after with
  | nil => simp [unquoteRest]
  | cons d after =>
      have hd : d ≠ q := fun he => h (congrArg some he)
      rw [unquoteRest, if_pos rfl, if_neg hd]

/-- An identifier is read as it was up to its last quote. What comes of that quote is up to the text after
it. -/
theorem unquote?_quoteWith (q : Char) (cs after : List Char) :
    unquote? q (quoteWith q cs ++ after) =
      (unquoteRest q (q :: after)).map fun (s, rest) => (cs ++ s, rest) := by
  rw [quoteWith, List.append_assoc, List.cons_append, unquote?, if_pos rfl, List.singleton_append]
  induction cs with
  | nil => simp
  | cons c cs ih =>
      rw [List.flatMap_cons, List.append_assoc]
      by_cases hc : c = q
      · subst hc
        rw [if_pos rfl, List.cons_append, List.singleton_append, unquoteRest, if_pos rfl, if_pos rfl, ih,
          Option.map_map]
        rfl
      · rw [if_neg hc, List.singleton_append, unquoteRest_cons_of_ne hc, ih, Option.map_map]
        rfl

/-- A reader that comes to an end has read something and leaves the rest. -/
theorem exists_append_of_unquoteRest {cs s rest : List Char} (h : unquoteRest q cs = some (s, rest)) :
    ∃ c read, cs = c :: read ++ rest := by
  fun_induction unquoteRest q cs generalizing s rest with
  | case1 => cases h
  | case2 =>
      cases h
      exact ⟨_, [], rfl⟩
  | case3 => cases h
  | case4 cs ih =>
      obtain ⟨⟨s', rest'⟩, hr, he⟩ := Option.map_eq_some_iff.1 h
      cases he
      obtain ⟨b, read, rfl⟩ := ih hr
      exact ⟨_, _ :: b :: read, rfl⟩
  | case5 d cs hd =>
      cases h
      exact ⟨_, [], rfl⟩
  | case6 c d cs hc ih =>
      obtain ⟨⟨s', rest'⟩, hr, he⟩ := Option.map_eq_some_iff.1 h
      cases he
      obtain ⟨b, read, hb⟩ := ih hr
      exact ⟨c, b :: read, by rw [hb]; rfl⟩

namespace Dialect

variable (d : Dialect)

theorem unquote?_quote (identifier : String) {after : List Char} (h : after.head? ≠ some d.quoteMark) :
    unquote? d.quoteMark ((d.quote identifier).toList ++ after) = some (identifier.toList, after) := by
  rw [quote, String.toList_ofList, unquote?_quoteWith, unquoteRest_of_head? h]
  simp

theorem unqualify?_qualify (source column : String) (after : List Char) :
    unqualify? d.quoteMark ((d.qualify source column).toList ++ after) =
      (unquoteRest d.quoteMark (d.quoteMark :: after)).map fun (s, rest) =>
        ((source.toList, column.toList ++ s), rest) := by
  have hd : '.' ≠ d.quoteMark := by cases d <;> decide
  have hq : (d.qualify source column).toList ++ after =
      (d.quote source).toList ++ '.' :: ((d.quote column).toList ++ after) := by
    simp [qualify]
  rw [hq, unqualify?, unquote?_quote d source (by simpa using hd)]
  change Option.map _ (unquote? d.quoteMark ((d.quote column).toList ++ after)) = _
  rw [quote, String.toList_ofList, unquote?_quoteWith, Option.map_map]
  rfl

theorem unqualify?_of_head? (source column : String) {after : List Char} (h : after.head? ≠ some d.quoteMark) :
    unqualify? d.quoteMark ((d.qualify source column).toList ++ after) =
      some ((source.toList, column.toList), after) := by
  rw [unqualify?_qualify, unquoteRest_of_head? h]
  simp

theorem quote_injective : Function.Injective d.quote := by
  intro a b h
  have ha : unquote? d.quoteMark ((d.quote a).toList ++ []) = some (a.toList, []) :=
    d.unquote?_quote a (by simp)
  rw [h, d.unquote?_quote b (by simp)] at ha
  simpa [String.toList_inj, eq_comm] using ha

theorem qualify_injective2 : Function.Injective2 d.qualify := by
  intro source source' column column' h
  have hs : unqualify? d.quoteMark ((d.qualify source column).toList ++ []) =
      some ((source.toList, column.toList), []) := d.unqualify?_of_head? source column (by simp)
  rw [h, d.unqualify?_of_head? source' column' (by simp)] at hs
  simpa [String.toList_inj, eq_comm] using hs

/-- A reader gets the names of a column off a text and stops where the rest begins. If the rest begins with a
quote it takes that for more of the column; it never stops before. -/
structure Reads (source column : String) (text rest : List Char) : Prop where
  names : rest.head? ≠ some d.quoteMark →
    unqualify? d.quoteMark text = some ((source.toList, column.toList), rest)
  notBefore : ∀ s c rest', unqualify? d.quoteMark text = some ((s, c), rest') →
    s = source.toList ∧ column.toList <+: c ∧ rest' <:+ rest

theorem reads_qualify (source column : String) (rest : List Char) :
    d.Reads source column ((d.qualify source column).toList ++ rest) rest := by
  refine ⟨d.unqualify?_of_head? source column, ?_⟩
  intro s c rest' h
  rw [unqualify?_qualify] at h
  obtain ⟨⟨more, rest''⟩, hr, he⟩ := Option.map_eq_some_iff.1 h
  cases he
  obtain ⟨b, read, hb⟩ := exists_append_of_unquoteRest hr
  exact ⟨rfl, List.prefix_append _ _, read, (List.cons.inj hb).2.symm⟩

/-- No name gets out of its quotes. What is written for a column is read as its source and its column, whatever
text follows, if only that does not begin with a quote; so no two names are written alike. This is so where a
template takes in a column, and where values of an identifier are counted. -/
theorem names_read_back :
    (∀ source column rest, rest.head? ≠ some d.quoteMark →
        unqualify? d.quoteMark ((d.qualify source column).toList ++ rest) =
          some ((source.toList, column.toList), rest)) ∧
      Function.Injective d.quote ∧ Function.Injective2 d.qualify ∧
      (∀ (f : FieldRef) (t : String), f.template = some t →
        ∃ text, d.expr (Context.field f) = [.text text] ∧
          ((¬ ['%', 's'] <:+: t.toList ∧ text = t) ∨
            ∃ before rest written, t.toList = before ++ ['%', 's'] ++ rest ∧
              ¬ ['%', 's'] <:+: before ++ ['%'] ∧ text.toList = before ++ written ∧
              d.Reads f.source f.column written rest)) ∧
      ∀ (x : Context) (q : Query) (root : Entity) (base : Select) (identifier : String),
        root.identifier = [identifier] → q.havingCondition = none →
        ∃ item text written rest, countStatement x q root base = .ok (.rows { base with items := [item] }) ∧
          d.item item = [.text text] ∧ text.toList = "COUNT(DISTINCT ".toList ++ written ∧
          rest.head? = some ')' ∧
          unqualify? d.quoteMark written = some ((q.root.toList, identifier.toList), rest) := by
  refine ⟨fun source column _ => d.unqualify?_of_head? source column, d.quote_injective, d.qualify_injective2,
    ?_, ?_⟩
  · intro f t ht
    have hr := Text.replaces_replaceFirst (by simp : ['%', 's'] ≠ []) (d.qualify f.source f.column).toList
      t.toList
    refine ⟨String.ofList _, by rw [Context.field, ht]; rfl, ?_⟩
    rw [String.toList_ofList]
    rcases hr with ⟨before, rest, he, hn, hw⟩ | ⟨hn, hw⟩
    · refine .inr ⟨before, rest, _, he, hn, ?_, d.reads_qualify f.source f.column rest⟩
      rw [hw, List.append_assoc]
    · exact .inl ⟨hn, by rw [hw, String.ofList_toList]⟩
  · intro x q root base identifier hi hh
    refine ⟨.countDistinct q.root identifier, _, (d.qualify q.root identifier).toList ++ _,
      (") AS " ++ d.quote countColumn).toList, ?_, rfl, ?_, ?_, d.unqualify?_of_head? q.root identifier ?_⟩
    · rw [countStatement, hi, hh]
    · simp
    · simp
    · cases d <;> simp [quoteMark]

theorem names_read_back_quotes :
    let f : FieldRef := ⟨"main", "na\"\"me%s", some "LOWER(%s)"⟩
    ['.', '\x60'].head? ≠ some mysql.quoteMark ∧
      unqualify? '\x60' ((mysql.qualify "\x60" "a\x60\x60").toList ++ ['.', '\x60']) =
        some (("\x60".toList, "a\x60\x60".toList), ['.', '\x60']) ∧
      f.template = some "LOWER(%s)" ∧
      ∃ text, sqlite.expr (Context.field f) = [.text text] ∧
        ∃ before rest written, text.toList = before ++ written ∧ sqlite.Reads "main" "na\"\"me%s" written rest := by
  intro f
  refine ⟨by decide, (names_read_back mysql).1 "\x60" "a\x60\x60" ['.', '\x60'] (by decide), rfl, ?_⟩
  obtain ⟨text, he, ⟨hn, -⟩ | ⟨before, rest, written, -, -, hw, hr⟩⟩ :=
    (names_read_back sqlite).2.2.2.1 f "LOWER(%s)" rfl
  · exact absurd ⟨"LOWER(".toList, ")".toList, by decide⟩ hn
  · exact ⟨text, he, before, rest, written, hw, hr⟩

end Dialect

end Sift.Sql
