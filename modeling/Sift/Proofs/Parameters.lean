import Sift.Proofs.Plan
import Sift.Proofs.Sql.Failure

namespace Sift

def Entity.musician : Entity :=
  ⟨"Musician", "musicians", ["id"], Named.ofList [("id", .integer), ("name", .string)], Named.empty⟩

def Catalog.musicians : Catalog := ⟨Schema.empty.add "Musician" .musician, .musician⟩

def Entity.artist : Entity :=
  { Entity.musician with associations := Named.ofList [("albums", .toMany "Album" "musician_id")] }

def Entity.album : Entity :=
  ⟨"Album", "albums", ["id"], Named.ofList [("id", .integer), ("title", .string), ("year", .integer)],
    Named.empty⟩

def Catalog.artists : Catalog :=
  ⟨(Schema.empty.add "Musician" .artist).add "Album" .album, .artist⟩

namespace Plan

variable {catalog : Catalog} {criteria : Criteria} {order : OrderBy} {p : Plan} {q : Query}
  {projection : Projection} {limit offset : Option Nat}

theorem assemble_eq_assembled (hs : ∀ e ∈ criteria, e.selectable? = none)
    (hp : prepare catalog criteria order = .ok p) (hq : p.assemble catalog projection limit offset = .ok q) :
    ∃ w v, Group.build (p.leaf catalog) p.whereTerms = .ok w ∧
      Group.build (p.leaf catalog) p.havingTerms = .ok v ∧
      q = p.assembled catalog projection limit offset w v := by
  obtain ⟨classes, hc, -, -, hl⟩ := holds_of_prepare hp
  have hn : p.selectables = [] := by
    rw [hl, hc.selectables, List.filterMap_eq_nil_iff]
    exact hs
  obtain ⟨w, v, hw, hv, rfl⟩ := assemble_eq_ok hq
  exact ⟨w, v, hw, hv, by rw [hn]; rfl⟩

theorem entries_assembled (hp : prepare catalog criteria order = .ok p) (w v : Option Condition) :
    (p.assembled catalog projection limit offset w v).parameters.entries = p.bindings catalog p.terms :=
  Named.entries_putAll (t := Named.empty) (nodup_bindings hp)

theorem names_assembled (hp : prepare catalog criteria order = .ok p) {w v : Option Condition}
    (hw : Group.build (p.leaf catalog) p.whereTerms = .ok w)
    (hv : Group.build (p.leaf catalog) p.havingTerms = .ok v) :
    (p.assembled catalog projection limit offset w v).parameters.names =
      w.toList.flatMap Condition.parameterNames ++ v.toList.flatMap Condition.parameterNames := by
  rw [Named.names, entries_assembled hp, parameterNames_of_build hw, parameterNames_of_build hv, bindings,
    terms, List.filter_append, List.map_append, List.map_append]
  rfl

theorem get?_of_binds (hs : ∀ e ∈ criteria, e.selectable? = none)
    (hp : prepare catalog criteria order = .ok p) (hq : p.assemble catalog projection limit offset = .ok q)
    {c : Criterion} (hc : c ∈ p.terms) (hb : c.binds = true) :
    q.parameters.get? c.parameterName = some (p.entry catalog c).2 := by
  obtain ⟨w, v, -, -, rfl⟩ := assemble_eq_assembled hs hp hq
  apply Named.get?_eq_some_iff.2
  rw [entries_assembled hp w v]
  exact List.mem_map_of_mem (List.mem_filter.2 ⟨hc, hb⟩)

/-- A term has the number of its entry among those that give terms, and its value. -/
theorem exists_entry_of_mem_terms (hp : prepare catalog criteria order = .ok p) {c : Criterion}
    (hc : c ∈ p.terms) : ∃ e, (criteria.filter Entry.isTerm)[c.index]? = some e ∧ c.value = e.value.raw := by
  obtain ⟨classes, hl, hw, hh, -⟩ := holds_of_prepare hp
  have ht : c ∈ classes.terms := by rwa [Classes.terms, ← hw, ← hh]
  obtain ⟨e, he, hg⟩ := hl.given c ht
  exact ⟨e, he, hg.value_eq⟩

/-- The parameters of a query are those that its conditions name, each once and in the same order. Each
one holds the value of a single term, which is the term of that number among the criteria. So no
parameter is missing when the query is written. -/
theorem assemble_parameters (hs : ∀ e ∈ criteria, e.selectable? = none)
    (hp : prepare catalog criteria order = .ok p) (hq : p.assemble catalog projection limit offset = .ok q) :
    q.parameters.names =
        q.whereCondition.toList.flatMap Condition.parameterNames ++
          q.havingCondition.toList.flatMap Condition.parameterNames ∧
      q.parameters.names.Nodup ∧
      q.parameters.entries = p.bindings catalog p.terms ∧
      (∀ c ∈ p.terms, c.binds = true →
        ((p.scope catalog).compile c).condition.parameterNames = [c.parameterName] ∧
        (q.parameters.get? c.parameterName).map Parameter.value =
          some ((p.scope catalog).carried c.value) ∧
        (∀ d ∈ p.terms, d.parameterName = c.parameterName → d = c) ∧
        ∃ e, (criteria.filter Entry.isTerm)[c.index]? = some e ∧ c.value = e.value.raw) ∧
      ∀ schema d name, Sql.render schema d q ≠ .error (.missingParameter name) := by
  obtain ⟨w, v, hw, hv, rfl⟩ := assemble_eq_assembled hs hp hq
  have hn : (p.assembled catalog projection limit offset w v).parameters.names = _ :=
    names_assembled hp hw hv
  refine ⟨hn, Named.distinct _, entries_assembled hp w v, ?_, ?_⟩
  · intro c hc hb
    refine ⟨?_, ?_, ?_, exists_entry_of_mem_terms hp hc⟩
    · rw [Criterion.binds, Bool.and_eq_true] at hb
      rw [Scope.parameterNames_compile, if_pos hb.2]
    · rw [get?_of_binds hs hp hq hc hb]
      rfl
    · intro d hd he
      exact eq_of_parameterName_eq hp hd hc he
  · intro schema d name he
    obtain ⟨hm, hg⟩ := Sql.render_missing he
    apply Named.get?_eq_none_iff.1 hg
    rw [hn]
    exact hm

theorem assemble_parameters_name :
    let criteria : Criteria := [.options .like, .term "name" (.array [.text "a%", .text "b"]),
      .term "(|name" (.text "c"), .term "name@COUNT(%s)" (.int 2)]
    ∃ p q, (∀ e ∈ criteria, e.selectable? = none) ∧ prepare .musicians criteria [] = .ok p ∧
      p.assemble .musicians .entity none none = .ok q ∧
      q.parameters.names = ["main_name_0", "main_name_1", "main_name_2"] ∧
      q.parameters.values.map Parameter.value = [.text "^(a.*|b)$", .text "c", .int 2] ∧
      ∀ schema d name, Sql.render schema d q ≠ .error (.missingParameter name) := by
  intro criteria
  have hs : ∀ e ∈ criteria, e.selectable? = none := by
    simp [criteria, Entry.selectable?]
  refine ⟨_, _, hs, rfl, rfl, by decide, rfl, ?_⟩
  exact (assemble_parameters hs rfl rfl).2.2.2.2

end Plan

end Sift
