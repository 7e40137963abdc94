import Sift.Proofs.Parameters
import Sift.Proofs.Query
import Sift.Proofs.Shape.Criteria

namespace Sift

open Sift.Except (Agree agree_bind agree_foldlM)

variable {wildcards : Bool}

namespace Criterion

variable {c d : Criterion} (h : c.Alike wildcards d)

include h

theorem Alike.field : c.field = d.field := by
  cases h
  rfl

theorem Alike.junctors : c.junctors = d.junctors := by
  cases h
  rfl

theorem Alike.condition_compile {s : Scope} (hs : s.wildcards = wildcards) :
    (s.compile c).condition = (s.compile d).condition := by
  cases h with
  | @mk v w hv hc =>
      have ht : (s.test c).condition = (s.test { c with value := w.raw }).condition := by
        rw [s.condition_test, s.condition_test, hc, hs, hv.shape, hv.and_isPattern]
        rfl
      rw [Scope.compile, Scope.compile, ht]

theorem Alike.binds : c.binds = d.binds := by
  cases h with
  | mk hv hc => rw [Criterion.binds, Criterion.binds, hc, Value.binds_eq, Value.binds_eq, hv.shape]

end Criterion

namespace Group

theorem term_congr {leaf : Criterion → Condition} {leaf' : Criterion → Condition} {c d : Criterion}
    (hf : c.field = d.field) (hj : c.junctors = d.junctors) (hl : leaf c = leaf' d) (s : Stack) :
    s.term leaf c = s.term leaf' d := by
  rw [Stack.term, Stack.term, hf, hj, hl]

theorem build_congr {leaf leaf' : Criterion → Condition} {cs ds : List Criterion}
    (h : List.Forall₂ (fun c d => c.field = d.field ∧ c.junctors = d.junctors ∧ leaf c = leaf' d) cs ds) :
    build leaf cs = build leaf' ds := by
  have hs (s : Stack) : cs.foldlM (Stack.term leaf) s = ds.foldlM (Stack.term leaf') s := by
    induction h generalizing s with
    | nil => rfl
    | cons hc h ih =>
        obtain ⟨hf, hj, hl⟩ := hc
        rw [List.foldlM_cons, List.foldlM_cons, term_congr hf hj hl]
        exact congrArg (Except.bind _) (funext ih)
  rw [build, build, hs]
  cases h <;> rfl

end Group

namespace Plan

inductive Alike (wildcards : Bool) : Plan → Plan → Prop where
  | mk (p : Plan) {ws hs : List Criterion} (ho : p.options.wildcards = wildcards)
      (hw : List.Forall₂ (Criterion.Alike wildcards) p.whereTerms ws)
      (hh : List.Forall₂ (Criterion.Alike wildcards) p.havingTerms hs) :
      Alike wildcards p { p with whereTerms := ws, havingTerms := hs }

theorem map_field {cs ds : List Criterion} (h : List.Forall₂ (Criterion.Alike wildcards) cs ds) :
    cs.map Criterion.field = ds.map Criterion.field := by
  induction h with
  | nil => rfl
  | cons hc h ih => rw [List.map_cons, List.map_cons, hc.field, ih]

theorem prepare_agree {cs ds : Criteria} (h : cs.Alike ds) (catalog : Catalog) (order : OrderBy) :
    Agree (Alike cs.wildcards) (prepare catalog cs order) (prepare catalog ds order) := by
  apply (Classes.ofCriteria_agree h).bind
  intro p p' hp
  cases hp with
  | @mk ws hs ho hw hh =>
      have hf : Classes.terms { p with whereTerms := ws, havingTerms := hs } = ws ++ hs := rfl
      have hm := map_field (List.rel_append hw hh)
      simp only [hf, ← hm]
      exact .ok (.mk _ ho hw hh)

variable {p p' : Plan} (h : Alike wildcards p p') (catalog : Catalog)

include h

theorem Alike.build {cs ds : List Criterion} (hc : List.Forall₂ (Criterion.Alike wildcards) cs ds) :
    Group.build (p.leaf catalog) cs = Group.build (p'.leaf catalog) ds := by
  cases h with
  | mk ho hw hh =>
      apply Group.build_congr
      exact hc.imp fun c d hcd => ⟨hcd.field, hcd.junctors, hcd.condition_compile ho⟩

theorem Alike.entry {c d : Criterion} (hc : c.Alike wildcards d) :
    Prod.map id Parameter.width (p.entry catalog c) = Prod.map id Parameter.width (p'.entry catalog d) := by
  cases h with
  | mk ho hw hh =>
      cases hc with
      | @mk v w hv hcv =>
          -- a list of patterns is bound as one text, so the lists of both plans are or neither is
          have hs : ((p.scope catalog).carried v.raw).shape = ((p.scope catalog).carried w.raw).shape := by
            have hp : ((p.scope catalog).wildcards && v.raw.isPattern) =
                ((p.scope catalog).wildcards && w.raw.isPattern) := by
              rw [show (p.scope catalog).wildcards = wildcards from ho]
              exact hv.and_isPattern
            rw [Scope.shape_carried, Scope.shape_carried, hp, hv.shape]
          have hn (u : Value) := (p.scope catalog).carried_ne_backed u.raw_ne_backed
          simp only [Plan.entry, Prod.map_apply, Parameter.width, hcv, Coercion.width_coerce _ (hn _)]
          exact congrArg (Prod.mk c.parameterName)
            ((Value.width_eq_of_shape hs).trans (Coercion.width_coerce _ (hn w)).symm)

theorem Alike.bindings {cs ds : List Criterion} (hc : List.Forall₂ (Criterion.Alike wildcards) cs ds) :
    (p.bindings catalog cs).map (Prod.map id Parameter.width) =
      (p'.bindings catalog ds).map (Prod.map id Parameter.width) := by
  induction hc with
  | nil => rfl
  | @cons c d cs ds hc hcs ih =>
      simp only [Plan.bindings] at ih ⊢
      cases hb : c.binds with
      | false =>
          rw [List.filter_cons_of_neg (by simp [hb]), List.filter_cons_of_neg (by simp [← hc.binds, hb]), ih]
      | true =>
          rw [List.filter_cons_of_pos hb, List.filter_cons_of_pos (hc.binds ▸ hb)]
          simp only [List.map_cons, h.entry catalog hc, ih]

end Plan

namespace Query

inductive Alike : Query → Query → Prop where
  | mk (q : Query) {ps : Named Parameter} (h : SameWidths q.parameters ps) :
      Alike q { q with parameters := ps }

theorem Alike.addSelectable {q q' : Query} (h : Alike q q') (s : Selectable) :
    Alike (q.addSelectable s) (q'.addSelectable s) := by
  cases h with
  | mk h =>
      rw [addSelectable_eq, addSelectable_eq]
      exact .mk _ (h.putAll rfl)

theorem Alike.addSelectables {q q' : Query} (h : Alike q q') (ss : List Selectable) :
    Alike (ss.foldl Query.addSelectable q) (ss.foldl Query.addSelectable q') := by
  induction ss generalizing q q' with
  | nil => exact h
  | cons s ss ih => exact ih (h.addSelectable s)

end Query

theorem Plan.Alike.assemble {p p' : Plan} (h : Alike wildcards p p') (catalog : Catalog)
    (projection : Projection) (limit offset : Option Nat) :
    Agree Query.Alike (p.assemble catalog projection limit offset)
      (p'.assemble catalog projection limit offset) := by
  rw [assemble_eq, assemble_eq]
  cases h with
  | @mk ws hs ho hw hh =>
      have h : Alike wildcards p { p with whereTerms := ws, havingTerms := hs } := .mk p ho hw hh
      rw [← h.build catalog hw, ← h.build catalog hh]
      apply agree_bind
      intro w
      apply agree_bind
      intro v
      apply Agree.ok
      exact (Query.Alike.mk _ (SameWidths.putAll rfl (h.bindings catalog (List.rel_append hw hh)))).addSelectables _

namespace Criteria

/-- What is sent for criteria, but for the values beside it. -/
def outline (cs : Criteria) (catalog : Catalog) (order : OrderBy) (projection : Projection)
    (limit offset : Option Nat) (schema : Schema) (d : Sql.Dialect) :
    Except CriteriaError (Except SqlError (String × Nat)) :=
  (Query.compile catalog cs order projection limit offset).map fun q =>
    (Sql.build schema d q).map Sql.Prepared.outline

/-- Criteria that only differ in values, which have the same shapes, fail alike or are sent as the same text
with as many values beside it. -/
theorem outline_eq_of_alike {cs ds : Criteria} (h : cs.Alike ds) (catalog : Catalog) (order : OrderBy)
    (projection : Projection) (limit offset : Option Nat) (schema : Schema) (d : Sql.Dialect) :
    cs.outline catalog order projection limit offset schema d =
      ds.outline catalog order projection limit offset schema d := by
  have hq : Agree Query.Alike (Query.compile catalog cs order projection limit offset)
      (Query.compile catalog ds order projection limit offset) :=
    (Plan.prepare_agree h catalog order).bind fun p p' hp => hp.assemble catalog projection limit offset
  apply hq.map_eq
  intro q q' hqq
  cases hqq with
  | mk hw => exact Sql.outline_build schema d hw

theorem outline_eq_of_alike_musicians :
    let cs (name : String) (a b : Value) (id : Int64) : Criteria :=
      [.options .like, .term "name" (.text name), .term "(|id" (.array [a, b]),
        .criterion { Criterion.plain "id" (.backed (.int id)) with comparator := some .lt }]
    (cs "a%" (.int 1) (.int 2) 3).Alike (cs "x' OR 1 = 1; --_" (.text "2") .null 4) ∧
      (∃ text, (cs "a%" (.int 1) (.int 2) 3).outline .musicians [("name", .asc)] .entity (some 1) none
        Catalog.musicians.schema .postgres = .ok (.ok (text, 5))) ∧
      (cs "a%" (.int 1) (.int 2) 3).outline .musicians [("name", .asc)] .entity (some 1) none
          Catalog.musicians.schema .postgres =
        (cs "x' OR 1 = 1; --_" (.text "2") .null 4).outline .musicians [("name", .asc)] .entity (some 1) none
          Catalog.musicians.schema .postgres := by
  intro cs
  have h : (cs "a%" (.int 1) (.int 2) 3).Alike (cs "x' OR 1 = 1; --_" (.text "2") .null 4) := by
    refine .cons (.options _) (.cons (.term _ ⟨rfl, ?_⟩) (.cons (.term _ ⟨rfl, ?_⟩) (.cons ?_ .nil)))
    · intro _
      decide
    · intro _
      decide
    · exact .criterion _ ⟨rfl, fun _ => rfl⟩ fun _ => rfl
  exact ⟨h, ⟨_, rfl⟩, outline_eq_of_alike h _ _ _ _ _ _ _⟩

end Criteria

end Sift
