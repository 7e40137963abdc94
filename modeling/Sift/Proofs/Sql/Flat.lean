import Sift.Proofs.Sql.Render
import Sift.Proofs.Sql.Writer

namespace Sift.Sql

namespace Context

variable {ι : Type} {x : Context} {c : ι → Condition} {e : ι → Expr} {l : List ι}

theorem toExprs_leaves (es : List Expr) : Filter.toExprs (es.map .leaf) = es := by
  induction es with
  | nil => rfl
  | cons e es ih => rw [List.map_cons, Filter.toExprs, ih]; rfl

theorem filters_leaves (h : ∀ i ∈ l, x.filter (c i) = .ok (.leaf (e i))) :
    x.filters (l.map c) = .ok ((l.map e).map .leaf) := by
  induction l with
  | nil => rfl
  | cons i l ih =>
      obtain ⟨hi, hl⟩ := List.forall_mem_cons.1 h
      rw [List.map_cons, filters, hi, ih hl]
      rfl

theorem toExpr_all_leaves (e : Expr) (es : List Expr) :
    (Filter.group false .all ((e :: es).map .leaf)).toExpr = es.foldl .and e := by
  rw [Filter.toExpr, toExprs_leaves]
  rfl

theorem expr?_and (hl : l ≠ []) (h : ∀ i ∈ l, x.filter (c i) = .ok (.leaf (e i))) :
    x.expr? (some (.and (l.map c))) = .ok (Expr.conj? (l.map e)) := by
  have hf := filters_leaves h
  cases l with
  | nil => exact absurd rfl hl
  | cons i l =>
      rw [expr?, expr, List.map_cons, filter, ← List.map_cons, hf]
      · exact congrArg (fun e => Except.ok (some e)) (toExpr_all_leaves (e i) (l.map e))
      · simp

theorem expr?_single {c : Condition} {e : Expr} (h : x.filter c = .ok (.leaf e)) :
    x.expr? (some c) = .ok (some e) := by
  rw [expr?, expr, h]
  rfl

end Context

def Statement.of (counted : Bool) (s : Select) : Statement := if counted then .countOf s else .rows s

def Select.all (table name : String) : Select :=
  { items := [], table, name, joins := [], filter := none, groupBy := [], having := none, orderBy := []
    limit := none, offset := none }

def flat (d : Dialect) (q : Query) (root : Entity) : Except SqlError (Bool × Select) :=
  let base := Select.all root.table q.root
  match q.projection, root.identifier with
  | .count, [] => .error (.missingIdentifier root.name)
  | .count, [identifier] => .ok (false, { base with items := [.countDistinct q.root identifier] })
  | .count, identifiers => .ok (true, { base with
      items := identifiers.map (.column q.root), groupBy := identifiers.map fun i => (q.root, i) })
  | .entity, _ => .ok (false, { base with
      items := entityItems q root, groupBy := groupItems q root, orderBy := orderItems q
      limit := limitOf d q, offset := q.firstResult })

theorem render_flat {schema : Schema} {d : Dialect} {q : Query} {filter : Option Expr} (hj : q.joins = [])
    (hh : q.havingCondition = none)
    (hf : ∀ sources, Context.expr? ⟨schema, d, q.parameters, sources⟩ q.whereCondition = .ok filter) :
    render schema d q = (schema.require q.entity).bind fun root =>
      (flat d q root).map fun s => Statement.of s.1 { s.2 with filter } := by
  apply congrArg (Except.bind _)
  funext root
  rw [hj]
  change (Context.expr? ⟨schema, d, q.parameters, Named.empty.put q.root root⟩ q.whereCondition).bind _ = _
  rw [hf]
  cases hp : q.projection with
  | entity =>
      simp only [Except.bind, flat, hp, hh]
      rfl
  | count =>
      simp only [Except.bind, flat, hp, countStatement, hh]
      cases root.identifier with
      | nil => rfl
      | cons identifier identifiers => cases identifiers <;> rfl

def prepared (d : Dialect) (s : Statement) : Prepared :=
  ⟨d.prepare (d.statement s), Piece.values (d.statement s)⟩

theorem build_flat {schema : Schema} {d : Dialect} {q : Query} {filter : Option Expr} (hj : q.joins = [])
    (hh : q.havingCondition = none)
    (hf : ∀ sources, Context.expr? ⟨schema, d, q.parameters, sources⟩ q.whereCondition = .ok filter) :
    build schema d q = ((schema.require q.entity).bind (flat d q)).map fun s =>
      prepared d (Statement.of s.1 { s.2 with filter }) := by
  rw [build, render_flat hj hh hf]
  cases schema.require q.entity with
  | error e => rfl
  | ok root =>
      change ((flat d q root).map _).bind _ = (flat d q root).map _
      cases flat d q root <;> rfl

theorem values_of (d : Dialect) (counted : Bool) (s : Select) :
    Piece.values (d.statement (Statement.of counted s)) = Piece.values (d.select s) := by
  cases counted with
  | false => exact d.values_statement_rows s
  | true => exact d.values_statement_countOf s

/-- Two such queries that differ in condition and parameters fail alike. They are the same statement with
the same values if their filters are the same, and only if their filters have the same values. -/
theorem build_flat_eq {schema : Schema} {d : Dialect} {q : Query} {w w' : Option Condition}
    {ps ps' : Named Parameter} {filter filter' : Option Expr} (hj : q.joins = [])
    (hh : q.havingCondition = none)
    (hf : ∀ sources, Context.expr? ⟨schema, d, ps, sources⟩ w = .ok filter)
    (hf' : ∀ sources, Context.expr? ⟨schema, d, ps', sources⟩ w' = .ok filter') :
    (∀ e, build schema d { q with whereCondition := w, parameters := ps } = .error e ↔
      build schema d { q with whereCondition := w', parameters := ps' } = .error e) ∧
    (filter = filter' → build schema d { q with whereCondition := w, parameters := ps } =
      build schema d { q with whereCondition := w', parameters := ps' }) ∧
    (build schema d { q with whereCondition := w, parameters := ps } =
        build schema d { q with whereCondition := w', parameters := ps' } →
      (∃ e, build schema d { q with whereCondition := w', parameters := ps' } = .error e) ∨
        filter.toList.flatMap d.values = filter'.toList.flatMap d.values) := by
  have hb : build schema d { q with whereCondition := w, parameters := ps } =
      ((schema.require q.entity).bind (flat d q)).map fun s =>
        prepared d (Statement.of s.1 { s.2 with filter }) :=
    build_flat (q := { q with whereCondition := w, parameters := ps }) hj hh hf
  have hb' : build schema d { q with whereCondition := w', parameters := ps' } =
      ((schema.require q.entity).bind (flat d q)).map fun s =>
        prepared d (Statement.of s.1 { s.2 with filter := filter' }) :=
    build_flat (q := { q with whereCondition := w', parameters := ps' }) hj hh hf'
  rw [hb, hb']
  cases (schema.require q.entity).bind (flat d q) with
  | error e => exact ⟨fun _ => Iff.rfl, fun _ => rfl, fun _ => .inl ⟨e, rfl⟩⟩
  | ok s =>
      refine ⟨fun e => by simp [Except.map], fun h => by rw [h], ?_⟩
      intro h
      apply Or.inr
      have hv := congrArg Prepared.values (Except.ok.inj h)
      obtain ⟨before, after, hs⟩ := d.values_select s.2
      simp only [prepared, values_of, hs] at hv
      exact List.append_cancel_right (List.append_cancel_left hv)

end Sift.Sql
