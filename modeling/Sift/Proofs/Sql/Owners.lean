import Sift.Proofs.Sql.Sources

namespace Sift

def Schema.Own (s : Schema) : Prop := ∀ key e, s.entity? key = some e → e.name = key

theorem Schema.own_iff {s : Schema} : s.Own ↔ ∀ e ∈ s.entities.entries, e.2.name = e.1 := by
  constructor
  · intro h e he
    exact h e.1 e.2 (Named.get?_eq_some_iff.2 he)
  · intro h key e he
    exact h (key, e) (Named.get?_eq_some_iff.1 he)

structure Knows (schema : Schema) (names : Named String) (found : Named Entity) : Prop where
  named : ∀ source, names.get? source = (found.get? source).map Entity.name
  stored : ∀ source e, found.get? source = some e → schema.entity? e.name = some e

namespace Knows

variable {schema : Schema} {names : Named String} {found : Named Entity}

theorem empty : Knows schema Named.empty Named.empty := ⟨fun _ => rfl, fun _ _ h => by cases h⟩

theorem put {e : Entity} (h : Knows schema names found) (he : schema.entity? e.name = some e)
    (source : String) : Knows schema (names.put source e.name) (found.put source e) := by
  constructor
  · intro n
    rw [Named.get?_put, Named.get?_put, h.named]
    split <;> rfl
  · intro n e' hn
    rw [Named.get?_put] at hn
    split at hn
    · exact Option.some.inj hn ▸ he
    · exact h.stored n e' hn

end Knows

structure Catalog.Own (c : Catalog) : Prop where
  schema : c.schema.Own
  root : c.schema.entity? c.root.name = some c.root

theorem Catalog.Own.entity?_eq {c : Catalog} (h : c.Own) (name : String) :
    c.entity? name = c.schema.entity? name := by
  unfold Catalog.entity?
  split
  · rename_i hn
    rw [hn, h.root]
  · rfl

/-- The rows that stand for the members of a collection are those of its target that point back to the owner,
or the pairs with the owner. -/
def Association.Selects (a : Association) (owner target : Entity) (source : String) (m : Sql.Members) : Prop :=
  m.owner = source ∧ owner.key = .ok m.ownerKey ∧
    match a with
    | .toOne .. => False
    | .toMany _ mappedBy => m.table = target.table ∧ target.key = .ok m.key ∧ m.column = mappedBy
    | .manyToMany _ joinTable sourceColumn targetColumn =>
      m.table = joinTable ∧ m.key = targetColumn ∧ m.column = sourceColumn

/-- What comes of asking for the members of a collection: a subquery on it, if its target is known and there are
identifiers. Neither its source nor the collection itself is unknown. -/
inductive Asks (schema : Schema) (owner : Entity) (a : Association) (source : String) (b : Sql.Bound) :
    Except SqlError Sql.Expr → Prop where
  | members {target : Entity} {m : Sql.Members} (ht : schema.entity? a.target = some target)
      (hm : a.Selects owner target source m) : Asks schema owner a source b (.ok (.inMembers b m))
  | target (ht : schema.entity? a.target = none) :
      Asks schema owner a source b (.error (.unknownEntity a.target))
  | ownerKey (h : owner.identifier = []) : Asks schema owner a source b (.error (.missingIdentifier owner.name))
  | targetKey {target : Entity} (ht : schema.entity? a.target = some target) (h : target.identifier = []) :
      Asks schema owner a source b (.error (.missingIdentifier target.name))

theorem Sql.Context.asks_memberTest (x : Context) {f : FieldRef} {owner : Entity} {a : Association}
    (ho : x.sources.get? f.source = some owner) (ha : owner.associations.get? f.column = some a)
    (hc : a.isCollection = true) (b : Bound) : Asks x.schema owner a f.source b (x.memberTest b f) := by
  cases h : x.memberTest b f with
  | error error =>
      cases stops_memberTest h with
      | source hs => rw [ho] at hs; cases hs
      | association hs ha' =>
          obtain rfl := Option.some.inj (ho.symm.trans hs)
          rw [ha] at ha'
          cases ha'
      | target hs ha' ht =>
          obtain rfl := Option.some.inj (ho.symm.trans hs)
          obtain rfl := Option.some.inj (ha.symm.trans ha')
          exact .target ht
      | ownerKey hs hi =>
          obtain rfl := Option.some.inj (ho.symm.trans hs)
          exact .ownerKey hi
      | targetKey hs ha' ht hi =>
          obtain rfl := Option.some.inj (ho.symm.trans hs)
          obtain rfl := Option.some.inj (ha.symm.trans ha')
          exact .targetKey ht hi
  | ok e =>
      simp only [memberTest, Except.bind_eq_ok, source_eq_ok] at h
      obtain ⟨owner', ho', ownerKey, hk, ⟨a', target⟩, hat, h⟩ := h
      obtain rfl : owner = owner' := Option.some.inj (ho.symm.trans ho')
      obtain ⟨ha', ht⟩ := Schema.association_eq_ok.1 hat
      obtain rfl : a = a' := Option.some.inj (ha.symm.trans ha')
      cases a with
      | toOne => cases hc
      | toMany name mappedBy =>
          obtain ⟨key, htk, h⟩ := Except.bind_eq_ok.1 h
          obtain rfl := Except.pure_eq_ok.1 h
          exact .members ht ⟨rfl, hk, rfl, htk, rfl⟩
      | manyToMany name joinTable sourceColumn targetColumn =>
          obtain rfl := Except.pure_eq_ok.1 h
          exact .members ht ⟨rfl, hk, rfl, rfl, rfl⟩

/-- What planning takes for a collection is one of the entity that is found. -/
theorem Knows.collection {s : Scope} (hc : s.catalog.Own) {found : Named Entity}
    (h : Knows s.catalog.schema s.sources found) (hr : found.get? rootSource = some s.catalog.root)
    {f : FieldRef} (hf : s.isCollection f = true) :
    ∃ owner a, found.get? f.source = some owner ∧ owner.associations.get? f.column = some a ∧
      a.isCollection = true := by
  have ho : ∃ owner, found.get? f.source = some owner ∧ owner.isCollection f.column = true := by
    unfold Scope.isCollection at hf
    split at hf
    · rename_i he
      exact ⟨s.catalog.root, he ▸ hr, hf⟩
    · rw [h.named] at hf
      cases hs : found.get? f.source with
      | none =>
          rw [hs] at hf
          cases hf
      | some owner =>
          rw [hs, Option.map_some, Option.bind_some, hc.entity?_eq, h.stored _ _ hs] at hf
          exact ⟨owner, rfl, hf⟩
  obtain ⟨owner, hs, hi⟩ := ho
  obtain ⟨a, ha, hi⟩ := (Option.any_eq_true _ _).1 hi
  exact ⟨owner, a, hs, ha, hi⟩

namespace Plan

variable {catalog : Catalog} {names : Named String} {done done' : Named Entity × List Sql.TableJoin}

/-- Where a join can be written, planning has found the same entity for it. -/
theorem knows_addSource (hc : catalog.Own) (h : Knows catalog.schema names done.1) {p : Plan} {s : Step}
    (hj : Sql.addJoin catalog.schema done (p.joinOf s) = .ok done') :
    Knows catalog.schema (addSource catalog names s) done'.1 := by
  obtain ⟨parent, a, target, hp, ha, ht, hf⟩ := Sql.addJoin_eq_ok hj
  have he : parent.target? s.association = some a.target := by
    rw [Entity.target?]
    exact congrArg (Option.map Association.target) ha
  have hs : targetOf catalog names s = some target.name := by
    rw [hc.schema _ _ ht, ← he]
    change (names.get? s.parent).bind _ = _
    rw [h.named, show done.1.get? s.parent = some parent from hp]
    change (catalog.entity? parent.name).bind _ = _
    rw [hc.entity?_eq, h.stored _ _ hp]
    rfl
  rw [addSource, hs, hf]
  exact h.put (hc.schema _ _ ht ▸ ht) s.name

theorem knows_addSources (hc : catalog.Own) {p : Plan} {ss : List Step}
    (h : Knows catalog.schema names done.1)
    (hj : (ss.map p.joinOf).foldlM (Sql.addJoin catalog.schema) done = .ok done') :
    Knows catalog.schema (ss.foldl (addSource catalog) names) done'.1 := by
  induction ss generalizing names done with
  | nil =>
      obtain rfl := Except.pure_eq_ok.1 hj
      exact h
  | cons s ss ih =>
      obtain ⟨next, hs, hj⟩ := Except.bind_eq_ok.1 hj
      exact ih (knows_addSource hc h hs) hj

variable {criteria : Criteria} {order : OrderBy} {p : Plan}

theorem knows_of_prepare (hc : catalog.Own) (hp : prepare catalog criteria order = .ok p)
    {sources : Named Entity} {tables : List Sql.TableJoin}
    (hj : (p.joins.map p.joinOf).foldlM (Sql.addJoin catalog.schema)
      (Named.empty.put rootSource catalog.root, []) = .ok (sources, tables)) :
    Knows catalog.schema p.sources sources := by
  rw [sources_of_prepare hp]
  exact knows_addSources hc (Knows.empty.put hc.root rootSource) hj

/-- No join takes the place of the root. -/
theorem name_ne_root (hp : prepare catalog criteria order = .ok p)
    (hm : ∀ path ∈ p.paths order, (Path.associations path).head? ≠ some rootSource) {s : Step}
    (hs : s ∈ p.joins) : s.name ≠ rootSource := by
  obtain ⟨names, association, ⟨path, hpath, rest, hr⟩, rfl⟩ := (joins_of_prepare hp).led s hs
  refine Path.source_ne_root (by simp) ?_
  have hh := hm path hpath
  rw [← hr] at hh
  cases names <;> exact hh

theorem root_found (hp : prepare catalog criteria order = .ok p)
    (hm : ∀ path ∈ p.paths order, (Path.associations path).head? ≠ some rootSource)
    (hj : (p.joins.map p.joinOf).foldlM (Sql.addJoin catalog.schema)
      (Named.empty.put rootSource catalog.root, []) = .ok done) :
    done.1.get? rootSource = some catalog.root := by
  have hn : rootSource ∉ (p.joins.map p.joinOf).map Join.name := by
    intro h
    rw [List.map_map] at h
    obtain ⟨s, hs, he⟩ := List.mem_map.1 h
    exact name_ne_root hp hm hs he
  rw [Sql.get?_addJoins hj hn, Named.get?_put, if_pos rfl]

theorem joins_found (hf : Knows catalog.schema p.sources done.1)
    (hj : (p.joins.map p.joinOf).foldlM (Sql.addJoin catalog.schema)
      (Named.empty.put rootSource catalog.root, []) = .ok done) {j : Join} (h : j ∈ p.joins.map p.joinOf) :
    ∃ e, done.1.get? j.name = some e ∧ j.entity = some e.name ∧ catalog.schema.entity? e.name = some e := by
  have hn : j.name ∈ done.1.names := (Sql.mem_names_addJoins hj j.name).2 (.inr (List.mem_map_of_mem h))
  obtain ⟨s, -, rfl⟩ := List.mem_map.1 h
  cases hg : done.1.get? (p.joinOf s).name with
  | none => exact absurd hn (Named.get?_eq_none_iff.1 hg)
  | some e => exact ⟨e, rfl, (hf.named s.name).trans (congrArg (Option.map Entity.name) hg), hf.stored _ _ hg⟩

variable {key : String}

/-- The entity that is found for a join is the one that planning has noted for it, if the entities are stored
by their own names and no path goes by way of what looks like the root. Then the members that terms ask for
are those of collections of the entities that are found, so no source and no association is missed there. -/
theorem written_as_planned (hn : catalog.schema.Own) (hk : catalog.schema.require key = .ok catalog.root)
    (hs : ∀ e ∈ criteria, e.selectable? = none) (hp : prepare catalog criteria order = .ok p)
    (hm : ∀ path ∈ p.paths order, (Path.associations path).head? ≠ some rootSource)
    {projection : Projection} {limit offset : Option Nat} {q : Query}
    (hq : p.assemble catalog projection limit offset = .ok q) {root : Entity}
    (hr : catalog.schema.require q.entity = .ok root) {sources : Named Entity} {tables : List Sql.TableJoin}
    (hj : q.joins.foldlM (Sql.addJoin catalog.schema) (Named.empty.put q.root root, []) =
      .ok (sources, tables)) :
    (∀ j ∈ q.joins, ∃ e, sources.get? j.name = some e ∧ j.entity = some e.name ∧
        catalog.schema.entity? e.name = some e) ∧
      ∀ param f, .memberOf param f ∈ q.tests → ∃ owner a, sources.get? f.source = some owner ∧
        owner.associations.get? f.column = some a ∧ a.isCollection = true ∧
        ∀ d b, Asks catalog.schema owner a f.source b
          (Sql.Context.memberTest ⟨catalog.schema, d, q.parameters, sources⟩ b f) := by
  have he := Schema.require_eq_ok.1 hk
  have hc : catalog.Own := ⟨hn, (hn _ _ he).symm ▸ he⟩
  obtain ⟨w, v, hw, hv, rfl⟩ := assemble_eq_assembled hs hp hq
  obtain rfl : root = catalog.root := Option.some.inj ((Schema.require_eq_ok.1 hr).symm.trans hc.root)
  have hf := knows_of_prepare hc hp hj
  refine ⟨fun j => joins_found hf hj, ?_⟩
  intro param f hmf
  obtain ⟨c, -, rfl, hi⟩ := mem_tests_assembled hw hv hmf
  obtain ⟨owner, a, ho, ha, hca⟩ := Knows.collection (s := p.scope catalog) hc hf (root_found hp hm hj) hi
  refine ⟨owner, a, ho, ha, hca, ?_⟩
  intro d b
  exact Sql.Context.asks_memberTest ⟨catalog.schema, d, _, sources⟩ ho ha hca b

end Plan

def Entity.band : Entity :=
  ⟨"Band", "bands", ["id"], Named.ofList [("name", .string)],
    Named.ofList [("genres", .manyToMany "Genre" "band_genre" "band_id" "genre_id")]⟩

def Entity.genre : Entity := ⟨"Genre", "genres", ["id"], Named.ofList [("name", .string)], Named.empty⟩

def Catalog.bands : Catalog :=
  let root := { Entity.musician with associations := Named.ofList [("band", .toOne "Band" "band_id")] }
  ⟨((Schema.empty.add "Musician" root).add "Band" .band).add "Genre" .genre, root⟩

namespace Plan

theorem written_as_planned_genres :
    let catalog := Catalog.bands
    let criteria : Criteria := [.term "band.genres" (.int 3), .term "(|band.genres.name" (.text "dub")]
    ∃ p q sources tables, prepare catalog criteria [("name", .asc)] = .ok p ∧
      p.assemble catalog .entity none none = .ok q ∧
      q.joins.foldlM (Sql.addJoin catalog.schema) (Named.empty.put q.root catalog.root, []) =
        .ok (sources, tables) ∧
      q.joins.map Join.name = ["band", "band_genres"] ∧
      (∀ j ∈ q.joins, ∃ e, sources.get? j.name = some e ∧ j.entity = some e.name ∧
        catalog.schema.entity? e.name = some e) ∧
      .memberOf "band_genres_0" (.plain "band" "genres") ∈ q.tests ∧
      ∃ owner a, sources.get? "band" = some owner ∧ owner.associations.get? "genres" = some a ∧
        a.isCollection = true ∧ ∀ d b, Asks catalog.schema owner a "band" b
          (Sql.Context.memberTest ⟨catalog.schema, d, q.parameters, sources⟩ b (.plain "band" "genres")) := by
  intro catalog criteria
  have hn : catalog.schema.Own := Schema.own_iff.2 (by decide)
  have hs : ∀ e ∈ criteria, e.selectable? = none := by
    simp [criteria, Entry.selectable?]
  obtain ⟨p, q, sources, tables, hp, hq, hr, hj, hm, hi, ht⟩ : ∃ p q sources tables,
      prepare catalog criteria [("name", .asc)] = .ok p ∧ p.assemble catalog .entity none none = .ok q ∧
      catalog.schema.require q.entity = .ok catalog.root ∧
      q.joins.foldlM (Sql.addJoin catalog.schema) (Named.empty.put q.root catalog.root, []) =
        .ok (sources, tables) ∧
      (∀ path ∈ p.paths [("name", .asc)], (Path.associations path).head? ≠ some rootSource) ∧
      q.joins.map Join.name = ["band", "band_genres"] ∧
      q.tests = [.memberOf "band_genres_0" (.plain "band" "genres"),
        .compare (.plain "band_genres" "name") .eq "band_genres_name_1"] :=
    ⟨_, _, _, _, rfl, rfl, rfl, rfl, by decide +kernel, by decide +kernel, by rfl⟩
  obtain ⟨he, hc⟩ :=
    @written_as_planned catalog criteria _ _ "Musician" hn rfl hs hp hm _ _ _ _ hq _ hr _ _ hj
  have hmem : .memberOf "band_genres_0" (.plain "band" "genres") ∈ q.tests := by simp [ht]
  exact ⟨p, q, sources, tables, hp, hq, hj, hi, he, hmem, hc _ _ hmem⟩

end Plan

end Sift
