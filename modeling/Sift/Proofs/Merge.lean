import Sift.Proofs.Parameters
import Sift.Proofs.Query
import Sift.Proofs.Sql.Meaning

namespace Sift

def held (ps : Named Parameter) (name : String) : Option Value :=
  (ps.get? name).map fun p => Coercion.coerce p.declared p.value

namespace Condition

/-- The single tests of a condition, each with what the parameters that it names hold. -/
def reads (ps : Named Parameter) (c : Condition) : List (Condition × List (Option Value)) :=
  c.tests.map fun t => (t, t.parameterNames.map (held ps))

theorem reads_eq_iff {ps qs : Named Parameter} {c : Condition} :
    c.reads ps = c.reads qs ↔ ∀ name ∈ c.parameterNames, held ps name = held qs name := by
  rw [reads, reads, List.map_inj_left, parameterNames_eq_flatMap]
  constructor
  · intro h name hn
    obtain ⟨t, ht, hn⟩ := List.mem_flatMap.1 hn
    exact List.map_inj_left.1 (Prod.mk.inj (h t ht)).2 name hn
  · intro h t ht
    apply congrArg (Prod.mk t)
    exact List.map_congr_left fun name hn => h name (List.mem_flatMap.2 ⟨t, ht, hn⟩)

def reads? (ps : Named Parameter) (c : Option Condition) : List (Condition × List (Option Value)) :=
  c.toList.flatMap (reads ps)

theorem reads?_eq_iff {ps qs : Named Parameter} {c : Option Condition} :
    reads? ps c = reads? qs c ↔
      ∀ name ∈ c.toList.flatMap parameterNames, held ps name = held qs name := by
  cases c with
  | none => simp [reads?]
  | some c => simpa [reads?] using reads_eq_iff

theorem length_reads? (ps qs : Named Parameter) (c : Option Condition) :
    (reads? ps c).length = (reads? qs c).length := by
  cases c <;> simp [reads?, reads]

theorem tests_conjoin (o : Option Condition) (c : Condition) :
    (conjoin o c).tests = o.toList.flatMap tests ++ c.tests := by
  cases o with
  | none => rfl
  | some e => cases e <;> simp [conjoin, tests, testsAll, testsAll_eq_flatMap]

end Condition

namespace Sql.Context

variable {γ : Type} (m : Engine γ) (x : Context)

def on (ps : Named Parameter) : Context := { x with parameters := ps }

def truth? : Option Condition → Truth
  | none => some true
  | some c => x.truth m c

theorem carried_eq (param : String) : x.carried param = (held x.parameters param).getD .null := by
  rw [carried, held]
  cases x.parameters.get? param <;> rfl

variable {m x}

theorem truthEach_eq_map (cs : List Condition) : x.truthEach m cs = cs.map (x.truth m) := by
  induction cs with
  | nil => rfl
  | cons c cs ih => rw [truthEach, ih, List.map_cons]

mutual

/-- A condition does not depend on parameters that it does not name. -/
theorem truth_congr {ps qs : Named Parameter} {c : Condition}
    (h : ∀ name ∈ c.parameterNames, held ps name = held qs name) :
    (x.on ps).truth m c = (x.on qs).truth m c := by
  have hc : ∀ param ∈ c.parameterNames, (x.on ps).carried param = (x.on qs).carried param := by
    intro param hp
    rw [carried_eq, carried_eq]
    exact congrArg (Option.getD · .null) (h param hp)
  match c with
  | .not inner =>
      rw [Condition.parameterNames] at h
      exact congrArg Truth.not (truth_congr h)
  | .and cs | .or cs =>
      rw [Condition.parameterNames] at h
      exact congrArg (Truth.group _) (truthEach_congr h)
  | .compare _ _ param | .isIn _ param | .like _ param | .regexp _ param =>
      simp only [truth, hc param (List.mem_singleton.2 rfl)]
  | .memberOf param _ =>
      simp only [truth, hc param (List.mem_singleton.2 rfl)]
      rfl
  | .isNull _ | .never => rfl

theorem truthEach_congr {ps qs : Named Parameter} {cs : List Condition}
    (h : ∀ name ∈ Condition.parameterNamesAll cs, held ps name = held qs name) :
    (x.on ps).truthEach m cs = (x.on qs).truthEach m cs := by
  match cs with
  | [] => rfl
  | c :: cs =>
      rw [truthEach, truthEach, truth_congr fun name hn => h name (List.mem_append_left _ hn),
        truthEach_congr fun name hn => h name (List.mem_append_right _ hn)]

end

theorem truth?_congr {ps qs : Named Parameter} {c : Option Condition}
    (h : ∀ name ∈ c.toList.flatMap Condition.parameterNames, held ps name = held qs name) :
    (x.on ps).truth? m c = (x.on qs).truth? m c := by
  cases c with
  | none => rfl
  | some c => exact truth_congr (by simpa using h)

/-- A conjunction with a further member is true if both are. -/
theorem truth?_conjoin (o : Option Condition) (c : Condition) :
    x.truth? m (some (Condition.conjoin o c)) = Truth.join .all (x.truth? m o) (x.truth m c) := by
  have hg (cs : List Condition) : x.truth m (.and cs) = Truth.group .all (cs.map (x.truth m)) := by
    rw [truth, truthEach_eq_map]
  have hs (t : Truth) : Truth.group .all [t] = t := Truth.join_unit .all t
  cases o with
  | none => exact (Truth.unit_join .all _).symm
  | some e =>
      cases e with
      | and cs =>
          rw [Condition.conjoin, truth?, truth?, hg, hg, List.map_append, Truth.group_append]
          exact congrArg _ (hs _)
      | compare | isNull | isIn | like | memberOf | regexp | never | not | or =>
          exact (hg _).trans (congrArg _ (hs _))

end Sql.Context

namespace Selectable

def own (s : Selectable) : Named Parameter := Named.empty.putAll s.bindings

def reads (s : Selectable) : List (Condition × List (Option Value)) := Condition.reads? s.own s.filter

/-- What the last of some compiled criteria that carry a parameter of that name give it. -/
def last? (name : String) : List Selectable → Option Value
  | [] => none
  | s :: ss => last? name ss <|> s.parameters.get? name

theorem map_fst_bindings (s : Selectable) : s.bindings.map Prod.fst = s.parameters.names := by
  rw [bindings, List.map_map]
  rfl

theorem held_putAll (s : Selectable) (ps : Named Parameter) (name : String) :
    held (ps.putAll s.bindings) name = (s.parameters.get? name <|> held ps name) := by
  have hl : s.bindings.lookup name = (s.parameters.get? name).map fun v => ⟨v, none⟩ :=
    Named.lookup_map (fun v => (⟨v, none⟩ : Parameter)) s.parameters.entries name
  rw [held, Named.get?_putAll (s.map_fst_bindings ▸ s.parameters.distinct), hl, held]
  cases s.parameters.get? name <;> rfl

theorem held_own (s : Selectable) (name : String) : held s.own name = s.parameters.get? name := by
  rw [own, held_putAll]
  cases s.parameters.get? name <;> rfl

end Selectable

namespace Query

def reads (q : Query) : List (Condition × List (Option Value)) :=
  Condition.reads? q.parameters q.whereCondition

/-- No parameter that a condition names is taken away from it. What is merged later gives the parameters of the
query no other values. For a filter the last value of a parameter, that of the query if nothing that is merged
carries it, is the one that the filter carries, and there is none if it carries none. -/
structure Keeps (q : Query) (ss : List Selectable) : Prop where
  own : ∀ name ∈ q.whereCondition.toList.flatMap Condition.parameterNames,
    ∀ v ∈ Selectable.last? name ss, held q.parameters name = some v
  passed : ∀ s ∈ ss, ∀ name ∈ s.filter.toList.flatMap Condition.parameterNames,
    (Selectable.last? name ss <|> held q.parameters name) = s.parameters.get? name

theorem held_merged (q : Query) (ss : List Selectable) (name : String) :
    held (ss.foldl addSelectable q).parameters name =
      (Selectable.last? name ss <|> held q.parameters name) := by
  induction ss generalizing q with
  | nil => rfl
  | cons s ss ih =>
      rw [List.foldl_cons, ih, addSelectable_eq, s.held_putAll, Selectable.last?]
      cases Selectable.last? name ss <;> rfl

theorem reads?_merged (ps : Named Parameter) (q : Query) (ss : List Selectable) :
    Condition.reads? ps (ss.foldl addSelectable q).whereCondition =
      Condition.reads? ps q.whereCondition ++ ss.flatMap fun s => Condition.reads? ps s.filter := by
  induction ss generalizing q with
  | nil => simp
  | cons s ss ih =>
      rw [List.foldl_cons, ih, addSelectable_eq, List.flatMap_cons, ← List.append_assoc]
      apply congrArg (· ++ _)
      cases s.filter with
      | none => simp [Condition.reads?]
      | some c =>
          simp only [Condition.reads?, Option.toList_some, List.flatMap_singleton, Condition.reads,
            Condition.tests_conjoin, List.map_append, List.map_flatMap]
          rfl

variable {γ : Type}

/-- Merging conjoins the filters. All of them are then tested with the same parameters. -/
theorem truth?_merged (m : Sql.Engine γ) (x : Sql.Context) (q : Query) (ss : List Selectable) :
    x.truth? m (ss.foldl addSelectable q).whereCondition =
      Truth.group .all (x.truth? m q.whereCondition :: ss.map fun s => x.truth? m s.filter) := by
  induction ss generalizing q with
  | nil => exact (Truth.join_unit .all _).symm
  | cons s ss ih =>
      have hs : x.truth? m (q.addSelectable s).whereCondition =
          Truth.join .all (x.truth? m q.whereCondition) (x.truth? m s.filter) := by
        rw [addSelectable_eq]
        cases s.filter with
        | none => exact (Truth.join_unit .all _).symm
        | some c => exact Sql.Context.truth?_conjoin _ _
      rw [List.foldl_cons, ih, List.map_cons, Truth.group_cons, Truth.group_cons, Truth.group_cons, hs,
        Truth.join_assoc]

theorem flatMap_eq_iff {α β : Type} {l : List α} {f g : α → List β}
    (hl : ∀ a, (f a).length = (g a).length) : l.flatMap f = l.flatMap g ↔ ∀ a ∈ l, f a = g a := by
  induction l with
  | nil => simp
  | cons a l ih =>
      rw [List.flatMap_cons, List.flatMap_cons, List.forall_mem_cons, ← ih]
      constructor
      · exact fun h => List.append_inj h (hl a)
      · rintro ⟨ha, h⟩
        rw [ha, h]

/-- In the end each condition reads what it reads with its own parameters. -/
theorem keeps_iff {q : Query} {ss : List Selectable} :
    q.Keeps ss ↔
      (∀ name ∈ q.whereCondition.toList.flatMap Condition.parameterNames,
        held (ss.foldl addSelectable q).parameters name = held q.parameters name) ∧
      ∀ s ∈ ss, ∀ name ∈ s.filter.toList.flatMap Condition.parameterNames,
        held (ss.foldl addSelectable q).parameters name = held s.own name := by
  have hq (name : String) :
      (Selectable.last? name ss <|> held q.parameters name) = held q.parameters name ↔
        ∀ v ∈ Selectable.last? name ss, held q.parameters name = some v := by
    cases Selectable.last? name ss with
    | none => simp
    | some v => simp [eq_comm]
  simp only [held_merged, Selectable.held_own, hq]
  exact ⟨fun h => ⟨h.own, h.passed⟩, fun h => ⟨h.1, h.2⟩⟩

theorem reads_merged_iff (q : Query) (ss : List Selectable) :
    (ss.foldl addSelectable q).reads = q.reads ++ ss.flatMap Selectable.reads ↔ q.Keeps ss := by
  have hf : (ss.flatMap fun s => Condition.reads? (ss.foldl addSelectable q).parameters s.filter) =
      ss.flatMap Selectable.reads ↔
        ∀ s ∈ ss, Condition.reads? (ss.foldl addSelectable q).parameters s.filter = s.reads :=
    flatMap_eq_iff fun s => Condition.length_reads? _ _ _
  simp only [Selectable.reads, Condition.reads?_eq_iff] at hf
  rw [keeps_iff, reads, reads?_merged, reads, ← Condition.reads?_eq_iff, ← hf]
  constructor
  · intro h
    exact List.append_inj h (Condition.length_reads? _ _ _)
  · rintro ⟨hw, hs⟩
    rw [hw, hs]

/-- Compiled criteria that are merged into a query are conjoined with its condition. Each single test then reads
the parameters that its own filter carries if and only if no parameter is taken away from a filter that names
it. In that case the condition is true if the condition of the query and all filters are, each with its own
parameters. -/
theorem merged_keeps_iff (q : Query) (ss : List Selectable) :
    ((ss.foldl addSelectable q).reads = q.reads ++ ss.flatMap Selectable.reads ↔ q.Keeps ss) ∧
      ∀ {γ : Type} (m : Sql.Engine γ) (x : Sql.Context),
        (∀ ps, (x.on ps).truth? m (ss.foldl addSelectable q).whereCondition =
          Truth.group .all ((x.on ps).truth? m q.whereCondition ::
            ss.map fun s => (x.on ps).truth? m s.filter)) ∧
        (q.Keeps ss →
          (x.on (ss.foldl addSelectable q).parameters).truth? m (ss.foldl addSelectable q).whereCondition =
            Truth.group .all ((x.on q.parameters).truth? m q.whereCondition ::
              ss.map fun s => (x.on s.own).truth? m s.filter)) := by
  refine ⟨reads_merged_iff q ss, ?_⟩
  intro γ m x
  refine ⟨fun ps => truth?_merged m (x.on ps) q ss, ?_⟩
  intro hk
  obtain ⟨hw, hs⟩ := keeps_iff.1 hk
  rw [truth?_merged, Sql.Context.truth?_congr hw]
  apply congrArg (Truth.group .all <| _ :: ·)
  exact List.map_congr_left fun s hm => Sql.Context.truth?_congr (hs s hm)

def byName (op : Comparator) (param s : String) : Selectable :=
  (Selectable.empty.andWhere (.compare (.plain rootSource "name") op param)).parameter param (.text s)

def ada : Sql.Engine Table.Cell := .cells (fun _ _ => .text "Ada") (fun _ _ _ => .null) fun _ _ _ _ => []

def blankContext : Sql.Context := ⟨.empty, .sqlite, Named.empty, Named.empty⟩

theorem merged_keeps_iff_names :
    let q := (select "Musician" rootSource none).addSelectable (byName .gt "a" "A")
    let ss := [byName .eq "b" "Ada", byName .lt "c" "B", byName .gte "b" "Ada"]
    q.Keeps ss ∧
      (blankContext.on (ss.foldl addSelectable q).parameters).truth? ada
          (ss.foldl addSelectable q).whereCondition =
        Truth.group .all ((blankContext.on q.parameters).truth? ada q.whereCondition ::
          ss.map fun s => (blankContext.on s.own).truth? ada s.filter) := by
  intro q ss
  have hk : q.Keeps ss := by
    refine ⟨?_, ?_⟩
    · intro name hn v hv
      obtain rfl : name = "a" := List.mem_singleton.1 hn
      cases hv
    · intro s hs name hn
      simp only [ss, List.mem_cons, List.not_mem_nil, or_false] at hs
      rcases hs with rfl | rfl | rfl
      · obtain rfl : name = "b" := List.mem_singleton.1 hn
        rfl
      · obtain rfl : name = "c" := List.mem_singleton.1 hn
        rfl
      · obtain rfl : name = "b" := List.mem_singleton.1 hn
        rfl
  exact ⟨hk, ((merged_keeps_iff q ss).2 ada blankContext).2 hk⟩

/-- Of two filters with a parameter of one name the first is tested with the value of the second, and so is the
condition of a query if a filter has a parameter that is called like one of its terms. -/
theorem merged_takes_parameters :
    (let q := select "Musician" rootSource none
      let ss := [byName .eq "p" "Ada", byName .lt "p" "Z"]
      (blankContext.on (ss.foldl addSelectable q).parameters).truth? ada
          (ss.foldl addSelectable q).whereCondition = some false ∧
        Truth.group .all ((blankContext.on q.parameters).truth? ada q.whereCondition ::
          ss.map fun s => (blankContext.on s.own).truth? ada s.filter) = some true) ∧
    ∃ q, compile .musicians [.term "name" (.text "Ada")] [] .entity none none = .ok q ∧
      (let ss := [byName .lt "main_name_0" "Z"]
      (blankContext.on (ss.foldl addSelectable q).parameters).truth? ada
          (ss.foldl addSelectable q).whereCondition = some false ∧
        Truth.group .all ((blankContext.on q.parameters).truth? ada q.whereCondition ::
          ss.map fun s => (blankContext.on s.own).truth? ada s.filter) = some true) := by
  refine ⟨⟨rfl, rfl⟩, _, rfl, rfl, rfl⟩

end Query

end Sift
