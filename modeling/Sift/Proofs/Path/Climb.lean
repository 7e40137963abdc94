import Sift.Proofs.Parameters
import Sift.Proofs.Path.Chain

namespace Sift

/-- Climbing from a source to the root along the steps that lead there, these associations are met. -/
inductive Climbs (joins : List Step) : String → List String → Prop where
  | root : Climbs joins rootSource []
  | step {s : Step} {names : List String} (hs : s ∈ joins) (hn : s.name ≠ rootSource)
      (h : Climbs joins s.parent names) : Climbs joins s.name (names ++ [s.association])

namespace Climbs

variable {joins : List Step} {name : String} {names others : List String}

theorem concat_inv {association : String} (h : Climbs joins name (names ++ [association])) :
    ∃ s ∈ joins, s.name = name ∧ name ≠ rootSource ∧ s.association = association ∧
      Climbs joins s.parent names := by
  generalize hm : names ++ [association] = met at h
  cases h with
  | root => simp at hm
  | step hs hn h =>
      obtain ⟨rfl, ha⟩ := List.append_inj' hm rfl
      exact ⟨_, hs, rfl, hn, (List.singleton_inj.1 ha).symm, h⟩

theorem nil_inv (h : Climbs joins name []) : name = rootSource := by
  generalize hm : ([] : List String) = met at h
  cases h with
  | root => rfl
  | step => simp at hm

/-- There is one way up if each source has one step that leads there. -/
theorem unique (hd : (joins.map Step.name).Nodup) (h : Climbs joins name names)
    (h' : Climbs joins name others) : names = others := by
  induction h generalizing others with
  | root =>
      cases others using List.reverseRecOn with
      | nil => rfl
      | append_singleton os o =>
          obtain ⟨-, -, -, hn, -, -⟩ := h'.concat_inv
          exact absurd rfl hn
  | @step s names hs hn h ih =>
      cases others using List.reverseRecOn with
      | nil => exact absurd h'.nil_inv hn
      | append_singleton os o =>
          obtain ⟨t, ht, he, -, rfl, hu⟩ := h'.concat_inv
          obtain rfl : t = s := List.inj_on_of_nodup_map hd ht hs he
          rw [ih hu]

end Climbs

namespace Resolution

theorem joins_addPaths (paths : List String) (r : Resolution) :
    (paths.foldl addPath r).joins =
      (paths.flatMap Path.steps).foldl (fun joins s => joins.putNew s.name s) r.joins := by
  induction paths generalizing r with
  | nil => rfl
  | cons path paths ih => rw [List.foldl_cons, ih, List.flatMap_cons, List.foldl_append]; rfl

theorem joins_addOrderings (order : OrderBy) (r : Resolution) :
    (order.foldl (fun r e => r.addOrdering e.1 e.2) r).joins =
      ((order.map Prod.fst).foldl addPath r).joins := by
  rw [joins_addPaths]
  induction order generalizing r with
  | nil => rfl
  | cons e order ih =>
      rw [List.foldl_cons, ih, addOrdering_joins, List.map_cons, List.flatMap_cons, List.foldl_append]
      rfl

def firsts (ss : List Step) : Named Step := ss.foldl (fun joins s => joins.putNew s.name s) Named.empty

theorem firsts_concat (ss : List Step) (s : Step) : firsts (ss ++ [s]) = (firsts ss).putNew s.name s := by
  rw [firsts, List.foldl_append]
  rfl

/-- Further steps come after those there are. -/
theorem firsts_prefix (ss ts : List Step) : (firsts ss).values <+: (firsts (ss ++ ts)).values := by
  induction ts using List.reverseRecOn with
  | nil => exact (List.append_nil ss).symm ▸ List.prefix_rfl
  | append_singleton ts t ih =>
      rw [← List.append_assoc, firsts_concat]
      by_cases hn : t.name ∈ (firsts (ss ++ ts)).names
      · rwa [Named.putNew_of_mem hn]
      · rw [Named.values, Named.values, Named.entries_putNew hn, List.map_append]
        exact ih.trans (List.prefix_append ..)

/-- The steps of all paths are joined in their order, and of those to one source only the first. -/
theorem joins_resolve (fields : List String) (order : OrderBy) :
    (resolve fields order).joins = firsts ((fields ++ order.map Prod.fst).flatMap Path.steps) := by
  rw [resolve, joins_addOrderings, ← List.foldl_append, joins_addPaths]
  rfl

theorem firsts_entries (ss : List Step) :
    (∀ e ∈ (firsts ss).entries, e.2 ∈ ss ∧ e.1 = e.2.name) ∧ ∀ s ∈ ss, s.name ∈ (firsts ss).names := by
  induction ss using List.reverseRecOn with
  | nil => simp [firsts, Named.empty]
  | append_singleton ss s ih =>
      obtain ⟨hf, hn⟩ := ih
      rw [firsts_concat]
      by_cases hs : s.name ∈ (firsts ss).names
      · rw [Named.putNew_of_mem hs]
        refine ⟨fun e he => ⟨List.mem_append_left _ (hf e he).1, (hf e he).2⟩, ?_⟩
        rw [List.forall_mem_append, List.forall_mem_singleton]
        exact ⟨hn, hs⟩
      · rw [Named.names, Named.entries_putNew hs, List.map_append, ← Named.names]
        constructor
        · rw [List.forall_mem_append, List.forall_mem_singleton]
          exact ⟨fun e he => ⟨List.mem_append_left _ (hf e he).1, (hf e he).2⟩, by simp⟩
        · rw [List.forall_mem_append, List.forall_mem_singleton]
          exact ⟨fun t ht => List.mem_append_left _ (hn t ht), by simp⟩

theorem names_firsts (ss : List Step) : (firsts ss).values.map Step.name = (firsts ss).names := by
  rw [Named.values, Named.names, List.map_map]
  exact List.map_congr_left fun e he => ((firsts_entries ss).1 e he).2.symm

structure Joins (paths : List String) (joins : List Step) : Prop where
  distinct : (joins.map Step.name).Nodup
  led : ∀ s ∈ joins, ∃ names association,
    names ++ [association] ∈ Path.chains paths ∧ s = Path.stepTo names association
  reached : ∀ names association, names ++ [association] ∈ Path.chains paths →
    ∃ s ∈ joins, s.name = Path.source (names ++ [association])

theorem joins_values_resolve (fields : List String) (order : OrderBy) :
    Joins (fields ++ order.map Prod.fst) (resolve fields order).joins.values := by
  have hm : ∀ s, s ∈ (fields ++ order.map Prod.fst).flatMap Path.steps ↔ ∃ names association,
      names ++ [association] ∈ Path.chains (fields ++ order.map Prod.fst) ∧
        s = Path.stepTo names association := by
    intro s
    simp only [List.mem_flatMap, Path.mem_steps, Path.chains, Set.mem_ofPred_eq]
    constructor
    · rintro ⟨path, hp, names, association, hc, hs⟩
      exact ⟨names, association, ⟨path, hp, hc⟩, hs⟩
    · rintro ⟨names, association, ⟨path, hp, hc⟩, hs⟩
      exact ⟨path, hp, names, association, hc, hs⟩
  obtain ⟨hf, hn⟩ := firsts_entries ((fields ++ order.map Prod.fst).flatMap Path.steps)
  rw [← joins_resolve] at hf hn
  have hv : (resolve fields order).joins.values.map Step.name = (resolve fields order).joins.names := by
    rw [joins_resolve, names_firsts]
  refine ⟨hv ▸ Named.distinct _, ?_, ?_⟩
  · intro s hs
    obtain ⟨e, he, rfl⟩ := List.mem_map.1 hs
    exact (hm e.2).1 (hf e he).1
  · intro names association hc
    have hs := hn _ ((hm _).2 ⟨names, association, hc, rfl⟩)
    rw [← hv] at hs
    exact List.mem_map.1 hs

variable {paths : List String} {joins : List Step} {names : List String}

theorem climbs_of_injOn (hj : Joins paths joins) (hi : Set.InjOn Path.source (Path.chains paths))
    (hc : names ∈ Path.chains paths) : Climbs joins (Path.source names) names := by
  induction names using List.reverseRecOn with
  | nil => exact .root
  | append_singleton names association ih =>
      obtain ⟨s, hs, hn⟩ := hj.reached names association hc
      -- the step may have been joined for another chain, but that chain would lead to the same source
      obtain ⟨before, last, hb, rfl⟩ := hj.led s hs
      obtain ⟨rfl, hl⟩ := List.append_inj' (hi hb hc hn) rfl
      obtain rfl := List.singleton_inj.1 hl
      refine .step hs ?_ (ih (Path.mem_chains_of_concat hc))
      intro hr
      have he := hi hc (Path.nil_mem_chains hc) hr
      simp at he

/-- Who climbs a chain climbs the chains it begins with, from the sources they lead to. -/
theorem climbs_of_prefix (hj : Joins paths joins) {longer : List String}
    (h : Climbs joins (Path.source longer) longer) (hp : names <+: longer) :
    Climbs joins (Path.source names) names := by
  induction longer using List.reverseRecOn with
  | nil => exact List.prefix_nil.1 hp ▸ .root
  | append_singleton longer association ih =>
      rcases List.prefix_concat_iff.1 hp with rfl | hl
      · exact h
      · obtain ⟨s, hs, hn, -, ha, hu⟩ := h.concat_inv
        obtain ⟨before, last, -, rfl⟩ := hj.led s hs
        obtain rfl : last = association := ha
        -- the chains need not be the same here, only their sources
        have he : Path.source before = Path.source longer := Path.source_eq_of_concat hn
        exact ih (he ▸ hu) hl

theorem climbs_iff_injOn (hj : Joins paths joins) :
    (∀ path ∈ paths, Climbs joins (Path.source (Path.associations path)) (Path.associations path)) ↔
      Set.InjOn Path.source (Path.chains paths) := by
  constructor
  · rintro h names ⟨path, hp, hn⟩ others ⟨path', hp', hn'⟩ he
    have hc := climbs_of_prefix hj (h path hp) hn
    have hc' := climbs_of_prefix hj (h path' hp') hn'
    exact (he ▸ hc).unique hj.distinct hc'
  · intro hi path hp
    exact climbs_of_injOn hj hi ⟨path, hp, List.prefix_rfl⟩

end Resolution

namespace Plan

variable {catalog : Catalog} {criteria : Criteria} {order : OrderBy} {p : Plan}

def paths (p : Plan) (order : OrderBy) : List String := p.terms.map Criterion.field ++ order.map Prod.fst

theorem joins_of_prepare (hp : prepare catalog criteria order = .ok p) :
    Resolution.Joins (p.paths order) p.joins := by
  obtain ⟨-, -, -, -, -, -, -, hj, -⟩ := prepare_eq_ok hp
  rw [hj]
  exact Resolution.joins_values_resolve _ _

/-- Every path of a call leads along the associations it names if and only if no two of the chains that
the paths begin with lead to the same source, the empty chain among them, which leads to the root. That is
so whenever no association has an underscore in its name and no path begins with the name of the root. -/
theorem climbs_paths_iff (hp : prepare catalog criteria order = .ok p) :
    ((∀ path ∈ p.paths order, Climbs p.joins (Path.qualify path).source (Path.associations path)) ↔
      Set.InjOn Path.source (Path.chains (p.paths order))) ∧
    ((∀ path ∈ p.paths order, (Path.associations path).head? ≠ some rootSource ∧
        ∀ name ∈ Path.associations path, '_' ∉ name.toList) →
      ∀ path ∈ p.paths order, Climbs p.joins (Path.qualify path).source (Path.associations path)) := by
  have hi := Resolution.climbs_iff_injOn (joins_of_prepare hp)
  simp only [Path.source_qualify]
  exact ⟨hi, fun h => hi.2 (Path.injOn_source h)⟩

theorem climbs_paths_iff_letters :
    let criteria : Criteria := [.term "project.owner.name" (.int 1), .term "(|project.title" (.int 2)]
    ∃ p, prepare .musicians criteria [("band.name", .asc)] = .ok p ∧
      ∀ path ∈ p.paths [("band.name", .asc)],
        Climbs p.joins (Path.qualify path).source (Path.associations path) := by
  intro criteria
  refine ⟨_, rfl, (@climbs_paths_iff .musicians criteria _ _ rfl).2 ?_⟩
  decide +kernel

/-- Of two chains that lead to the same source only the first is joined, and a chain that leads to the name
of the root is not joined to the root. -/
theorem not_climbs_underscore :
    (∃ p, prepare .musicians [.term "a_b.name" (.int 1), .term "a.b.name" (.int 1)] [] = .ok p ∧
      "a.b.name" ∈ p.paths [] ∧
      ¬ Climbs p.joins (Path.qualify "a.b.name").source (Path.associations "a.b.name")) ∧
    ∃ p, prepare .musicians [.term "main.name" (.int 1)] [] = .ok p ∧ "main.name" ∈ p.paths [] ∧
      ¬ Climbs p.joins (Path.qualify "main.name").source (Path.associations "main.name") := by
  refine ⟨⟨_, rfl, by decide, ?_⟩, ⟨_, rfl, by decide, ?_⟩⟩
  · rw [show Path.associations "a.b.name" = ["a"] ++ ["b"] by decide,
      show (Path.qualify "a.b.name").source = "a_b" by decide]
    intro h
    obtain ⟨s, hs, hn, -, ha, -⟩ := h.concat_inv
    revert s
    decide +kernel
  · rw [show Path.associations "main.name" = [] ++ ["main"] by decide,
      show (Path.qualify "main.name").source = rootSource by decide]
    intro h
    obtain ⟨-, -, -, hn, -⟩ := h.concat_inv
    exact hn rfl

end Plan

end Sift
