import Mathlib.Data.List.Induction
import Mathlib.Data.Set.Function
import Sift.Proofs.Path

namespace Sift.Path

def associations (path : String) : List String :=
  ((Text.segments '.' path.toList).map String.ofList).dropLast

/-- The source that a chain of associations leads to. -/
def source : List String → String
  | [] => rootSource
  | names => "_".intercalate names

def chains (paths : List String) : Set (List String) := {names | ∃ path ∈ paths, names <+: associations path}

def stepTo (names : List String) (association : String) : Step :=
  ⟨source names, association, source (names ++ [association])⟩

theorem source_of_ne_nil {names : List String} (h : names ≠ []) : source names = "_".intercalate names := by
  cases names with
  | nil => exact absurd rfl h
  | cons name names => rfl

theorem source_concat {names : List String} (h : names ≠ []) (association : String) :
    source (names ++ [association]) = source names ++ "_" ++ association := by
  rw [source_of_ne_nil h, source_of_ne_nil (by simp)]
  induction names with
  | nil => exact absurd rfl h
  | cons name names ih =>
      by_cases hn : names = []
      · simp [hn]
      · rw [List.cons_append, String.intercalate_cons_of_ne_nil (by simp), ih hn,
          String.intercalate_cons_of_ne_nil hn]
        simp only [String.append_assoc]

theorem source_singleton (association : String) : source [association] = association := by
  simp [source]

theorem source_singleton_ne {names : List String} (h : names ≠ []) (association : String) :
    source [association] ≠ source (names ++ [association]) := by
  intro he
  have hl := congrArg String.length he
  rw [source_singleton, source_concat h] at hl
  have hu : "_".length = 1 := rfl
  simp only [String.length_append] at hl
  omega

/-- Chains that end alike and lead to one source have come from one source. -/
theorem source_eq_of_concat {names others : List String} {association : String}
    (h : source (names ++ [association]) = source (others ++ [association])) :
    source names = source others := by
  cases names with
  | nil =>
      cases others with
      | nil => rfl
      | cons o os => exact absurd h (source_singleton_ne (by simp) association)
  | cons n ns =>
      cases others with
      | nil => exact absurd h.symm (source_singleton_ne (by simp) association)
      | cons o os =>
          rw [source_concat (by simp), source_concat (by simp)] at h
          have hl := congrArg String.toList h
          simp only [String.toList_append, List.append_assoc] at hl
          exact String.toList_inj.1 (List.append_cancel_right hl)

theorem mem_stepsFrom {done names : List String} {s : Step} :
    s ∈ stepsFrom (source done) done names ↔
      ∃ before association, before ++ [association] <+: names ∧ s = stepTo (done ++ before) association := by
  induction names generalizing done with
  | nil => simp [stepsFrom]
  | cons name names ih =>
      have hs : "_".intercalate (done ++ [name]) = source (done ++ [name]) :=
        (source_of_ne_nil (by simp)).symm
      rw [stepsFrom, hs, List.mem_cons, ih]
      constructor
      · rintro (rfl | ⟨before, association, hp, rfl⟩)
        · exact ⟨[], name, by simp, by simp [stepTo]⟩
        · exact ⟨name :: before, association, by simpa using hp, by simp⟩
      · rintro ⟨before, association, hp, rfl⟩
        cases before with
        | nil =>
            obtain rfl : association = name := by simpa using hp
            exact .inl (by simp [stepTo])
        | cons b before =>
            obtain ⟨rfl, hb⟩ := List.cons_prefix_cons.1 hp
            exact .inr ⟨before, association, hb, by simp⟩

/-- The steps of a path lead along the chains that its own chain begins with. -/
theorem mem_steps {path : String} {s : Step} :
    s ∈ steps path ↔
      ∃ before association, before ++ [association] <+: associations path ∧ s = stepTo before association :=
  @mem_stepsFrom [] _ s

theorem segments_ne_nil (m : Char) (cs : List Char) : Text.segments m cs ≠ [] :=
  List.ne_nil_of_length_pos (by rw [length_segments]; omega)

theorem segments_of_notMem {m : Char} {cs : List Char} (h : m ∉ cs) : Text.segments m cs = [cs] := by
  induction cs with
  | nil => rfl
  | cons c cs ih =>
      rw [List.mem_cons, not_or] at h
      rw [Text.segments, if_neg (Ne.symm h.1), ih h.2]

theorem notMem_of_cutLast {m : Char} {cs : List Char} (h : Text.cutLast m cs = none) : m ∉ cs := by
  induction cs with
  | nil => simp
  | cons c cs ih =>
      cases hc : Text.cutLast m cs with
      | some p => simp [Text.cutLast, hc] at h
      | none =>
          by_cases hm : c = m
          · simp [Text.cutLast, hc, hm] at h
          · rw [List.mem_cons, not_or]
            exact ⟨Ne.symm hm, ih hc⟩

theorem segments_of_cutLast {m : Char} {cs before after : List Char}
    (h : Text.cutLast m cs = some (before, after)) :
    Text.segments m cs = Text.segments m before ++ [after] := by
  induction cs generalizing before with
  | nil => cases h
  | cons c cs ih =>
      cases hc : Text.cutLast m cs with
      | some p =>
          obtain ⟨b, a⟩ := p
          simp only [Text.cutLast, hc, Option.some.injEq, Prod.mk.injEq] at h
          obtain ⟨rfl, rfl⟩ := h
          rw [Text.segments, Text.segments, ih hc]
          split
          · rfl
          · cases hs : Text.segments m b with
            | nil => exact absurd hs (segments_ne_nil m b)
            | cons part parts => rfl
      | none =>
          by_cases hm : c = m
          · simp only [Text.cutLast, hc, hm, if_true, Option.some.injEq, Prod.mk.injEq] at h
            obtain ⟨rfl, rfl⟩ := h
            simp [Text.segments, hm, segments_of_notMem (notMem_of_cutLast hc)]
          · simp [Text.cutLast, hc, hm] at h

theorem swap_eq_intercalate (m n : Char) (cs : List Char) :
    Text.swap m n cs = [n].intercalate (Text.segments m cs) := by
  induction cs with
  | nil => rfl
  | cons c cs ih =>
      cases hs : Text.segments m cs with
      | nil => exact absurd hs (segments_ne_nil m cs)
      | cons part parts =>
          rw [hs] at ih
          rw [Text.segments, hs, Text.swap, List.map_cons, ← Text.swap, ih]
          split
          · rw [List.intercalate_cons_cons]
            rfl
          · cases parts <;> simp

/-- The source of a path is the one that its chain of associations leads to. -/
theorem source_qualify (path : String) : (qualify path).source = source (associations path) := by
  cases hc : Text.cutLast '.' path.toList with
  | none =>
      rw [qualify_of_notMem (notMem_of_cutLast hc), associations,
        segments_of_notMem (notMem_of_cutLast hc)]
      rfl
  | some p =>
      obtain ⟨before, after⟩ := p
      have hn : (Text.segments '.' before).map String.ofList ≠ [] := by
        simpa using segments_ne_nil '.' before
      rw [qualify, hc, associations, segments_of_cutLast hc, List.map_append, List.map_singleton,
        List.dropLast_concat, source_of_ne_nil hn, ← String.toList_inj]
      simp only [FieldRef.plain]
      rw [String.toList_ofList, String.toList_intercalate, List.map_map, swap_eq_intercalate]
      congr 1
      simp

theorem nil_mem_chains {paths names : List String} (h : names ∈ chains paths) : [] ∈ chains paths := by
  obtain ⟨path, hp, -⟩ := h
  exact ⟨path, hp, List.nil_prefix⟩

theorem mem_chains_of_concat {paths names : List String} {association : String}
    (h : names ++ [association] ∈ chains paths) : names ∈ chains paths := by
  obtain ⟨path, hp, hn⟩ := h
  exact ⟨path, hp, (List.prefix_append _ _).trans hn⟩

theorem splitOn_source {names : List String} (hn : names ≠ []) (h : ∀ name ∈ names, '_' ∉ name.toList) :
    (source names).toList.splitOn '_' = names.map String.toList := by
  rw [source_of_ne_nil hn, String.toList_intercalate]
  apply List.splitOn_intercalate
  · simpa using h
  · simpa using hn

theorem source_inj {names others : List String} (hn : names ≠ []) (ho : others ≠ [])
    (h : ∀ name ∈ names, '_' ∉ name.toList) (h' : ∀ name ∈ others, '_' ∉ name.toList)
    (he : source names = source others) : names = others := by
  have hs := splitOn_source hn h
  rw [he, splitOn_source ho h'] at hs
  exact ((List.map_inj_right fun _ _ => String.toList_inj.1).1 hs).symm

/-- Only the chain of its name alone is taken for the root, whose name has no underscore. -/
theorem source_ne_root {names : List String} (hn : names ≠ []) (hr : names.head? ≠ some rootSource) :
    source names ≠ rootSource := by
  cases names using List.reverseRecOn with
  | nil => exact absurd rfl hn
  | append_singleton names association =>
      by_cases he : names = []
      · subst he
        rw [List.nil_append, source_singleton]
        simpa using hr
      · intro hs
        have hu : '_' ∉ rootSource.toList := by decide
        rw [← hs, source_concat he] at hu
        simp at hu

/-- Underscores and the name of the root are all that can confuse chains. -/
theorem injOn_source {paths : List String}
    (h : ∀ path ∈ paths, (associations path).head? ≠ some rootSource ∧
      ∀ name ∈ associations path, '_' ∉ name.toList) : Set.InjOn source (chains paths) := by
  have hc : ∀ names ∈ chains paths,
      names.head? ≠ some rootSource ∧ ∀ name ∈ names, '_' ∉ name.toList := by
    rintro names ⟨path, hp, rest, hr⟩
    obtain ⟨hh, hu⟩ := h path hp
    rw [← hr] at hh hu
    refine ⟨?_, fun name hn => hu name (List.mem_append_left _ hn)⟩
    cases names with
    | nil => simp
    | cons name names => exact hh
  intro names hn others ho he
  obtain ⟨hr, hu⟩ := hc names hn
  obtain ⟨hr', hu'⟩ := hc others ho
  by_cases h1 : names = []
  · by_cases h2 : others = []
    · rw [h1, h2]
    · subst h1
      exact absurd he.symm (source_ne_root h2 hr')
  · by_cases h2 : others = []
    · subst h2
      exact absurd he (source_ne_root h1 hr)
    · exact source_inj h1 h2 hu hu' he

end Sift.Path
