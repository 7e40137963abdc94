import Sift.Path
import Sift.Proofs.Named

namespace Sift

namespace Path

theorem toList_toString_nat (n : Nat) : (toString n).toList = Nat.toDigits 10 n := by
  rw [Nat.toString_eq_repr, Nat.toList_repr]

theorem toString_nat_inj {i j : Nat} (h : (toString i).toList = (toString j).toList) : i = j := by
  rw [toList_toString_nat, toList_toString_nat] at h
  have hn := congrArg (fun ds => Nat.ofDigitChars 10 ds 0) h
  simpa only [Nat.ofDigitChars_ten_toDigits] using hn

theorem isDigit_of_mem_toString {n : Nat} {c : Char} (h : c ∈ (toString n).toList) : c.isDigit = true := by
  rw [toList_toString_nat] at h
  exact Nat.isDigit_of_mem_toDigits (by decide) (by decide) h

theorem underscore_notMem_toString (n : Nat) : '_' ∉ (toString n).toList := fun h => by
  have := isDigit_of_mem_toString h
  contradiction

theorem swap_toString_nat (n : Nat) : Text.swap '.' '_' (toString n).toList = (toString n).toList := by
  have hc : ∀ c ∈ (toString n).toList, (if c = '.' then '_' else c) = id c := by
    intro c hc
    have hd := isDigit_of_mem_toString hc
    have hn : c ≠ '.' := by
      rintro rfl
      contradiction
    exact if_neg hn
  rw [Text.swap, List.map_congr_left hc, List.map_id]

theorem swap_append (m n : Char) (as bs : List Char) :
    Text.swap m n (as ++ bs) = Text.swap m n as ++ Text.swap m n bs :=
  List.map_append

/-- What stands after the last mark is determined by the whole. -/
theorem after_last_inj {m : Char} {as bs cs ds : List Char} (h : as ++ m :: bs = cs ++ m :: ds)
    (hb : m ∉ bs) (hd : m ∉ ds) : bs = ds := by
  rcases List.append_eq_append_iff.1 h with ⟨es, -, he⟩ | ⟨es, -, he⟩
  · rcases List.cons_eq_append_iff.1 he with ⟨-, he⟩ | ⟨fs, -, he⟩
    · exact (List.cons.inj he).2.symm
    · exact absurd (he ▸ List.mem_append_right _ List.mem_cons_self) hb
  · rcases List.cons_eq_append_iff.1 he with ⟨-, he⟩ | ⟨fs, -, he⟩
    · exact (List.cons.inj he).2
    · exact absurd (he ▸ List.mem_append_right _ List.mem_cons_self) hd

theorem toList_parameterName (f : FieldRef) (i : Nat) :
    (parameterName f i).toList =
      Text.swap '.' '_' (f.source ++ "_" ++ f.column).toList ++ '_' :: (toString i).toList := by
  rw [parameterName, String.toList_ofList, String.toList_append, swap_append, swap_toString_nat,
    String.toList_append (s := f.source ++ "_" ++ f.column), swap_append, List.append_assoc]
  rfl

/-- The number of a term stands after the last underscore in the name of its parameter. -/
theorem parameterName_inj {f g : FieldRef} {i j : Nat} (h : parameterName f i = parameterName g j) :
    i = j := by
  have hl := congrArg String.toList h
  rw [toList_parameterName, toList_parameterName] at hl
  exact toString_nat_inj
    (after_last_inj hl (underscore_notMem_toString i) (underscore_notMem_toString j))

theorem length_segments (m : Char) (cs : List Char) : (Text.segments m cs).length = cs.count m + 1 := by
  induction cs with
  | nil => rfl
  | cons c cs ih =>
      by_cases hc : c = m
      · simp [Text.segments, hc, ih]
      · rw [Text.segments, if_neg hc, List.count_cons_of_ne hc, ← ih]
        cases hs : Text.segments m cs with
        | nil => simp [hs] at ih
        | cons part parts => rfl

theorem notMem_of_steps_eq_nil {path : String} (h : steps path = []) : '.' ∉ path.toList := by
  have hl := length_segments '.' path.toList
  generalize hs : ((Text.segments '.' path.toList).map String.ofList).dropLast = names at *
  have hn : names.length = path.toList.count '.' := by
    rw [← hs, List.length_dropLast, List.length_map, hl]
    rfl
  rw [steps, hs] at h
  cases names with
  | nil => exact List.count_eq_zero.1 hn.symm
  | cons name names => cases h

theorem cutLast_of_notMem {m : Char} {cs : List Char} (h : m ∉ cs) : Text.cutLast m cs = none := by
  induction cs with
  | nil => rfl
  | cons c cs ih =>
      rw [List.mem_cons, not_or] at h
      simp [Text.cutLast, ih h.2, Ne.symm h.1]

theorem qualify_of_notMem {path : String} (h : '.' ∉ path.toList) :
    qualify path = .plain rootSource path := by
  rw [qualify, cutLast_of_notMem h]

end Path

namespace Resolution

/-- Joins are never taken away. -/
theorem foldl_putNew_eq_nil {ss : List Step} {joins : Named Step}
    (h : (ss.foldl (fun joins s => joins.putNew s.name s) joins).entries = []) :
    ss = [] ∧ joins.entries = [] := by
  induction ss generalizing joins with
  | nil => exact ⟨rfl, h⟩
  | cons s ss ih => exact absurd (ih h).2 (Named.entries_putNew_ne_nil _ _ _)

theorem addPath_joins_eq_nil {r : Resolution} {path : String} (h : (r.addPath path).joins.entries = []) :
    Path.steps path = [] ∧ r.joins.entries = [] :=
  foldl_putNew_eq_nil h

theorem foldl_addPath_joins_eq_nil {fields : List String} {r : Resolution}
    (h : (fields.foldl addPath r).joins.entries = []) :
    (∀ field ∈ fields, Path.steps field = []) ∧ r.joins.entries = [] := by
  induction fields generalizing r with
  | nil => exact ⟨by simp, h⟩
  | cons field fields ih =>
      obtain ⟨hf, hr⟩ := ih h
      obtain ⟨hs, hj⟩ := addPath_joins_eq_nil hr
      exact ⟨List.forall_mem_cons.2 ⟨hs, hf⟩, hj⟩

theorem addOrdering_joins (r : Resolution) (key : String) (d : Direction) :
    (r.addOrdering key d).joins = (r.addPath key).joins := by
  cases d <;> rfl

theorem foldl_addOrdering_joins_eq_nil {order : OrderBy} {r : Resolution}
    (h : (order.foldl (fun r e => r.addOrdering e.1 e.2) r).joins.entries = []) : r.joins.entries = [] := by
  induction order generalizing r with
  | nil => exact h
  | cons e order ih =>
      have hr := ih h
      rw [addOrdering_joins] at hr
      exact (addPath_joins_eq_nil hr).2

theorem steps_eq_nil_of_resolve {fields : List String} {order : OrderBy}
    (h : (resolve fields order).joins.entries = []) : ∀ field ∈ fields, Path.steps field = [] :=
  (foldl_addPath_joins_eq_nil (foldl_addOrdering_joins_eq_nil h)).1

theorem foldl_addPath_orderBy (fields : List String) (r : Resolution) :
    (fields.foldl addPath r).orderBy = r.orderBy := by
  induction fields generalizing r with
  | nil => rfl
  | cons field fields ih => exact ih (r.addPath field)

theorem foldl_addPath_indexBy (fields : List String) (r : Resolution) :
    (fields.foldl addPath r).indexBy = r.indexBy := by
  induction fields generalizing r with
  | nil => rfl
  | cons field fields ih => exact ih (r.addPath field)

theorem foldl_addOrdering_orderBy (order : OrderBy) (r : Resolution) :
    (order.foldl (fun r e => r.addOrdering e.1 e.2) r).orderBy =
      r.orderBy ++ (order.filter fun e => e.2 ≠ .index).map fun e => (Path.qualify e.1, e.2) := by
  induction order generalizing r with
  | nil => simp
  | cons e order ih =>
      obtain ⟨key, d⟩ := e
      rw [List.foldl_cons, ih]
      cases d <;> simp [addOrdering, addPath]

/-- Nothing is indexed by an ordering that only sorts. -/
theorem indexBy_resolve {order : OrderBy} (h : ∀ e ∈ order, e.2 ≠ .index) (fields : List String) :
    (resolve fields order).indexBy = Named.empty := by
  have ho (r : Resolution) : (order.foldl (fun r e => r.addOrdering e.1 e.2) r).indexBy = r.indexBy := by
    induction order generalizing r with
    | nil => rfl
    | cons e order ih =>
        obtain ⟨key, d⟩ := e
        obtain ⟨hd, hr⟩ := List.forall_mem_cons.1 h
        rw [List.foldl_cons, ih hr]
        cases d with
        | asc | desc => rfl
        | index => exact absurd rfl hd
  rw [resolve, ho, foldl_addPath_indexBy]
  rfl

theorem orderBy_resolve (fields : List String) (order : OrderBy) :
    (resolve fields order).orderBy =
      (order.filter fun e => e.2 ≠ .index).map fun e => (Path.qualify e.1, e.2) := by
  rw [resolve, foldl_addOrdering_orderBy, foldl_addPath_orderBy]
  rfl

end Resolution

end Sift
