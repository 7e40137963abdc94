import Sift.Proofs.Comparison

namespace Sift

namespace Key

variable {key : String} {v : Value} {n : Nat} {c : Criterion}

/-- The number of a term has no part in how its key is read. -/
theorem read_index (h : read key v n = .ok c) (m : Nat) : read key v m = .ok { c with index := m } := by
  simp only [read, Except.bind_eq_ok, Except.pure_eq_ok] at h
  obtain ⟨ops, hr, rfl⟩ := h
  simp only [read, hr]
  rfl

theorem literal_of_read (h : read key v n = .ok c) : c.literal = false := by
  simp only [read, Except.bind_eq_ok, Except.pure_eq_ok] at h
  obtain ⟨ops, -, rfl⟩ := h
  rfl

end Key

/-- Two ways to give one entry. A term may be given as what its key is read as, under any number and with or
without the mark that nothing is bound for it. -/
inductive Entry.Restates : Entry → Entry → Prop where
  | same (e : Entry) : Restates e e
  | built {key : String} {v : Value} {n : Nat} {c : Criterion} (h : Key.read key v n = .ok c) (index : Nat)
      (literal : Bool) : Restates (.term key v) (.criterion { c with index, literal })

namespace Entry.Restates

variable {e e' : Entry} {cs ds : Criteria}

theorem isOptions_eq (h : e.Restates e') : Criteria.isOptions e = Criteria.isOptions e' := by
  cases h <;> rfl

theorem options_eq (h : List.Forall₂ Restates cs ds) : cs.options = ds.options := by
  cases h with
  | nil => rfl
  | @cons e e' cs ds he hl =>
      have ht := Criteria.any_isOptions (fun _ _ => isOptions_eq) hl
      unfold Criteria.options
      rw [List.tail_cons, List.tail_cons, ht]
      cases he with
      | same => cases e <;> rfl
      | built => rfl

/-- What a key is read as has passed the check that awaits it, and has its value unwrapped already. -/
theorem gives_built {key : String} {v : Value} {n : Nat} {c : Criterion} (h : Key.read key v n = .ok c)
    (index : Nat) (literal : Bool) (m : Nat) :
    (criterion { c with index, literal }).Gives m { c with index := m } := by
  have hc : ∀ op ∈ c.comparator, op.check c.field c.value = .ok () := fun op ho =>
    Comparator.check_eq_ok.2 (Criterion.obeys_of_read h op ho)
  have hv : c.value.raw = c.value := by rw [(Key.read_value h).1, Value.raw_raw]
  have hg : (criterion { c with index, literal }).Gives m _ := .criterion _ hc
  rw [hv, ← Key.literal_of_read h] at hg
  exact hg

theorem add_eq (h : e.Restates e') (p : Classes) : p.add e = p.add e' := by
  cases h with
  | same => rfl
  | built hr index literal =>
      rw [Classes.add_of_gives (.term (Key.read_index hr p.nextIndex)),
        Classes.add_of_gives (gives_built hr index literal p.nextIndex)]

end Entry.Restates

namespace Classes

/-- Terms may be given by their keys or as what these are read as, wherever they stand among other entries.
The classes come out the same, with all that they count, or the same is wrong with the criteria. -/
theorem ofCriteria_restates {cs ds : Criteria} (h : List.Forall₂ Entry.Restates cs ds) :
    ofCriteria cs = ofCriteria ds := by
  rw [ofCriteria, ofCriteria, Entry.Restates.options_eq h]
  apply congrArg (Except.bind ds.options)
  funext o
  apply Except.Agree.eq
  refine Except.agree_foldlM ?_ h rfl
  rintro p _ e e' rfl he
  rw [he.add_eq p]
  cases p.add e' with
  | error error => exact .error error
  | ok p' => exact .ok rfl

theorem ofCriteria_restates_groups :
    let cs : Criteria := [.options .like, .term "(|!>=name" (.backed (.text "a")), .selectable .empty,
      .term "(&id@COUNT(%s)" (.int 2), .term ")" (.bool true), .term ")" (.bool true)]
    let named := { Criterion.plain "name" (.text "a") with
      junctors := [.opens .any false], negations := 1, comparator := some .gte }
    let counted := { Criterion.plain "id" (.int 2) with
      junctors := [.opens .all false], groupFunction := some "COUNT(%s)" }
    let ds : Criteria := [.options .like, .criterion { named with index := 7, literal := true }, .selectable .empty,
      .criterion { counted with index := 0, literal := false }, .term ")" (.bool true),
      .criterion { Criterion.closer with index := 5, literal := true }]
    List.Forall₂ Entry.Restates cs ds ∧ ofCriteria cs = ofCriteria ds ∧
      ∃ p, ofCriteria ds = .ok p ∧ p.whereTerms.map Criterion.index = [0, 2] ∧
        p.havingTerms.map Criterion.index = [1, 3] := by
  intro cs named counted ds
  have h : List.Forall₂ Entry.Restates cs ds :=
    .cons (.same _) <| .cons (.built (n := 0) (c := named) rfl 7 true) <| .cons (.same _) <|
      .cons (.built (n := 0) (c := counted) rfl 0 false) <| .cons (.same _) <|
        .cons (.built (n := 0) (c := Criterion.closer) rfl 5 true) .nil
  exact ⟨h, ofCriteria_restates h, _, rfl, rfl, rfl⟩

end Classes

end Sift
