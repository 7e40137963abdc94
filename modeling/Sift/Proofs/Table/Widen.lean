import Sift.Proofs.Table.Program

namespace Sift.Table

namespace Scope

structure Widens (x y : Scope) : Prop where
  db : y.db = x.db
  sources : x.sources <+: y.sources

variable {x y : Scope} {source : Option String} {column : String} {s s' : Slot}

theorem slot_eq_ok :
    x.slot source column = .ok s ↔
      (x.candidates source).filterMap (fun c => (place? c.1.columns column).map (Slot.mk c.2)) = [s] := by
  rw [slot]
  generalize List.filterMap _ (x.candidates source) = found
  rcases found with _ | ⟨a, _ | ⟨b, rest⟩⟩
  · simp
  · rw [Except.ok.injEq, List.singleton_inj]
  · simp

theorem source_lt (h : x.slot source column = .ok s) : s.source < x.sources.length := by
  have hm := List.mem_singleton_self s
  rw [← slot_eq_ok.1 h] at hm
  obtain ⟨⟨a, i⟩, hc, hs⟩ := List.mem_filterMap.1 hm
  obtain ⟨k, -, rfl⟩ := Option.map_eq_some_iff.1 hs
  simpa using List.snd_lt_of_mem_zipIdx (List.mem_of_mem_filter hc)

/-- A source that comes first is found without those that come after it. -/
theorem Widens.slot_of_lt (h : x.Widens y) (hy : y.slot source column = .ok s) (hs : s.source < x.sources.length) :
    x.slot source column = .ok s := by
  obtain ⟨more, hm⟩ := h.sources
  rw [slot_eq_ok] at hy ⊢
  rw [candidates, ← hm, List.zipIdx_append, List.filter_append, List.filterMap_append, ← candidates] at hy
  rcases List.append_eq_singleton_iff.1 hy with ⟨-, hr⟩ | ⟨hl, -⟩
  · have hmem := List.mem_singleton_self s
    rw [← hr] at hmem
    obtain ⟨⟨a, i⟩, hc, hs'⟩ := List.mem_filterMap.1 hmem
    obtain ⟨k, -, rfl⟩ := Option.map_eq_some_iff.1 hs'
    have hi := List.le_snd_of_mem_zipIdx (List.mem_of_mem_filter hc)
    dsimp only at hi hs
    omega
  · exact hl

/-- What one source has alone is not looked for in others. -/
theorem Widens.slot_eq (h : x.Widens y) (hx : x.slot source column = .ok s)
    (hy : y.slot source column = .ok s') : s' = s := by
  obtain ⟨more, hm⟩ := h.sources
  rw [slot_eq_ok] at hx hy
  rw [candidates, ← hm, List.zipIdx_append, List.filter_append, List.filterMap_append, ← candidates, hx,
    List.singleton_append] at hy
  exact (List.cons.inj hy).1.symm

theorem Widens.phrase_eq (h : x.Widens y) {aggregates : Bool} {p : Phrase} {t t' : Term}
    (hx : x.phrase aggregates p = .ok t) (hy : y.phrase aggregates p = .ok t') : t' = t := by
  match p with
  | .column source name =>
      obtain ⟨s, hs, rfl⟩ := Except.map_eq_ok.1 hx
      obtain ⟨s', hs', rfl⟩ := Except.map_eq_ok.1 hy
      rw [h.slot_eq hs hs']
  | .literal c | .call f distinct none => exact Except.ok.inj (hy.symm.trans hx)
  | .call f distinct (some arg) =>
      obtain ⟨u, hu, hx⟩ := Except.bind_eq_ok.1 hx
      obtain ⟨u', hu', hy⟩ := Except.bind_eq_ok.1 hy
      rw [h.phrase_eq hu hu', hx] at hy
      exact (Except.ok.inj hy).symm

theorem Widens.members_eq (h : x.Widens y) {m : Sql.Members} {r r' : List (Cell × Cell) × Slot}
    (hx : x.members m = .ok r) (hy : y.members m = .ok r') : r' = r := by
  unfold members at hx hy
  rw [h.db] at hy
  cases ht : x.db.table? m.table with
  | none =>
      rw [ht] at hx
      cases hx
  | some t =>
      rw [ht] at hx hy
      -- the rows of the members are read in a scope of their own
      obtain ⟨key, hk, hx⟩ := Except.bind_eq_ok.1 hx
      obtain ⟨link, hl, hx⟩ := Except.bind_eq_ok.1 hx
      obtain ⟨owner, ho, hx⟩ := Except.bind_eq_ok.1 hx
      obtain ⟨key', hk', hy⟩ := Except.bind_eq_ok.1 hy
      obtain ⟨link', hl', hy⟩ := Except.bind_eq_ok.1 hy
      obtain ⟨owner', ho', hy⟩ := Except.bind_eq_ok.1 hy
      obtain rfl := Except.pure_eq_ok.1 hx
      obtain rfl := Except.pure_eq_ok.1 hy
      obtain rfl : key = key' := Except.ok.inj (hk.symm.trans hk')
      obtain rfl : link = link' := Except.ok.inj (hl.symm.trans hl')
      rw [h.slot_eq ho ho']

/-- What can be said without further sources means the same with them. -/
theorem Widens.term_eq (h : x.Widens y) {aggregates : Bool} {e : Sql.Expr} {t t' : Term}
    (hx : x.term aggregates e = .ok t) (hy : y.term aggregates e = .ok t') : t' = t := by
  induction e generalizing t t' with
  | column source column =>
      obtain ⟨s, hs, rfl⟩ := Except.map_eq_ok.1 hx
      obtain ⟨s', hs', rfl⟩ := Except.map_eq_ok.1 hy
      rw [h.slot_eq hs hs']
  | template text source column =>
      unfold term at hx hy
      dsimp only at hx hy
      split at hx
      · rename_i p hp
        rw [hp] at hy
        exact h.phrase_eq hx hy
      · cases hx
  | bound b => exact Except.ok.inj (hy.symm.trans hx)
  | compare op left right ihl ihr | and left right ihl ihr | or left right ihl ihr =>
      obtain ⟨l, hl, hx⟩ := Except.bind_eq_ok.1 hx
      obtain ⟨r, hr, hx⟩ := Except.bind_eq_ok.1 hx
      obtain ⟨l', hl', hy⟩ := Except.bind_eq_ok.1 hy
      obtain ⟨r', hr', hy⟩ := Except.bind_eq_ok.1 hy
      rw [ihl hl hl', ihr hr hr', hx] at hy
      exact (Except.ok.inj hy).symm
  | inMembers b m =>
      obtain ⟨⟨pairs, owner⟩, hm, hx⟩ := Except.bind_eq_ok.1 hx
      obtain ⟨r, hm', hy⟩ := Except.bind_eq_ok.1 hy
      rw [h.members_eq hm hm'] at hy
      exact (Except.ok.inj (hx.symm.trans hy)).symm
  | isIn e _ ih | isNull e ih | like e _ ih | «matches» e _ ih | not e ih =>
      obtain ⟨u, hu, hx⟩ := Except.bind_eq_ok.1 hx
      obtain ⟨u', hu', hy⟩ := Except.bind_eq_ok.1 hy
      rw [ih hu hu', hx] at hy
      exact (Except.ok.inj hy).symm

theorem call_of_false {distinct : Bool} {f : String} {t u : Term} (h : call false f distinct (some t) = .ok u) :
    call true f distinct (some t) = .ok u ∧ Aggregate.all.lookup f = none := by
  have hf : ∀ k ∈ Function.all.map Prod.fst, Aggregate.all.lookup k = none := by decide
  simp only [call] at h ⊢
  cases hk : Function.all.lookup f with
  | none =>
      rw [hk] at h
      cases ha : Aggregate.all.lookup f <;> simp [ha] at h
  | some k =>
      rw [hk] at h
      obtain ⟨l, l', hl, -⟩ := List.lookup_eq_some_iff.1 hk
      exact ⟨h, hf f (by simp [hl])⟩

theorem phrase_of_false {p : Phrase} {t : Term} (h : x.phrase false p = .ok t) : x.phrase true p = .ok t := by
  match p with
  | .column .. | .literal _ => exact h
  | .call f distinct none => simp [phrase, call] at h
  | .call f distinct (some arg) =>
      obtain ⟨u, hu, h⟩ := Except.bind_eq_ok.1 h
      obtain ⟨hc, ha⟩ := call_of_false h
      rw [Bool.false_and] at hu
      refine Except.bind_eq_ok.2 ⟨u, ?_, hc⟩
      rw [ha]
      exact phrase_of_false hu

/-- What can be said of single rows can be said of groups. -/
theorem term_of_false {e : Sql.Expr} {t : Term} (h : x.term false e = .ok t) : x.term true e = .ok t := by
  induction e generalizing t with
  | column | bound | inMembers => exact h
  | template text source column =>
      unfold term at h ⊢
      dsimp only at h ⊢
      split at h
      · exact phrase_of_false h
      · cases h
  | compare op left right ihl ihr | and left right ihl ihr | or left right ihl ihr =>
      obtain ⟨l, hl, h⟩ := Except.bind_eq_ok.1 h
      obtain ⟨r, hr, h⟩ := Except.bind_eq_ok.1 h
      exact Except.bind_eq_ok.2 ⟨l, ihl hl, Except.bind_eq_ok.2 ⟨r, ihr hr, h⟩⟩
  | isIn e _ ih | isNull e ih | like e _ ih | «matches» e _ ih | not e ih =>
      obtain ⟨u, hu, h⟩ := Except.bind_eq_ok.1 h
      exact Except.bind_eq_ok.2 ⟨u, ih hu, h⟩

theorem level_call {aggregates distinct : Bool} {f : String} {t t' : Term}
    (h : call aggregates f distinct (some t) = .ok t') :
    t'.level = t.level := by
  simp only [call] at h
  split at h
  · rw [← Except.ok.inj h, Term.level]
  · split at h
    · rw [← Except.ok.inj h, Term.level]
    · cases h
  · cases h

theorem level_phrase {aggregates : Bool} {p : Phrase} {t : Term} (h : x.phrase aggregates p = .ok t) :
    t.level ≤ x.sources.length := by
  match p with
  | .column source name =>
      obtain ⟨s, hs, rfl⟩ := Except.map_eq_ok.1 h
      exact source_lt hs
  | .literal c =>
      rw [← Except.ok.inj h]
      exact Nat.zero_le _
  | .call f distinct none =>
      simp only [phrase, call] at h
      split at h
      · rw [← Except.ok.inj h]
        exact Nat.zero_le _
      · cases h
  | .call f distinct (some arg) =>
      obtain ⟨u, hu, h⟩ := Except.bind_eq_ok.1 h
      rw [level_call h]
      exact level_phrase hu

/-- A term reads the sources that it was found in. -/
theorem level_term {aggregates : Bool} {e : Sql.Expr} {t : Term} (h : x.term aggregates e = .ok t) :
    t.level ≤ x.sources.length := by
  induction e generalizing t with
  | column source column =>
      obtain ⟨s, hs, rfl⟩ := Except.map_eq_ok.1 h
      exact source_lt hs
  | template text source column =>
      unfold term at h
      dsimp only at h
      split at h
      · exact level_phrase h
      · cases h
  | bound b =>
      rw [← Except.ok.inj h]
      exact Nat.zero_le _
  | compare op left right ihl ihr | and left right ihl ihr | or left right ihl ihr =>
      obtain ⟨l, hl, h⟩ := Except.bind_eq_ok.1 h
      obtain ⟨r, hr, h⟩ := Except.bind_eq_ok.1 h
      obtain rfl := Except.pure_eq_ok.1 h
      exact max_le (ihl hl) (ihr hr)
  | inMembers b m =>
      obtain ⟨⟨pairs, owner⟩, hm, h⟩ := Except.bind_eq_ok.1 h
      obtain rfl := Except.pure_eq_ok.1 h
      unfold members at hm
      split at hm
      · obtain ⟨key, -, hm⟩ := Except.bind_eq_ok.1 hm
        obtain ⟨link, -, hm⟩ := Except.bind_eq_ok.1 hm
        obtain ⟨_, ho, hm⟩ := Except.bind_eq_ok.1 hm
        obtain ⟨-, rfl⟩ := Prod.mk.inj (Except.pure_eq_ok.1 hm)
        exact source_lt ho
      · cases hm
  | isIn e _ ih | isNull e ih | like e _ ih | «matches» e _ ih | not e ih =>
      obtain ⟨u, hu, h⟩ := Except.bind_eq_ok.1 h
      obtain rfl := Except.pure_eq_ok.1 h
      rw [Term.level]
      exact ih hu

end Scope

theorem Row.cell_append {r : Row} {s : Slot} (h : s.source < r.length) (more : Row) :
    Row.cell (r ++ more) s = r.cell s := by
  rw [Row.cell, Row.cell, List.getElem?_append_left h]

namespace Term

variable {r : Row} {t : Term}

/-- A term says the same of a longer row if it does not read what is added. -/
theorem value_append (h : t.level ≤ r.length) (more : Row) :
    t.value (.single (r ++ more)) = t.value (.single r) := by
  induction t with
  | slot s | isMember c pairs s => simp only [value, Sql.Group.single, Row.cell_append h more]
  | const c | rowCount => rfl
  | aggregate f distinct t ih =>
      simp only [value, Sql.Group.single, List.mapM_cons, List.mapM_nil]
      rw [← Sql.Group.single, ← Sql.Group.single, ih h]
  | apply _ t ih | isIn t _ ih | isNull t ih | like t _ ih | «matches» t _ ih | not t ih =>
      rw [value, value, ih h]
  | compare _ left right ihl ihr | and left right ihl ihr | or left right ihl ihr =>
      rw [value, value, ihl (le_of_max_le_left h), ihr (le_of_max_le_right h)]

theorem holds_append (h : t.level ≤ r.length) (more : Row) (unknown : Bool) :
    t.holds (.single (r ++ more)) unknown = t.holds (.single r) unknown := by
  induction t generalizing unknown with
  | not t ih => rw [holds, holds, ih h]
  | and left right ihl ihr | or left right ihl ihr =>
      rw [holds, holds, ihl (le_of_max_le_left h), ihr (le_of_max_le_right h)]
  | slot | const | apply | aggregate | rowCount | compare | isIn | isMember | isNull | like | «matches» =>
      simp only [holds, value_append h more]

end Term

end Sift.Table
