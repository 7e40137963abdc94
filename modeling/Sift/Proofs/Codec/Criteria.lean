import Sift.Criteria
import Sift.Proofs.Except
import Sift.Proofs.Named

namespace Sift

namespace Json

theorem putMember_eq_putEntry : putMember = Named.putEntry := by
  funext name j l
  induction l with
  | nil => rfl
  | cons m l ih => rw [putMember, Named.putEntry, ih]

theorem foldl_putMember (t : Named Json) (members : List (String × Json)) :
    members.foldl (fun done m => putMember m.1 m.2 done) t.entries = (t.putAll members).entries := by
  induction members generalizing t with
  | nil => rfl
  | cons m members ih =>
      have he : putMember m.1 m.2 t.entries = (t.put m.1 m.2).entries := by
        rw [putMember_eq_putEntry]
        rfl
      rw [List.foldl_cons, he]
      exact ih (t.put m.1 m.2)

theorem distinct_eq_self {members : List (String × Json)} (h : (members.map Prod.fst).Nodup) :
    distinct members = members := by
  have hp := foldl_putMember Named.empty members
  rwa [Named.entries_putAll (t := Named.empty) h] at hp

end Json

namespace Criteria

inductive Says : String × Json → Entry → Prop where
  | options {j : Json} {o : Options} (h : Options.ofJson? j = some o) : Says (optionsKey, j) (.options o)
  | term {key : String} {j : Json} {v : Value} (hk : key ≠ optionsKey) (h : Value.ofJson j = .ok v) :
      Says (key, j) (.term key v)

structure SaysAll (pairs : List (String × Json)) (cs : Criteria) : Prop where
  entries : List.Forall₂ Says pairs cs
  optionsFirst : ∀ e ∈ cs.tail, isOptions e = false

def alone (pairs : List (String × Json)) : List Json := pairs.map fun p => .object [p]

def items : Json → List (Option String × Json)
  | .object members => members.map fun m => (some m.1, m.2)
  | .array js => js.map fun j => (none, j)
  | _ => []

def Holds (j : Json) (pairs : List (String × Json)) : Prop := (items j).map unwrap = pairs.map .ok

variable {first : Bool} {cs : Criteria} {j : Json} {pairs : List (String × Json)}

theorem Holds.unique {qs : List (String × Json)} (h : Holds j pairs) (h' : Holds j qs) : pairs = qs :=
  List.map_injective_iff.2 (fun _ _ => Except.ok.inj) (h.symm.trans h')

theorem holds_alone (pairs : List (String × Json)) : Holds (.array (alone pairs)) pairs := by
  rw [Holds, items, alone, List.map_map, List.map_map]
  rfl

theorem holds_numbered {numbers : List String} (hl : numbers.length = pairs.length)
    (hn : ∀ n ∈ numbers, isNumbered n = true) : Holds (.object (numbers.zip (alone pairs))) pairs := by
  have hu : ∀ m ∈ numbers.zip (alone pairs), unwrap (some m.1, m.2) = pair m.2 := fun m hm => by
    rw [unwrap, hn m.1 (List.of_mem_zip hm).1, if_pos rfl]
  have hs : (numbers.zip (alone pairs)).map Prod.snd = alone pairs :=
    List.map_snd_zip (by simp [alone, hl])
  rw [Holds, items, List.map_map]
  calc (numbers.zip (alone pairs)).map (unwrap ∘ fun m => (some m.1, m.2))
      = ((numbers.zip (alone pairs)).map Prod.snd).map pair := by
        rw [List.map_map]
        exact List.map_congr_left hu
    _ = pairs.map .ok := by
        rw [hs, alone, List.map_map]
        rfl

theorem holds_named (hn : ∀ p ∈ pairs, isNumbered p.1 = false) : Holds (.object pairs) pairs := by
  rw [Holds, items, List.map_map]
  refine List.map_congr_left fun p hp => ?_
  simp [unwrap, hn p hp]

theorem entriesOf_congr {l m : List (Option String × Json)} (h : l.map unwrap = m.map unwrap)
    (first : Bool) : entriesOf first l = entriesOf first m := by
  induction l generalizing m first with
  | nil =>
      rw [List.map_nil, eq_comm, List.map_eq_nil_iff] at h
      rw [h]
  | cons p l ih =>
      obtain ⟨q, m, rfl, hq, hl⟩ := List.map_eq_cons_iff.1 h.symm
      rw [entriesOf, entriesOf, hq, ih hl.symm]

theorem entryOf_eq_ok_iff {key : String} {e : Entry} :
    entryOf first key j = .ok e ↔ Says (key, j) e ∧ (isOptions e = true → first = true) := by
  unfold entryOf
  constructor
  · intro h
    split at h
    · rename_i hk
      subst hk
      cases first with
      | false => cases h
      | true =>
          rw [if_pos rfl] at h
          split at h
          · rename_i o ho
            cases h
            exact ⟨.options ho, fun _ => rfl⟩
          · cases h
    · rename_i hk
      split at h
      · rename_i v hv
        cases h
        exact ⟨.term hk hv, fun hi => by cases hi⟩
      · cases h
  · rintro ⟨hs, hf⟩
    cases hs with
    | options ho => rw [if_pos rfl, if_pos (hf rfl), ho]
    | term hk hv => rw [if_neg hk, hv]

theorem entriesOf_cons_eq_ok_iff {p : Option String × Json} {l : List (Option String × Json)} :
    entriesOf first (p :: l) = .ok cs ↔ ∃ q e es, unwrap p = .ok q ∧ Says q e ∧
      (isOptions e = true → first = true) ∧ entriesOf false l = .ok es ∧ e :: es = cs := by
  simp only [entriesOf, Except.bind_eq_ok, Except.pure_eq_ok, entryOf_eq_ok_iff]
  constructor
  · rintro ⟨q, hq, e, ⟨he, hf⟩, es, hes, hc⟩
    exact ⟨q, e, es, hq, he, hf, hes, hc⟩
  · rintro ⟨q, e, es, hq, he, hf, hes, hc⟩
    exact ⟨q, hq, e, ⟨he, hf⟩, es, hes, hc⟩

/-- Past the first place there are no options. -/
theorem entriesOf_false_eq_ok_iff {l : List (Option String × Json)} :
    entriesOf false l = .ok cs ↔ ∃ pairs, l.map unwrap = pairs.map .ok ∧
      List.Forall₂ Says pairs cs ∧ ∀ e ∈ cs, isOptions e = false := by
  induction l generalizing cs with
  | nil =>
      rw [entriesOf, Except.ok.injEq]
      constructor
      · rintro rfl
        exact ⟨[], rfl, .nil, by simp⟩
      · rintro ⟨pairs, hp, hs, -⟩
        rw [List.map_nil, eq_comm, List.map_eq_nil_iff] at hp
        subst hp
        exact (List.forall₂_nil_left_iff.1 hs).symm
  | cons p l ih =>
      simp only [entriesOf_cons_eq_ok_iff, ih]
      constructor
      · rintro ⟨q, e, es, hq, he, hf, ⟨qs, hl, hes, hn⟩, rfl⟩
        refine ⟨q :: qs, by rw [List.map_cons, List.map_cons, hq, hl], .cons he hes, ?_⟩
        rw [List.forall_mem_cons]
        exact ⟨by simpa using hf, hn⟩
      · rintro ⟨pairs, hp, hs, hn⟩
        obtain ⟨q, qs, rfl, hq, hl⟩ := List.map_eq_cons_iff.1 hp.symm
        obtain ⟨e, es, he, hes, rfl⟩ := List.forall₂_cons_left_iff.1 hs
        rw [List.forall_mem_cons] at hn
        exact ⟨q, e, es, hq.symm, he, by simp [hn.1], ⟨qs, hl.symm, hes, hn.2⟩, rfl⟩

theorem entriesOf_true_eq_ok_iff {l : List (Option String × Json)} :
    entriesOf true l = .ok cs ↔ ∃ pairs, l.map unwrap = pairs.map .ok ∧ SaysAll pairs cs := by
  cases l with
  | nil =>
      rw [entriesOf, Except.ok.injEq]
      constructor
      · rintro rfl
        exact ⟨[], rfl, .nil, by simp⟩
      · rintro ⟨pairs, hp, hs⟩
        rw [List.map_nil, eq_comm, List.map_eq_nil_iff] at hp
        subst hp
        exact (List.forall₂_nil_left_iff.1 hs.entries).symm
  | cons p l =>
      simp only [entriesOf_cons_eq_ok_iff, entriesOf_false_eq_ok_iff]
      constructor
      · rintro ⟨q, e, es, hq, he, -, ⟨qs, hl, hes, hn⟩, rfl⟩
        exact ⟨q :: qs, by rw [List.map_cons, List.map_cons, hq, hl], .cons he hes, hn⟩
      · rintro ⟨pairs, hp, hs⟩
        obtain ⟨q, qs, rfl, hq, hl⟩ := List.map_eq_cons_iff.1 hp.symm
        obtain ⟨e, es, he, hes, rfl⟩ := List.forall₂_cons_left_iff.1 hs.entries
        exact ⟨q, e, es, hq.symm, he, fun _ => trivial, ⟨qs, hl.symm, hes, hs.optionsFirst⟩, rfl⟩

theorem SaysAll.of_ofJson (h : ofJson j = .ok cs) : ∃ pairs, Holds j pairs ∧ SaysAll pairs cs := by
  cases j with
  | null =>
      rw [← Except.ok.inj h]
      exact ⟨[], rfl, .nil, by simp⟩
  | array js => exact entriesOf_true_eq_ok_iff.1 h
  | object members => exact entriesOf_true_eq_ok_iff.1 h
  | bool | int | float | text => cases h

theorem SaysAll.options (h : SaysAll pairs cs) : ∃ o, cs.options = .ok o := by
  have ht : cs.tail.any isOptions = false := by simpa using h.optionsFirst
  unfold Criteria.options
  rw [ht, if_neg Bool.false_ne_true]
  split <;> exact ⟨_, rfl⟩

/-- Pairs are the same criteria, or are refused alike, in a list of objects of one pair each, in an
object that holds these objects under numbers, and, if their keys are all different and no numbers, in
one object. The criteria of a document, also of one that mixes these forms, are its pairs in their
order, and options come only first. -/
theorem ofJson_forms (pairs : List (String × Json)) {numbers : List String}
    (hl : numbers.length = pairs.length) (hn : ∀ n ∈ numbers, isNumbered n = true)
    (hd : numbers.Nodup) :
    ofJson (.object (Json.distinct (numbers.zip (alone pairs)))) = ofJson (.array (alone pairs)) ∧
      ((pairs.map Prod.fst).Nodup → (∀ p ∈ pairs, isNumbered p.1 = false) →
        ofJson (.object (Json.distinct pairs)) = ofJson (.array (alone pairs))) ∧
      (∀ cs, ofJson (.array (alone pairs)) = .ok cs ↔ SaysAll pairs cs) ∧
      ∀ j cs, ofJson j = .ok cs →
        (∃ qs, Holds j qs ∧ SaysAll qs cs) ∧ ∃ o, cs.options = .ok o := by
  have hz : ((numbers.zip (alone pairs)).map Prod.fst).Nodup := by
    rwa [List.map_fst_zip (by simp [alone, hl])]
  refine ⟨?_, ?_, ?_, ?_⟩
  · rw [Json.distinct_eq_self hz]
    exact entriesOf_congr ((holds_numbered hl hn).trans (holds_alone pairs).symm) true
  · intro hk hp
    rw [Json.distinct_eq_self hk]
    exact entriesOf_congr ((holds_named hp).trans (holds_alone pairs).symm) true
  · intro cs
    refine entriesOf_true_eq_ok_iff.trans ⟨?_, fun hs => ⟨pairs, holds_alone pairs, hs⟩⟩
    rintro ⟨qs, hq, hs⟩
    rwa [Holds.unique (holds_alone pairs) hq]
  · intro j cs h
    obtain ⟨qs, hq, hs⟩ := SaysAll.of_ofJson h
    exact ⟨⟨qs, hq, hs⟩, hs.options⟩

theorem ofJson_forms_options :
    let pairs : List (String × Json) :=
      [("__OPTIONS__", .object [("LIKE", .bool true)]), ("(|name", .text "A%"), ("", .bool true)]
    let numbers := ["0", "12", "07"]
    let cs : Criteria := [.options .like, .term "(|name" (.text "A%"), .term "" (.bool true)]
    numbers.length = pairs.length ∧ (∀ n ∈ numbers, isNumbered n = true) ∧ numbers.Nodup ∧
      (pairs.map Prod.fst).Nodup ∧ (∀ p ∈ pairs, isNumbered p.1 = false) ∧
      ofJson (.object (Json.distinct (numbers.zip (alone pairs)))) = .ok cs ∧
      ofJson (.object (Json.distinct pairs)) = .ok cs ∧ SaysAll pairs cs ∧
      ∃ o, cs.options = .ok o := by
  intro pairs numbers cs
  have hl : numbers.length = pairs.length := rfl
  have hn : ∀ n ∈ numbers, isNumbered n = true := by decide
  have hd : numbers.Nodup := by decide
  have hk : (pairs.map Prod.fst).Nodup := by decide
  have hp : ∀ p ∈ pairs, isNumbered p.1 = false := by simp [pairs, isNumbered]
  have hc : ofJson (.array (alone pairs)) = .ok cs := rfl
  obtain ⟨hz, hm, hs, ho⟩ := ofJson_forms pairs hl hn hd
  exact ⟨hl, hn, hd, hk, hp, hz.trans hc, (hm hk hp).trans hc, (hs cs).1 hc, (ho _ cs hc).2⟩

end Criteria

end Sift
