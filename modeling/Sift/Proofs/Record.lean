import Mathlib.Data.List.Basic
import Mathlib.Data.List.Induction
import Sift.Proofs.Named
import Sift.Record

namespace Sift.Record

/-- A text is a key as it is, null and a value that is missing give the empty key, and anything else is known
by its document. -/
inductive HasKey (index : String) (r : Record) : String → Prop where
  | text {s : String} (h : r.get? index = some (.text s)) : HasKey index r s
  | null (h : r.get? index = some .null) : HasKey index r ""
  | missing (h : r.get? index = none) : HasKey index r ""
  | other {j : Json} (h : r.get? index = some j) (hn : j ≠ .null) (ht : ∀ s, j ≠ .text s) :
      HasKey index r j.print

def keys (index : String) (records : List Record) : List String := records.map (indexKey index)

def IsLast (index : String) (records : List Record) (r : Record) : Prop :=
  ∃ before after, records = before ++ r :: after ∧ ∀ s ∈ after, indexKey index s ≠ indexKey index r

def indexed (index : String) (records : List Record) : Named Record :=
  records.foldl (fun (t : Named Record) r => t.put (indexKey index r) r) .empty

variable {index : String} {records : List Record}

theorem hasKey_iff {r : Record} {k : String} : HasKey index r k ↔ indexKey index r = k := by
  constructor
  · intro h
    cases h with
    | text h | null h | missing h => rw [indexKey, h]
    | @other j h hn ht =>
        rw [indexKey, h]
        cases j with
        | text s => exact absurd rfl (ht s)
        | null => exact absurd rfl hn
        | bool | int | float | array | object => rfl
  · rintro rfl
    unfold indexKey
    split
    · rename_i s h
      exact .text h
    · rename_i h
      exact .null h
    · rename_i h
      exact .missing h
    · rename_i j ht hn h
      exact .other h hn ht

theorem values_indexed (index : String) (records : List Record) :
    (indexed index records).values = collapse index records := rfl

theorem indexed_concat (index : String) (records : List Record) (r : Record) :
    indexed index (records ++ [r]) = (indexed index records).put (indexKey index r) r :=
  List.foldl_concat ..

theorem keys_concat (index : String) (records : List Record) (r : Record) :
    keys index (records ++ [r]) = keys index records ++ [indexKey index r] := by
  simp [keys]

theorem isLast_concat {r s : Record} :
    IsLast index (records ++ [r]) s ↔
      s = r ∨ (indexKey index s ≠ indexKey index r ∧ IsLast index records s) := by
  constructor
  · rintro ⟨before, after, he, ha⟩
    cases after using List.reverseRecOn with
    | nil => exact .inl (List.append_singleton_inj.1 he).2.symm
    | append_singleton after t =>
        rw [← List.cons_append, ← List.append_assoc, List.append_singleton_inj] at he
        obtain ⟨rfl, rfl⟩ := he
        rw [List.forall_mem_append, List.forall_mem_singleton] at ha
        exact .inr ⟨ha.2.symm, before, after, rfl, ha.1⟩
  · rintro (rfl | ⟨hk, before, after, rfl, ha⟩)
    · exact ⟨records, [], rfl, by simp⟩
    · refine ⟨before, after ++ [r], by simp, ?_⟩
      rw [List.forall_mem_append, List.forall_mem_singleton]
      exact ⟨ha, hk.symm⟩

/-- A table has the keys of some records, in the order in which they first came, and under each key the last
record that has it. -/
structure Indexes (index : String) (records : List Record) (t : Named Record) : Prop where
  mem_names : ∀ k, k ∈ t.names ↔ k ∈ keys index records
  firstCome : t.names.Pairwise fun k k' => (keys index records).idxOf k < (keys index records).idxOf k'
  mem_entries : ∀ k r, (k, r) ∈ t.entries ↔ indexKey index r = k ∧ IsLast index records r

theorem Indexes.put {t : Named Record} (h : Indexes index records t) (r : Record) :
    Indexes index (records ++ [r]) (t.put (indexKey index r) r) := by
  have hm : ∀ k ∈ t.names, (keys index (records ++ [r])).idxOf k = (keys index records).idxOf k := by
    intro k hk
    rw [keys_concat, List.idxOf_append_of_mem ((h.mem_names k).1 hk)]
  have hp : t.names.Pairwise fun k k' =>
      (keys index (records ++ [r])).idxOf k < (keys index (records ++ [r])).idxOf k' := by
    refine h.firstCome.imp_of_mem ?_
    intro k k' hk hk' hl
    rwa [hm k hk, hm k' hk']
  refine ⟨?_, ?_, ?_⟩
  · intro k
    rw [Named.mem_names_put, h.mem_names, keys_concat, List.mem_append, List.mem_singleton, or_comm]
  · rw [Named.names_put]
    split
    · exact hp
    · rename_i hn
      -- a new key first comes after all that were there
      rw [List.pairwise_append]
      refine ⟨hp, List.pairwise_singleton _ _, ?_⟩
      intro k hk k' hk'
      obtain rfl := List.mem_singleton.1 hk'
      rw [h.mem_names] at hn
      rw [hm k hk, keys_concat, List.idxOf_append_of_notMem hn]
      exact Nat.lt_add_right _ (List.idxOf_lt_length_of_mem ((h.mem_names k).1 hk))
  · intro k s
    rw [Named.mem_entries_put, h.mem_entries, isLast_concat]
    constructor
    · rintro (⟨rfl, rfl⟩ | ⟨hk, rfl, hl⟩)
      · exact ⟨rfl, .inl rfl⟩
      · exact ⟨rfl, .inr ⟨hk, hl⟩⟩
    · rintro ⟨rfl, rfl | ⟨hk, hl⟩⟩
      · exact .inl ⟨rfl, rfl⟩
      · exact .inr ⟨hk, rfl, hl⟩

theorem indexes_indexed (index : String) (records : List Record) :
    Indexes index records (indexed index records) := by
  induction records using List.reverseRecOn with
  | nil => exact ⟨fun k => Iff.rfl, .nil, fun k r => by simp [indexed, Named.empty, IsLast]⟩
  | append_singleton records r ih =>
      rw [indexed_concat]
      exact ih.put r

theorem keys_collapse (index : String) (records : List Record) :
    keys index (collapse index records) = (indexed index records).names := by
  rw [← values_indexed, keys, Named.values, List.map_map, Named.names]
  apply List.map_congr_left
  rintro ⟨k, r⟩ he
  exact ((indexes_indexed index records).mem_entries k r).1 he |>.1

theorem nodup_keys_collapse (index : String) (records : List Record) :
    (keys index (collapse index records)).Nodup :=
  keys_collapse index records ▸ (indexed index records).distinct

theorem mem_collapse {r : Record} : r ∈ collapse index records ↔ IsLast index records r := by
  rw [← values_indexed, Named.values, List.mem_map]
  constructor
  · rintro ⟨⟨k, s⟩, he, rfl⟩
    exact (((indexes_indexed index records).mem_entries k s).1 he).2
  · intro hl
    exact ⟨(indexKey index r, r), ((indexes_indexed index records).mem_entries _ r).2 ⟨rfl, hl⟩, rfl⟩

theorem collapse_of_nodup (h : (keys index records).Nodup) : collapse index records = records := by
  have hi : indexed index records = Named.putAll .empty (records.map fun r => (indexKey index r, r)) := by
    rw [Named.putAll, List.foldl_map, indexed]
  have he : (indexed index records).entries = records.map fun r => (indexKey index r, r) := by
    rw [hi, Named.entries_putAll]
    · rfl
    · simpa [Named.empty, Named.names, keys, Function.comp_def] using h
  rw [← values_indexed, Named.values, he, List.map_map]
  exact List.map_id _

/-- One record is kept for each key that there is, the last one that has it. They come in the order in which
their keys first came. -/
theorem collapse_keeps_last (index : String) (records : List Record) :
    (∀ r k, indexKey index r = k ↔ HasKey index r k) ∧
      (∀ k, (keys index (collapse index records)).count k = if k ∈ keys index records then 1 else 0) ∧
      (keys index (collapse index records)).Pairwise
        (fun k k' => (keys index records).idxOf k < (keys index records).idxOf k') ∧
      (∀ r, r ∈ collapse index records ↔ IsLast index records r) ∧
      (collapse index records = records ↔ (keys index records).Nodup) ∧
      collapse index (collapse index records) = collapse index records := by
  have hi := indexes_indexed index records
  have hn := nodup_keys_collapse index records
  refine ⟨fun r k => hasKey_iff.symm, ?_, ?_, fun r => mem_collapse, ⟨fun h => h ▸ hn, collapse_of_nodup⟩,
    collapse_of_nodup hn⟩
  · intro k
    rw [hn.count, keys_collapse]
    simp only [hi.mem_names]
  · rw [keys_collapse]
    exact hi.firstCome

-- values of different kinds are one key if they are written alike, and no value is as good as null
example :
    let r (n : Int) (id : Json) : Record := .ofList [("id", id), ("n", .int n)]
    (collapse "id" [r 0 (.int 1), r 1 .null, r 2 (.text "1"), .ofList [("n", .int 3)], r 4 (.text "2")]).map
      (·.get? "n") = [some (.int 2), some (.int 3), some (.int 4)] := by
  rfl

end Sift.Record
