import Sift.Named

namespace Sift.Named

variable {α β : Type}

theorem lookup_eq_some_iff {l : List (String × α)} (h : (l.map Prod.fst).Nodup) {name : String} {a : α} :
    l.lookup name = some a ↔ (name, a) ∈ l := by
  induction l with
  | nil => simp
  | cons e l ih =>
      obtain ⟨n, b⟩ := e
      rw [List.map_cons, List.nodup_cons] at h
      by_cases hn : name = n
      · subst hn
        have hl : (name, a) ∉ l := fun hm => h.1 (List.mem_map.2 ⟨_, hm, rfl⟩)
        simp [hl, eq_comm]
      · have hb : (name == n) = false := by simpa using hn
        simp [List.lookup_cons, hb, hn, ih h.2]

theorem lookup_eq_none_iff {l : List (String × α)} {name : String} :
    l.lookup name = none ↔ name ∉ l.map Prod.fst := by
  induction l with
  | nil => simp
  | cons e l ih =>
      obtain ⟨n, b⟩ := e
      by_cases hn : name = n
      · simp [hn]
      · have hb : (name == n) = false := by simpa using hn
        rw [List.lookup_cons, hb, ih, List.map_cons, List.mem_cons, not_or]
        exact (and_iff_right hn).symm

theorem get?_eq_some_iff {t : Named α} {name : String} {a : α} :
    t.get? name = some a ↔ (name, a) ∈ t.entries :=
  lookup_eq_some_iff t.distinct

theorem get?_eq_none_iff {t : Named α} {name : String} : t.get? name = none ↔ name ∉ t.names :=
  lookup_eq_none_iff

theorem putEntry_of_fresh {l : List (String × α)} {name : String} (h : name ∉ l.map Prod.fst) (a : α) :
    putEntry name a l = l ++ [(name, a)] := by
  induction l with
  | nil => rfl
  | cons e l ih =>
      obtain ⟨n, b⟩ := e
      rw [List.map_cons, List.mem_cons, not_or] at h
      simp [putEntry, Ne.symm h.1, ih h.2]

theorem entries_put {t : Named α} {name : String} (h : name ∉ t.names) (a : α) :
    (t.put name a).entries = t.entries ++ [(name, a)] :=
  putEntry_of_fresh h a

theorem names_put (t : Named α) (name : String) (a : α) :
    (t.put name a).names = if name ∈ t.names then t.names else t.names ++ [name] :=
  map_fst_putEntry name a t.entries

theorem mem_names_put {t : Named α} {name n : String} {a : α} :
    n ∈ (t.put name a).names ↔ n = name ∨ n ∈ t.names := by
  rw [names_put]
  split
  · rename_i h
    exact ⟨.inr, fun hn => hn.elim (· ▸ h) id⟩
  · rw [List.mem_append, List.mem_singleton, or_comm]

theorem entries_put_ne_nil (t : Named α) (name : String) (a : α) : (t.put name a).entries ≠ [] := by
  simp only [put]
  cases t.entries with
  | nil => simp [putEntry]
  | cons e l =>
      rw [putEntry]
      split <;> simp

theorem entries_putNew_ne_nil (t : Named α) (name : String) (a : α) : (t.putNew name a).entries ≠ [] := by
  unfold putNew
  split
  · rename_i hc
    intro he
    simp [contains, get?, he] at hc
  · exact entries_put_ne_nil t name a

theorem contains_iff {t : Named α} {name : String} : t.contains name = true ↔ name ∈ t.names := by
  rw [contains, Option.isSome_iff_ne_none, Ne, get?_eq_none_iff, Decidable.not_not]

theorem putNew_of_mem {t : Named α} {name : String} (h : name ∈ t.names) (a : α) : t.putNew name a = t := by
  rw [putNew, if_pos (contains_iff.2 h)]

theorem entries_putNew {t : Named α} {name : String} (h : name ∉ t.names) (a : α) :
    (t.putNew name a).entries = t.entries ++ [(name, a)] := by
  rw [putNew, if_neg (mt contains_iff.1 h), entries_put h]

theorem isEmpty_entries (t : Named α) : t.entries.isEmpty = t.names.isEmpty := by simp [names]

def putAll (t : Named α) (l : List (String × α)) : Named α := l.foldl (fun t e => t.put e.1 e.2) t

theorem putAll_append (t : Named α) (l l' : List (String × α)) :
    t.putAll (l ++ l') = (t.putAll l).putAll l' :=
  List.foldl_append

/-- New names that differ from each other come last in their order. -/
theorem entries_putAll {l : List (String × α)} {t : Named α} (h : (t.names ++ l.map Prod.fst).Nodup) :
    (t.putAll l).entries = t.entries ++ l := by
  induction l generalizing t with
  | nil => simp [putAll]
  | cons e l ih =>
      have hf : e.1 ∉ t.names := fun hm =>
        (List.nodup_append.1 h).2.2 e.1 hm e.1 (List.mem_cons_self ..) rfl
      have hn : (t.put e.1 e.2).names = t.names ++ [e.1] := by
        simp [names, entries_put hf]
      have ht : ((t.put e.1 e.2).names ++ l.map Prod.fst).Nodup := by
        rw [hn, List.append_assoc]
        exact h
      rw [putAll, List.foldl_cons, ← putAll, ih ht, entries_put hf, List.append_assoc]
      rfl

theorem lookup_cons_ite (m : String) (b : α) (l : List (String × α)) (n : String) :
    ((m, b) :: l).lookup n = if n = m then some b else l.lookup n := by
  rw [List.lookup_cons]
  by_cases hn : n = m
  · simp [hn]
  · rw [beq_eq_false_iff_ne.2 hn, if_neg hn]

theorem lookup_putEntry (name : String) (a : α) (l : List (String × α)) (n : String) :
    (putEntry name a l).lookup n = if n = name then some a else l.lookup n := by
  induction l with
  | nil => exact lookup_cons_ite name a [] n
  | cons e l ih =>
      obtain ⟨m, b⟩ := e
      rw [putEntry]
      split
      · rename_i hm
        subst hm
        simp only [lookup_cons_ite]
        split <;> rfl
      · rename_i hm
        simp only [lookup_cons_ite, ih]
        by_cases hn : n = m
        · rw [if_pos hn, if_pos hn, if_neg (hn ▸ hm)]
        · rw [if_neg hn, if_neg hn]

theorem get?_put (t : Named α) (name : String) (a : α) (n : String) :
    (t.put name a).get? n = if n = name then some a else t.get? n :=
  lookup_putEntry name a t.entries n

theorem mem_entries_put {t : Named α} {name n : String} {a b : α} :
    (n, b) ∈ (t.put name a).entries ↔ (n = name ∧ b = a) ∨ (n ≠ name ∧ (n, b) ∈ t.entries) := by
  rw [← get?_eq_some_iff, ← get?_eq_some_iff, get?_put]
  by_cases hn : n = name
  · simp [hn, eq_comm]
  · simp [hn]

/-- Of things that are put one after the other, the last one of a name is found. -/
theorem get?_putAll {l : List (String × α)} (h : (l.map Prod.fst).Nodup) (t : Named α) (n : String) :
    (t.putAll l).get? n = (l.lookup n <|> t.get? n) := by
  induction l generalizing t with
  | nil => rfl
  | cons e l ih =>
      obtain ⟨name, a⟩ := e
      rw [List.map_cons, List.nodup_cons] at h
      rw [putAll, List.foldl_cons, ← putAll, ih h.2, get?_put]
      by_cases hn : n = name
      · subst hn
        simp [lookup_eq_none_iff.2 h.1]
      · rw [if_neg hn, lookup_cons_ite, if_neg hn]

theorem lookup_map (f : α → β) (l : List (String × α)) (name : String) :
    (l.map (Prod.map id f)).lookup name = (l.lookup name).map f := by
  induction l with
  | nil => rfl
  | cons e l ih =>
      obtain ⟨n, a⟩ := e
      rw [List.map_cons, List.lookup_cons, Prod.map_fst, Prod.map_snd, id, List.lookup_cons]
      cases name == n with
      | true => rfl
      | false => exact ih

theorem map_putEntry (f : α → β) (name : String) (a : α) (l : List (String × α)) :
    (putEntry name a l).map (Prod.map id f) = putEntry name (f a) (l.map (Prod.map id f)) := by
  induction l with
  | nil => rfl
  | cons e l ih =>
      obtain ⟨n, b⟩ := e
      rw [putEntry, List.map_cons, Prod.map_apply, id, putEntry]
      split
      · rfl
      · rw [List.map_cons, ih]
        rfl

end Sift.Named
