namespace Sift

/-- Things by name, in the order in which the names first came. -/
structure Named (α : Type) where
  entries : List (String × α)
  distinct : (entries.map Prod.fst).Nodup
  deriving DecidableEq

namespace Named

variable {α : Type}

def empty : Named α := ⟨[], List.nodup_nil⟩

instance : EmptyCollection (Named α) := ⟨empty⟩

instance : Inhabited (Named α) := ⟨empty⟩

def names (t : Named α) : List String := t.entries.map Prod.fst

def values (t : Named α) : List α := t.entries.map Prod.snd

def size (t : Named α) : Nat := t.entries.length

def get? (t : Named α) (name : String) : Option α := t.entries.lookup name

def contains (t : Named α) (name : String) : Bool := (t.get? name).isSome

/-- A name that is there keeps its place and takes the new thing; a new name comes last. -/
def putEntry (name : String) (a : α) : List (String × α) → List (String × α)
  | [] => [(name, a)]
  | (n, b) :: rest => if n = name then (n, a) :: rest else (n, b) :: putEntry name a rest

theorem map_fst_putEntry (name : String) (a : α) (l : List (String × α)) :
    (putEntry name a l).map Prod.fst =
      if name ∈ l.map Prod.fst then l.map Prod.fst else l.map Prod.fst ++ [name] := by
  induction l with
  | nil => simp [putEntry]
  | cons e rest ih =>
    obtain ⟨n, b⟩ := e
    by_cases h : n = name
    · simp [putEntry, h]
    · have h' : ¬ name = n := fun e => h e.symm
      simp only [putEntry, h, if_false, List.map_cons, ih, List.mem_cons, h', false_or]
      split <;> simp

theorem nodup_putEntry (name : String) (a : α) (l : List (String × α))
    (h : (l.map Prod.fst).Nodup) : ((putEntry name a l).map Prod.fst).Nodup := by
  rw [map_fst_putEntry]
  split
  · exact h
  · rename_i hn
    rw [List.nodup_append]
    refine ⟨h, by simp, ?_⟩
    intro x hx y hy e
    simp only [List.mem_singleton] at hy
    exact hn (hy ▸ e ▸ hx)

def put (t : Named α) (name : String) (a : α) : Named α :=
  ⟨putEntry name a t.entries, nodup_putEntry name a t.entries t.distinct⟩

def putNew (t : Named α) (name : String) (a : α) : Named α :=
  if t.contains name then t else t.put name a

def ofList (l : List (String × α)) : Named α := l.foldl (fun t e => t.put e.1 e.2) empty

def mapEntries (f : String → α → α) (t : Named α) : Named α :=
  ⟨t.entries.map fun e => (e.1, f e.1 e.2), by
    have h : (t.entries.map fun e => (e.1, f e.1 e.2)).map Prod.fst = t.entries.map Prod.fst := by
      simp
    rw [h]
    exact t.distinct⟩

end Named

end Sift
