import Sift.Proofs.Path
import Sift.Proofs.Wildcard.Parts
import Sift.Leaf

namespace Sift

mutual

def Value.texts : Value → List String
  | .text s => [s]
  | .array items => Value.textsAll items
  | .backed v => v.texts
  | _ => []

def Value.textsAll : List Value → List String
  | [] => []
  | v :: rest => v.texts ++ Value.textsAll rest

end

namespace Wildcard

def Unmarked (cs : List Char) : Prop := '%' ∉ cs ∧ '_' ∉ cs

instance (cs : List Char) : Decidable (Unmarked cs) := inferInstanceAs (Decidable (_ ∧ _))

theorem getLast?_of_cons {c d : Char} {cs : List Char} (h : (c :: cs).getLast? ≠ some d) :
    cs.getLast? ≠ some d := by
  cases cs with
  | nil => simp
  | cons b cs => rwa [List.getLast?_cons_cons] at h

/-- Only a backslash at the end and a wildcard after it make a pair that is in neither part. -/
theorem dropEscaped_append {d : Char} {as bs : List Char}
    (h : as.getLast? ≠ some '\\' ∨ bs.head? ≠ some d) :
    dropEscaped d (as ++ bs) = dropEscaped d as ++ dropEscaped d bs := by
  fun_induction dropEscaped d as with
  | case1 rest ih =>
      rw [← ih (h.imp_left fun hl => getLast?_of_cons (getLast?_of_cons hl))]
      rw [List.cons_append, List.cons_append, dropEscaped, if_pos rfl]
  | case2 c rest hc ih =>
      have hi := ih (h.imp_left getLast?_of_cons)
      rw [List.cons_append] at hi
      rw [List.cons_append, List.cons_append, List.cons_append, ← hi, dropEscaped, if_neg hc]
  | case3 c rest hn ih =>
      have hi := ih (h.imp_left getLast?_of_cons)
      rw [List.cons_append, List.cons_append, ← hi, dropEscaped_cons]
      rintro ⟨rfl, hr⟩
      cases rest with
      | nil => exact h.elim (fun hl => hl rfl) fun hb => hb hr
      | cons e rest => exact hn e rest rfl rfl
  | case4 => rfl

theorem dropEscaped_subset (d : Char) (cs : List Char) : dropEscaped d cs ⊆ cs := by
  fun_induction dropEscaped d cs with
  | case1 rest ih => exact fun c h => List.mem_cons_of_mem _ (List.mem_cons_of_mem _ (ih h))
  | case2 c rest hc ih => exact List.cons_subset_cons _ ih
  | case3 c rest hn ih => exact List.cons_subset_cons _ ih
  | case4 => exact List.Subset.refl []

theorem occurs_append {s t : String}
    (h : s.toList.getLast? ≠ some '\\' ∨ (t.toList.head? ≠ some '%' ∧ t.toList.head? ≠ some '_')) :
    occurs (s ++ t) = (occurs s || occurs t) := by
  have hp := dropEscaped_append (h.imp_right And.left)
  have hu := dropEscaped_append (h.imp_right And.right)
  simp only [occurs, String.toList_append, List.any_cons, List.any_nil, Bool.or_false, hp, hu,
    List.contains_append]
  ac_rfl

theorem occurs_of_unmarked {s : String} (h : Unmarked s.toList) : occurs s = false := by
  have hp : '%' ∉ dropEscaped '%' s.toList := fun hm => h.1 (dropEscaped_subset '%' s.toList hm)
  have hu : '_' ∉ dropEscaped '_' s.toList := fun hm => h.2 (dropEscaped_subset '_' s.toList hm)
  simp [occurs, hp, hu]

theorem Unmarked.append {as bs : List Char} (ha : Unmarked as) (hb : Unmarked bs) : Unmarked (as ++ bs) := by
  rw [Unmarked, List.mem_append, List.mem_append, not_or, not_or]
  exact ⟨⟨ha.1, hb.1⟩, ⟨ha.2, hb.2⟩⟩

theorem Unmarked.of_subset {as bs : List Char} (h : Unmarked bs) (hs : as ⊆ bs) : Unmarked as :=
  ⟨fun hm => h.1 (hs hm), fun hm => h.2 (hs hm)⟩

theorem unmarked_replicate {c : Char} (h : Unmarked [c]) (n : Nat) : Unmarked (List.replicate n c) := by
  apply h.of_subset
  intro d hd
  rw [List.eq_of_mem_replicate hd]
  exact List.mem_cons_self

theorem unmarked_toString (n : Nat) : Unmarked (toString n).toList := by
  constructor
  · intro h
    have hd := Path.isDigit_of_mem_toString h
    contradiction
  · exact Path.underscore_notMem_toString n

theorem unmarked_toString_int (i : Int) : Unmarked (toString i).toList := by
  cases i with
  | ofNat n => exact unmarked_toString n
  | negSucc n =>
      change Unmarked ("-" ++ toString (n + 1)).toList
      rw [String.toList_append]
      exact Unmarked.append (by decide) (unmarked_toString (n + 1))

theorem unmarked_positional {whole : String} (h : Unmarked whole.toList) (d : Decimal) :
    Unmarked (d.positional whole).toList := by
  have hd := unmarked_toString d.digits
  unfold Decimal.positional
  dsimp only
  split
  · rw [String.toList_append, String.toList_ofList]
    exact (hd.append (unmarked_replicate (by decide) _)).append h
  · have hz := (unmarked_replicate (c := '0') (by decide)
      ((-d.exponent).toNat + 1 - (toString d.digits).toList.length)).append hd
    rw [String.toList_ofList]
    have hp : Unmarked ['.'] := by decide
    exact (hz.of_subset (List.take_subset _ _)).append (hp.append (hz.of_subset (List.drop_subset _ _)))

theorem unmarked_plainText (x : Binary64) : Unmarked x.plainText.toList := by
  have hs : ∀ negative, Unmarked (Binary64.signText negative).toList := by
    intro negative
    cases negative <;> decide
  unfold Binary64.plainText
  split
  · decide
  · rw [String.toList_append]
    exact (hs _).append (by decide)
  · rw [String.toList_append]
    exact (hs _).append (by decide)
  · rw [String.toList_append]
    exact (hs _).append (unmarked_positional (by decide) _)

/-- What is put around a text makes no wildcard of it, nor of what is put there. -/
theorem occurs_around {left right : String} (hl : Unmarked left.toList) (hr : Unmarked right.toList)
    (hb : left.toList.getLast? ≠ some '\\') (s : String) : occurs (left ++ s ++ right) = occurs s := by
  have hp : right.toList.head? ≠ some '%' := fun h => hr.1 (List.mem_of_mem_head? h)
  have hu : right.toList.head? ≠ some '_' := fun h => hr.2 (List.mem_of_mem_head? h)
  rw [occurs_append (.inr ⟨hp, hu⟩), occurs_append (.inl hb), occurs_of_unmarked hl, occurs_of_unmarked hr,
    Bool.false_or, Bool.or_false]

mutual

/-- Writing out a value adds nothing that is a wildcard, and escapes none. -/
theorem occurs_display (v : Value) : occurs v.display = v.texts.any occurs := by
  match v with
  | .null => decide
  | .bool b => cases b <;> decide
  | .int i => exact occurs_of_unmarked (unmarked_toString_int _)
  | .float x => exact occurs_of_unmarked (unmarked_plainText x)
  | .text s =>
      rw [Value.display, occurs_around (by decide) (by decide) (by decide), Value.texts, List.any_cons,
        List.any_nil, Bool.or_false]
  | .array items =>
      rw [Value.display, occurs_around (by decide) (by decide) (by decide), Value.texts]
      exact occurs_displayItems items
  | .backed v =>
      rw [Value.display, Value.texts]
      exact occurs_display v

theorem occurs_displayItems (items : List Value) :
    occurs (", ".intercalate (Value.displayItems items)) = (Value.textsAll items).any occurs := by
  match items with
  | [] => decide
  | v :: items =>
      have hv := occurs_display v
      have hi := occurs_displayItems items
      rw [Value.textsAll, List.any_append, ← hv, ← hi, Value.displayItems]
      cases items with
      | nil =>
          have he : occurs "" = false := by decide
          rw [Value.displayItems, String.intercalate_singleton, String.intercalate_nil, he, Bool.or_false]
      | cons w items =>
          rw [Value.displayItems, String.intercalate_cons_cons, occurs_append, occurs_append (.inr (by decide)),
            occurs_of_unmarked (s := ", ") (by decide), Bool.or_false]
          simp

end

theorem occurs_patternText (v : Value) : occurs (Scope.patternText v) = v.texts.any occurs := by
  cases v with
  | null => decide
  | bool b => cases b <;> decide
  | text s => rw [Scope.patternText, Value.texts, List.any_cons, List.any_nil, Bool.or_false]
  | int | float | array | backed => exact occurs_display _

end Wildcard

end Sift
