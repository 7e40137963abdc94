import Sift.Proofs.Key.Reading

namespace Sift.Key

def suffix (mark : Char) : Option String → List Char
  | none => []
  | some s => mark :: s.toList

def said : Option String → Option String
  | none => none
  | some s => if s = "" then none else some s

/-- A key with its suffixes for the type, the inline template and the aggregate template. -/
def withSuffixes (operators : List Char) (field : String) (type inline aggregate : Option String) :
    String :=
  String.ofList
    (operators ++ field.toList ++ suffix ':' type ++ suffix '#' inline ++ suffix '@' aggregate)

theorem withSuffixes_none (operators : List Char) (field : String) :
    withSuffixes operators field none none none = String.ofList (operators ++ field.toList) := by
  simp [withSuffixes, suffix]

theorem cutFirst_append {m : Char} {before : List Char} (h : m ∉ before) (after : List Char) :
    Text.cutFirst m (before ++ m :: after) = some (before, after) := by
  induction before with
  | nil => simp [Text.cutFirst]
  | cons c before ih =>
      rw [List.mem_cons, not_or] at h
      simp [Text.cutFirst, Ne.symm h.1, ih h.2]

theorem splitMark_suffix {m : Char} {before : List Char} (h : m ∉ before) (s : Option String) :
    splitMark m (before ++ suffix m s) = (before, (said s).map String.toList) := by
  cases s with
  | none => simpa [suffix, said] using splitMark_of_notMem h
  | some s =>
      rw [suffix, splitMark, cutFirst_append h]
      cases hs : s.toList with
      | nil => simp [said, String.toList_eq_nil_iff.1 hs]
      | cons c cs =>
          have hn : s ≠ "" := fun he => by simp [he] at hs
          simp [said, hn, hs]

theorem notMem_append_suffix {m n : Char} {before : List Char} {s : Option String} (hb : m ∉ before)
    (hmn : m ≠ n) (hs : ∀ x ∈ s, m ∉ x.toList) : m ∉ before ++ suffix n s := by
  rw [List.mem_append, not_or]
  refine ⟨hb, ?_⟩
  cases s with
  | none => exact List.not_mem_nil
  | some s =>
      rw [suffix, List.mem_cons, not_or]
      exact ⟨hmn, hs s rfl⟩

/-- A template may hold the marks of what stands before it: the aggregate any, the inline one `#` and
`:`, the type `:`. The suffixes change neither whether a key is read nor what its operators say. -/
theorem read_withSuffixes {operators : List Char} (ho : ∀ c ∈ operators, isOperator c = true)
    {field : String} (hf : Fits field) {type inline aggregate : Option String}
    (ht : ∀ s ∈ type, '@' ∉ s.toList ∧ '#' ∉ s.toList) (hi : ∀ s ∈ inline, '@' ∉ s.toList)
    (v : Value) (index : Nat) :
    read (withSuffixes operators field type inline aggregate) v index =
      (read (withSuffixes operators field none none none) v index).map fun c =>
        { c with
          fieldType := (said type).map FieldType.ofName
          sqlFunction := said inline
          groupFunction := said aggregate } := by
  have hm : ∀ m ∈ splitters, m ∉ operators ++ field.toList := fun m => hf.notMem_append ho
  have ha : '@' ∉ operators ++ field.toList ++ suffix ':' type ++ suffix '#' inline :=
    notMem_append_suffix
      (notMem_append_suffix (hm '@' (by decide)) (by decide) fun s hs => (ht s hs).1) (by decide) hi
  have hh : '#' ∉ operators ++ field.toList ++ suffix ':' type :=
    notMem_append_suffix (hm '#' (by decide)) (by decide) fun s hs => (ht s hs).2
  have hc : ':' ∉ operators ++ field.toList := hm ':' (by decide)
  rw [withSuffixes_none]
  simp only [read, withSuffixes, String.toList_ofList, splitMark_suffix ha, splitMark_suffix hh,
    splitMark_suffix hc, splitMark_of_notMem (hm '@' (by decide)),
    splitMark_of_notMem (hm '#' (by decide)), splitMark_of_notMem hc]
  cases reduce (String.ofList ((operators ++ field.toList).dropWhile isOperator)) v.raw maxPasses .none
      ((operators ++ field.toList).takeWhile isOperator) with
  | error e => rfl
  | ok ops => simp [bind, Except.bind, pure, Except.pure, Except.map, Function.comp_def]

theorem read_withSuffixes_templates :
    (∀ c ∈ "(|>=".toList, isOperator c = true) ∧ Fits "year" ∧
      (∀ s ∈ some "integer", '@' ∉ s.toList ∧ '#' ∉ s.toList) ∧
      (∀ s ∈ some "F(#%s:2)", '@' ∉ s.toList) ∧
      withSuffixes "(|>=".toList "year" (some "integer") (some "F(#%s:2)") (some "G(@#:%s)") =
        "(|>=year:integer#F(#%s:2)@G(@#:%s)" ∧
      read "(|>=year:integer#F(#%s:2)@G(@#:%s)" (.int 2) 7 = .ok { Criterion.plain "year" (.int 2) with
        index := 7, comparator := some .gte, junctors := [.opens .any false]
        fieldType := some .integer, sqlFunction := some "F(#%s:2)", groupFunction := some "G(@#:%s)" } := by
  have ho : ∀ c ∈ "(|>=".toList, isOperator c = true := by simp [isOperator]
  have hf : Fits "year" := ⟨by simp [isOperator], by simp [splitters]⟩
  have ht : ∀ s ∈ some "integer", '@' ∉ s.toList ∧ '#' ∉ s.toList := by simp
  have hi : ∀ s ∈ some "F(#%s:2)", '@' ∉ s.toList := by simp
  have hw : withSuffixes "(|>=".toList "year" (some "integer") (some "F(#%s:2)") (some "G(@#:%s)") =
      "(|>=year:integer#F(#%s:2)@G(@#:%s)" := by decide
  have hr : read (withSuffixes "(|>=".toList "year" none none none) (.int 2) 7 =
      .ok { Criterion.plain "year" (.int 2) with
        index := 7, comparator := some .gte, junctors := [.opens .any false] } := rfl
  have hn : FieldType.ofName "integer" = .integer := by decide +kernel
  refine ⟨ho, hf, ht, hi, hw, ?_⟩
  rw [← hw, read_withSuffixes ho hf ht hi, hr]
  simp [Except.map, said, hn]

end Sift.Key
