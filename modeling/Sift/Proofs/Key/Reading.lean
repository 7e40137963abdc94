import Sift.Key.Reading
import Sift.Proofs.Key.Operators

namespace Sift.Key

def write (js : List Junctor) (negated : Bool) (op : Option Comparator) (field : String) : String :=
  String.ofList (marks js ++ signs negated op ++ field.toList)

theorem isOperator_mark (j : Junctor) : ∀ c ∈ mark j, isOperator c = true := by
  rw [← List.all_eq_true]
  rcases j with ⟨_ | _, _ | _⟩ | _ <;> rfl

theorem isOperator_marks (js : List Junctor) : ∀ c ∈ marks js, isOperator c = true := by
  intro c hc
  obtain ⟨j, _, hj⟩ := List.mem_flatMap.1 hc
  exact isOperator_mark j c hj

theorem isOperator_signs (negated : Bool) (op : Option Comparator) :
    ∀ c ∈ signs negated op, isOperator c = true := by
  rw [← List.all_eq_true]
  cases negated <;> rcases op with _ | _ | _ | _ | _ | _ <;> rfl

theorem splitMark_of_notMem {m : Char} {cs : List Char} (h : m ∉ cs) : splitMark m cs = (cs, none) := by
  have hc : Text.cutFirst m cs = none := by
    induction cs with
    | nil => rfl
    | cons c cs ih =>
        rw [List.mem_cons, not_or] at h
        simp [Text.cutFirst, Ne.symm h.1, ih h.2]
  simp [splitMark, hc]

def splitters : List Char := ['@', '#', ':']

theorem isOperator_splitter : ∀ m ∈ splitters, isOperator m = false := by
  simp [splitters, isOperator]

structure Fits (field : String) : Prop where
  head : ∀ c ∈ field.toList.head?, isOperator c = false
  whole : ∀ c ∈ field.toList, c ∉ splitters

theorem Fits.takeWhile {field : String} (hf : Fits field) : field.toList.takeWhile isOperator = [] := by
  have hh := hf.head
  cases hc : field.toList with
  | nil => rfl
  | cons c cs =>
      rw [hc] at hh
      simp [hh c rfl]

theorem Fits.dropWhile {field : String} (hf : Fits field) :
    field.toList.dropWhile isOperator = field.toList := by
  have h := List.takeWhile_append_dropWhile (p := isOperator) (l := field.toList)
  rwa [hf.takeWhile, List.nil_append] at h

theorem isOperator_word (js : List Junctor) (negated : Bool) (op : Option Comparator) :
    ∀ c ∈ marks js ++ signs negated op, isOperator c = true := by
  intro c hc
  rcases List.mem_append.1 hc with h | h
  · exact isOperator_marks js c h
  · exact isOperator_signs negated op c h

theorem Fits.notMem_append {field : String} (hf : Fits field) {r : List Char}
    (hr : ∀ c ∈ r, isOperator c = true) {m : Char} (hm : m ∈ splitters) : m ∉ r ++ field.toList := by
  intro hc
  rcases List.mem_append.1 hc with h | h
  · exact Bool.false_ne_true ((isOperator_splitter m hm).symm.trans (hr m h))
  · exact hf.whole m h hm

/-- What stands before a field that fits is all operators. -/
theorem read_append {field : String} (hf : Fits field) {r : List Char} (hr : ∀ c ∈ r, isOperator c = true)
    (v : Value) (index : Nat) :
    read (String.ofList (r ++ field.toList)) v index =
      (reduce field v.raw maxPasses .none r).map fun ops =>
        { Criterion.plain field v.raw with
          index, comparator := ops.comparator, junctors := ops.junctors, negations := ops.negations } := by
  have hm : ∀ m ∈ splitters, m ∉ r ++ field.toList := fun m => hf.notMem_append hr
  have ht : (r ++ field.toList).takeWhile isOperator = r := by
    rw [List.takeWhile_append_of_pos hr, hf.takeWhile, List.append_nil]
  have hd : (r ++ field.toList).dropWhile isOperator = field.toList := by
    rw [List.dropWhile_append_of_pos hr, hf.dropWhile]
  simp only [read, String.toList_ofList, splitMark_of_notMem (hm '@' (by decide)),
    splitMark_of_notMem (hm '#' (by decide)), splitMark_of_notMem (hm ':' (by decide)), ht, hd,
    String.ofList_toList]
  cases reduce field v.raw maxPasses .none r <;> rfl

theorem read_write {field : String} (hf : Fits field) {v : Value} (hn : v.raw.isNull = false)
    (ha : v.raw.isArray = false) (js : List Junctor) (negated : Bool) (op : Option Comparator)
    (hl : js.length + negated.toNat + op.toList.length ≤ maxPasses) (index : Nat) :
    read (write js negated op field) v index =
      .ok { Criterion.plain field v.raw with
        index, comparator := op, junctors := (heard 0 js).1
        negations := (heard 0 js).2 + negated.toNat } := by
  rw [write, read_append hf (isOperator_word js negated op),
    reduce_marks field hn ha negated op maxPasses js .none rfl hl]
  simp [Except.map, Operators.none]

/-- A key of at most as many marks and signs as there are passes is read. Field, comparator and the kinds
of the groups are those that were written, and so is the number of negations. It is the term that was
written if and only if each negated group mark follows on the mark before it. -/
theorem read_write_eq_iff {field : String} (hf : Fits field) {v : Value} (hn : v.raw.isNull = false)
    (ha : v.raw.isArray = false) (js : List Junctor) (negated : Bool) (op : Option Comparator)
    (hl : js.length + negated.toNat + op.toList.length ≤ maxPasses) (index : Nat) :
    ∃ c, read (write js negated op field) v index = .ok c ∧
      c.field = field ∧ c.value = v.raw ∧ c.comparator = op ∧
      c.junctors.map Junctor.plain = js.map Junctor.plain ∧
      c.junctors.countP Junctor.isNegated + c.negations =
        js.countP Junctor.isNegated + negated.toNat ∧
      (c = { Criterion.plain field v.raw with
          index, comparator := op, junctors := js, negations := negated.toNat } ↔
        js.IsChain Follows) := by
  refine ⟨_, read_write hf hn ha js negated op hl index, rfl, rfl, rfl, map_plain_heard 0 js, ?_, ?_⟩
  · have := countP_heard 0 js
    dsimp only
    omega
  · have hh : heard 0 js = (js, 0) ↔ js.IsChain Follows := by
      rw [heard_eq_self_iff]
      simp
    rw [← hh, Prod.ext_iff]
    simp [Criterion.mk.injEq, and_comm]

theorem read_write_eq_iff_mixed :
    Fits "age" ∧ (Value.int 30).raw.isNull = false ∧ (Value.int 30).raw.isArray = false ∧
      [Junctor.close, .opens .all false, .opens .any true, .opens .all true].length + true.toNat +
        (some Comparator.gte).toList.length ≤ maxPasses ∧
      ∃ c, read ")(&!(|!(&!>=age" (.int 30) 7 = .ok c ∧
        c = { Criterion.plain "age" (.int 30) with
          index := 7, comparator := some .gte, negations := 1
          junctors := [.close, .opens .all false, .opens .any true, .opens .all true] } := by
  have hf : Fits "age" := ⟨by simp [isOperator], by simp [splitters]⟩
  refine ⟨hf, rfl, rfl, by decide, ?_⟩
  obtain ⟨c, hr, -, -, -, -, -, hc⟩ := read_write_eq_iff hf (v := .int 30) rfl rfl
    [.close, .opens .all false, .opens .any true, .opens .all true] true (some .gte) (by decide) 7
  exact ⟨c, hr, hc.2 (by decide)⟩

/-- After a closing mark the negation of a group is taken for one of the term. -/
theorem read_write_close_negated :
    write [.close, .opens .any true] false none "a" = ")!(|a" ∧
      read ")!(|a" (.int 1) 0 = .ok { Criterion.plain "a" (.int 1) with
        junctors := [.close, .opens .any false], negations := 1 } ∧
      ¬ ∃ c, read ")!(|a" (.int 1) 0 = .ok c ∧ c.junctors = [.close, .opens .any true] := by
  have hr : read ")!(|a" (.int 1) 0 = .ok { Criterion.plain "a" (.int 1) with
      junctors := [.close, .opens .any false], negations := 1 } := rfl
  refine ⟨by decide, hr, ?_⟩
  rintro ⟨c, hc, hj⟩
  rw [hr] at hc
  cases hc
  revert hj
  decide

end Sift.Key
