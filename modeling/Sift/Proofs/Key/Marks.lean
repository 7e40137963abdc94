import Mathlib.Data.List.Chain
import Sift.Key.Operators

namespace Sift

def Junctor.isNegated : Junctor → Bool
  | .opens _ negated => negated
  | .close => false

def Junctor.plain : Junctor → Junctor
  | .opens combinator _ => .opens combinator false
  | .close => .close

theorem Junctor.isNegated_plain (j : Junctor) : j.plain.isNegated = false := by cases j <;> rfl

theorem Junctor.plain_plain (j : Junctor) : j.plain.plain = j.plain := by cases j <;> rfl

theorem Junctor.plain_eq_self {j : Junctor} (h : j.isNegated = false) : j.plain = j := by
  cases j with
  | opens combinator negated => simpa [Junctor.plain, Junctor.isNegated] using h.symm
  | close => rfl

namespace Key

def mark : Junctor → List Char
  | .opens .any false => ['(', '|']
  | .opens .all false => ['(', '&']
  | .opens .any true => ['!', '(', '|']
  | .opens .all true => ['!', '(', '&']
  | .close => [')']

def marks (js : List Junctor) : List Char := js.flatMap mark

def place (j : Junctor) : Nat := (junctorTexts.map Prod.snd).idxOf j

/-- A negated mark is read as one mark after another one only if the pass that takes the other has not
gone by its row yet. -/
def Follows (i j : Junctor) : Prop := j.isNegated → place i < place j

instance (i j : Junctor) : Decidable (Follows i j) := inferInstanceAs (Decidable (_ → _))

def ascend : Nat → List Junctor → List Junctor × List Junctor
  | _, [] => ([], [])
  | k, j :: js =>
    if k ≤ place j then (j :: (ascend (place j + 1) js).1, (ascend (place j + 1) js).2)
    else ([], j :: js)

/-- The marks as the passes read them, and the number of negations that they take for those of the term.
A pass that has come to row `k` does not know a negated mark above that row: it takes the `!` alone, and
the next pass begins with the rest of the mark. -/
def heard : Nat → List Junctor → List Junctor × Nat
  | _, [] => ([], 0)
  | k, j :: js =>
    if j.isNegated ∧ place j < k then
      (j.plain :: (heard (place j.plain + 1) js).1, (heard (place j.plain + 1) js).2 + 1)
    else (j :: (heard (place j + 1) js).1, (heard (place j + 1) js).2)

@[simp] theorem marks_nil : marks [] = [] := rfl

@[simp] theorem marks_cons (j : Junctor) (js : List Junctor) : marks (j :: js) = mark j ++ marks js := rfl

theorem place_lt (j : Junctor) : place j < 5 := by
  rcases j with ⟨_ | _, _ | _⟩ | _ <;> decide

theorem place_inj {i j : Junctor} (h : place i = place j) : i = j := by
  revert h
  rcases i with ⟨_ | _, _ | _⟩ | _ <;> rcases j with ⟨_ | _, _ | _⟩ | _ <;> decide

theorem exists_place {k : Nat} (h : k < 5) :
    ∃ j, place j = k ∧ junctorTexts.drop k = (mark j, j) :: junctorTexts.drop (k + 1) := by
  match k, h with
  | 0, _ => exact ⟨.opens .any false, rfl, rfl⟩
  | 1, _ => exact ⟨.opens .all false, rfl, rfl⟩
  | 2, _ => exact ⟨.opens .any true, rfl, rfl⟩
  | 3, _ => exact ⟨.opens .all true, rfl, rfl⟩
  | 4, _ => exact ⟨.close, rfl, rfl⟩

theorem ascend_of_place_ne {k : Nat} {j : Junctor} (h : place j ≠ k) (js : List Junctor) :
    ascend (k + 1) (j :: js) = ascend k (j :: js) := by
  have he : k + 1 ≤ place j ↔ k ≤ place j := by omega
  simp only [ascend, he]

theorem length_ascend (k : Nat) (js : List Junctor) :
    (ascend k js).1.length + (ascend k js).2.length = js.length := by
  induction js generalizing k with
  | nil => rfl
  | cons j js ih =>
      by_cases hk : k ≤ place j
      · have := ih (place j + 1)
        simp only [ascend, hk, if_true, List.length_cons]
        omega
      · simp [ascend, hk]

theorem length_of_ascend {js rest : List Junctor} {j : Junctor} (h : (ascend 0 js).2 = j :: rest) :
    rest.length + 1 < js.length := by
  cases js with
  | nil => simp [ascend] at h
  | cons i js =>
      have hl := length_ascend (place i + 1) js
      simp only [ascend, Nat.zero_le, if_true] at h
      rw [h] at hl
      simp only [List.length_cons] at hl ⊢
      omega

theorem heard_of_ascend_nil {k : Nat} {js : List Junctor} (h : (ascend k js).2 = []) :
    heard k js = ((ascend k js).1, 0) := by
  induction js generalizing k with
  | nil => rfl
  | cons j js ih =>
      by_cases hk : k ≤ place j
      · have hn : ¬ (j.isNegated = true ∧ place j < k) := by omega
        simp only [ascend, hk, if_true] at h ⊢
        rw [heard, if_neg hn, ih h]
      · simp [ascend, hk] at h

/-- What is heard of all marks is what one pass takes, and then what is heard of the marks that it
leaves, the first one without its negation. -/
theorem heard_of_ascend_cons {k : Nat} {js rest : List Junctor} {j : Junctor}
    (h : (ascend k js).2 = j :: rest) :
    heard k js = ((ascend k js).1 ++ (heard 0 (j.plain :: rest)).1,
      (heard 0 (j.plain :: rest)).2 + j.isNegated.toNat) := by
  induction js generalizing k with
  | nil => simp [ascend] at h
  | cons i js ih =>
      by_cases hk : k ≤ place i
      · have hn : ¬ (i.isNegated = true ∧ place i < k) := by omega
        simp only [ascend, hk, if_true] at h ⊢
        rw [heard, if_neg hn, ih h]
        rfl
      · simp only [ascend, hk, if_false, List.cons.injEq] at h ⊢
        obtain ⟨rfl, rfl⟩ := h
        cases hi : i.isNegated with
        | true => simp [heard, hi, Junctor.isNegated_plain, show place i < k by omega]
        | false => simp [heard, hi, Junctor.plain_eq_self hi]

theorem map_plain_heard (k : Nat) (js : List Junctor) :
    (heard k js).1.map Junctor.plain = js.map Junctor.plain := by
  induction js generalizing k with
  | nil => rfl
  | cons j js ih =>
      rw [heard]
      split
      · simp [ih, Junctor.plain_plain]
      · simp [ih]

theorem countP_heard (k : Nat) (js : List Junctor) :
    (heard k js).1.countP Junctor.isNegated + (heard k js).2 = js.countP Junctor.isNegated := by
  induction js generalizing k with
  | nil => rfl
  | cons j js ih =>
      rw [heard]
      split
      · rename_i h
        have hp := ih (place j.plain + 1)
        simp only [List.countP_cons, Junctor.isNegated_plain, h.1, Bool.false_eq_true, if_false, if_true]
        omega
      · have hp := ih (place j + 1)
        simp only [List.countP_cons]
        omega

theorem heard_eq_self_iff (k : Nat) (js : List Junctor) :
    heard k js = (js, 0) ↔ (∀ j ∈ js.head?, j.isNegated → k ≤ place j) ∧ js.IsChain Follows := by
  induction js generalizing k with
  | nil => simp [heard]
  | cons j js ih =>
      rw [List.isChain_cons]
      by_cases h : j.isNegated ∧ place j < k
      · have hn : ¬ (j.isNegated → k ≤ place j) := fun hi => by
          have := hi h.1
          omega
        simp [heard, h]
      · have hn : j.isNegated → k ≤ place j := fun hi => Nat.le_of_not_lt fun hk => h ⟨hi, hk⟩
        have hs : heard k (j :: js) = (j :: js, 0) ↔ heard (place j + 1) js = (js, 0) := by
          simp [heard, h, Prod.ext_iff]
        rw [hs, ih]
        simpa only [List.head?_cons, Option.mem_some_iff, forall_eq'] using
          ⟨fun hr => ⟨hn, hr⟩, fun hr => hr.2⟩

end Key

end Sift
