import Sift.Group
import Sift.Proofs.Condition

namespace Sift.Group

/-- A list of terms in pieces: its group marks, each with the key of its term, and the conditions of its
terms. -/
inductive Piece where
  | mark (key : String) (j : Junctor)
  | leaf (c : Condition)

def pieces (leaf : Criterion → Condition) (c : Criterion) : List Piece :=
  c.junctors.map (.mark c.field) ++ if c.field = "" then [] else [.leaf (leaf c)]

def Piece.junctor? : Piece → Option Junctor
  | .mark _ j => some j
  | .leaf _ => none

def Piece.leaf? : Piece → Option Condition
  | .mark _ _ => none
  | .leaf c => some c

inductive Member where
  | leaf (c : Condition)
  | group (combinator : Combinator) (negated : Bool) (members : List Member)

namespace Member

mutual

def condition : Member → Condition
  | leaf c => c
  | group combinator negated members => Frame.condition ⟨combinator, negated, conditions members⟩

def conditions : List Member → List Condition
  | [] => []
  | m :: ms => m.condition :: conditions ms

end

mutual

def leaves : Member → List Condition
  | leaf c => [c]
  | group _ _ members => leavesAll members

def leavesAll : List Member → List Condition
  | [] => []
  | m :: ms => m.leaves ++ leavesAll ms

end

mutual

def holds (truth : Condition → Bool) : Member → Bool
  | leaf c => truth c
  | group combinator negated members => negated ^^ combinator.combine (holdsEach truth members)

def holdsEach (truth : Condition → Bool) : List Member → List Bool
  | [] => []
  | m :: ms => m.holds truth :: holdsEach truth ms

end

end Member

/-- The recursive reading of a list in pieces: members, and the rest from the closing mark on which they
end. A group goes up to its closing mark, or up to the end of the list. -/
inductive Reads : List Piece → List Member → List Piece → Prop where
  | done : Reads [] [] []
  | close (key : String) (ps : List Piece) : Reads (.mark key .close :: ps) [] (.mark key .close :: ps)
  | leaf (c : Condition) {ps : List Piece} {ms : List Member} {rest : List Piece} (h : Reads ps ms rest) :
      Reads (.leaf c :: ps) (.leaf c :: ms) rest
  | group (key : String) (k : Combinator) (n : Bool) (key' : String) {ps qs : List Piece}
      {inner ms : List Member} {rest : List Piece} (h : Reads ps inner (.mark key' .close :: qs))
      (h' : Reads qs ms rest) : Reads (.mark key (.opens k n) :: ps) (.group k n inner :: ms) rest
  | opened (key : String) (k : Combinator) (n : Bool) {ps : List Piece} {inner : List Member}
      (h : Reads ps inner []) : Reads (.mark key (.opens k n) :: ps) [.group k n inner] []

@[simp] theorem filterMap_junctor?_mark (key : String) (j : Junctor) (ps : List Piece) :
    (Piece.mark key j :: ps).filterMap Piece.junctor? = j :: ps.filterMap Piece.junctor? := rfl

@[simp] theorem filterMap_junctor?_leaf (c : Condition) (ps : List Piece) :
    (Piece.leaf c :: ps).filterMap Piece.junctor? = ps.filterMap Piece.junctor? := rfl

@[simp] theorem filterMap_leaf?_mark (key : String) (j : Junctor) (ps : List Piece) :
    (Piece.mark key j :: ps).filterMap Piece.leaf? = ps.filterMap Piece.leaf? := rfl

@[simp] theorem filterMap_leaf?_leaf (c : Condition) (ps : List Piece) :
    (Piece.leaf c :: ps).filterMap Piece.leaf? = c :: ps.filterMap Piece.leaf? := rfl

theorem junctors_pieces (leaf : Criterion → Condition) (cs : List Criterion) :
    (cs.flatMap (pieces leaf)).filterMap Piece.junctor? = cs.flatMap Criterion.junctors := by
  induction cs with
  | nil => rfl
  | cons c cs ih =>
      have hm : (c.junctors.map (Piece.mark c.field)).filterMap Piece.junctor? = c.junctors := by
        rw [List.filterMap_map]
        exact List.filterMap_some
      have hl : (if c.field = "" then [] else [Piece.leaf (leaf c)]).filterMap Piece.junctor? = [] := by
        split <;> rfl
      rw [List.flatMap_cons, List.filterMap_append, ih, pieces, List.filterMap_append, hm, hl]
      simp

theorem leaves_pieces (leaf : Criterion → Condition) (cs : List Criterion) :
    (cs.flatMap (pieces leaf)).filterMap Piece.leaf? =
      (cs.filter fun c => c.field ≠ "").map leaf := by
  induction cs with
  | nil => rfl
  | cons c cs ih =>
      have hm : (c.junctors.map (Piece.mark c.field)).filterMap Piece.leaf? = [] := by
        simp [List.filterMap_map, Piece.leaf?]
      rw [List.flatMap_cons, List.filterMap_append, ih, pieces, List.filterMap_append, hm]
      by_cases hf : c.field = "" <;> simp [hf, Piece.leaf?]

namespace Member

mutual

theorem holds_condition (truth : Condition → Bool) (m : Member) :
    m.condition.holds truth = m.holds (Condition.holds truth) := by
  cases m with
  | leaf c => rfl
  | group combinator negated members =>
      have h := map_holds_conditions truth members
      cases negated <;> simp [condition, Frame.condition, holds, h]

theorem map_holds_conditions (truth : Condition → Bool) (ms : List Member) :
    (conditions ms).map (Condition.holds truth) = holdsEach (Condition.holds truth) ms := by
  cases ms with
  | nil => rfl
  | cons m ms =>
      simp only [conditions, holdsEach, List.map_cons, holds_condition truth m,
        map_holds_conditions truth ms]

end

mutual

theorem tests_condition (m : Member) : m.condition.tests = m.leaves.flatMap Condition.tests := by
  cases m with
  | leaf c => simp [condition, leaves]
  | group combinator negated members =>
      have h := flatMap_tests_conditions members
      cases negated <;> simp [condition, Frame.condition, leaves, h]

theorem flatMap_tests_conditions (ms : List Member) :
    (conditions ms).flatMap Condition.tests = (leavesAll ms).flatMap Condition.tests := by
  cases ms with
  | nil => rfl
  | cons m ms =>
      rw [conditions, leavesAll, List.flatMap_cons, List.flatMap_append, tests_condition m,
        flatMap_tests_conditions ms]

end

end Member

theorem Frame.holds_top (truth : Condition → Bool) (cs : List Condition) :
    (Frame.top ⟨.all, false, cs⟩).holds truth = Combinator.all.combine (cs.map (Condition.holds truth)) := by
  match cs with
  | [] | _ :: _ :: _ => simp [Frame.top, Frame.condition]
  | [c] => simp [Frame.top, Combinator.combine]

theorem Frame.tests_top (cs : List Condition) :
    (Frame.top ⟨.all, false, cs⟩).tests = cs.flatMap Condition.tests := by
  match cs with
  | [] | _ :: _ :: _ => simp [Frame.top, Frame.condition]
  | [c] => simp [Frame.top]

theorem reads_unique {ps rest rest' : List Piece} {ms ms' : List Member} (h : Reads ps ms rest)
    (h' : Reads ps ms' rest') : ms = ms' ∧ rest = rest' := by
  induction h generalizing ms' rest' with
  | done | close =>
      cases h'
      exact ⟨rfl, rfl⟩
  | leaf c _ ih =>
      cases h' with
      | leaf _ h' =>
          obtain ⟨rfl, rfl⟩ := ih h'
          exact ⟨rfl, rfl⟩
  | group key k n key' _ _ ih ih' =>
      cases h' with
      | group _ _ _ _ h1 h2 =>
          obtain ⟨rfl, hc⟩ := ih h1
          cases hc
          obtain ⟨rfl, rfl⟩ := ih' h2
          exact ⟨rfl, rfl⟩
      | opened _ _ _ h1 =>
          obtain ⟨-, hc⟩ := ih h1
          cases hc
  | opened key k n _ ih =>
      cases h' with
      | group _ _ _ _ h1 _ =>
          obtain ⟨-, hc⟩ := ih h1
          cases hc
      | opened _ _ _ h1 =>
          obtain ⟨rfl, -⟩ := ih h1
          exact ⟨rfl, rfl⟩

/-- Every list has a reading, which ends with the list or on a closing mark. -/
theorem exists_reads (ps : List Piece) :
    ∃ ms rest, Reads ps ms rest ∧ rest.length ≤ ps.length ∧
      ∀ p ∈ rest.head?, ∃ key, p = .mark key .close := by
  match ps with
  | [] => exact ⟨[], [], .done, Nat.le_refl _, by simp⟩
  | .leaf c :: ps =>
      obtain ⟨ms, rest, hr, hl, hc⟩ := exists_reads ps
      exact ⟨.leaf c :: ms, rest, .leaf c hr, Nat.le_succ_of_le hl, hc⟩
  | .mark key .close :: ps =>
      exact ⟨[], _, .close key ps, Nat.le_refl _, by simp⟩
  | .mark key (.opens k n) :: ps =>
      obtain ⟨inner, rest, hr, hl, hc⟩ := exists_reads ps
      match rest, hr, hl, hc with
      | [], hr, _, _ => exact ⟨_, [], .opened key k n hr, Nat.zero_le _, by simp⟩
      | p :: qs, hr, hl, hc =>
          obtain ⟨key', rfl⟩ := hc p rfl
          -- what follows on the group is not a part of `ps` by structure, but it is shorter
          have hq : qs.length < ps.length := hl
          obtain ⟨ms, rest', hr', hl', hc'⟩ := exists_reads qs
          exact ⟨_, rest', .group key k n key' hr hr', by simp only [List.length_cons]; omega, hc'⟩
termination_by ps.length

/-- A reading leaves out nothing but the marks. -/
theorem leavesAll_of_reads {ps rest : List Piece} {ms : List Member} (h : Reads ps ms rest) :
    ps.filterMap Piece.leaf? = Member.leavesAll ms ++ rest.filterMap Piece.leaf? := by
  induction h with
  | done | close => rfl
  | leaf c _ ih => simp [Member.leavesAll, Member.leaves, ih]
  | group key k n key' _ _ ih ih' => simp [Member.leavesAll, Member.leaves, ih, ih']
  | opened key k n _ ih => simp [Member.leavesAll, Member.leaves, ih]

theorem leavesAll_of_reads_pieces {leaf : Criterion → Condition} {cs : List Criterion} {ms : List Member}
    (h : Reads (cs.flatMap (pieces leaf)) ms []) :
    Member.leavesAll ms = (cs.filter fun c => c.field ≠ "").map leaf := by
  have hl := leavesAll_of_reads h
  rw [leaves_pieces, List.filterMap_nil, List.append_nil] at hl
  exact hl.symm

theorem tests_of_reads {leaf : Criterion → Condition} {cs : List Criterion} {ms : List Member}
    (h : Reads (cs.flatMap (pieces leaf)) ms []) :
    (Frame.top ⟨.all, false, Member.conditions ms⟩).tests =
      ((cs.filter fun c => c.field ≠ "").map leaf).flatMap Condition.tests := by
  rw [Frame.tests_top, Member.flatMap_tests_conditions, leavesAll_of_reads_pieces h]

end Sift.Group
