import Sift.Proofs.Group.Reading

namespace Sift.Group

def step (s : Stack) : Piece → Except CriteriaError Stack
  | .mark key j => s.junction key j
  | .leaf c => .ok (s.add c)

def run (s : Stack) (ps : List Piece) : Except CriteriaError Frame := (ps.foldlM step s).map Stack.finish

def Stack.addAll (s : Stack) (cs : List Condition) : Stack := cs.foldl Stack.add s

def opens (js : List Junctor) : Nat := js.countP fun j => j ≠ .close

def closes (js : List Junctor) : Nat := js.count .close

/-- Up to some mark, more groups are closed than are opened. -/
def Overclosed (js : List Junctor) : Prop := ∃ p, p <+: js ∧ opens p < closes p

theorem Stack.addAll_eq (s : Stack) (cs : List Condition) :
    s.addAll cs = ⟨⟨s.inner.combinator, s.inner.negated, s.inner.members ++ cs⟩, s.outer⟩ := by
  induction cs generalizing s with
  | nil => simp [Stack.addAll]
  | cons c cs ih =>
      rw [Stack.addAll, List.foldl_cons, ← Stack.addAll, ih]
      simp [Stack.add, Frame.add]

theorem run_nil (s : Stack) : run s [] = .ok s.finish := rfl

theorem run_cons (s : Stack) (p : Piece) (ps : List Piece) :
    run s (p :: ps) = (step s p).bind fun t => run t ps := by
  simp only [run, List.foldlM_cons]
  cases step s p <;> rfl

theorem run_leaf (s : Stack) (c : Condition) (ps : List Piece) :
    run s (.leaf c :: ps) = run (s.add c) ps := run_cons ..

theorem run_opens (s : Stack) (key : String) (k : Combinator) (n : Bool) (ps : List Piece) :
    run s (.mark key (.opens k n) :: ps) = run ⟨⟨k, n, []⟩, s.inner :: s.outer⟩ ps := run_cons ..

theorem run_close_nil (f : Frame) (key : String) (ps : List Piece) :
    run ⟨f, []⟩ (.mark key .close :: ps) = .error (.unbalancedGroup key) := run_cons ..

theorem run_close_cons (f g : Frame) (outer : List Frame) (key : String) (ps : List Piece) :
    run ⟨f, g :: outer⟩ (.mark key .close :: ps) = run ⟨g.add f.condition, outer⟩ ps := run_cons ..

theorem foldlM_step_pieces (leaf : Criterion → Condition) (s : Stack) (c : Criterion) :
    (pieces leaf c).foldlM step s = Stack.term leaf s c := by
  rw [pieces, List.foldlM_append, List.foldlM_map]
  apply congrArg (Bind.bind _)
  funext t
  by_cases h : c.field = ""
  · simp [h]
  · simp only [h, if_false]
    rfl

theorem foldlM_term (leaf : Criterion → Condition) (s : Stack) (cs : List Criterion) :
    cs.foldlM (Stack.term leaf) s = (cs.flatMap (pieces leaf)).foldlM step s := by
  induction cs generalizing s with
  | nil => rfl
  | cons c cs ih =>
      rw [List.foldlM_cons, List.flatMap_cons, List.foldlM_append, foldlM_step_pieces]
      apply congrArg (Bind.bind _)
      funext t
      exact ih t

theorem build_cons (leaf : Criterion → Condition) (c : Criterion) (cs : List Criterion) :
    build leaf (c :: cs) =
      (run .start ((c :: cs).flatMap (pieces leaf))).map fun f => some f.top := by
  simp only [build, List.isEmpty_cons, Bool.false_eq_true, if_false, foldlM_term, run]
  cases ((c :: cs).flatMap (pieces leaf)).foldlM step .start <;> rfl

/-- The stack does with the pieces of some members what the reading says, and goes on with the rest. The
groups around do not matter until the rest begins with a closing mark. -/
theorem run_of_reads {ps rest : List Piece} {ms : List Member} (h : Reads ps ms rest) (s : Stack) :
    run s ps = run (s.addAll (Member.conditions ms)) rest := by
  -- a group is read on a stack of its own, so the claim is for all stacks
  induction h generalizing s with
  | done | close => rfl
  | leaf c _ ih => rw [run_leaf, ih]; rfl
  | group key k n key' _ _ ih ih' =>
      rw [run_opens, ih, Stack.addAll_eq, run_close_cons]
      exact ih' _
  | opened key k n _ ih =>
      rw [run_opens, ih, Stack.addAll_eq]
      rfl

theorem exists_prefix_cons {P : List Junctor → Prop} {j : Junctor} {js : List Junctor} :
    (∃ p, p <+: j :: js ∧ P p) ↔ P [] ∨ ∃ p, p <+: js ∧ P (j :: p) := by
  simp only [List.prefix_cons_iff]
  constructor
  · rintro ⟨p, rfl | ⟨q, rfl, hq⟩, hp⟩
    · exact .inl hp
    · exact .inr ⟨q, hq, hp⟩
  · rintro (hp | ⟨q, hq, hp⟩)
    · exact ⟨[], .inl rfl, hp⟩
    · exact ⟨j :: q, .inr ⟨q, rfl, hq⟩, hp⟩

theorem opens_opens_cons (k : Combinator) (n : Bool) (js : List Junctor) :
    opens (.opens k n :: js) = opens js + 1 := by
  simp [opens]

theorem closes_opens_cons (k : Combinator) (n : Bool) (js : List Junctor) :
    closes (.opens k n :: js) = closes js := by
  simp [closes]

theorem opens_close_cons (js : List Junctor) : opens (.close :: js) = opens js := by
  simp [opens]

theorem closes_close_cons (js : List Junctor) : closes (.close :: js) = closes js + 1 := by
  simp [closes]

/-- The depth of the stack is what a list may close without opening it. -/
theorem run_error_iff (s : Stack) (ps : List Piece) :
    (∃ key, run s ps = .error (.unbalancedGroup key)) ↔
      ∃ p, p <+: ps.filterMap Piece.junctor? ∧ opens p + s.outer.length < closes p := by
  induction ps generalizing s with
  | nil => simp [run_nil, opens, closes]
  | cons q ps ih =>
      match q, s with
      | .leaf c, s =>
          rw [run_leaf, ih, filterMap_junctor?_leaf]
          rfl
      | .mark key (.opens k n), s =>
          rw [run_opens, ih, filterMap_junctor?_mark, exists_prefix_cons]
          simp only [opens_opens_cons, closes_opens_cons, List.length_cons]
          constructor
          · rintro ⟨p, hp, hl⟩
            exact .inr ⟨p, hp, by omega⟩
          · rintro (hl | ⟨p, hp, hl⟩)
            · simp [closes] at hl
            · exact ⟨p, hp, by omega⟩
      | .mark key .close, ⟨f, []⟩ =>
          rw [filterMap_junctor?_mark, exists_prefix_cons, run_close_nil]
          constructor
          · intro _
            exact .inr ⟨[], List.nil_prefix, by simp [opens, closes]⟩
          · intro _
            exact ⟨key, rfl⟩
      | .mark key .close, ⟨f, g :: outer⟩ =>
          rw [run_close_cons, ih, filterMap_junctor?_mark, exists_prefix_cons]
          simp only [opens_close_cons, closes_close_cons, List.length_cons]
          constructor
          · rintro ⟨p, hp, hl⟩
            exact .inr ⟨p, hp, by omega⟩
          · rintro (hl | ⟨p, hp, hl⟩)
            · simp [closes] at hl
            · exact ⟨p, hp, by omega⟩

theorem finish_addAll_start (cs : List Condition) :
    (Stack.start.addAll cs).finish = ⟨.all, false, cs⟩ := by
  rw [Stack.addAll_eq]
  rfl

theorem run_start_of_reads {ps : List Piece} {ms : List Member} (h : Reads ps ms []) :
    run .start ps = .ok ⟨.all, false, Member.conditions ms⟩ := by
  rw [run_of_reads h, run_nil, finish_addAll_start]

theorem exists_reads_iff (ps : List Piece) :
    (∃ ms, Reads ps ms []) ↔ ¬ Overclosed (ps.filterMap Piece.junctor?) := by
  have hr := run_error_iff .start ps
  have ho : Overclosed (ps.filterMap Piece.junctor?) ↔ ∃ key, run .start ps = .error (.unbalancedGroup key) :=
    hr.symm
  rw [ho]
  constructor
  · rintro ⟨ms, hm⟩ ⟨key, he⟩
    rw [run_start_of_reads hm] at he
    cases he
  · intro hn
    obtain ⟨ms, rest, hm, -, hc⟩ := exists_reads ps
    cases rest with
    | nil => exact ⟨ms, hm⟩
    | cons p qs =>
        obtain ⟨key, rfl⟩ := hc p rfl
        apply absurd _ hn
        refine ⟨key, ?_⟩
        rw [run_of_reads hm, Stack.addAll_eq]
        exact run_close_nil ..

theorem build_of_reads (leaf : Criterion → Condition) {cs : List Criterion} {ms : List Member}
    (h : Reads (cs.flatMap (pieces leaf)) ms []) :
    build leaf cs = .ok (if cs = [] then none else some (Frame.top ⟨.all, false, Member.conditions ms⟩)) := by
  cases cs with
  | nil => rfl
  | cons c cs =>
      rw [build_cons, run_start_of_reads h]
      rfl

theorem build_error_iff (leaf : Criterion → Condition) (cs : List Criterion) :
    (∃ key, build leaf cs = .error (.unbalancedGroup key)) ↔ Overclosed (cs.flatMap Criterion.junctors) := by
  have hr := run_error_iff .start (cs.flatMap (pieces leaf))
  rw [junctors_pieces] at hr
  apply Iff.trans _ hr
  cases cs with
  | nil => simp [build, run_nil]
  | cons c cs =>
      rw [build_cons]
      cases run .start ((c :: cs).flatMap (pieces leaf)) <;> simp [Except.map]

theorem exists_build_iff (leaf : Criterion → Condition) (cs : List Criterion) :
    (∃ r, build leaf cs = .ok r) ↔ ¬ Overclosed (cs.flatMap Criterion.junctors) := by
  constructor
  · rintro ⟨r, hr⟩ ho
    obtain ⟨key, he⟩ := (build_error_iff leaf cs).2 ho
    rw [hr] at he
    cases he
  · intro ho
    rw [← junctors_pieces leaf, ← exists_reads_iff] at ho
    obtain ⟨ms, hm⟩ := ho
    exact ⟨_, build_of_reads leaf hm⟩

theorem reads_of_junctors_eq_nil (leaf : Criterion → Condition) {cs : List Criterion}
    (h : ∀ c ∈ cs, c.junctors = [] ∧ c.field ≠ "") :
    Reads (cs.flatMap (pieces leaf)) (cs.map fun c => .leaf (leaf c)) [] := by
  induction cs with
  | nil => exact .done
  | cons c cs ih =>
      obtain ⟨⟨hj, hf⟩, hc⟩ := List.forall_mem_cons.1 h
      rw [List.flatMap_cons, pieces, hj, if_neg hf]
      exact .leaf _ (ih hc)

theorem Member.conditions_map_leaf (leaf : Criterion → Condition) (cs : List Criterion) :
    Member.conditions (cs.map fun c => .leaf (leaf c)) = cs.map leaf := by
  induction cs with
  | nil => rfl
  | cons c cs ih => rw [List.map_cons, Member.conditions, ih]; rfl

theorem build_of_junctors_eq_nil (leaf : Criterion → Condition) {cs : List Criterion}
    (h : ∀ c ∈ cs, c.junctors = [] ∧ c.field ≠ "") :
    build leaf cs = .ok (if cs = [] then none else some (Frame.top ⟨.all, false, cs.map leaf⟩)) := by
  rw [build_of_reads leaf (reads_of_junctors_eq_nil leaf h), Member.conditions_map_leaf]

theorem tests_of_build {leaf : Criterion → Condition} {cs : List Criterion} {r : Option Condition}
    (h : build leaf cs = .ok r) :
    r.toList.flatMap Condition.tests =
      ((cs.filter fun c => c.field ≠ "").map leaf).flatMap Condition.tests := by
  have hn : ¬ Overclosed ((cs.flatMap (pieces leaf)).filterMap Piece.junctor?) := by
    rw [junctors_pieces, ← build_error_iff leaf, h]
    simp
  obtain ⟨ms, hm⟩ := (exists_reads_iff _).2 hn
  rw [build_of_reads leaf hm, Except.ok.injEq] at h
  subst h
  split
  · rename_i he
    simp [he]
  · simpa only [Option.toList_some, List.flatMap_singleton] using tests_of_reads hm

/-- A list is refused if and only if it closes a group that it has not opened, and any other list has a
reading. Its condition is made of the members of the reading: the conditions of its terms are in it
once each and in order, and it is true if and only if all members are. -/
theorem build_eq_reading (leaf : Criterion → Condition) (cs : List Criterion) :
    ((∃ key, build leaf cs = .error (.unbalancedGroup key)) ↔ Overclosed (cs.flatMap Criterion.junctors)) ∧
      ((∃ ms, Reads (cs.flatMap (pieces leaf)) ms []) ↔ ¬ Overclosed (cs.flatMap Criterion.junctors)) ∧
      ∀ ms, Reads (cs.flatMap (pieces leaf)) ms [] →
        Member.leavesAll ms = (cs.filter fun c => c.field ≠ "").map leaf ∧
        ∃ r, build leaf cs = .ok r ∧ (r = none ↔ cs = []) ∧
          ∀ c ∈ r, c = Frame.top ⟨.all, false, Member.conditions ms⟩ ∧
            c.tests = ((cs.filter fun c => c.field ≠ "").map leaf).flatMap Condition.tests ∧
            ∀ truth, c.holds truth =
              Combinator.all.combine (Member.holdsEach (Condition.holds truth) ms) := by
  refine ⟨build_error_iff leaf cs, ?_, ?_⟩
  · rw [exists_reads_iff, junctors_pieces]
  · intro ms hm
    refine ⟨leavesAll_of_reads_pieces hm, _, build_of_reads leaf hm, by simp, ?_⟩
    intro c hc
    have hf : c = Frame.top ⟨.all, false, Member.conditions ms⟩ := by
      split at hc
      · cases hc
      · exact (Option.some.inj hc).symm
    subst hf
    refine ⟨rfl, tests_of_reads hm, ?_⟩
    intro truth
    rw [Frame.holds_top, Member.map_holds_conditions]

end Sift.Group
