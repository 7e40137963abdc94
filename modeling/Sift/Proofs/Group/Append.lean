import Sift.Path
import Sift.Proofs.Except
import Sift.Proofs.Group.Stack

namespace Sift.Group

def atTop (cs : List Criterion) (ms : List Condition) : Option Condition :=
  if cs = [] then none else some (Frame.top ⟨.all, false, ms⟩)

theorem exists_reads_of_build {leaf : Criterion → Condition} {cs : List Criterion} {r : Option Condition}
    (h : build leaf cs = .ok r) :
    ∃ ms, Reads (cs.flatMap (pieces leaf)) ms [] ∧ r = atTop cs (Member.conditions ms) := by
  obtain ⟨ms, hm⟩ : ∃ ms, Reads (cs.flatMap (pieces leaf)) ms [] := by
    rw [exists_reads_iff, junctors_pieces, ← exists_build_iff leaf]
    exact ⟨r, h⟩
  exact ⟨ms, hm, Except.ok.inj (h.symm.trans (build_of_reads leaf hm))⟩

theorem build_eq_run (leaf : Criterion → Condition) (cs : List Criterion) :
    build leaf cs =
      (run .start (cs.flatMap (pieces leaf))).map fun f => if cs = [] then none else some f.top := by
  cases cs with
  | nil => rfl
  | cons c cs => exact build_cons leaf c cs

theorem run_append (s : Stack) (ps qs : List Piece) :
    run s (ps ++ qs) = (ps.foldlM step s).bind fun t => run t qs := by
  simp only [run, List.foldlM_append]
  cases ps.foldlM step s <;> rfl

theorem exists_foldlM_of_run {s : Stack} {ps : List Piece} {f : Frame} (h : run s ps = .ok f) :
    ∃ t, ps.foldlM step s = .ok t ∧ t.finish = f :=
  Except.map_eq_ok.1 h

theorem length_outer_step {s t : Stack} {p : Piece} (h : step s p = .ok t) (js : List Junctor) :
    s.outer.length + opens (p.junctor?.toList ++ js) + closes js =
      t.outer.length + opens js + closes (p.junctor?.toList ++ js) := by
  match p, s with
  | .leaf c, s =>
      cases h
      rfl
  | .mark key (.opens k n), s =>
      cases h
      simp only [Piece.junctor?, Option.toList_some, List.singleton_append, opens_opens_cons,
        closes_opens_cons, List.length_cons]
      omega
  | .mark key .close, ⟨f, []⟩ => cases h
  | .mark key .close, ⟨f, g :: outer⟩ =>
      cases h
      simp only [Piece.junctor?, Option.toList_some, List.singleton_append, opens_close_cons,
        closes_close_cons, List.length_cons]
      omega

/-- The groups that are open after a run are those before it and those it opens, less those it closes. -/
theorem length_outer_of_foldlM {s t : Stack} {ps : List Piece} (h : ps.foldlM step s = .ok t) :
    s.outer.length + opens (ps.filterMap Piece.junctor?) =
      t.outer.length + closes (ps.filterMap Piece.junctor?) := by
  induction ps generalizing s with
  | nil =>
      cases h
      rfl
  | cons p ps ih =>
      rw [List.foldlM_cons] at h
      obtain ⟨u, hu, ht⟩ := Except.bind_eq_ok.1 h
      have hs := length_outer_step hu (ps.filterMap Piece.junctor?)
      have hi := ih ht
      have hp : (p :: ps).filterMap Piece.junctor? =
          p.junctor?.toList ++ ps.filterMap Piece.junctor? := by
        cases p <;> rfl
      rw [hp]
      omega

/-- To close a group by a mark and to close it at the end is the same. -/
theorem run_replicate_close (s : Stack) (key : String) (k : Nat) :
    run s (List.replicate k (.mark key .close)) =
      if k ≤ s.outer.length then .ok s.finish else .error (.unbalancedGroup key) := by
  induction k generalizing s with
  | zero => simp [run_nil]
  | succ k ih =>
      rw [List.replicate_succ]
      match s with
      | ⟨f, []⟩ => simp [run_close_nil]
      | ⟨f, g :: outer⟩ =>
          rw [run_close_cons, ih]
          simp only [List.length_cons, Nat.add_le_add_iff_right]
          rfl

theorem flatMap_pieces_closers (leaf : Criterion → Condition) {ks : List Criterion}
    (h : ∀ c ∈ ks, c.field = "" ∧ c.junctors = [.close]) :
    ks.flatMap (pieces leaf) = List.replicate ks.length (.mark "" .close) := by
  induction ks with
  | nil => rfl
  | cons c ks ih =>
      obtain ⟨⟨hf, hj⟩, hk⟩ := List.forall_mem_cons.1 h
      rw [List.flatMap_cons, ih hk, pieces, hf, hj, List.length_cons, List.replicate_succ]
      rfl

/-- Closing marks at the end may be left out: a list that leaves `d` groups open has the same condition
with up to `d` closing terms after it, and is refused with more of them. -/
theorem build_append_closers (leaf : Criterion → Condition) {cs : List Criterion} {r : Option Condition}
    (h : build leaf cs = .ok r) :
    ∃ d, opens (cs.flatMap Criterion.junctors) = closes (cs.flatMap Criterion.junctors) + d ∧
      ∀ ks : List Criterion, (∀ c ∈ ks, c.field = "" ∧ c.junctors = [.close]) →
        (ks.length ≤ d → build leaf (cs ++ ks) = .ok r) ∧
        (d < ks.length → build leaf (cs ++ ks) = .error (.unbalancedGroup "")) := by
  rw [build_eq_run] at h
  obtain ⟨f, hf, hr⟩ := Except.map_eq_ok.1 h
  obtain ⟨t, ht, rfl⟩ := exists_foldlM_of_run hf
  have hd := length_outer_of_foldlM ht
  rw [junctors_pieces] at hd
  have hd' : opens (cs.flatMap Criterion.junctors) =
      closes (cs.flatMap Criterion.junctors) + t.outer.length := by
    rw [Nat.add_comm, ← hd]
    exact (Nat.zero_add _).symm
  refine ⟨t.outer.length, hd', ?_⟩
  intro ks hk
  rw [build_eq_run, List.flatMap_append, run_append, ht, flatMap_pieces_closers leaf hk]
  simp only [Except.bind, run_replicate_close]
  constructor
  · intro hl
    have hn : cs ++ ks = [] ↔ cs = [] := by
      rw [List.append_eq_nil_iff, and_iff_left_of_imp]
      rintro rfl
      cases ht
      exact List.length_eq_zero_iff.1 (Nat.le_zero.1 hl)
    simp only [if_pos hl, Except.map, hn, hr]
  · intro hl
    rw [if_neg (Nat.not_le.2 hl)]
    rfl

theorem build_append_closers_nested :
    let leaf : Criterion → Condition := fun c => .isNull (.plain rootSource c.field)
    let cs : List Criterion :=
      [{ Criterion.plain "a" .null with junctors := [.opens .any false] },
        { Criterion.plain "b" .null with junctors := [.close, .opens .any true, .opens .all false] }]
    ∃ r, build leaf cs = .ok r ∧
      (∀ c ∈ [Criterion.closer, .closer, .closer], c.field = "" ∧ c.junctors = [.close]) ∧
      build leaf (cs ++ [.closer, .closer]) = .ok r ∧
      build leaf (cs ++ [.closer, .closer, .closer]) = .error (.unbalancedGroup "") := by
  intro leaf cs
  have hc : ∀ c ∈ [Criterion.closer, .closer, .closer], c.field = "" ∧ c.junctors = [.close] := by
    simp [Criterion.closer, Criterion.plain]
  obtain ⟨d, hd, h⟩ := @build_append_closers leaf cs _ rfl
  have hn : opens (cs.flatMap Criterion.junctors) = 3 ∧ closes (cs.flatMap Criterion.junctors) = 1 := by
    decide
  obtain ⟨hl, -⟩ := h [.closer, .closer] fun c hm => hc c (List.mem_cons_of_mem _ hm)
  obtain ⟨-, hg⟩ := h [.closer, .closer, .closer] hc
  exact ⟨_, rfl, hc, hl (by simp only [List.length_cons, List.length_nil]; omega),
    hg (by simp only [List.length_cons, List.length_nil]; omega)⟩

/-- A list that closes all that it opens leaves nothing on the stack but its members. -/
theorem foldlM_step_of_balanced {ps : List Piece} {ms : List Member} (h : Reads ps ms [])
    (hb : opens (ps.filterMap Piece.junctor?) = closes (ps.filterMap Piece.junctor?)) :
    ps.foldlM step .start = .ok (Stack.start.addAll (Member.conditions ms)) := by
  obtain ⟨t, ht, hf⟩ := exists_foldlM_of_run (run_start_of_reads h)
  have hd := length_outer_of_foldlM ht
  rw [hb, Nat.add_right_cancel_iff] at hd
  obtain ⟨f, outer⟩ := t
  have ho : outer = [] := List.length_eq_zero_iff.1 hd.symm
  subst ho
  have hf' : f = ⟨.all, false, Member.conditions ms⟩ := hf
  rw [ht, Stack.addAll_eq, hf']
  rfl

theorem addAll_addAll (s : Stack) (cs ds : List Condition) :
    (s.addAll cs).addAll ds = s.addAll (cs ++ ds) := List.foldl_append.symm

theorem conditions_eq_nil {leaf : Criterion → Condition} {cs : List Criterion} {ms : List Member}
    (h : Reads (cs.flatMap (pieces leaf)) ms []) (hc : cs = []) : Member.conditions ms = [] := by
  subst hc
  cases h
  rfl

theorem holds_atTop {cs : List Criterion} {ms : List Condition} (h : cs = [] → ms = [])
    (truth : Condition → Bool) :
    (atTop cs ms).all (Condition.holds truth) = Combinator.all.combine (ms.map (Condition.holds truth)) := by
  cases cs with
  | nil =>
      rw [h rfl]
      rfl
  | cons c cs => exact Frame.holds_top truth ms

theorem holds_atTop_append {cs ds : List Criterion} {ms ns : List Condition} (hm : cs = [] → ms = [])
    (hn : ds = [] → ns = []) (truth : Condition → Bool) :
    (atTop (cs ++ ds) (ms ++ ns)).all (Condition.holds truth) =
      ((atTop cs ms).all (Condition.holds truth) && (atTop ds ns).all (Condition.holds truth)) := by
  have hb : cs ++ ds = [] → ms ++ ns = [] := by
    intro h
    obtain ⟨hc, hd⟩ := List.append_eq_nil_iff.1 h
    rw [hm hc, hn hd]
    rfl
  rw [holds_atTop hm, holds_atTop hn, holds_atTop hb, List.map_append]
  exact List.all_append

theorem run_append_of_balanced {leaf : Criterion → Condition} {cs : List Criterion} {ms : List Member}
    (h : Reads (cs.flatMap (pieces leaf)) ms [])
    (hb : opens (cs.flatMap Criterion.junctors) = closes (cs.flatMap Criterion.junctors))
    (ds : List Criterion) :
    run .start ((cs ++ ds).flatMap (pieces leaf)) =
      run (Stack.start.addAll (Member.conditions ms)) (ds.flatMap (pieces leaf)) := by
  rw [← junctors_pieces leaf] at hb
  rw [List.flatMap_append, run_append, foldlM_step_of_balanced h hb]
  rfl

/-- A list that closes all that it opens keeps its members at the top, whatever follows on it. What
follows is refused or not as it is on its own, and both must hold. -/
theorem build_append (leaf : Criterion → Condition) {cs : List Criterion} {r : Option Condition}
    (h : build leaf cs = .ok r)
    (hb : opens (cs.flatMap Criterion.junctors) = closes (cs.flatMap Criterion.junctors)) :
    ∃ ms, r = atTop cs ms ∧
      ((∀ c ∈ cs, c.junctors = [] ∧ c.field ≠ "") → ms = cs.map leaf) ∧
      ∀ ds : List Criterion,
        ((∃ t, build leaf (cs ++ ds) = .ok t) ↔ ∃ q, build leaf ds = .ok q) ∧
        ∀ q, build leaf ds = .ok q →
          ∃ ns, q = atTop ds ns ∧ build leaf (cs ++ ds) = .ok (atTop (cs ++ ds) (ms ++ ns)) ∧
            ∀ truth, (atTop (cs ++ ds) (ms ++ ns)).all (Condition.holds truth) =
              (r.all (Condition.holds truth) && q.all (Condition.holds truth)) := by
  obtain ⟨ms, hm, rfl⟩ := exists_reads_of_build h
  have hrun := run_append_of_balanced hm hb
  refine ⟨Member.conditions ms, rfl, ?_, ?_⟩
  · intro hp
    rw [(reads_unique hm (reads_of_junctors_eq_nil leaf hp)).1, Member.conditions_map_leaf]
  · intro ds
    have happ : ∀ ns, Reads (ds.flatMap (pieces leaf)) ns [] → build leaf (cs ++ ds) =
        .ok (atTop (cs ++ ds) (Member.conditions ms ++ Member.conditions ns)) := by
      intro ns hn
      rw [build_eq_run, hrun, run_of_reads hn, addAll_addAll, run_nil, finish_addAll_start]
      rfl
    refine ⟨⟨?_, ?_⟩, ?_⟩
    · rintro ⟨t, ht⟩
      rw [exists_build_iff, ← junctors_pieces leaf]
      intro ho
      -- no group is open where `ds` begins, so what it closes in excess is refused there as well
      have he := run_error_iff (Stack.start.addAll (Member.conditions ms)) (ds.flatMap (pieces leaf))
      rw [show (Stack.start.addAll (Member.conditions ms)).outer = [] by rw [Stack.addAll_eq]; rfl] at he
      obtain ⟨key, hk⟩ := he.2 ho
      rw [build_eq_run, hrun, hk] at ht
      cases ht
    · rintro ⟨q, hq⟩
      obtain ⟨ns, hn, -⟩ := exists_reads_of_build hq
      exact ⟨_, happ ns hn⟩
    · intro q hq
      obtain ⟨ns, hn, rfl⟩ := exists_reads_of_build hq
      exact ⟨_, rfl, happ ns hn, holds_atTop_append (conditions_eq_nil hm) (conditions_eq_nil hn)⟩

theorem build_append_negated :
    let leaf : Criterion → Condition := fun c => .isNull (.plain rootSource c.field)
    let cs : List Criterion :=
      [.plain "a" .null, { Criterion.plain "b" .null with junctors := [.opens .any true] }, .closer]
    let ds : List Criterion := [{ Criterion.plain "c" .null with junctors := [.opens .any false] }]
    ∃ r q t, build leaf cs = .ok r ∧
      opens (cs.flatMap Criterion.junctors) = closes (cs.flatMap Criterion.junctors) ∧
      build leaf ds = .ok q ∧ build leaf (cs ++ ds) = .ok t ∧
      ∀ truth, t.all (Condition.holds truth) =
        (r.all (Condition.holds truth) && q.all (Condition.holds truth)) := by
  intro leaf cs ds
  obtain ⟨ms, -, -, h⟩ := @build_append leaf cs _ rfl (by decide)
  obtain ⟨ns, -, ht, htruth⟩ := (h ds).2 _ rfl
  exact ⟨_, _, _, rfl, by decide, rfl, ht, htruth⟩

end Sift.Group
