import Sift.Pattern.Reading
import Sift.Proofs.Pattern.Matching

namespace Sift.Pattern

def Line (t : Array Char) : List Pattern → Nat → Nat → Prop
  | [], i, j => j = i
  | p :: ps, i, j => ∃ k, Spans t p i k ∧ Line t ps k j

variable {t : Array Char} {i j n : Nat}

theorem line_append {ps qs : List Pattern} :
    Line t (ps ++ qs) i j ↔ ∃ k, Line t ps i k ∧ Line t qs k j := by
  induction ps generalizing i with
  | nil => simp [Line]
  | cons p ps ih =>
      simp only [List.cons_append, Line, ih]
      constructor
      · rintro ⟨k, hk, l, hl, hj⟩
        exact ⟨l, ⟨k, hk, hl⟩, hj⟩
      · rintro ⟨l, ⟨k, hk, hl⟩, hj⟩
        exact ⟨k, hk, l, hl, hj⟩

theorem line_singleton {p : Pattern} : Line t [p] i j ↔ Spans t p i j := by
  constructor
  · rintro ⟨k, hk, rfl⟩
    exact hk
  · intro h
    exact ⟨j, h, rfl⟩

namespace Part

def whole (p : Part) : Pattern := p.pattern.getD .empty

end Part

namespace Group

variable {g : Group}

def prepend (rest : Option Pattern) (p : Pattern) : Option Pattern :=
  match rest with
  | none => some p
  | some rest => some (.seq p rest)

theorem spans_prepend {rest : Option Pattern} {p : Pattern} :
    Spans t ((prepend rest p).getD .empty) i j ↔
      ∃ k, Spans t p i k ∧ Spans t (rest.getD .empty) k j := by
  cases rest with
  | none => simp [prepend, Spans]
  | some rest => exact Iff.rfl

theorem spans_foldl_prepend (ps : List Pattern) (rest : Option Pattern) :
    Spans t ((ps.foldl prepend rest).getD .empty) i j ↔
      ∃ k, Line t ps.reverse i k ∧ Spans t (rest.getD .empty) k j := by
  induction ps generalizing rest with
  | nil => simp [Line]
  | cons p ps ih =>
      rw [List.foldl_cons, ih, List.reverse_cons]
      simp only [spans_prepend, line_append, line_singleton]
      constructor
      · rintro ⟨k, hk, l, hl, hj⟩
        exact ⟨l, ⟨k, hk, hl⟩, hj⟩
      · rintro ⟨l, ⟨k, hk, hl⟩, hj⟩
        exact ⟨k, hk, l, hl, hj⟩

/-- A branch is its parts in the order in which they were read. -/
theorem spans_branch :
    Spans t g.branch.whole i j ↔ Line t (g.parts.filterMap Part.pattern).reverse i j := by
  change Spans t (((g.parts.filterMap Part.pattern).foldl prepend none).getD .empty) i j ↔ _
  rw [spans_foldl_prepend]
  simp [Spans]

theorem spans_foldl_alt (bs : List Part) (last : Pattern) :
    Spans t (bs.foldl (fun rest p => Pattern.alt p.whole rest) last) i j ↔
      Spans t last i j ∨ ∃ b ∈ bs, Spans t b.whole i j := by
  induction bs generalizing last with
  | nil => simp
  | cons b bs ih =>
      rw [List.foldl_cons, ih, Spans, List.exists_mem_cons_iff, or_comm (a := Spans t b.whole i j), or_assoc]

/-- A group is any of its branches. -/
theorem spans_whole :
    Spans t g.whole.whole i j ↔ Spans t g.branch.whole i j ∨ ∃ b ∈ g.branches, Spans t b.whole i j :=
  spans_foldl_alt g.branches g.branch.whole

theorem depthOf_le {ps : List Part} (h : ∀ p ∈ ps, p.depth ≤ n) : depthOf ps ≤ n + 1 := by
  have hf (m : Nat) (hm : m ≤ n) : ps.foldl (fun n p => max n p.depth) m ≤ n := by
    induction ps generalizing m with
    | nil => exact hm
    | cons p ps ih =>
        obtain ⟨hp, hps⟩ := List.forall_mem_cons.1 h
        exact ih hps _ (Nat.max_le.2 ⟨hm, hp⟩)
  have h0 := hf 0 (Nat.zero_le n)
  rw [depthOf]
  split <;> omega

theorem depth_branch (h : ∀ p ∈ g.parts, p.depth ≤ n) : g.branch.depth ≤ n + 1 := depthOf_le h

theorem depth_whole (hl : g.branch.depth ≤ n) (hb : ∀ b ∈ g.branches, b.depth ≤ n) : g.whole.depth ≤ n + 1 :=
  depthOf_le (List.forall_mem_cons.2 ⟨hl, hb⟩)

end Group

namespace Reader

inductive Runs : Reader → List Char → Reader → Prop
  | done (r : Reader) : Runs r [] r
  | step {r r' q : Reader} {c : Char} {rest rest' : List Char} (hb : r.flags.ignoreBlanks = false) (hs : r.step? c rest = some (r', rest'))
      (hl : rest'.length ≤ rest.length) (h : Runs r' rest' q) : Runs r (c :: rest) q

variable {r q : Reader} {cs : List Char}

theorem steps?_of_runs (h : Runs r cs q) (hn : cs.length < n) : steps? n r cs = some q := by
  induction h generalizing n with
  | done r =>
      obtain ⟨n, rfl⟩ := Nat.exists_eq_succ_of_ne_zero (Nat.ne_of_gt hn)
      have hb : r.flags.skipBlanks [] = [] := by
        rw [Flags.skipBlanks]
        split <;> rfl
      rw [steps?, hb]
  | step hb hs hl h ih =>
      obtain ⟨n, rfl⟩ := Nat.exists_eq_succ_of_ne_zero (Nat.ne_of_gt (Nat.zero_lt_of_lt hn))
      rw [List.length_cons] at hn
      rw [steps?, Flags.skipBlanks, hb]
      simp only [Bool.false_eq_true, if_false, hs]
      exact ih (by omega)

theorem ofText?_of_runs {s : String} (h : Runs .initial s.toList q) (ho : q.outer = [])
    (hd : q.group.whole.depth ≤ maxDepth) : ofText? s = some q.group.whole.whole := by
  rw [ofText?, steps?_of_runs h (Nat.lt_succ_self _)]
  simp only [Option.bind_eq_bind, Option.bind_some, ho, List.isEmpty_nil, Bool.true_and,
    decide_eq_true hd, if_true]
  rfl

end Reader

end Sift.Pattern
