import Mathlib.Data.List.SplitBy
import Sift.Key.Operators

namespace Sift.Key

def runs (cs : List Char) : List (List Char) := cs.splitBy (· == ·)

def isNegation (run : List Char) : Bool := run.head? = some '!'

/-- Two negations are none, so what counts in a run is whether their number is odd. -/
def halve (run : List Char) : List Char := if isNegation run then List.replicate (run.length % 2) '!' else run

def halved (cs : List Char) : List Char := (runs cs).flatMap halve

def oddRuns (cs : List Char) : Nat := (runs cs).countP fun run => isNegation run && run.length % 2 = 1

theorem collapse_cons {c : Char} (h : c ≠ '!') (cs : List Char) : collapse (c :: cs) = c :: collapse cs := by
  rw [collapse]
  rintro rest rfl
  exact absurd rfl h

theorem collapse_negation {cs : List Char} (h : cs.head? ≠ some '!') :
    collapse ('!' :: cs) = '!' :: collapse cs := by
  rw [collapse]
  rintro rest - rfl
  exact h rfl

theorem collapse_append {run : List Char} (h : '!' ∉ run) (cs : List Char) :
    collapse (run ++ cs) = run ++ collapse cs := by
  induction run with
  | nil => rfl
  | cons c run ih =>
      rw [List.mem_cons, not_or] at h
      rw [List.cons_append, collapse_cons (Ne.symm h.1), ih h.2, List.cons_append]

theorem collapse_replicate (n : Nat) {cs : List Char} (h : cs.head? ≠ some '!') :
    collapse (List.replicate n '!' ++ cs) = List.replicate (n % 2) '!' ++ collapse cs := by
  match n with
  | 0 => rfl
  | 1 => exact collapse_negation h
  | n + 2 =>
      rw [Nat.add_mod_right, ← collapse_replicate n h]
      rfl

theorem exists_run (c : Char) (cs : List Char) :
    ∃ n rest, cs = List.replicate n c ++ rest ∧ rest.head? ≠ some c := by
  induction cs with
  | nil => exact ⟨0, [], rfl, by simp⟩
  | cons d cs ih =>
      by_cases h : d = c
      · obtain ⟨n, rest, rfl, hr⟩ := ih
        exact ⟨n + 1, rest, by rw [h]; rfl, hr⟩
      · exact ⟨0, d :: cs, rfl, by simpa using h⟩

/-- Induction on the longest runs of a text. -/
@[elab_as_elim]
theorem runs_induction {P : List Char → Prop} (nil : P [])
    (run : ∀ n c cs, cs.head? ≠ some c → P cs → P (List.replicate (n + 1) c ++ cs)) (cs : List Char) :
    P cs := by
  match cs with
  | [] => exact nil
  | c :: cs =>
      obtain ⟨n, rest, he, hr⟩ := exists_run c cs
      have hl : rest.length ≤ cs.length := by
        rw [he, List.length_append]
        omega
      rw [he]
      exact run n c rest hr (runs_induction nil run rest)
termination_by cs.length

theorem runs_append {n : Nat} {c : Char} {cs : List Char} (h : cs.head? ≠ some c) :
    runs (List.replicate (n + 1) c ++ cs) = List.replicate (n + 1) c :: runs cs := by
  have hn : List.replicate (n + 1) c ≠ [] := by simp
  have hc : (List.replicate (n + 1) c).IsChain fun a b => (a == b) = true :=
    List.isChain_replicate_of_rel _ (beq_self_eq_true c)
  rw [runs, List.splitBy_append, List.splitBy_of_isChain hn hc]
  · rfl
  · intro a ha b hb
    rw [List.eq_of_mem_replicate (List.mem_of_mem_getLast? ha), beq_eq_false_iff_ne]
    rintro rfl
    exact h hb

theorem isNegation_replicate (n : Nat) (c : Char) : isNegation (List.replicate (n + 1) c) = (c == '!') := by
  rw [isNegation, List.head?_replicate]
  by_cases h : c = '!' <;> simp [h]

theorem halved_append {n : Nat} {c : Char} {cs : List Char} (h : cs.head? ≠ some c) :
    halved (List.replicate (n + 1) c ++ cs) = halve (List.replicate (n + 1) c) ++ halved cs := by
  rw [halved, runs_append h, List.flatMap_cons, halved]

theorem collapse_eq_halved (cs : List Char) : collapse cs = halved cs := by
  induction cs using runs_induction with
  | nil => rfl
  | run n c cs h ih =>
      rw [halved_append h, ← ih, halve, isNegation_replicate]
      by_cases hc : c = '!'
      · subst hc
        rw [collapse_replicate (n + 1) h, List.length_replicate]
        rfl
      · rw [collapse_append, if_neg (by simpa using hc)]
        intro hm
        exact hc (List.eq_of_mem_replicate hm).symm

theorem count_halved (cs : List Char) : (halved cs).count '!' = oddRuns cs := by
  induction cs using runs_induction with
  | nil => rfl
  | run n c cs h ih =>
      rw [halved_append h, List.count_append, ih, oddRuns, oddRuns, runs_append h, List.countP_cons, halve,
        isNegation_replicate, List.length_replicate, Nat.add_comm]
      congr 1
      by_cases hc : c = '!'
      · have hm := Nat.mod_two_eq_zero_or_one (n + 1)
        rcases hm with hm | hm <;> simp [hc, hm]
      · simp [hc, List.count_replicate]

theorem length_collapse_le (cs : List Char) : (collapse cs).length ≤ cs.length := by
  fun_induction collapse cs with
  | case1 rest ih => exact Nat.le_succ_of_le (Nat.le_succ_of_le ih)
  | case2 c rest _ ih => exact Nat.succ_le_succ ih
  | case3 => exact Nat.le_refl 0

theorem head?_collapse {cs : List Char} (h : cs.head? ≠ some '!') : (collapse cs).head? = cs.head? := by
  cases cs with
  | nil => rfl
  | cons c cs => rw [collapse_cons (fun hc => h (congrArg some hc)), List.head?_cons, List.head?_cons]

def Single (cs : List Char) : Prop := cs.IsChain fun a b => a = '!' → b ≠ '!'

theorem single_collapse (cs : List Char) : Single (collapse cs) := by
  fun_induction collapse cs with
  | case1 rest ih => exact ih
  | case2 c rest hc ih =>
      refine List.isChain_cons.2 ⟨?_, ih⟩
      rintro d hd rfl rfl
      have hr : rest.head? ≠ some '!' := by
        cases rest with
        | nil => simp
        | cons d rest =>
            intro he
            cases he
            exact hc rest rfl rfl
      rw [head?_collapse hr] at hd
      exact hr hd
  | case3 => exact List.isChain_nil

theorem Single.collapse_eq {cs : List Char} (h : Single cs) : collapse cs = cs := by
  induction cs with
  | nil => rfl
  | cons c cs ih =>
      obtain ⟨hc, hs⟩ := List.isChain_cons.1 h
      by_cases hn : c = '!'
      · subst hn
        rw [collapse_negation fun hd => hc '!' hd rfl rfl, ih hs]
      · rw [collapse_cons hn, ih hs]

/-- What is left of a text without double negations has none. -/
theorem collapse_of_suffix {cs rest : List Char} (h : rest <:+ collapse cs) : collapse rest = rest :=
  Single.collapse_eq (List.IsChain.suffix (single_collapse cs) h)

end Sift.Key
