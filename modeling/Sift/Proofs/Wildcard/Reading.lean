import Sift.Proofs.Pattern.Groups
import Sift.Proofs.Wildcard.Parts

namespace Sift.Wildcard

open Pattern (Line Reader Spans)
open Pattern.Reader (Runs)

def special : List Char := ['.', '+', '*', '?', '(', ')', '|', '[', '\x7b', '^', '$', '\\']

namespace Part

def isPlain : Part → Bool
  | char c => c ∉ special
  | any | one => true

def dot : Pattern := .one (.complement (.single '\n'))

def pattern : Part → Pattern
  | any => .times dot 0 none
  | one => .times dot 0 (some 1)
  | char c => .one (.single c)

def depth : Part → Nat
  | any | one => 1
  | char _ => 0

end Part

/-- Apart from the wildcards and their escapes all characters stand for themselves in a regular expression. -/
def Plain (s : String) : Prop := ∀ p ∈ parts s.toList, p.isPlain = true

instance (s : String) : Decidable (Plain s) := inferInstanceAs (Decidable (∀ p ∈ parts s.toList, p.isPlain = true))

def addPart (g : Pattern.Group) (p : Part) : Pattern.Group := g.add p.pattern p.depth

def addParts (g : Pattern.Group) (ps : List Part) : Pattern.Group := ps.foldl addPart g

def addTexts (g : Pattern.Group) : List (List Part) → Pattern.Group
  | [] => g
  | [ps] => addParts g ps
  | ps :: pss => addTexts (addParts g ps).divide pss

variable {r q : Reader} {p : Part} {ps : List Part} {pss : List (List Part)} {rest : List Char}

section Reading

theorem head?_regexp (hp : p.isPlain = true) : (p.regexp ++ rest).head? ≠ some '?' := by
  cases p with
  | any | one => simp [Part.regexp]
  | char c =>
      rw [Part.regexp]
      split
      · simp
      · have hc : c ∉ special := of_decide_eq_true hp
        rintro ⟨rfl⟩
        exact hc (by decide)

theorem skipGreed_of_head? (h : rest.head? ≠ some '?') : Reader.skipGreed rest = rest := by
  cases rest with
  | nil => rfl
  | cons c rest =>
      rw [Reader.skipGreed]
      rintro rest' ⟨rfl, -⟩
      exact h rfl

theorem open?_of_head? (hf : r.flags = .initial) (h : rest.head? ≠ some '?') :
    r.open? rest = some (r.enter r.flags, rest) := by
  have hb : r.flags.skipBlanks rest = rest := by
    rw [hf]
    rfl
  rw [Reader.open?, hb]
  cases rest with
  | nil => rfl
  | cons c rest =>
      have hc : c ≠ '?' := fun hc => h (congrArg some hc)
      split <;> simp_all

theorem step?_char {c : Char} (hf : r.flags = .initial) (hc : c ∉ special) :
    r.step? c rest = some ({ r with group := addPart r.group (.char c) }, rest) := by
  simp only [special, List.mem_cons, not_or] at hc
  obtain ⟨h₁, h₂, h₃, h₄, h₅, h₆, h₇, h₈, h₉, h₁₀, h₁₁, h₁₂, -⟩ := hc
  have hl : r.step? c rest = r.literal? c rest := by
    unfold Reader.step?
    split <;> first | contradiction | rfl
  obtain ⟨flags, group, outer, names⟩ := r
  obtain rfl : flags = .initial := hf
  exact hl

theorem step?_escaped {c : Char} (hf : r.flags = .initial) (hc : c = '%' ∨ c = '_') :
    r.step? '\\' (c :: rest) = some ({ r with group := addPart r.group (.char c) }, rest) := by
  obtain ⟨flags, group, outer, names⟩ := r
  obtain rfl : flags = .initial := hf
  rcases hc with rfl | rfl <;> rfl

/-- The reader takes what a part became back for the part. -/
theorem runs_part (hf : r.flags = .initial) (hp : p.isPlain = true) (hr : rest.head? ≠ some '?')
    (h : Runs { r with group := addPart r.group p } rest q) : Runs r (p.regexp ++ rest) q := by
  have hb : r.flags.ignoreBlanks = false := by
    rw [hf]
    rfl
  have hd (cs : List Char) : r.step? '.' cs = some ({ r with group := r.group.add Part.dot 0 }, cs) := by
    obtain ⟨flags, group, outer, names⟩ := r
    obtain rfl : flags = .initial := hf
    rfl
  have hg (r' : Reader) : some (r', Reader.skipGreed rest) = some (r', rest) :=
    congrArg (fun cs => some (r', cs)) (skipGreed_of_head? hr)
  cases p with
  | any | one => exact .step hb (hd _) (Nat.le_refl _) (.step hb (hg _) (Nat.le_refl _) h)
  | char c =>
      by_cases hc : c = '%' ∨ c = '_'
      · rw [Part.regexp, if_pos hc]
        exact .step hb (step?_escaped hf hc) (Nat.le_succ _) h
      · rw [Part.regexp, if_neg hc]
        exact .step hb (step?_char hf (of_decide_eq_true hp)) (Nat.le_refl _) h

theorem runs_parts (hf : r.flags = .initial) (hp : ∀ p ∈ ps, p.isPlain = true) (hr : rest.head? ≠ some '?')
    (h : Runs { r with group := addParts r.group ps } rest q) :
    Runs r (ps.flatMap Part.regexp ++ rest) q ∧ (ps.flatMap Part.regexp ++ rest).head? ≠ some '?' := by
  induction ps generalizing r with
  | nil => exact ⟨h, hr⟩
  | cons p ps ih =>
      obtain ⟨hp, hps⟩ := List.forall_mem_cons.1 hp
      obtain ⟨h, hr⟩ := ih (r := { r with group := addPart r.group p }) hf hps h
      rw [List.flatMap_cons, List.append_assoc]
      exact ⟨runs_part hf hp hr h, head?_regexp hp⟩

def alternatives (pss : List (List Part)) : List Char :=
  ['|'].intercalate (pss.map fun ps => ps.flatMap Part.regexp)

theorem runs_alternatives (hf : r.flags = .initial) (hp : ∀ ps ∈ pss, ∀ p ∈ ps, p.isPlain = true)
    (hr : rest.head? ≠ some '?') (h : Runs { r with group := addTexts r.group pss } rest q) :
    Runs r (alternatives pss ++ rest) q ∧ (alternatives pss ++ rest).head? ≠ some '?' := by
  induction pss generalizing r with
  | nil => exact ⟨h, hr⟩
  | cons ps pss ih =>
      obtain ⟨hps, hp⟩ := List.forall_mem_cons.1 hp
      cases pss with
      | nil =>
          rw [alternatives, List.map_singleton, List.intercalate_singleton]
          exact runs_parts hf hps hr h
      | cons ps' pss =>
          have ha : alternatives (ps :: ps' :: pss) = ps.flatMap Part.regexp ++ '|' :: alternatives (ps' :: pss) := by
            simp [alternatives, List.intercalate_cons_cons]
          obtain ⟨h, -⟩ := ih (r := { r with group := (addParts r.group ps).divide }) hf hp h
          rw [ha, List.append_assoc, List.cons_append]
          apply runs_parts hf hps (by simp)
          refine .step ?_ rfl (Nat.le_refl _) h
          rw [hf]
          rfl

end Reading

section Meaning

variable {g : Pattern.Group} {t : Array Char} {i j : Nat}

theorem addParts_eq (g : Pattern.Group) (ps : List Part) :
    addParts g ps = { g with parts := (ps.map fun p => ⟨some p.pattern, p.depth⟩).reverse ++ g.parts } := by
  induction ps generalizing g with
  | nil => rfl
  | cons p ps ih =>
      rw [addParts, List.foldl_cons, ← addParts, ih]
      simp [addPart, Pattern.Group.add]

theorem spans_branch_addParts (hg : g.parts = []) :
    Spans t (addParts g ps).branch.whole i j ↔ Line t (ps.map Part.pattern) i j := by
  rw [Pattern.Group.spans_branch, addParts_eq, hg]
  simp [List.filterMap_reverse]

theorem spans_whole_addTexts (hg : g.parts = []) (hn : pss ≠ []) :
    Spans t (addTexts g pss).whole.whole i j ↔
      (∃ b ∈ g.branches, Spans t b.whole i j) ∨ ∃ ps ∈ pss, Line t (ps.map Part.pattern) i j := by
  induction pss generalizing g with
  | nil => exact absurd rfl hn
  | cons ps pss ih =>
      have hb : (addParts g ps).branches = g.branches := by rw [addParts_eq]
      cases pss with
      | nil =>
          rw [addTexts, Pattern.Group.spans_whole, spans_branch_addParts hg, hb, or_comm]
          simp
      | cons ps' pss =>
          rw [addTexts, ih rfl (List.cons_ne_nil _ _), Pattern.Group.divide]
          · rw [List.exists_mem_cons_iff, spans_branch_addParts hg, hb,
              List.exists_mem_cons_iff (a := ps), ← or_assoc, or_comm (a := Line t _ i j)]
          · exact List.cons_ne_nil _ _

theorem outer_addTexts (g : Pattern.Group) (pss : List (List Part)) : (addTexts g pss).outer = g.outer := by
  induction pss generalizing g with
  | nil => rfl
  | cons ps pss ih =>
      cases pss with
      | nil => rw [addTexts, addParts_eq]
      | cons ps' pss =>
          rw [addTexts, ih, Pattern.Group.divide, addParts_eq]
          exact List.cons_ne_nil _ _

theorem depth_branch_addParts (hg : g.parts = []) : (addParts g ps).branch.depth ≤ 2 := by
  apply Pattern.Group.depth_branch
  rw [addParts_eq, hg]
  simp only [List.append_nil, List.mem_reverse, List.mem_map]
  rintro _ ⟨p, -, rfl⟩
  cases p <;> simp [Part.depth]

theorem depth_whole_addTexts (hg : g.parts = []) (hb : ∀ b ∈ g.branches, b.depth ≤ 2) :
    (addTexts g pss).whole.depth ≤ 3 := by
  have ha (g : Pattern.Group) (ps : List Part) : (addParts g ps).branches = g.branches := by rw [addParts_eq]
  induction pss generalizing g with
  | nil =>
      have hl : (addParts g []).branch.depth ≤ 2 := depth_branch_addParts hg
      exact Pattern.Group.depth_whole hl hb
  | cons ps pss ih =>
      have hl : (addParts g ps).branch.depth ≤ 2 := depth_branch_addParts hg
      cases pss with
      | nil => exact Pattern.Group.depth_whole hl (ha g ps ▸ hb)
      | cons ps' pss => exact ih rfl (List.forall_mem_cons.2 ⟨hl, ha g ps ▸ hb⟩)

end Meaning

end Sift.Wildcard
