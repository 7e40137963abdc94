import Mathlib.Data.List.Forall2
import Sift.Proofs.Classes
import Sift.Proofs.Shape.Value

namespace Sift

open Sift.Except (Agree agree_bind agree_foldlM)

theorem Comparator.check_congr {v w : Value} (h : v.shape = w.shape) (op : Comparator) (key : String) :
    op.check key v = op.check key w := by
  rw [check, check, v.isNull_eq, w.isNull_eq, v.isArray_eq, w.isArray_eq, h]

inductive Criterion.Alike (wildcards : Bool) : Criterion → Criterion → Prop where
  | mk (c : Criterion) {v w : Value} (h : v.Alike wildcards w) (hc : c.value = v.raw) :
      Alike wildcards c { c with value := w.raw }

/-- Entries that only differ in the values of terms. A term that was built beforehand is compared before its
value is unwrapped, so with a comparator the values have the same shape as they are. -/
inductive Entry.Alike (wildcards : Bool) : Entry → Entry → Prop where
  | options (o : Options) : Alike wildcards (.options o) (.options o)
  | selectable (s : Selectable) : Alike wildcards (.selectable s) (.selectable s)
  | term (key : String) {v w : Value} (h : v.Alike wildcards w) :
      Alike wildcards (.term key v) (.term key w)
  | criterion (c : Criterion) {w : Value} (h : c.value.Alike wildcards w)
      (hc : c.comparator ≠ none → c.value.shape = w.shape) :
      Alike wildcards (.criterion c) (.criterion { c with value := w })

namespace Key

variable {v w : Value} (h : v.shape = w.shape)

include h

theorem takeComparators_congr (field : String) (table : List (List Char × Comparator)) (ops : Operators)
    (cs : List Char) : takeComparators field v table ops cs = takeComparators field w table ops cs := by
  induction table generalizing ops cs with
  | nil => rfl
  | cons row table ih =>
      simp only [takeComparators, Comparator.check_congr h, ih]

theorem reduce_congr (field : String) (n : Nat) (ops : Operators) (cs : List Char) :
    reduce field v n ops cs = reduce field w n ops cs := by
  induction n generalizing ops cs with
  | zero => cases cs <;> rfl
  | succ n ih =>
      cases cs with
      | nil => rfl
      | cons c cs => simp only [reduce, pass, takeComparators_congr h, ih]

end Key

theorem Key.read_agree {wildcards : Bool} {v w : Value} (h : v.Alike wildcards w) (key : String)
    (index : Nat) : Agree (Criterion.Alike wildcards) (read key v index) (read key w index) := by
  simp only [read, reduce_congr h.shape]
  apply agree_bind
  intro ops
  exact .ok (.mk _ h rfl)

namespace Classes

inductive Alike (wildcards : Bool) : Classes → Classes → Prop where
  | mk (p : Classes) {ws hs : List Criterion} (ho : p.options.wildcards = wildcards)
      (hw : List.Forall₂ (Criterion.Alike wildcards) p.whereTerms ws)
      (hh : List.Forall₂ (Criterion.Alike wildcards) p.havingTerms hs) :
      Alike wildcards p { p with whereTerms := ws, havingTerms := hs }

variable {wildcards : Bool} {p p' : Classes}

theorem Alike.nextIndex (h : Alike wildcards p p') : p.nextIndex = p'.nextIndex := by
  cases h with
  | mk ho hw hh => rw [Classes.nextIndex, Classes.nextIndex, hw.length_eq, hh.length_eq]

theorem Alike.push (h : Alike wildcards p p') {c d : Criterion} (hc : Criterion.Alike wildcards c d) :
    Alike wildcards (p.push c) (p'.push d) := by
  cases h with
  | @mk ws hs ho hw hh =>
      have hd := hc
      cases hc with
      | @mk v w hv hcv =>
          -- where a term goes is not decided by its value
          have hg : goesToHaving { p with whereTerms := ws, havingTerms := hs } { c with value := w.raw } =
              p.goesToHaving c := rfl
          rw [Classes.push, Classes.push, hg]
          split
          · exact .mk _ ho hw (List.rel_append hh (.cons hd .nil))
          · exact .mk _ ho (List.rel_append hw (.cons hd .nil)) hh

theorem Alike.add (h : Alike wildcards p p') {e e' : Entry} (he : e.Alike wildcards e') :
    Agree (Alike wildcards) (p.add e) (p'.add e') := by
  cases he with
  | options o => exact .ok h
  | selectable s =>
      cases h with
      | mk ho hw hh => exact .ok (.mk _ ho hw hh)
  | term key hv =>
      rw [Classes.add, Classes.add, ← h.nextIndex]
      apply (Key.read_agree hv key p.nextIndex).bind
      intro c d hc
      exact .ok (h.push hc)
  | @criterion c w hv hs =>
      have hp : Alike wildcards (p.push { c with index := p.nextIndex, value := c.value.raw, literal := false })
          (p'.push { c with index := p'.nextIndex, value := w.raw, literal := false }) := by
        rw [← h.nextIndex]
        exact h.push (.mk _ hv rfl)
      rw [Classes.add, Classes.add]
      cases hc : c.comparator with
      | none =>
          rw [hc] at hp
          exact .ok hp
      | some op =>
          rw [hc] at hp
          simp only [← Comparator.check_congr (hs (by simp [hc]))]
          apply agree_bind
          intro _
          exact .ok hp

end Classes

namespace Criteria

def wildcards (cs : Criteria) : Bool :=
  match cs.options with
  | .ok o => o.wildcards
  | .error _ => false

/-- Criteria that only differ in the values of their terms. Values in one place have the same shape, and if
wildcards count they are both patterns or both none. -/
def Alike (cs ds : Criteria) : Prop := List.Forall₂ (Entry.Alike cs.wildcards) cs ds

variable {cs ds : Criteria}

theorem Alike.options (h : Alike cs ds) : cs.options = ds.options := by
  have hi (e e' : Entry) (he : e.Alike cs.wildcards e') : isOptions e = isOptions e' := by
    cases he <;> rfl
  cases h with
  | nil => rfl
  | cons he hl =>
      cases he <;> simp only [Criteria.options, List.tail_cons, any_isOptions hi hl] <;> rfl

end Criteria

theorem Classes.ofCriteria_agree {cs ds : Criteria} (h : cs.Alike ds) :
    Agree (Alike cs.wildcards) (ofCriteria cs) (ofCriteria ds) := by
  rw [ofCriteria, ofCriteria, ← h.options]
  cases ho : cs.options with
  | error e => exact .error e
  | ok o =>
      have hw : o.wildcards = cs.wildcards := by rw [Criteria.wildcards, ho]
      exact agree_foldlM (fun _ _ _ _ hp he => hp.add he) h (.mk (start o) hw .nil .nil)

end Sift
