import Sift.Json.Document
import Sift.Json.Printer
import Mathlib.Data.List.Forall2

namespace Sift.Json

mutual

def isWorded : Json → Bool
  | .text _ => true
  | .array items => areWorded items
  | .object members => membersWorded members
  | _ => false

def areWorded : List Json → Bool
  | [] => true
  | j :: rest => j.isWorded && areWorded rest

def membersWorded : List (String × Json) → Bool
  | [] => true
  | (_, j) :: rest => j.isWorded && membersWorded rest

end

def units (s : String) : List Unit16 := s.toList.map .char

mutual

def tokens : Json → List Token
  | .text s => [.text (units s)]
  | .array items => .beginArray :: ([.comma].intercalate (tokensItems items) ++ [.endArray])
  | .object members => .beginObject :: ([.comma].intercalate (tokensMembers members) ++ [.endObject])
  | _ => []

def tokensItems : List Json → List (List Token)
  | [] => []
  | j :: rest => tokens j :: tokensItems rest

def tokensMembers : List (String × Json) → List (List Token)
  | [] => []
  | (name, j) :: rest => (.text (units name) :: .colon :: tokens j) :: tokensMembers rest

end

theorem joinUnits_units (s : String) : joinUnits (units s) = some s.toList := by
  have h (cs : List Char) : joinUnits (cs.map .char) = some cs := by
    induction cs with
    | nil => rfl
    | cons c cs ih => rw [List.map_cons, joinUnits, ih, Option.map_some]
  exact h s.toList

def Scans (cs : List Char) (ts : List Token) : Prop :=
  ∀ done rest, scan .between done (cs ++ rest) = scan .between (ts.reverse ++ done) rest

theorem Scans.nil : Scans [] [] := fun _ _ => rfl

theorem Scans.append {cs cs' : List Char} {ts ts' : List Token} (h : Scans cs ts)
    (h' : Scans cs' ts') : Scans (cs ++ cs') (ts ++ ts') := by
  intro done rest
  rw [List.append_assoc, h, h', List.reverse_append, List.append_assoc]

theorem Scans.intercalate {css : List (List Char)} {tss : List (List Token)}
    (h : List.Forall₂ Scans css tss) : Scans ([','].intercalate css) ([.comma].intercalate tss) := by
  have hc : Scans [','] [.comma] := fun _ _ => rfl
  induction h with
  | nil => exact .nil
  | cons hs h ih =>
      cases h with
      | nil => simpa using hs
      | cons hs' h =>
          rw [List.intercalate_cons_cons, List.intercalate_cons_cons]
          exact (hs.append hc).append ih

theorem hexValue?_hexDigit {n : Nat} (h : n < 16) : Text.hexValue? (hexDigit n) = some n := by
  revert n
  decide

theorem unitOfCode_toNat {c : Char} (h : c.toNat < 0xd800) : unitOfCode c.toNat = .char c := by
  have hn : ¬ (0xd800 ≤ c.toNat ∧ c.toNat < 0xe000) := by omega
  simp [unitOfCode, hn, Char.ofNat_toNat]

theorem scan_code {c : Char} (h : c.toNat < 0x20) (done : List Unit16) (ts : List Token)
    (rest : List Char) :
    scan (.code done 4 0) ts
        ('0' :: '0' :: hexDigit (c.toNat / 16) :: hexDigit (c.toNat % 16) :: rest) =
      scan (.text (.char c :: done)) ts rest := by
  have hz : Text.hexValue? '0' = some 0 := by decide
  have hh : Text.hexValue? (hexDigit (c.toNat / 16)) = some (c.toNat / 16) :=
    hexValue?_hexDigit (by omega)
  have hl : Text.hexValue? (hexDigit (c.toNat % 16)) = some (c.toNat % 16) :=
    hexValue?_hexDigit (by omega)
  have hc : 16 * (c.toNat / 16) + c.toNat % 16 = c.toNat := by omega
  simp [scan, Scan.step, hz, hh, hl, hc, unitOfCode_toNat (show c.toNat < 0xd800 by omega)]

/-- One character of a text, in the form in which it is written. -/
theorem scan_escape (c : Char) (done : List Unit16) (ts : List Token) (rest : List Char) :
    scan (.text done) ts (escape c ++ rest) = scan (.text (.char c :: done)) ts rest := by
  unfold escape
  split_ifs with hq hb h8 ht hn hf hr hs
  · subst hq; rfl
  · subst hb; rfl
  · subst h8; rfl
  · subst ht; rfl
  · subst hn; rfl
  · subst hf; rfl
  · subst hr; rfl
  · exact scan_code hs done ts rest
  · simp [scan, Scan.step, hq, hb, hs]

theorem scan_escapes (cs : List Char) (done : List Unit16) (ts : List Token) (rest : List Char) :
    scan (.text done) ts (cs.flatMap escape ++ '"' :: rest) =
      scan .between (.text (done.reverse ++ cs.map .char) :: ts) rest := by
  induction cs generalizing done with
  | nil => simp [scan, Scan.step]
  | cons c cs ih =>
      rw [List.flatMap_cons, List.append_assoc, scan_escape, ih]
      simp

theorem scans_quoted (s : String) : Scans (quoted s).toList [.text (units s)] := by
  intro done rest
  have h := scan_escapes s.toList [] done rest
  rw [quoted, String.toList_ofList, List.append_assoc, List.cons_append]
  exact h

mutual

theorem scans_print {j : Json} (h : j.isWorded = true) : Scans (print j).toList (tokens j) := by
  match j with
  | .text s => exact scans_quoted s
  | .array items =>
      have hw : areWorded items = true := h
      have hi := Scans.intercalate (scans_printItems hw)
      have ho : Scans ['['] [.beginArray] := fun _ _ => rfl
      have hc : Scans [']'] [.endArray] := fun _ _ => rfl
      rw [print, String.toList_append, String.toList_append, String.toList_intercalate]
      exact (ho.append hi).append hc
  | .object members =>
      have hw : membersWorded members = true := h
      have hm := Scans.intercalate (scans_printMembers hw)
      have ho : Scans ['\x7b'] [.beginObject] := fun _ _ => rfl
      have hc : Scans ['\x7d'] [.endObject] := fun _ _ => rfl
      rw [print, String.toList_append, String.toList_append, String.toList_intercalate]
      exact (ho.append hm).append hc

theorem scans_printItems {items : List Json} (h : areWorded items = true) :
    List.Forall₂ Scans ((printItems items).map String.toList) (tokensItems items) := by
  match items with
  | [] => exact .nil
  | j :: items =>
      rw [areWorded, Bool.and_eq_true] at h
      exact .cons (scans_print h.1) (scans_printItems h.2)

theorem scans_printMembers {members : List (String × Json)} (h : membersWorded members = true) :
    List.Forall₂ Scans ((printMembers members).map String.toList) (tokensMembers members) := by
  match members with
  | [] => exact .nil
  | (name, j) :: members =>
      rw [membersWorded, Bool.and_eq_true] at h
      have hc : Scans [':'] [.colon] := fun _ _ => rfl
      refine .cons ?_ (scans_printMembers h.2)
      rw [String.toList_append, String.toList_append]
      exact ((scans_quoted name).append hc).append (scans_print h.1)

end

end Sift.Json
