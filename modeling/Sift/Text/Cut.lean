namespace Sift.Text

def cutFirst (mark : Char) : List Char → Option (List Char × List Char)
  | [] => none
  | c :: rest =>
    if c = mark then some ([], rest)
    else (cutFirst mark rest).map fun (before, after) => (c :: before, after)

def cutLast (mark : Char) : List Char → Option (List Char × List Char)
  | [] => none
  | c :: rest =>
    match cutLast mark rest with
    | some (before, after) => some (c :: before, after)
    | none => if c = mark then some ([], rest) else none

/-- The parts between the marks, one more than there are marks. -/
def segments (mark : Char) : List Char → List (List Char)
  | [] => [[]]
  | c :: rest =>
    if c = mark then [] :: segments mark rest
    else
      match segments mark rest with
      | [] => [[c]]
      | part :: parts => (c :: part) :: parts

def swap (mark by_ : Char) (cs : List Char) : List Char := cs.map fun c => if c = mark then by_ else c

def after? : List Char → List Char → Option (List Char)
  | [], cs => some cs
  | _ :: _, [] => none
  | a :: start, c :: cs => if a = c then after? start cs else none

theorem after?_eq_some {start cs tail : List Char} : after? start cs = some tail ↔ cs = start ++ tail := by
  induction start generalizing cs with
  | nil => simp [after?]
  | cons a start ih =>
      cases cs with
      | nil => simp [after?]
      | cons c cs =>
          rw [after?, List.cons_append, List.cons.injEq]
          split
          · rename_i h
            rw [ih, h]
            simp
          · rename_i h
            simp [Ne.symm h]

theorem after?_eq_none {start cs : List Char} (h : after? start cs = none) : ¬ start <+: cs := by
  rintro ⟨tail, ht⟩
  rw [after?_eq_some.2 ht.symm] at h
  cases h

def replaceFirst (old new : List Char) : List Char → List Char
  | [] => if old.isEmpty then new else []
  | c :: rest =>
    match after? old (c :: rest) with
    | some tail => new ++ tail
    | none => c :: replaceFirst old new rest

end Sift.Text
