import Sift.Proofs.Json.Scan

namespace Sift.Json

mutual

def tree : Json → Document
  | .text s => .text (units s)
  | .array items => .array (treeItems items)
  | .object members => .object (treeMembers members)
  | _ => .null

def treeItems : List Json → List Document
  | [] => []
  | j :: rest => tree j :: treeItems rest

def treeMembers : List (String × Json) → List (List Unit16 × Document)
  | [] => []
  | (name, j) :: rest => (units name, tree j) :: treeMembers rest

end

mutual

def nesting : Json → Nat
  | .array items => nestingItems items + 1
  | .object members => nestingMembers members + 1
  | _ => 0

def nestingItems : List Json → Nat
  | [] => 0
  | j :: rest => max j.nesting (nestingItems rest)

def nestingMembers : List (String × Json) → Nat
  | [] => 0
  | (_, j) :: rest => max j.nesting (nestingMembers rest)

end

namespace Document

def Opens (m m' : Mode) (ts : List Token) : Prop :=
  ∃ t tail, ts = t :: tail ∧ ∀ stack, State.feed ⟨stack, m⟩ t = State.feed ⟨stack, m'⟩ t

variable {m m' : Mode} {ts : List Token}

theorem Opens.intercalate (h : Opens m m' ts) (tss : List (List Token)) :
    Opens m m' ([.comma].intercalate (ts :: tss)) := by
  obtain ⟨t, tail, rfl, ht⟩ := h
  cases tss with
  | nil => exact ⟨t, tail, List.intercalate_singleton, ht⟩
  | cons us tss => exact ⟨t, _, List.intercalate_cons_cons, ht⟩

theorem Opens.run (h : Opens m m' ts) (stack : List Frame) (rest : List Token) :
    (ts ++ rest).foldlM State.feed ⟨stack, m⟩ = (ts ++ rest).foldlM State.feed ⟨stack, m'⟩ := by
  obtain ⟨t, tail, rfl, ht⟩ := h
  rw [List.cons_append, List.foldlM_cons, List.foldlM_cons, ht]

structure Builds (ts : List Token) (d : Document) : Prop where
  opens : Opens .valueOrEnd .value ts
  run : ∀ stack rest, (ts ++ rest).foldlM State.feed ⟨stack, .value⟩ =
    (State.put stack d).bind fun s => rest.foldlM State.feed s

def BuildsMember (ts : List Token) (m : List Unit16 × Document) : Prop :=
  ∃ us, ts = .text m.1 :: .colon :: us ∧ Builds us m.2

theorem BuildsMember.opens {m : List Unit16 × Document} (h : BuildsMember ts m) :
    Opens .nameOrEnd .name ts := by
  obtain ⟨us, rfl, -⟩ := h
  exact ⟨_, _, rfl, fun _ => rfl⟩

theorem builds_text (us : List Unit16) : Builds [.text us] (.text us) :=
  ⟨⟨_, _, rfl, fun _ => rfl⟩, fun _ _ => rfl⟩

/-- What is left of a list, with the items before it. -/
theorem run_items {tss : List (List Token)} {d : Document} {ds : List Document}
    (h : Builds ts d) (hs : List.Forall₂ Builds tss ds) (done : List Document)
    (stack : List Frame) (rest : List Token) :
    ([.comma].intercalate (ts :: tss) ++ .endArray :: rest).foldlM State.feed
        ⟨.array done :: stack, .value⟩ =
      (State.put stack (.array (done.reverse ++ d :: ds))).bind fun s => rest.foldlM State.feed s := by
  induction hs generalizing ts d done with
  | nil =>
      have hd : done.reverse ++ [d] = (d :: done).reverse := by rw [List.reverse_cons]
      rw [List.intercalate_singleton, h.run, hd]
      rfl
  | @cons us e tss ds hu hs ih =>
      have hd : done.reverse ++ d :: e :: ds = (d :: done).reverse ++ e :: ds := by simp
      rw [List.intercalate_cons_cons, List.append_assoc, List.append_assoc, h.run, hd, ← ih hu]
      rfl

theorem builds_array {tss : List (List Token)} {ds : List Document} (h : List.Forall₂ Builds tss ds) :
    Builds (.beginArray :: ([.comma].intercalate tss ++ [.endArray])) (.array ds) := by
  refine ⟨⟨_, _, rfl, fun _ => rfl⟩, fun stack rest => ?_⟩
  cases h with
  | nil => rfl
  | @cons ts d tss ds hd hs =>
      have hr := run_items hd hs [] stack rest
      rw [← (hd.opens.intercalate tss).run (.array [] :: stack)] at hr
      rw [List.cons_append, List.append_assoc, List.foldlM_cons]
      exact hr

/-- What is left of an object, with the members before it. -/
theorem run_members {tss : List (List Token)} {m : List Unit16 × Document}
    {ms : List (List Unit16 × Document)} (h : BuildsMember ts m) (hs : List.Forall₂ BuildsMember tss ms)
    (done : List (List Unit16 × Document)) (stack : List Frame) (rest : List Token) :
    ([.comma].intercalate (ts :: tss) ++ .endObject :: rest).foldlM State.feed
        ⟨.object done :: stack, .name⟩ =
      (State.put stack (.object (done.reverse ++ m :: ms))).bind fun s => rest.foldlM State.feed s := by
  induction hs generalizing ts m done with
  | nil =>
      obtain ⟨us, rfl, hu⟩ := h
      have hm : done.reverse ++ [m] = (m :: done).reverse := by rw [List.reverse_cons]
      have hr := hu.run (.member done m.1 :: stack) (.endObject :: rest)
      rw [List.intercalate_singleton, hm]
      exact hr
  | @cons us n tss ms hu hs ih =>
      obtain ⟨vs, rfl, hv⟩ := h
      have hm : done.reverse ++ m :: n :: ms = (m :: done).reverse ++ n :: ms := by simp
      have hr := hv.run (.member done m.1 :: stack)
        (.comma :: ([.comma].intercalate (us :: tss) ++ .endObject :: rest))
      rw [List.intercalate_cons_cons, List.append_assoc, List.append_assoc, hm, ← ih hu]
      exact hr

theorem builds_object {tss : List (List Token)} {ms : List (List Unit16 × Document)}
    (h : List.Forall₂ BuildsMember tss ms) :
    Builds (.beginObject :: ([.comma].intercalate tss ++ [.endObject])) (.object ms) := by
  refine ⟨⟨_, _, rfl, fun _ => rfl⟩, fun stack rest => ?_⟩
  cases h with
  | nil => rfl
  | @cons ts m tss ms hm hs =>
      have hr := run_members hm hs [] stack rest
      rw [← (hm.opens.intercalate tss).run (.object [] :: stack)] at hr
      rw [List.cons_append, List.append_assoc, List.foldlM_cons]
      exact hr

mutual

theorem builds_tree {j : Json} (h : j.isWorded = true) : Builds (tokens j) (tree j) := by
  match j with
  | .text s => exact builds_text (units s)
  | .array items =>
      have hi : areWorded items = true := h
      exact builds_array (builds_treeItems hi)
  | .object members =>
      have hm : membersWorded members = true := h
      exact builds_object (builds_treeMembers hm)

theorem builds_treeItems {items : List Json} (h : areWorded items = true) :
    List.Forall₂ Builds (tokensItems items) (treeItems items) := by
  match items with
  | [] => exact .nil
  | j :: items =>
      rw [areWorded, Bool.and_eq_true] at h
      exact .cons (builds_tree h.1) (builds_treeItems h.2)

theorem builds_treeMembers {members : List (String × Json)} (h : membersWorded members = true) :
    List.Forall₂ BuildsMember (tokensMembers members) (treeMembers members) := by
  match members with
  | [] => exact .nil
  | (name, j) :: members =>
      rw [membersWorded, Bool.and_eq_true] at h
      exact .cons ⟨tokens j, rfl, builds_tree h.1⟩ (builds_treeMembers h.2)

end

theorem ofText?_print {j : Json} (h : j.isWorded = true) :
    ofText? (print j).toList = some (tree j) := by
  have hs : scan .between [] (print j).toList = some (tokens j) := by
    have := scans_print h [] []
    rw [List.append_nil, List.append_nil] at this
    rw [this, scan, List.reverse_reverse]
  have hr := (builds_tree h).run [] []
  rw [List.append_nil] at hr
  rw [ofText?, hs, Option.bind_some, ofTokens?, State.start, hr]
  rfl

mutual

theorem trim_tree (j : Json) : (tree j).trim .whole = tree j := by
  match j with
  | .null | .bool _ | .int _ | .float _ | .text _ => rfl
  | .array items => rw [tree, trim, trimItems_treeItems items 0]
  | .object members => rw [tree, trim, trimMembers_treeMembers members]

theorem trimItems_treeItems (items : List Json) (i : Nat) :
    trimItems .whole i (treeItems items) = treeItems items := by
  match items with
  | [] => rfl
  | j :: items =>
      rw [treeItems, trimItems, trimItems_treeItems items (i + 1)]
      exact congrArg (· :: treeItems items) (trim_tree j)

theorem trimMembers_treeMembers (members : List (String × Json)) :
    trimMembers .whole (treeMembers members) = treeMembers members := by
  match members with
  | [] => rfl
  | (name, j) :: members =>
      rw [treeMembers, trimMembers, trimMembers_treeMembers members]
      exact congrArg (fun d => (units name, d) :: treeMembers members) (trim_tree j)

end

mutual

theorem value?_tree {j : Json} (h : j.isWorded = true) (levels : Nat) :
    (tree j).value? levels = if j.nesting ≤ levels then some j else none := by
  match j with
  | .text s => simp [tree, value?, joinUnits_units, nesting]
  | .array items =>
      have hi : areWorded items = true := h
      rw [tree, nesting]
      cases levels with
      | zero => simp [value?]
      | succ levels =>
          rw [value?, values?_treeItems hi levels]
          by_cases hn : nestingItems items ≤ levels <;> simp [hn]
  | .object members =>
      have hm : membersWorded members = true := h
      rw [tree, nesting]
      cases levels with
      | zero => simp [value?]
      | succ levels =>
          rw [value?, members?_treeMembers hm levels]
          by_cases hn : nestingMembers members ≤ levels <;> simp [hn]

theorem values?_treeItems {items : List Json} (h : areWorded items = true) (levels : Nat) :
    values? levels (treeItems items) = if nestingItems items ≤ levels then some items else none := by
  match items with
  | [] => simp [treeItems, values?, nestingItems]
  | j :: items =>
      rw [areWorded, Bool.and_eq_true] at h
      rw [treeItems, values?, value?_tree h.1, values?_treeItems h.2, nestingItems]
      by_cases hj : j.nesting ≤ levels <;> by_cases hi : nestingItems items ≤ levels <;>
        simp only [Nat.max_le, hj, hi] <;> rfl

theorem members?_treeMembers {members : List (String × Json)} (h : membersWorded members = true)
    (levels : Nat) :
    members? levels (treeMembers members) =
      if nestingMembers members ≤ levels then some members else none := by
  match members with
  | [] => simp [treeMembers, members?, nestingMembers]
  | (name, j) :: members =>
      rw [membersWorded, Bool.and_eq_true] at h
      rw [treeMembers, members?, joinUnits_units, value?_tree h.1, members?_treeMembers h.2,
        nestingMembers]
      by_cases hj : j.nesting ≤ levels <;> by_cases hi : nestingMembers members ≤ levels <;>
        simp only [Nat.max_le, hj, hi, Option.bind_eq_bind, Option.bind_some, String.ofList_toList] <;> rfl

end

end Document

/-- The text of a document without numbers and constants is read as this document, unless it is nested
deeper than allowed. -/
theorem read?_print {j : Json} (h : j.isWorded = true) :
    read? (print j).toList = if j.nesting ≤ Document.depthLimit then some j else none := by
  rw [read?, readAs?, Document.ofText?_print h, Option.bind_some, Document.trim_tree,
    Document.value?_tree h]

end Sift.Json
