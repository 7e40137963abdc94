import Sift.Condition
import Sift.Truth

namespace Sift.Truth

@[simp] theorem not_not (a : Truth) : not (not a) = a := by
  rcases a with _ | _ | _ <;> rfl

def join : Combinator → Truth → Truth → Truth
  | .all => and
  | .any => or

def unit (k : Combinator) : Truth := some (k = .all)

/-- A group is false or true as soon as one member decides it. It is unknown if a member is that could have
decided it. -/
def group (k : Combinator) (ts : List Truth) : Truth := ts.foldr (join k) (unit k)

@[simp] theorem join_unit (k : Combinator) (a : Truth) : join k a (unit k) = a := by
  cases k <;> rcases a with _ | _ | _ <;> rfl

@[simp] theorem unit_join (k : Combinator) (a : Truth) : join k (unit k) a = a := by
  cases k <;> rcases a with _ | _ | _ <;> rfl

theorem join_assoc (k : Combinator) (a b c : Truth) : join k (join k a b) c = join k a (join k b c) := by
  cases k <;> rcases a with _ | _ | _ <;> rcases b with _ | _ | _ <;> rcases c with _ | _ | _ <;> rfl

theorem group_cons (k : Combinator) (a : Truth) (ts : List Truth) :
    group k (a :: ts) = join k a (group k ts) := rfl

theorem foldl_join (k : Combinator) (a : Truth) (ts : List Truth) :
    ts.foldl (join k) a = join k a (group k ts) := by
  induction ts generalizing a with
  | nil => exact (join_unit k a).symm
  | cons b ts ih => rw [List.foldl_cons, ih, group_cons, join_assoc]

theorem group_append (k : Combinator) (ts us : List Truth) :
    group k (ts ++ us) = join k (group k ts) (group k us) := by
  induction ts with
  | nil => exact (unit_join k _).symm
  | cons t ts ih => rw [List.cons_append, group_cons, group_cons, ih, join_assoc]

end Sift.Truth
