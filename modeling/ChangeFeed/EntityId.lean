namespace ChangeFeed

open Std

inductive IdValue where
  | integer (n : Int64)
  | text (s : String)
  deriving DecidableEq

namespace IdValue

def toString : IdValue → String
  | integer n => ToString.toString n
  | text s => s

instance : Ord IdValue where
  compare
    | integer a, integer b => compare a b
    | integer _, text _ => .lt
    | text _, integer _ => .gt
    | text a, text b => compare a b

instance : TransOrd IdValue where
  eq_swap {a b} := by
    cases a with
    | integer m => cases b with
      | integer n => exact (OrientedCmp.eq_swap : compare m n = (compare n m).swap)
      | text _ => rfl
    | text s => cases b with
      | integer _ => rfl
      | text t => exact (OrientedCmp.eq_swap : compare s t = (compare t s).swap)
  isLE_trans {a b c} hab hbc := by
    cases a with
    | integer l => cases c with
      | text _ => rfl
      | integer n => cases b with
        | integer m => exact (TransCmp.isLE_trans hab hbc : (compare l n).isLE)
        | text _ => contradiction
    | text s => cases b with
      | integer _ => contradiction
      | text t => cases c with
        | integer _ => contradiction
        | text u => exact (TransCmp.isLE_trans hab hbc : (compare s u).isLE)

instance : LawfulEqOrd IdValue where
  compare_self {a} := by
    cases a with
    | integer n => exact compare_self (a := n)
    | text s => exact compare_self (a := s)
  eq_of_compare {a b} h := by
    cases a with
    | integer m => cases b with
      | integer n => exact congrArg integer (LawfulEqOrd.eq_of_compare h)
      | text _ => contradiction
    | text s => cases b with
      | integer _ => contradiction
      | text t => exact congrArg text (LawfulEqOrd.eq_of_compare h)

end IdValue

structure EntityId where
  values : List IdValue
  deriving DecidableEq

namespace EntityId

def term (i : EntityId) : String := ",".intercalate (i.values.map IdValue.toString)

def isComposite (i : EntityId) : Bool := 1 < i.values.length

instance : Ord EntityId where
  compare a b := compare a.values b.values

instance : TransOrd EntityId where
  eq_swap {a b} := (OrientedCmp.eq_swap : compare a.values b.values = (compare b.values a.values).swap)
  isLE_trans {a _ c} hab hbc :=
    (TransCmp.isLE_trans hab hbc : (compare a.values c.values).isLE)

instance : LawfulEqOrd EntityId where
  compare_self {a} := compare_self (a := a.values)
  eq_of_compare {a b} h := by
    cases a; cases b; exact congrArg mk (LawfulEqOrd.eq_of_compare h)

end EntityId

structure EntityKey where
  entityType : String
  id : EntityId
  deriving DecidableEq

namespace EntityKey

instance : Ord EntityKey where
  compare := compareLex (compareOn entityType) (compareOn id)

instance : TransOrd EntityKey :=
  inferInstanceAs (TransCmp (compareLex (compareOn entityType) (compareOn id)))

instance : LawfulEqOrd EntityKey where
  compare_self {a} :=
    Ordering.then_eq_eq.2 ⟨compare_self (a := a.entityType), compare_self (a := a.id)⟩
  eq_of_compare {a b} h := by
    obtain ⟨h1, h2⟩ := Ordering.then_eq_eq.1 h
    cases a; cases b
    exact congr (congrArg mk (LawfulEqOrd.eq_of_compare h1)) (LawfulEqOrd.eq_of_compare h2)

end EntityKey

end ChangeFeed
