import Mathlib.Data.List.Sort

/-!
# Sorted maps

A map from keys to values as the list of its entries in ascending order of the keys, which is how an
ordered container of the C++ standard library enumerates it, and a set as the list of its elements.
-/

namespace SortedMap

variable {κ β : Type*} [LinearOrder κ]

/-- The entries are in ascending order, so no key occurs twice. -/
def Sorted (m : List (κ × β)) : Prop := m.Pairwise fun a b => a.1 < b.1

/-- The elements are in ascending order. -/
def SortedKeys (ks : List κ) : Prop := ks.Pairwise (· < ·)

instance (m : List (κ × β)) : Decidable (Sorted m) :=
  inferInstanceAs (Decidable (m.Pairwise fun a b => a.1 < b.1))

instance (ks : List κ) : Decidable (SortedKeys ks) := inferInstanceAs (Decidable (ks.Pairwise (· < ·)))

/-- Assign a value to a key. -/
def insert (k : κ) (v : β) : List (κ × β) → List (κ × β)
  | [] => [(k, v)]
  | (l, w) :: m =>
    if k < l then (k, v) :: (l, w) :: m
    else if k = l then (k, v) :: m
    else (l, w) :: insert k v m

/-- All the entries of `n`, and those of `m` whose keys are not in `n`. -/
def union (m n : List (κ × β)) : List (κ × β) := n.foldr (fun e => insert e.1 e.2) m

/-- Put an element into a set. -/
def insertKey (k : κ) : List κ → List κ
  | [] => [k]
  | l :: ks =>
    if k < l then k :: l :: ks
    else if k = l then l :: ks
    else l :: insertKey k ks

end SortedMap
