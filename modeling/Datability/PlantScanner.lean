import Mathlib.Algebra.Group.Int.Defs
import Mathlib.Data.Rat.Defs
import Mathlib.Data.List.Basic

/-!
# The plant scanner

`PlantScanner.plantScanner` sends a photo to plant.id and decides from the reply whether it shows the
expected plant. The decision is a chain of guards over the parsed body; every guard that fails calls
`completion(false)` and returns.
-/

namespace Datability

/-- A JSON value as `JSONSerialization` returns it. -/
inductive Json
  | null
  | bool (b : Bool)
  | number (q : ℚ)
  | string (s : String)
  | array (xs : List Json)
  | object (fields : List (String × Json))

namespace Json

mutual

/-- Whether two values are the same. -/
def beq : Json → Json → Bool
  | null, null => true
  | bool a, bool b => a == b
  | number p, number q => p == q
  | string s, string t => s == t
  | array xs, array ys => beqArray xs ys
  | object f, object g => beqObject f g
  | _, _ => false

def beqArray : List Json → List Json → Bool
  | [], [] => true
  | x :: xs, y :: ys => beq x y && beqArray xs ys
  | _, _ => false

def beqObject : List (String × Json) → List (String × Json) → Bool
  | [], [] => true
  | (k, x) :: f, (l, y) :: g => k == l && beq x y && beqObject f g
  | _, _ => false

end

mutual

theorem beq_iff (a b : Json) : a.beq b = true ↔ a = b := by
  cases a with
  | null => cases b <;> simp [beq]
  | bool => cases b <;> simp [beq]
  | number => cases b <;> simp [beq]
  | string => cases b <;> simp [beq]
  | array xs => cases b <;> simp [beq, beqArray_iff xs]
  | object f => cases b <;> simp [beq, beqObject_iff f]

theorem beqArray_iff (xs ys : List Json) : beqArray xs ys = true ↔ xs = ys := by
  cases xs with
  | nil => cases ys <;> simp [beqArray]
  | cons x xs => cases ys <;> simp [beqArray, beq_iff x, beqArray_iff xs]

theorem beqObject_iff (f g : List (String × Json)) : beqObject f g = true ↔ f = g := by
  cases f with
  | nil => cases g <;> simp [beqObject]
  | cons x f => cases g <;> simp [beqObject, beq_iff x.2, beqObject_iff f, Prod.ext_iff]

end

instance : DecidableEq Json := fun a b => decidable_of_iff (a.beq b = true) (beq_iff a b)

/-- `as? Int`: an integral number in range, or a boolean. -/
def asInt : Json → Option Int
  | number q => if q.den = 1 ∧ -2 ^ 63 ≤ q.num ∧ q.num < 2 ^ 63 then some q.num else none
  | bool b => some (if b then 1 else 0)
  | _ => none

/-- `as? String`. -/
def asString : Json → Option String
  | string s => some s
  | _ => none

/-- `as? [String:Any]`. -/
def asObject : Json → Option (List (String × Json))
  | object fields => some fields
  | _ => none

/-- `as? [[String:Any]]`: an array all of whose elements are objects. -/
def asObjects : Json → Option (List (List (String × Json)))
  | array xs => xs.mapM asObject
  | _ => none

end Json

/-- `components(separatedBy: " ")`. -/
def components (s : String) : List String := (s.toList.splitOn ' ').map String.ofList

/-- What the request to plant.id came back with. -/
structure PlantReply where
  /-- `plantScannerDataError` is not nil. -/
  error : Bool
  /-- `plantScannerDataURLResponse` is not nil. -/
  response : Bool
  /-- The body, if there is one, as `JSONSerialization` reads it; `some none` when it throws. -/
  data : Option (Option Json)
deriving DecidableEq

/-- The verdict on a body that was parsed: the ten guards, in the order of the source. -/
def plantVerdict (json : Json) (expectedPlant : String) : Bool :=
  Option.getD (do
    let currentPlantScannerResults ← json.asObject
    let isPlantResults ← (← currentPlantScannerResults.lookup "is_plant").asInt
    let plantScannerResults ← (← currentPlantScannerResults.lookup "suggestions").asObjects
    let first := plantScannerResults.head?
    let plantScannerFirstResult ← (← (← first).lookup "plant_details").asObject
    let plantScannerFirstResultImageStep1 ← (← (← first).lookup "similar_images").asObjects
    let _ ← (← (← plantScannerFirstResultImageStep1.head?).lookup "url").asString
    let plantScannerFirstResultName ← (← (← first).lookup "plant_name").asString
    let _ ← (← plantScannerFirstResult.lookup "url").asString
    if isPlantResults = 1 then
      let plantFamilyName ← (components plantScannerFirstResultName).head?
      let expectedPlantFamilyName ← (components expectedPlant).head?
      return expectedPlantFamilyName == plantFamilyName
    else
      return false) false

/-- The completion handler of the request: the value passed to `completion`, or `none` on the path
that returns without calling it. -/
def plantScannerReply (reply : PlantReply) (expectedPlant : String) : Option Bool :=
  if reply.error = false ∧ reply.response = true ∧ reply.data.isSome then
    match reply.data with
    | none => none
    | some none => some false
    | some (some json) => some (plantVerdict json expectedPlant)
  else
    some false

end Datability
