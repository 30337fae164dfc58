import Mathlib.Algebra.Group.Int.Defs
import Mathlib.Data.Rat.Defs
import Mathlib.Logic.Function.Basic

/-!
# The profile and its two encodings

A profile is kept twice: under seven keys of `UserDefaults` on the phone, and as the fields of the
document `users/<uid>`. Both are maps from names to loosely typed values, and both are read by
readers that give up on the first field that is missing or has the wrong type
(`DatabilityFetchFirestoreProfile.fetchProfileData` and the Firestore decoder of `DatabilityUser`).

Amounts are exact rationals, and so are the numbers of both stores: an integer and a floating-point
number of the same value are the same number here. What remains of the difference is that a number is
read as an `Int` only when it is integral and fits 64 bits.
-/

namespace Datability

/-- The field names of a `users` document. `password` is never a key of `UserDefaults`. -/
inductive Key
  | fullNameLocal
  | emailLocal
  | challengesCompletedLocal
  | moneyTilNextPaymentLocal
  | phoneNumberLocal
  | totalMoneyEarnedLocal
  | totalSnapsTakenLocal
  | password
deriving DecidableEq, Repr

/-- A stored value. -/
inductive Value
  | string (s : String)
  | number (q : ℚ)
deriving DecidableEq, Repr

namespace Value

/-- `as? String`. -/
def asString : Value → Option String
  | string s => some s
  | number _ => none

/-- `as? Int`, which accepts a number exactly when it is integral and in range. -/
def asInt : Value → Option Int
  | number q => if q.den = 1 ∧ -2 ^ 63 ≤ q.num ∧ q.num < 2 ^ 63 then some q.num else none
  | string _ => none

/-- `as? Double`. -/
def asDouble : Value → Option ℚ
  | number q => some q
  | string _ => none

end Value

/-- The contents of `UserDefaults`, or of one document. -/
abbrev Fields := Key → Option Value

namespace Fields

/-- No key is set. -/
def empty : Fields := fun _ => none

/-- `set(_:forKey:)`. -/
def set (f : Fields) (k : Key) (v : Value) : Fields := Function.update f k (some v)

/-- `removeObject(forKey:)`. -/
def removeObject (f : Fields) (k : Key) : Fields := Function.update f k none

/-- The number under `k`, where a missing number counts as zero: what `double(forKey:)` returns, and
what Firestore takes as the base of an increment. -/
def double (f : Fields) (k : Key) : ℚ :=
  match f k with
  | some (.number q) => q
  | _ => 0

/-- `integer(forKey:)`, which truncates towards zero. -/
def integer (f : Fields) (k : Key) : Int := (f.double k).num.tdiv (f.double k).den

end Fields

/-- `DatabilityUser`, the document id aside. -/
structure DatabilityUser where
  fullNameLocal : String
  challengesCompletedLocal : Int
  emailLocal : String
  moneyTilNextPaymentLocal : ℚ
  phoneNumberLocal : String
  totalMoneyEarnedLocal : ℚ
  totalSnapsTakenLocal : Int
deriving DecidableEq, Repr

/-- The seven fields of a profile, read in the order of `fetchProfileData`. -/
def readUser (f : Fields) : Option DatabilityUser := do
  let fullName ← (← f .fullNameLocal).asString
  let challengesCompleted ← (← f .challengesCompletedLocal).asInt
  let email ← (← f .emailLocal).asString
  let moneyTilNextPayment ← (← f .moneyTilNextPaymentLocal).asDouble
  let phoneNumber ← (← f .phoneNumberLocal).asString
  let totalMoneyEarned ← (← f .totalMoneyEarnedLocal).asDouble
  let totalSnapsTaken ← (← f .totalSnapsTakenLocal).asInt
  return ⟨fullName, challengesCompleted, email, moneyTilNextPayment, phoneNumber, totalMoneyEarned,
    totalSnapsTaken⟩

/-- `DatabilityFetchFirestoreProfile.fetchProfileData`: the local copy, or nothing. -/
def fetchProfileData (defaults : Fields) : Option DatabilityUser := readUser defaults

/-- `data(as: DatabilityUser.self)`: a snapshot of a missing document throws, and so does one whose
fields do not decode. -/
def dataAsDatabilityUser (snapshot : Option Fields) : Option DatabilityUser := snapshot.bind readUser

/-- The seven assignments of `getUser`'s reply. -/
def Fields.setUser (f : Fields) (u : DatabilityUser) : Fields :=
  ((((((f.set .fullNameLocal (.string u.fullNameLocal)).set
    .emailLocal (.string u.emailLocal)).set
    .challengesCompletedLocal (.number u.challengesCompletedLocal)).set
    .moneyTilNextPaymentLocal (.number u.moneyTilNextPaymentLocal)).set
    .phoneNumberLocal (.string u.phoneNumberLocal)).set
    .totalMoneyEarnedLocal (.number u.totalMoneyEarnedLocal)).set
    .totalSnapsTakenLocal (.number u.totalSnapsTakenLocal)

/-- The profile of an account that has just been onboarded. -/
def newUser (dataTextName dataTextEmail dataTextPhoneNumber : String) : DatabilityUser :=
  ⟨dataTextName, 0, dataTextEmail, 0, dataTextPhoneNumber, 0, 0⟩

/-- The document that `uploadUser` writes. -/
def userDocument (dataTextName dataTextEmail dataTextPhoneNumber password : String) : Fields :=
  (Fields.empty.setUser (newUser dataTextName dataTextEmail dataTextPhoneNumber)).set
    .password (.string password)

/-- The seven removals of a successful sign-out. -/
def Fields.removeUser (f : Fields) : Fields :=
  ((((((f.removeObject .fullNameLocal).removeObject .emailLocal).removeObject
    .challengesCompletedLocal).removeObject .moneyTilNextPaymentLocal).removeObject
    .phoneNumberLocal).removeObject .totalMoneyEarnedLocal).removeObject .totalSnapsTakenLocal

end Datability
