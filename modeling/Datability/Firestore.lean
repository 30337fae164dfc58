import Datability.Profile

/-!
# Accounts, documents and writes

The part of the Firebase backend that the app talks to: the accounts of Firebase Auth, the documents
`users/<id>` and the collections `challenges/<c>/entries`. A write is a value, since a phone queues
its writes and the server applies them later, one at a time and in the order they were issued.
-/

namespace Datability

/-- A user id as Firebase Auth issues it. The app uses the string `ERROR` in place of an id when
nobody is signed in, so the sentinel is not an id. -/
structure Uid where
  val : String
  ne_error : val ≠ "ERROR"
deriving DecidableEq, Repr

/-- A document of a collection `challenges/<c>/entries`, each field as its reader casts it. -/
structure Entry where
  host : Option String
  photo : Option String
  lat : Option ℚ
  long : Option ℚ
  date : Option ℚ
deriving DecidableEq, Repr

/-- A Firestore write of the app. -/
inductive Write
  /-- `setData` on `users/<doc>`. -/
  | setData (doc : String) (fields : Fields)
  /-- `updateData` with `FieldValue.increment` on one field of `users/<doc>`. -/
  | increment (doc : String) (k : Key) (q : ℚ)
  /-- `updateData` with a plain value for one field of `users/<doc>`. -/
  | updateData (doc : String) (k : Key) (v : Value)
  /-- `addDocument` on `challenges/<challenge>/entries`. -/
  | addDocument (challenge : String) (entry : Entry)

/-- An account of Firebase Auth. -/
structure Account where
  email : String
  password : String
  uid : Uid
deriving DecidableEq, Repr

/-- The state of the backend. -/
structure Server where
  accounts : List Account
  /-- The documents `users/<id>`. -/
  users : String → Option Fields
  /-- The documents of all collections `challenges/<c>/entries`, each with its `c`. -/
  entries : List (String × Entry)

namespace Server

/-- Update a document that exists; `updateData` on a missing document is rejected. -/
def updateUser (s : Server) (doc : String) (f : Fields → Fields) : Server :=
  { s with users := Function.update s.users doc ((s.users doc).map f) }

/-- The effect of one write. -/
def apply (s : Server) : Write → Server
  | .setData doc fields => { s with users := Function.update s.users doc (some fields) }
  | .increment doc k q => s.updateUser doc fun f => f.set k (.number (f.double k + q))
  | .updateData doc k v => s.updateUser doc fun f => f.set k v
  | .addDocument c e => { s with entries := s.entries ++ [(c, e)] }

/-- The documents of `challenges/<c>/entries`. -/
def entriesOf (s : Server) (c : String) : List Entry :=
  (s.entries.filter fun e => e.1 = c).map Prod.snd

/-- One field of `users/<doc>`. -/
def field (s : Server) (doc : String) (k : Key) : Option Value := (s.users doc).bind fun f => f k

/-- `signIn(withEmail:password:)`: the account with these credentials. -/
def signIn (s : Server) (email password : String) : Option Uid :=
  (s.accounts.find? fun a => a.email = email ∧ a.password = password).map Account.uid

/-- Whether `createUser` refuses the address because an account has it. -/
def emailInUse (s : Server) (email : String) : Bool := s.accounts.any fun a => a.email = email

end Server

end Datability
