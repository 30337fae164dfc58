import Datability.LocalStore
import Datability.World

/-!
# User documents in the local store

`World` answers a phone with the documents of the server in which the writes of its queue are made already. The
client library does it otherwise: a write becomes a mutation in a batch of the `LocalStore`, an increment starts
from the number that the phone saw when it was written, and the app reads the document through an overlay.
Here both take the writes of a phone to one document `users/<doc>` side by side.
-/

namespace Datability

open Firestore (MapValue MutableDocument Mutation MutationResult Timestamp LocalStore)

/-- The name of a field. -/
def Key.name : Key → String
  | fullNameLocal => "fullNameLocal"
  | emailLocal => "emailLocal"
  | challengesCompletedLocal => "challengesCompletedLocal"
  | moneyTilNextPaymentLocal => "moneyTilNextPaymentLocal"
  | phoneNumberLocal => "phoneNumberLocal"
  | totalMoneyEarnedLocal => "totalMoneyEarnedLocal"
  | totalSnapsTakenLocal => "totalSnapsTakenLocal"
  | password => "password"

namespace Firestore

/-- A value as the app reads it: integers and floating point numbers are both numbers. -/
def Value.read : Value ℚ → Option Datability.Value
  | .integer i => some (.number i.toInt)
  | .double d => some (.number d)
  | .string s => some (.string s)
  | _ => none

/-- The fields of `users/<doc>`. -/
def MapValue.read (m : MapValue ℚ) : Fields := fun k => (m.lookup k.name).bind Value.read

/-- The document as the app reads it, if there is one. -/
def MutableDocument.read (doc : MutableDocument String ℚ) : Option Fields :=
  if doc.isFoundDocument then some (MapValue.read doc.value) else none

end Firestore

namespace Write

/-- The mutation that a write to `users/<doc>` becomes. All the increments of the app are floating point
numbers. -/
inductive Becomes : Write → Mutation String ℚ → Prop
  | setData {doc : String} {fields : Fields} {value : MapValue ℚ} (hordered : Firestore.Value.OrderedEntries value)
      (hread : MapValue.read value = fields) : Becomes (.setData doc fields) (.set doc value .none [])
  | increment (doc : String) (k : Key) (q : ℚ) : Becomes (.increment doc k q)
      (.patch doc [] [] (.exists true) [⟨[k.name], .increment (.double q)⟩])
  | updateData {doc : String} {k : Key} {v : Value} {x : Firestore.Value ℚ} (hread : x.read = some v) :
      Becomes (.updateData doc k v) (.patch doc [(k.name, x)] [[k.name]] (.exists true) [])

/-- The fields whose new values the backend computes. -/
def transformed : Write → List Key
  | .increment _ k _ => [k]
  | _ => []

/-- Whether a write is to `users/<doc>`. -/
def isTo (doc : String) : Write → Bool
  | .setData doc' _ | .increment doc' _ _ | .updateData doc' _ _ => doc' = doc
  | .addDocument _ _ => false

end Write

/-- The document `users/<doc>` and what a phone knows of it. -/
structure DocumentView where
  server : Server
  /-- The writes of the phone to the document that the server has not applied. -/
  queue : List Write
  store : LocalStore String ℚ

namespace DocumentView

inductive Event
  /-- The app writes the document. -/
  | issue (x : Write) (m : Mutation String ℚ) (now : Timestamp)
  /-- The backend applies the oldest write, and acknowledges its batch. -/
  | settle (result : MutationResult ℚ)
  /-- The backend sends the document as other phones have made it. -/
  | send (server : Server) (document : MutableDocument String ℚ) (now : Timestamp)
  /-- Something happens to other documents. -/
  | elsewhere (e : LocalStore.Event String ℚ)

/-- The document in the model of the phones: the writes of the queue are made on that of the server. -/
def localView (v : DocumentView) (doc : String) : Option Fields :=
  (v.queue.foldl Server.apply v.server).users doc

/-- The document in the model of the client library. -/
def getDocument (v : DocumentView) (doc : String) (now : Timestamp) : Option Fields :=
  (v.store.getDocument doc now).read

def step (doc : String) (v : DocumentView) : Event → Option DocumentView
  | .issue x m now => do
    let store ← v.store.react (.write [m] now)
    some { v with queue := v.queue ++ [x], store }
  | .settle result => do
    let x ← v.queue.head?
    let batch ← (v.store.pending doc).head?
    let store ← v.store.react (.acknowledge batch.batchId [result])
    some { server := v.server.apply x, queue := v.queue.tail, store }
  | .send server document now => do
    let store ← v.store.react (.remoteEvent (Function.update (fun _ => none) doc (some document)) now)
    some { v with server, store }
  | .elsewhere e => do
    let store ← v.store.react e
    some { v with store }

end DocumentView

end Datability
