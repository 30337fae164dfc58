import Datability.Device

/-!
# Phones and backend together

A `World` is a family of phones over one backend. A step is an event on one phone, the backend
computing the answer to one outstanding request, or the backend taking the oldest write of a phone's
queue, which it applies or rejects.

Firestore answers a phone from its own view: the documents of the server with the writes still in the
phone's queue already made (`localView`). Here these are made on the documents as the server has them now;
`DocumentView` says when the local store of the client library shows the same.
-/

namespace Datability

structure World (ι : Type*) where
  server : Server
  devices : ι → Device
  /-- How many photos have been captured. -/
  photos : ℕ := 0
  /-- The UUID strings drawn so far. -/
  uuids : List String := []
  /-- The writes that the server has accepted, in order. -/
  applied : List Issued := []

inductive Label (ι : Type*)
  | app (d : ι) (e : Event)
  | serveSignIn (d : ι) (i : ℕ)
  | serveCreateUser (d : ι) (i : ℕ) (uid : Uid)
  | serveGetUser (d : ι) (i : ℕ)
  | serveQuery (d : ι) (i : ℕ)
  | apply (d : ι) (accepted : Bool)
deriving DecidableEq

namespace World

variable {ι : Type*} [DecidableEq ι]

def setDevice (w : World ι) (d : ι) (dev : Device) : World ι :=
  { w with devices := Function.update w.devices d dev }

/-- Photos are numbered in the order of their capture, and no UUID is drawn twice. -/
def fresh (w : World ι) : Event → Bool
  | .capture serial _ _ _ _ => decide (serial = w.photos)
  | .scanReply _ _ _ imageUUID _ => decide (imageUUID ∉ w.uuids)
  | _ => true

/-- Note the photo or the UUID that an event has used up. -/
def record (w : World ι) : Event → World ι
  | .capture _ _ _ _ _ => { w with photos := w.photos + 1 }
  | .scanReply _ _ _ imageUUID _ => { w with uuids := imageUUID :: w.uuids }
  | _ => w

/-- The documents as the phone `d` sees them. -/
def localView (w : World ι) (d : ι) : Server :=
  ((w.devices d).queue.map Issued.write).foldl Server.apply w.server

/-- The backend answers the `i`-th `signIn` of the phone `d`. -/
def serveSignIn (w : World ι) (d : ι) (i : ℕ) : Option (World ι) :=
  (w.devices d).signIns[i]?.bind fun req =>
    if req.reply.isNone then
      some (w.setDevice d
        ((w.devices d).answerSignIn i req (w.server.signIn req.email req.password)))
    else none

/-- Open an account. -/
def openAccount (w : World ι) (email password : String) (uid : Uid) : World ι :=
  { w with server := { w.server with accounts := w.server.accounts ++ [⟨email, password, uid⟩] } }

/-- The backend answers the `i`-th `createUser` of the phone `d`: it refuses an address that is in
use, and otherwise opens an account under an id that no account has. -/
def serveCreateUser (w : World ι) (d : ι) (i : ℕ) (uid : Uid) : Option (World ι) :=
  (w.devices d).createUsers[i]?.bind fun req =>
    if req.reply.isNone then
      if w.server.emailInUse req.email then
        some (w.setDevice d ((w.devices d).answerCreateUser i req none))
      else if ∀ a ∈ w.server.accounts, a.uid ≠ uid then
        some ((w.openAccount req.email req.password uid).setDevice d
          ((w.devices d).answerCreateUser i req (some uid)))
      else none
    else none

/-- The backend answers the `i`-th `getUser` of the phone `d`. -/
def serveGetUser (w : World ι) (d : ι) (i : ℕ) : Option (World ι) :=
  (w.devices d).getUsers[i]?.bind fun req =>
    if req.reply.isNone then
      some (w.setDevice d
        ((w.devices d).answerGetUser i req ((w.localView d).users req.uid.val)))
    else none

/-- The backend answers the `i`-th query of the phone `d`. -/
def serveQuery (w : World ι) (d : ι) (i : ℕ) : Option (World ι) :=
  (w.devices d).queries[i]?.bind fun q =>
    if q.reply.isNone then
      some (w.setDevice d ((w.devices d).answerQuery i q ((w.localView d).entriesOf q.document)))
    else none

/-- The server carries out a write. -/
def commit (w : World ι) (x : Issued) : World ι :=
  { w with server := w.server.apply x.write, applied := w.applied ++ [x] }

/-- The backend takes the oldest write of the phone `d`. -/
def applyWrite (w : World ι) (d : ι) (accepted : Bool) : Option (World ι) :=
  match (w.devices d).queue with
  | [] => none
  | x :: rest =>
    let w := w.setDevice d ((w.devices d).setQueue rest)
    some (if accepted then w.commit x else w)

def step (w : World ι) : Label ι → Option (World ι)
  | .app d e =>
    if w.fresh e then ((w.devices d).step e).map fun dev => (w.record e).setDevice d dev else none
  | .serveSignIn d i => w.serveSignIn d i
  | .serveCreateUser d i uid => w.serveCreateUser d i uid
  | .serveGetUser d i => w.serveGetUser d i
  | .serveQuery d i => w.serveQuery d i
  | .apply d accepted => w.applyWrite d accepted

end World

end Datability
