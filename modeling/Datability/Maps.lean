import Datability.Device
import Datability.Transition

/-!
# The map of own entries

`DatabilityUserLoginFirebase.getMapCoordinates` fills the list behind the map. It is called each time
the challenges screen appears: it queries the collection `challenges`, then the entries of each
document that is returned, and appends the own ones to `allMapCoordinates`, a list of the process.

Replies carry the documents they return, so that the steps themselves do not fix what the collections
hold; `Collections` and `MapLoader.Undisturbed` do, for a run over unchanged contents.
-/

namespace Datability

/-- A marker of the map. -/
structure DataMapCoordinates where
  dataCoordinates : Location
  /-- The entry that the marker was made for, with its challenge. No step looks at it. -/
  entry : String × Entry
deriving DecidableEq, Repr

/-- Where the marker of an entry stands; a missing number counts as zero. -/
def Entry.coordinates (e : Entry) : Location := ⟨e.lat.getD 0, e.long.getD 0⟩

/-- What the process knows of the map. -/
structure MapLoader where
  /-- `Auth.auth().currentUser`. -/
  currentUser : Option Uid
  allMapCoordinates : List DataMapCoordinates := []
  /-- How many queries of `challenges` are outstanding. -/
  challengeQueries : ℕ := 0
  /-- The challenges whose entries are being queried. -/
  entryQueries : List String := []
deriving DecidableEq, Repr

/-- A reply is an error or a list of documents. -/
inductive MapEvent
  | session (currentUser : Option Uid)
  | onAppear
  | challengesReply (documents : Option (List String))
  | entriesReply (i : ℕ) (documents : Option (List Entry))

namespace MapLoader

/-- The entry is hosted by the signed-in user. -/
def isOwn (s : MapLoader) (e : Entry) : Bool :=
  e.host.getD "ERROR" == (s.currentUser.map Uid.val).getD "User_Error"

/-- `getMapCoordinates`. -/
def getMapCoordinates (s : MapLoader) : MapLoader :=
  { s with challengeQueries := s.challengeQueries + 1 }

/-- The reply to the query of `challenges`: the entries of every document are queried. -/
def challengesCompletion (s : MapLoader) : Option (List String) → MapLoader
  | some documents => { s with entryQueries := s.entryQueries ++ documents }
  | none => s

/-- The reply to the query of the entries of `challenge`: the own ones get a marker each. -/
def entriesCompletion (s : MapLoader) (challenge : String) : Option (List Entry) → MapLoader
  | some documents =>
    { s with
      allMapCoordinates := s.allMapCoordinates ++
        (documents.filter s.isOwn).map fun e => ⟨e.coordinates, (challenge, e)⟩ }
  | none => s

def step (s : MapLoader) : MapEvent → Option MapLoader
  | .session currentUser => some { s with currentUser := currentUser }
  | .onAppear => some s.getMapCoordinates
  | .challengesReply documents =>
    if s.challengeQueries = 0 then none
    else some (({ s with challengeQueries := s.challengeQueries - 1 }).challengesCompletion documents)
  | .entriesReply i documents =>
    s.entryQueries[i]?.map fun challenge =>
      ({ s with entryQueries := s.entryQueries.eraseIdx i }).entriesCompletion challenge documents

/-- The process has just started, and `u` is signed in. -/
def started (u : Uid) : MapLoader where
  currentUser := some u

/-- Every reply has been delivered. -/
def Delivered (s : MapLoader) : Prop := s.challengeQueries = 0 ∧ s.entryQueries = []

instance (s : MapLoader) : Decidable s.Delivered := inferInstanceAs (Decidable (_ ∧ _))

end MapLoader

/-- The collections that the map is made from: the documents of `challenges`, by their ids, and the
entries of the server. -/
structure Collections where
  challenges : List String
  nodup : challenges.Nodup
  server : Server

namespace Collections

/-- The entries that `u` hosts, each with its challenge. -/
def own (db : Collections) (u : Uid) : List (String × Entry) :=
  db.server.entries.filter fun e => e.2.host = some u.val

end Collections

namespace MapLoader

/-- The user stays signed in, and every reply has the documents of the collections, in some order. -/
def Undisturbed (db : Collections) (u : Uid) (s : MapLoader) : MapEvent → Prop
  | .session currentUser => currentUser = some u
  | .onAppear => True
  | .challengesReply documents => ∃ docs ∈ documents, docs.Perm db.challenges
  | .entriesReply i documents => ∀ c ∈ s.entryQueries[i]?,
      ∃ docs ∈ documents, docs.Perm (db.server.entriesOf c)

instance (db : Collections) (u : Uid) (s : MapLoader) : ∀ e, Decidable (s.Undisturbed db u e)
  | .session _ => inferInstanceAs (Decidable (_ = _))
  | .onAppear => isTrue trivial
  | .challengesReply _ => inferInstanceAs (Decidable (∃ docs ∈ _, _))
  | .entriesReply _ _ => inferInstanceAs (Decidable (∀ c ∈ _, _))

/-- How often the challenges screen has appeared. -/
def appearances (es : List MapEvent) : ℕ :=
  es.countP fun | .onAppear => true | _ => false

/-- The markers stand where the own entries are, and each entry has made one of them. -/
structure ShowsOwnOnce (db : Collections) (u : Uid) (s : MapLoader) : Prop where
  coordinates : (s.allMapCoordinates.map DataMapCoordinates.dataCoordinates).Perm
    ((db.own u).map fun e => e.2.coordinates)
  once : (s.allMapCoordinates.map DataMapCoordinates.entry).Perm (db.own u)

end MapLoader

end Datability
