import Datability.Ledger
import Mathlib.Data.List.Dedup

/-!
# Entries and participations

What the documents of the collections `challenges/<c>/entries` say about photos, Storage objects and
verdicts, and how the participation counter of a user relates to them.
-/

namespace Datability

/-- The photo, the challenge and the document of a write that adds an entry. -/
def Issued.entry? (x : Issued) : Option (Photo × String × Entry) :=
  match x.write, x.cause with
  | .addDocument c e, .photo p => some (p, c, e)
  | _, _ => none

/-- The Storage object that the entry of a write names. -/
def Issued.object (x : Issued) : Option String := x.entry?.bind fun a => a.2.2.photo

/-- The number of the photo that a write adds the entry of. -/
def Issued.serial (x : Issued) : Option ℕ := x.entry?.map fun a => a.1.serial

namespace Device

/-- `plantScanner` returned `true` for the photo: it was captured for the challenge `ch`, and a reply of
plant.id to that photo was delivered which shows the plant that `ch` asks for. -/
def Accepted (dev : Device) (p : Photo) (ch : Challenge) : Prop :=
  (p, ch) ∈ dev.captures ∧
    ∃ reply, (p, ch, reply) ∈ dev.replies ∧ plantScannerReply reply ch.expectedPlant = some true

/-- The document `e` of the challenge `c` goes back to the photo `p` on this phone: `plantScanner` accepted
`p` for the challenge that it was captured for, which has the id `c`; `p` was captured where `e` says; and the
object that `e` names is that of the upload of `p`, which succeeded. -/
structure Vouches (dev : Device) (p : Photo) (c : String) (e : Entry) : Prop where
  accepted : ∃ ch : Challenge, ch.id = some c ∧ dev.Accepted p ch
  lat : e.lat = some p.location.latitude
  long : e.long = some p.location.longitude
  stored : ∃ path, (p, path) ∈ dev.stored ∧ e.photo = some path

/-- No photo was captured yet, and none is on its way to an entry. -/
structure BeforeFirstCapture (dev : Device) : Prop where
  captures : dev.captures = []
  replies : dev.replies = []
  stored : dev.stored = []
  scans : dev.scans = []
  uploads : dev.uploads = []
  queue : ∀ x ∈ dev.queue, ∀ c e, x.write ≠ .addDocument c e

end Device

namespace World

variable {ι : Type*}

/-- The entries that the server has added, each with its photo and its challenge. -/
def added (w : World ι) : List (Photo × String × Entry) := w.applied.filterMap Issued.entry?

/-- The start of a run: no photo was captured and the server has applied nothing yet. -/
structure BeforeFirstCapture (w : World ι) : Prop where
  devices : ∀ d, (w.devices d).BeforeFirstCapture
  applied : w.applied = []

/-- Referential integrity of the entries that were added since `w₀`. -/
structure EntriesSound (w₀ w : World ι) : Prop where
  documents : w.server.entries = w₀.server.entries ++ w.added.map Prod.snd
  vouched : ∀ p c e, (p, c, e) ∈ w.added → ∃ d, (w.devices d).Vouches p c e
  /-- No two entries name the same object. -/
  objects : (w.added.filterMap fun a => a.2.2.photo).Nodup
  /-- No two entries are for the same photo. -/
  photos : (w.added.map fun a => a.1.serial).Nodup

end World

/-! ## Participations -/

/-- The user has an entry in the challenge. -/
def Server.HasEntry (u : Uid) (s : Server) (c : String) : Prop :=
  ∃ x ∈ s.entries, x.1 = c ∧ x.2.host = some u.val

instance (u : Uid) (s : Server) (c : String) : Decidable (s.HasEntry u c) :=
  inferInstanceAs (Decidable (∃ x ∈ _, _))

/-- The challenge that a write adds an entry of `u` to. -/
def Write.entryFor (u : Uid) : Write → Option String
  | .addDocument c e => if e.host = some u.val then some c else none
  | _ => none

/-- The accepted snaps, uploads and queries of the run all succeed. -/
def Event.succeeds : Event → Bool
  | .scanReply _ _ _ _ pngData => pngData
  | .uploadReply _ failed _ => !failed
  | .queryReply _ failed => !failed
  | _ => true

def Label.succeeds {ι : Type*} : Label ι → Bool
  | .app _ e => e.succeeds
  | _ => true

namespace Device

/-- An entry of `u` in the challenge is queued on the phone. -/
def Adds (u : Uid) (dev : Device) (c : String) : Prop := ∃ x ∈ dev.queue, x.write.entryFor u = some c

instance (u : Uid) (dev : Device) (c : String) : Decidable (dev.Adds u c) :=
  inferInstanceAs (Decidable (∃ x ∈ _, _))

/-- The query that was started together with the upload has not been answered yet. -/
def Waiting (dev : Device) (up : Upload) : Prop := ∃ q ∈ dev.queries, q.photo = up.photo ∧ q.reply = none

instance (dev : Device) (up : Upload) : Decidable (dev.Waiting up) :=
  inferInstanceAs (Decidable (∃ q ∈ _, _))

/-- An upload into the challenge whose query has been answered is outstanding. -/
def Passed (dev : Device) (c : String) : Prop :=
  ∃ up ∈ dev.uploads, up.challenge.id = some c ∧ ¬ dev.Waiting up

instance (dev : Device) (c : String) : Decidable (dev.Passed c) :=
  inferInstanceAs (Decidable (∃ up ∈ _, _))

end Device

namespace World

variable {ι : Type*}

/-- A query on the phone `d` would find an entry of `u` in the challenge. -/
def Sees (u : Uid) (w : World ι) (d : ι) (c : String) : Prop :=
  w.server.HasEntry u c ∨ (w.devices d).Adds u c

/-- The challenge has an entry of `u`, or one is on its way behind a query that was answered. -/
def Claimed (u : Uid) (w : World ι) (c : String) : Prop :=
  w.server.HasEntry u c ∨ ∃ d, (w.devices d).Adds u c ∨ (w.devices d).Passed c

/-- The order of queries and uploads that the counting of participations needs. An accepted snap has a
challenge id; an upload ends after the query of its own snap was answered, unless an entry is there
already; and a query that finds no entry is answered before any other snap claims the challenge. -/
def CountsFirst (u : Uid) (w : World ι) : Label ι → Prop
  | .app d (.scanReply i reply _ _ _) => ∀ scan ∈ (w.devices d).scans[i]?,
      plantScannerReply reply scan.challenge.expectedPlant = some true →
        scan.challenge.id.isSome = true
  | .app d (.uploadReply i _ _) => ∀ up ∈ (w.devices d).uploads[i]?, ∀ c ∈ up.challenge.id,
      w.Sees u d c ∨ ¬ (w.devices d).Waiting up
  | .serveQuery d i => ∀ q ∈ (w.devices d).queries[i]?,
      w.Sees u d q.document ∨ ¬ w.Claimed u q.document
  | _ => True

section Decidable

variable (u : Uid) (w : World ι)

instance (d : ι) (c : String) : Decidable (w.Sees u d c) := inferInstanceAs (Decidable (_ ∨ _))

instance [Fintype ι] (c : String) : Decidable (w.Claimed u c) := inferInstanceAs (Decidable (_ ∨ _))

instance [Fintype ι] : ∀ l, Decidable (w.CountsFirst u l)
  | .app d (.scanReply i _ _ _ _) =>
    inferInstanceAs (Decidable (∀ scan ∈ (w.devices d).scans[i]?, _ → _))
  | .app d (.uploadReply i _ _) =>
    inferInstanceAs (Decidable (∀ up ∈ (w.devices d).uploads[i]?, ∀ c ∈ up.challenge.id, _ ∨ _))
  | .serveQuery d i => inferInstanceAs (Decidable (∀ q ∈ (w.devices d).queries[i]?, _ ∨ _))
  | .app _ .launch | .app _ .kill | .app _ (.editLogin _ _) | .app _ .pressSignIn
  | .app _ (.signInReply _ _) | .app _ (.createUserReply _ _) | .app _ (.getUserReply _ _)
  | .app _ .dismissPermissions | .app _ .pressLetsGo | .app _ (.finishOnboarding _ _)
  | .app _ (.selectTab _) | .app _ (.pressSignOut _) | .app _ .pressWithdrawal
  | .app _ (.mailResult _) | .app _ (.capture _ _ _ _ _) | .app _ (.queryReply _ _)
  | .serveSignIn _ _ | .serveCreateUser _ _ _ | .serveGetUser _ _ | .apply _ _ => isTrue trivial

end Decidable

/-- The challenges with an entry of `u`, each once. -/
def challengesOf (u : Uid) (w : World ι) : List String :=
  ((w.server.entries.filter fun x => x.2.host = some u.val).map Prod.fst).dedup

/-- The challenges that have an entry of `u` in `w` and had none in `w₀`. -/
def newChallenges (u : Uid) (w₀ w : World ι) : List String :=
  (w.challengesOf u).filter fun c => ¬ w₀.server.HasEntry u c

/-- The participation counter has grown by the number of new challenges. -/
def CountedOnce (u : Uid) (w₀ w : World ι) : Prop :=
  ∃ a b : ℚ, w₀.server.field u.val .challengesCompletedLocal = some (.number a) ∧
    w.server.field u.val .challengesCompletedLocal = some (.number b) ∧
    b = a + (newChallenges u w₀ w).length

end World

end Datability
