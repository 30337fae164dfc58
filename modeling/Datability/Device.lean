import Datability.Firestore
import Datability.PlantScanner

/-!
# The app on one phone

A `Device` is everything the app keeps on a phone: what survives a kill (the session of Firebase Auth,
`UserDefaults`, the queue of Firestore writes not yet applied), the screens of the running process,
and the requests whose replies are still outstanding. An `Event` is a step of the user interface or
the delivery of one reply; each runs to its end before the next one starts.

A request that Firebase answers holds the answer once the backend has computed it (`reply`), so that
the moment a snapshot is taken and the moment it is delivered can lie apart. Requests are named by
their position in their list. Photos carry the account and the location of their capture, and writes
carry what caused them; the lists at the end of `Device` record what happened. No step looks at any
of these.
-/

namespace Datability

/-- A reading of `CLLocationManager.location`. -/
structure Location where
  latitude : ℚ
  longitude : ℚ
deriving DecidableEq, Repr

/-- The entries of a challenge dictionary that the capture of a photo reads. -/
structure Challenge where
  id : Option String
  type : Option String
deriving DecidableEq, Repr

/-- The plant that a challenge asks for, `databilityChallenges["type"] as? String ?? "Type"`. -/
def Challenge.expectedPlant (c : Challenge) : String := c.type.getD "Type"

/-- The document whose entries are queried, `databilityChallenges["id"] as? String ?? "Error"`. -/
def Challenge.document (c : Challenge) : String := c.id.getD "Error"

/-- A captured photo: the order of its capture, who was signed in then, and where it was taken. -/
structure Photo where
  serial : ℕ
  owner : Option Uid
  location : Location
deriving DecidableEq, Repr

/-- Why a write was issued. -/
inductive Cause
  | photo (p : Photo)
  | mail (amount : ℚ)
  | onboarding
deriving DecidableEq, Repr

/-- A write together with its cause. -/
structure Issued where
  write : Write
  cause : Cause

/-- An outstanding `signIn` or `createUser`; the answer is an account or a refusal. -/
structure AuthRequest where
  email : String
  password : String
  reply : Option (Option Uid)
deriving DecidableEq, Repr

/-- An outstanding `getDocument` of `getUser`; the answer is a document or that there is none. -/
structure GetUser where
  uid : Uid
  reply : Option (Option Fields)

/-- An outstanding plant.id request, with the values its completion has captured. -/
structure Scan where
  photo : Photo
  oneCoord : Location
  challenge : Challenge
deriving DecidableEq, Repr

/-- An outstanding `putData`, with the values its completion has captured. -/
structure Upload where
  photo : Photo
  path : String
  lat : ℚ
  long : ℚ
  challenge : Challenge
deriving DecidableEq, Repr

/-- An outstanding query of the entries of a challenge. -/
structure Query where
  photo : Photo
  document : String
  reply : Option (List Entry)
deriving DecidableEq, Repr

/-- The tabs of `HomeBottomBar`. -/
inductive Tab
  | home
  | maps
  | profile
deriving DecidableEq, Repr

/-- The values of `MFMailComposeResult`. -/
inductive MailResult
  | cancelled
  | saved
  | sent
  | failed
deriving DecidableEq, Repr

structure Device where
  /-- `Auth.auth().currentUser`. -/
  currentUser : Option Uid := none
  defaults : Fields := Fields.empty
  /-- Firestore writes in the order they were issued, the oldest first. -/
  queue : List Issued := []
  running : Bool := false
  /-- Whether the view of `dataLoginHostingController` is in the view hierarchy. -/
  loginView : Bool := false
  /-- Whether the view of `dataChallengesHostingController` is in the view hierarchy. -/
  challengesView : Bool := false
  dataTextEmail : String := ""
  dataTextPassword : String := ""
  showPermissions : Bool := false
  /-- `continueOnboarding` of the login view, which presents `DatabilityPersonalInfo`. -/
  continueOnboarding : Bool := false
  /-- `continueOnboarding` of `DatabilityPersonalInfo`, which presents its permission sheet. -/
  personalInfoSheet : Bool := false
  currentTab : Tab := .home
  /-- The state of the profile view, meaningful while the profile tab is selected. -/
  databaseProfile : Option DatabilityUser := none
  /-- The amount of the open mail composer. -/
  moneyNeeded : Option ℚ := none
  signIns : List AuthRequest := []
  createUsers : List AuthRequest := []
  getUsers : List GetUser := []
  scans : List Scan := []
  uploads : List Upload := []
  queries : List Query := []
  /-- Every write issued so far. -/
  issued : List Issued := []
  /-- The amounts of the mails sent so far. -/
  mails : List ℚ := []
  /-- The random credits given so far. -/
  credits : List ℚ := []
  /-- The photos captured so far, each with the challenge it was captured for. -/
  captures : List (Photo × Challenge) := []
  /-- Every delivered reply of plant.id, with the photo that was sent and its challenge. -/
  replies : List (Photo × Challenge × PlantReply) := []
  /-- The photos whose upload succeeded, each with its Storage object. -/
  stored : List (Photo × String) := []

namespace Device

/-! ## View hierarchy -/

def removeDataHostingView (dev : Device) : Device := { dev with loginView := false }

def loadDataHostingView (dev : Device) : Device := { dev with loginView := true }

def removeDataChallengesView (dev : Device) : Device := { dev with challengesView := false }

def loadDataChallengesHostingView (dev : Device) : Device := { dev with challengesView := true }

def viewDidLoad (dev : Device) : Device :=
  if dev.currentUser = none then dev.loadDataHostingView else dev.loadDataChallengesHostingView

/-- The process is gone: its screens and outstanding requests are, and what is stored stays. -/
def terminated (dev : Device) : Device where
  currentUser := dev.currentUser
  defaults := dev.defaults
  queue := dev.queue
  issued := dev.issued
  mails := dev.mails
  credits := dev.credits
  captures := dev.captures
  replies := dev.replies
  stored := dev.stored

/-! ## Answers of the backend -/

def answerSignIn (dev : Device) (i : ℕ) (req : AuthRequest) (result : Option Uid) : Device :=
  { dev with signIns := dev.signIns.set i { req with reply := some result } }

def answerCreateUser (dev : Device) (i : ℕ) (req : AuthRequest) (result : Option Uid) : Device :=
  { dev with createUsers := dev.createUsers.set i { req with reply := some result } }

def answerGetUser (dev : Device) (i : ℕ) (req : GetUser) (snapshot : Option Fields) : Device :=
  { dev with getUsers := dev.getUsers.set i { req with reply := some snapshot } }

def answerQuery (dev : Device) (i : ℕ) (q : Query) (docs : List Entry) : Device :=
  { dev with queries := dev.queries.set i { q with reply := some docs } }

def setQueue (dev : Device) (queue : List Issued) : Device := { dev with queue := queue }

/-! ## Requests whose reply has been delivered -/

def endSignIn (dev : Device) (i : ℕ) : Device := { dev with signIns := dev.signIns.eraseIdx i }

def endCreateUser (dev : Device) (i : ℕ) : Device :=
  { dev with createUsers := dev.createUsers.eraseIdx i }

def endGetUser (dev : Device) (i : ℕ) : Device := { dev with getUsers := dev.getUsers.eraseIdx i }

/-- The reply is noted whatever `plantScanner` makes of it. -/
def endScan (dev : Device) (i : ℕ) (scan : Scan) (reply : PlantReply) : Device :=
  { dev with
    scans := dev.scans.eraseIdx i
    replies := dev.replies ++ [(scan.photo, scan.challenge, reply)] }

def endUpload (dev : Device) (i : ℕ) : Device := { dev with uploads := dev.uploads.eraseIdx i }

def endQuery (dev : Device) (i : ℕ) : Device := { dev with queries := dev.queries.eraseIdx i }

/-- Note that the photo of an upload is in Storage. -/
def noteStored (dev : Device) (up : Upload) : Device :=
  { dev with stored := dev.stored ++ [(up.photo, up.path)] }

/-! ## Firestore -/

/-- The document that stands for the signed-in user, `currentUser?.uid ?? "ERROR"`. -/
def userPath (dev : Device) : String := (dev.currentUser.map Uid.val).getD "ERROR"

def issue (dev : Device) (cause : Cause) (w : Write) : Device :=
  { dev with queue := dev.queue ++ [⟨w, cause⟩], issued := dev.issued ++ [⟨w, cause⟩] }

/-- `DatabilityUserLoginFirebase.uploadUser`. -/
def uploadUser (dev : Device) (dataTextName dataTextEmail dataTextPhoneNumber password : String) :
    Device :=
  match dev.currentUser with
  | none => dev
  | some currentUserID => dev.issue .onboarding (.setData currentUserID.val
      (userDocument dataTextName dataTextEmail dataTextPhoneNumber password))

/-- `DatabilityUserLoginFirebase.getUser`. -/
def getUser (dev : Device) (currentUserID : Uid) : Device :=
  { dev with getUsers := dev.getUsers ++ [⟨currentUserID, none⟩] }

/-- The completion of `getUser` for a snapshot; a document that does not decode is passed over. -/
def getUserCompletion (dev : Device) (dataDocSnapshot : Option Fields) : Device :=
  match dataAsDatabilityUser dataDocSnapshot with
  | some dataDatabilityUser => { dev with defaults := dev.defaults.setUser dataDatabilityUser }
  | none => dev

/-! ## Sign-in, onboarding and sign-out -/

/-- The completion of `signIn`: an account, or any failure, which falls through to `createUser` with
what the text fields hold by then. -/
def signInCompletion (dev : Device) : Option Uid → Device
  | some currentUID => ({ dev with currentUser := some currentUID, showPermissions := true }).getUser
      currentUID
  | none => { dev with
      createUsers := dev.createUsers ++ [⟨dev.dataTextEmail, dev.dataTextPassword, none⟩] }

/-- The completion of `createUser`. -/
def createUserCompletion (dev : Device) : Option Uid → Device
  | some currentUID => { dev with currentUser := some currentUID, continueOnboarding := true }
  | none => dev

/-- The end of the onboarding sheet. -/
def finishOnboarding (dev : Device) (dataTextName dataTextPhoneNumber : String) : Device :=
  let dev := { dev with
    defaults := dev.defaults.setUser (newUser dataTextName dev.dataTextEmail dataTextPhoneNumber) }
  let dev := dev.uploadUser dataTextName dev.dataTextEmail dataTextPhoneNumber dev.dataTextPassword
  let dev := { dev with continueOnboarding := false, personalInfoSheet := false }
  dev.removeDataHostingView.loadDataChallengesHostingView

/-- The sign-out button, when `signOut` does not throw. -/
def signOut (dev : Device) : Device :=
  let dev := { dev with currentUser := none, defaults := dev.defaults.removeUser }
  dev.removeDataChallengesView.loadDataChallengesHostingView

/-! ## Withdrawals -/

/-- `MailComposerCoordinator.mailComposeController` for a composer opened with `amount`. -/
def mailComposeController (dev : Device) (amount : ℚ) (result : MailResult) : Device :=
  let dev := { dev with moneyNeeded := none }
  if result = .sent then
    let dev := { dev with
      defaults := dev.defaults.set .totalMoneyEarnedLocal (.number 0)
      databaseProfile :=
        dev.databaseProfile.map fun u : DatabilityUser => { u with totalMoneyEarnedLocal := 0 }
      mails := dev.mails ++ [amount] }
    dev.issue (.mail amount) (.updateData dev.userPath .totalMoneyEarnedLocal (.number 0))
  else dev

/-! ## Photos -/

/-- `PlantScanner.uploadPhoto`, where `pngData` tells whether the image could be encoded. -/
def uploadPhoto (dev : Device) (photo : Photo) (imageUUID : String) (pngData : Bool) (lat long : ℚ)
    (currentDictChallenge : Challenge) : Device :=
  if pngData then
    { dev with
      uploads := dev.uploads ++ [⟨photo, imageUUID ++ ".png", lat, long, currentDictChallenge⟩] }
  else dev

/-- `PlantScanner.uploadEntries`. -/
def uploadEntries (dev : Device) (photo : Photo) (fullPath : String) (latitude longitude date : ℚ)
    (currentDictChallenge : Challenge) : Device :=
  match currentDictChallenge.id with
  | none => dev
  | some currentDictID =>
    match dev.currentUser with
    | none => dev
    | some currentUserID => dev.issue (.photo photo) (.addDocument currentDictID
        ⟨some currentUserID.val, some fullPath, some latitude, some longitude, some date⟩)

/-- Raise a local counter by one. -/
def countLocal (dev : Device) (k : Key) : Device :=
  { dev with defaults := dev.defaults.set k (.number (dev.defaults.integer k + 1 : Int)) }

/-- The local counter can be raised; Swift traps when a sum leaves the range of `Int`. -/
def CanCount (dev : Device) (k : Key) : Prop := dev.defaults.integer k + 1 < 2 ^ 63

instance (dev : Device) (k : Key) : Decidable (dev.CanCount k) :=
  inferInstanceAs (Decidable (_ < _))

/-- The completion of `plantScanner` with `true`: the upload is started, both counters are raised on
the phone and on the server, and the entries of the challenge are queried. -/
def snapAccepted (dev : Device) (scan : Scan) (moneyIncrementedRandom : ℚ) (imageUUID : String)
    (pngData : Bool) : Device :=
  let dev := dev.uploadPhoto scan.photo imageUUID pngData scan.oneCoord.latitude
    scan.oneCoord.longitude scan.challenge
  let dev := dev.countLocal .totalSnapsTakenLocal
  let dev := { dev with
    defaults := dev.defaults.set .totalMoneyEarnedLocal
      (.number (dev.defaults.double .totalMoneyEarnedLocal + moneyIncrementedRandom)) }
  let dev := dev.issue (.photo scan.photo) (.increment dev.userPath .totalSnapsTakenLocal 1)
  let dev := dev.issue (.photo scan.photo)
    (.increment dev.userPath .totalMoneyEarnedLocal moneyIncrementedRandom)
  { dev with
    queries := dev.queries ++ [⟨scan.photo, scan.challenge.document, none⟩]
    credits := dev.credits ++ [moneyIncrementedRandom] }

/-- Whether one of the entries is hosted by the signed-in user. -/
def doesHaveCurrentUserEntrie (dev : Device) (docs : List Entry) : Bool :=
  docs.any fun e => e.host.getD "ERROR" == (dev.currentUser.map Uid.val).getD "Auth_ERROR"

/-- The reply to the query of the entries: the first entry of a user counts as a participation. -/
def entriesReply (dev : Device) (photo : Photo) (docs : List Entry) : Device :=
  if dev.doesHaveCurrentUserEntrie docs then dev
  else
    (dev.issue (.photo photo) (.increment dev.userPath .challengesCompletedLocal 1)).countLocal
      .challengesCompletedLocal

end Device

/-! ## Events -/

inductive Event
  | launch
  | kill
  | editLogin (email password : String)
  | pressSignIn
  | signInReply (i : ℕ) (failed : Bool)
  | createUserReply (i : ℕ) (failed : Bool)
  | getUserReply (i : ℕ) (failed : Bool)
  | dismissPermissions
  | pressLetsGo
  | finishOnboarding (dataTextName dataTextPhoneNumber : String)
  | selectTab (t : Tab)
  | pressSignOut (throws : Bool)
  | pressWithdrawal
  | mailResult (result : MailResult)
  | capture (serial : ℕ) (challenge : Challenge) (oneCoord currentLoc : Option Location)
      (encoded : Bool)
  | scanReply (i : ℕ) (reply : PlantReply) (moneyIncrementedRandom : ℚ) (imageUUID : String)
      (pngData : Bool)
  | uploadReply (i : ℕ) (failed : Bool) (date : ℚ)
  | queryReply (i : ℕ) (failed : Bool)
deriving DecidableEq

namespace Device

/-- The login view can be used: nothing is presented over it. -/
def AtLogin (dev : Device) : Prop :=
  dev.loginView = true ∧ dev.showPermissions = false ∧ dev.continueOnboarding = false

instance (dev : Device) : Decidable dev.AtLogin := inferInstanceAs (Decidable (_ ∧ _))

/-- The profile view can be used: its tab is selected and no mail composer is open. -/
def AtProfile (dev : Device) : Prop :=
  dev.challengesView = true ∧ dev.currentTab = .profile ∧ dev.moneyNeeded = none

instance (dev : Device) : Decidable dev.AtProfile := inferInstanceAs (Decidable (_ ∧ _))

def step (dev : Device) : Event → Option Device
  | .launch => if dev.running = false then some ({ dev with running := true }).viewDidLoad else none
  | .kill => if dev.running = true then some dev.terminated else none
  | .editLogin email password =>
    if dev.AtLogin then some { dev with dataTextEmail := email, dataTextPassword := password }
    else none
  | .pressSignIn =>
    if dev.AtLogin then
      some { dev with signIns := dev.signIns ++ [⟨dev.dataTextEmail, dev.dataTextPassword, none⟩] }
    else none
  | .signInReply i failed =>
    dev.signIns[i]?.bind fun req =>
      (if failed then some none else req.reply).map (dev.endSignIn i).signInCompletion
  | .createUserReply i failed =>
    dev.createUsers[i]?.bind fun req =>
      (if failed then some none else req.reply).map (dev.endCreateUser i).createUserCompletion
  | .getUserReply i failed =>
    dev.getUsers[i]?.bind fun req =>
      if failed then some (dev.endGetUser i)
      else req.reply.map (dev.endGetUser i).getUserCompletion
  | .dismissPermissions =>
    if dev.loginView = true ∧ dev.showPermissions = true then
      some ({ dev with showPermissions := false }).removeDataHostingView.loadDataChallengesHostingView
    else none
  | .pressLetsGo =>
    if dev.loginView = true ∧ dev.continueOnboarding = true then
      some { dev with personalInfoSheet := true }
    else none
  | .finishOnboarding dataTextName dataTextPhoneNumber =>
    if dev.loginView = true ∧ dev.continueOnboarding = true ∧ dev.personalInfoSheet = true then
      some (dev.finishOnboarding dataTextName dataTextPhoneNumber)
    else none
  | .selectTab t =>
    if dev.challengesView = true ∧ dev.moneyNeeded = none ∧ t ≠ dev.currentTab then
      some { dev with
        currentTab := t
        databaseProfile := if t = .profile then fetchProfileData dev.defaults else none }
    else none
  | .pressSignOut throws =>
    if dev.AtProfile then some (if throws then dev else dev.signOut) else none
  | .pressWithdrawal =>
    if dev.AtProfile then
      some { dev with
        moneyNeeded := some ((dev.databaseProfile.map (·.totalMoneyEarnedLocal)).getD 0) }
    else none
  | .mailResult result => dev.moneyNeeded.map fun amount => dev.mailComposeController amount result
  | .capture serial challenge oneCoord currentLoc encoded =>
    if dev.challengesView = true ∧ dev.currentTab = .home then
      match oneCoord with
      | none => some dev
      | some loc =>
        let photo : Photo := ⟨serial, dev.currentUser, loc⟩
        let dev := { dev with captures := dev.captures ++ [(photo, challenge)] }
        -- without a second reading, or when nothing could be encoded, `plantScanner` reports
        -- `false` at once
        if currentLoc.isSome ∧ encoded = true then
          some { dev with scans := dev.scans ++ [⟨photo, loc, challenge⟩] }
        else some dev
    else none
  | .scanReply i reply moneyIncrementedRandom imageUUID pngData =>
    dev.scans[i]?.bind fun scan =>
      if plantScannerReply reply scan.challenge.expectedPlant = some true then
        if 1 / 10 ≤ moneyIncrementedRandom ∧ moneyIncrementedRandom ≤ 1 ∧
            dev.CanCount .totalSnapsTakenLocal then
          some ((dev.endScan i scan reply).snapAccepted scan moneyIncrementedRandom imageUUID pngData)
        else none
      else some (dev.endScan i scan reply)
  | .uploadReply i failed date =>
    dev.uploads[i]?.bind fun up =>
      if failed then some (dev.endUpload i)
      else some (((dev.endUpload i).noteStored up).uploadEntries up.photo up.path up.lat up.long
        date up.challenge)
  | .queryReply i failed =>
    dev.queries[i]?.bind fun q =>
      if failed then some (dev.endQuery i)
      else q.reply.bind fun docs =>
        if dev.doesHaveCurrentUserEntrie docs = true ∨ dev.CanCount .challengesCompletedLocal then
          some ((dev.endQuery i).entriesReply q.photo docs)
        else none

end Device

end Datability
