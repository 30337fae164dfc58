import Mathlib.Data.List.Dedup
import Mathlib.Logic.Function.Basic
import Datability.Mutation
import Datability.Transition

/-!
# The local store of Firestore

What a phone keeps of the documents: the last version that the backend has sent of each, the queue of
the batches that are not acknowledged yet, and for each document that they change an overlay. The app reads
a document through its overlay, so the overlay has to be kept up to date with the queue and with what
the backend sends.

The store is that of one user; read times, indexes and targets of queries are left out.
-/

namespace Datability

namespace Firestore

variable {κ δ : Type*} [DecidableEq κ]

/-- `Overlay`: a mutation, and the last batch that it stands for. -/
structure Overlay (κ δ : Type*) where
  largestBatchId : ℤ
  mutation : Mutation κ δ

/-- `OverlayedDocument`: the local view of a document, and the fields that are changed locally. -/
structure OverlayedDocument (κ δ : Type*) where
  document : MutableDocument κ δ
  mutatedFields : Option FieldMask

/-- `MutationBatchResult`. -/
structure MutationBatchResult (κ δ : Type*) where
  batch : MutationBatch κ δ
  mutationResults : List (MutationResult δ)

namespace MutationBatchResult

/-- The version of a document after the batch, which is that of the last mutation of the document. -/
def docVersion (result : MutationBatchResult κ δ) (key : κ) : Option ℕ :=
  (result.batch.mutations.zip result.mutationResults).foldl
    (fun version m => if m.1.key = key then some m.2.version else version) none

/-- `GetKeysWithTransformResults`. The size that it tests is that of the static descriptor of an array, which is
always zero, so it takes the keys of all mutations of the batch. -/
def getKeysWithTransformResults (result : MutationBatchResult κ δ) : List κ :=
  (result.batch.mutations.zip result.mutationResults).map fun m => m.1.key

end MutationBatchResult

def MutationBatch.keys (batch : MutationBatch κ δ) : List κ := (batch.mutations.map Mutation.key).dedup

namespace MutableDocument

def hasCommittedMutations (doc : MutableDocument κ δ) : Bool := doc.documentState = .hasCommittedMutations

def hasPendingWrites (doc : MutableDocument κ δ) : Bool := doc.hasLocalMutations || doc.hasCommittedMutations

end MutableDocument

/-- `LocalStore`, with the caches that it works on. -/
structure LocalStore (κ δ : Type*) where
  remoteDocumentCache : κ → Option (MutableDocument κ δ) := fun _ => none
  mutationQueue : List (MutationBatch κ δ) := []
  nextBatchId : ℤ := 1
  documentOverlayCache : κ → Option (Overlay κ δ) := fun _ => none

namespace LocalStore

variable [DecidableEq δ] [BEq δ] [Add δ] [IntCast δ]

/-- `RemoteDocumentCache::Get`. -/
def get (ls : LocalStore κ δ) (key : κ) : MutableDocument κ δ :=
  (ls.remoteDocumentCache key).getD (.invalidDocument key)

/-- `RemoteDocumentCache::GetAll`. -/
def getAll (ls : LocalStore κ δ) (keys : List κ) : κ → Option (MutableDocument κ δ) :=
  fun key => if key ∈ keys then some (ls.get key) else none

/-- `DocumentOverlayCache::SaveOverlays`. -/
def saveOverlays (ls : LocalStore κ δ) (largestBatchId : ℤ) (overlays : κ → Option (Mutation κ δ)) :
    LocalStore κ δ :=
  { ls with documentOverlayCache := fun key =>
      match overlays key with
      | some mutation => some ⟨largestBatchId, mutation⟩
      | none => ls.documentOverlayCache key }

/-- `DocumentOverlayCache::RemoveOverlaysForBatchId`. -/
def removeOverlaysForBatchId (ls : LocalStore κ δ) (batchId : ℤ) : LocalStore κ δ :=
  { ls with documentOverlayCache := fun key =>
      (ls.documentOverlayCache key).filter fun overlay => overlay.largestBatchId ≠ batchId }

/-! ## Views -/

/-- `RecalculateAndSaveOverlays` while it goes through the batches: the documents, the fields that have been
changed of each, and which batch was applied to which document, in this order. -/
structure Recalculation (κ δ : Type*) where
  docs : κ → Option (MutableDocument κ δ)
  masks : κ → Option (Option FieldMask) := fun _ => none
  documentsByBatchId : List (ℤ × κ) := []

/-- Apply a batch to one of the documents. -/
def recalculateDocument (batch : MutationBatch κ δ) (r : Recalculation κ δ) (key : κ) : Recalculation κ δ :=
  match r.docs key with
  | none => r
  | some baseDoc =>
    let view := batch.applyToLocalView baseDoc ((r.masks key).getD (some []))
    { docs := Function.update r.docs key (some view.1),
      masks := Function.update r.masks key (some view.2),
      documentsByBatchId := r.documentsByBatchId ++ [(batch.batchId, key)] }

def recalculateBatch (r : Recalculation κ δ) (batch : MutationBatch κ δ) : Recalculation κ δ :=
  batch.keys.foldl (recalculateDocument batch) r

/-- The second loop of `RecalculateAndSaveOverlays`, from the last batch to the first. An overlay is saved
with the last batch of the document; if there is nothing to overlay, nothing is saved. -/
def saveLoop (r : Recalculation κ δ) (processed : List κ) (ls : LocalStore κ δ) :
    List (ℤ × κ) → LocalStore κ δ
  | [] => ls
  | (batchId, key) :: rest =>
    if key ∈ processed then saveLoop r processed ls rest
    else
      let mutation := (r.docs key).bind fun doc => Mutation.calculateOverlayMutation doc ((r.masks key).getD none)
      saveLoop r (key :: processed) (ls.saveOverlays batchId (Function.update (fun _ => none) key mutation)) rest

/-- `AllMutationBatchesAffectingDocumentKeys`. -/
def allMutationBatchesAffectingDocumentKeys (ls : LocalStore κ δ) (affected : κ → Bool) :
    List (MutationBatch κ δ) :=
  ls.mutationQueue.filter fun batch => batch.keys.any affected

/-- `RecalculateAndSaveOverlays`: apply the batches of the queue to the documents, and save overlays that
lead from the documents to the results. -/
def recalculateAndSaveOverlays (ls : LocalStore κ δ) (docs : κ → Option (MutableDocument κ δ)) :
    LocalStore κ δ × Recalculation κ δ :=
  let batches := ls.allMutationBatchesAffectingDocumentKeys fun key => (docs key).isSome
  let r := batches.foldl recalculateBatch { docs }
  (saveLoop r [] ls r.documentsByBatchId.reverse, r)

/-- Whether `ComputeViews` recalculates the overlay of a document: it has come into existence or ceased to
exist, and the overlay is a patch or there is none. -/
def mustRecalculate (ls : LocalStore κ δ) (existenceStateChanged : κ → Bool) (key : κ) : Bool :=
  existenceStateChanged key &&
    match ls.documentOverlayCache key with
    | none => true
    | some overlay => overlay.mutation.isPatch

/-- `ComputeViews`. Where no overlay is applied, the changed fields are those of a missing entry, that is
none at all, which stands for a change of the whole document. -/
def computeViews (ls : LocalStore κ δ) (docs : κ → Option (MutableDocument κ δ))
    (existenceStateChanged : κ → Bool) (now : Timestamp) :
    LocalStore κ δ × (κ → Option (OverlayedDocument κ δ)) :=
  let recalculated := ls.recalculateAndSaveOverlays fun key =>
    if ls.mustRecalculate existenceStateChanged key then docs key else none
  (recalculated.1, fun key => (docs key).map fun doc =>
    if ls.mustRecalculate existenceStateChanged key then
      ⟨(recalculated.2.docs key).getD doc, (recalculated.2.masks key).getD none⟩
    else match ls.documentOverlayCache key with
      | some overlay => ⟨(overlay.mutation.applyToLocalView doc none now).1, overlay.mutation.fieldMask⟩
      | none => ⟨doc, none⟩)

/-- `GetBaseDocument`. -/
def getBaseDocument (ls : LocalStore κ δ) (key : κ) (overlay : Option (Overlay κ δ)) : MutableDocument κ δ :=
  match overlay with
  | none => ls.get key
  | some overlay => if overlay.mutation.isPatch then ls.get key else .invalidDocument key

/-- `LocalDocumentsView::GetDocument`: the document as the app sees it. -/
def getDocument (ls : LocalStore κ δ) (key : κ) (now : Timestamp) : MutableDocument κ δ :=
  Mutation.applyOverlay (ls.getBaseDocument key (ls.documentOverlayCache key)) now
    ((ls.documentOverlayCache key).map Overlay.mutation)

/-- The other `LocalDocumentsView::GetDocument`: apply batches to the document that the backend has sent. -/
def getDocumentWithBatches (ls : LocalStore κ δ) (key : κ) (batches : List (MutationBatch κ δ)) :
    MutableDocument κ δ :=
  batches.foldl (fun document batch => (batch.applyToLocalView document (some [])).1) (ls.get key)

/-! ## Writes -/

/-- The body of the loop of `ApplyToLocalDocumentSet`: the whole batch is applied to the document of the
mutation, and an overlay that was found before is kept. -/
def applyToDocumentOf (batch : MutationBatch κ δ)
    (s : (κ → Option (OverlayedDocument κ δ)) × (κ → Option (Mutation κ δ))) (mutation : Mutation κ δ) :
    (κ → Option (OverlayedDocument κ δ)) × (κ → Option (Mutation κ δ)) :=
  match s.1 mutation.key with
  | none => s
  | some overlayed =>
    let view := batch.applyToLocalView overlayed.document overlayed.mutatedFields
    let document := if view.1.isValidDocument then view.1 else view.1.convertToNoDocument 0
    (Function.update s.1 mutation.key (some { overlayed with document }),
      Function.update s.2 mutation.key
        ((s.2 mutation.key).or (Mutation.calculateOverlayMutation view.1 view.2)))

/-- `ApplyToLocalDocumentSet`. -/
def applyToLocalDocumentSet (batch : MutationBatch κ δ) (documentMap : κ → Option (OverlayedDocument κ δ)) :
    (κ → Option (OverlayedDocument κ δ)) × (κ → Option (Mutation κ δ)) :=
  batch.mutations.foldl (applyToDocumentOf batch) (documentMap, fun _ => none)

/-- The patch that restores the values from which the increments of a mutation start. -/
def baseMutation (document : MutableDocument κ δ) (mutation : Mutation κ δ) : Option (Mutation κ δ) :=
  (mutation.extractTransformBaseValue document).map fun baseValue =>
    .patch mutation.key baseValue baseValue.extractFieldMask (.exists true) []

/-- `WriteLocally`: put the mutations into the queue. The result has the local views of their documents. -/
def writeLocally (ls : LocalStore κ δ) (mutations : List (Mutation κ δ)) (now : Timestamp) :
    LocalStore κ δ × (κ → Option (OverlayedDocument κ δ)) :=
  let views := ls.computeViews (ls.getAll (mutations.map Mutation.key)) (fun _ => false) now
  let ls := views.1
  let overlayedDocuments := views.2
  let baseMutations := mutations.filterMap fun mutation =>
    (overlayedDocuments mutation.key).bind fun overlayed => baseMutation overlayed.document mutation
  let batch : MutationBatch κ δ := ⟨ls.nextBatchId, now, baseMutations, mutations⟩
  let ls := { ls with mutationQueue := ls.mutationQueue ++ [batch], nextBatchId := ls.nextBatchId + 1 }
  let applied := applyToLocalDocumentSet batch overlayedDocuments
  (ls.saveOverlays batch.batchId applied.2, applied.1)

/-! ## Answers of the backend -/

def lookupMutationBatch (ls : LocalStore κ δ) (batchId : ℤ) : Option (MutationBatch κ δ) :=
  ls.mutationQueue.find? fun batch => batch.batchId = batchId

/-- `RemoveMutationBatch`. -/
def removeMutationBatch (ls : LocalStore κ δ) (batchId : ℤ) : LocalStore κ δ :=
  { ls with mutationQueue := ls.mutationQueue.filter fun batch => batch.batchId ≠ batchId }

/-- `ApplyBatchResult`: the documents of the batch as they are on the backend now, unless the backend has
sent newer ones already. -/
def applyBatchResult (ls : LocalStore κ δ) (result : MutationBatchResult κ δ) : LocalStore κ δ :=
  { ls with remoteDocumentCache := fun key =>
      match result.docVersion key with
      | none => ls.remoteDocumentCache key
      | some ackVersion =>
        if (ls.get key).version < ackVersion then
          let doc := result.batch.applyToRemoteDocument (ls.get key) result.mutationResults
          if doc.isValidDocument then some doc else ls.remoteDocumentCache key
        else ls.remoteDocumentCache key }.removeMutationBatch result.batch.batchId

/-- `AcknowledgeBatch`. -/
def acknowledgeBatch (ls : LocalStore κ δ) (result : MutationBatchResult κ δ) : LocalStore κ δ :=
  let ls := (ls.applyBatchResult result).removeOverlaysForBatchId result.batch.batchId
  (ls.recalculateAndSaveOverlays (ls.getAll result.getKeysWithTransformResults)).1

/-- `RejectBatch`. -/
def rejectBatch (ls : LocalStore κ δ) (toReject : MutationBatch κ δ) : LocalStore κ δ :=
  let ls := (ls.removeMutationBatch toReject.batchId).removeOverlaysForBatchId toReject.batchId
  (ls.recalculateAndSaveOverlays (ls.getAll toReject.keys)).1

/-- Whether the backend has sent a document that takes the place of the one in the cache. -/
def isNewer (doc existingDoc : MutableDocument κ δ) : Bool :=
  (doc.isNoDocument && doc.version = 0) || !existingDoc.isValidDocument || doc.version > existingDoc.version ||
    (doc.version = existingDoc.version && existingDoc.hasPendingWrites)

/-- `PopulateDocumentChanges`. A document that is known not to exist at no version at all is one to which
access was lost, and is removed. -/
def populateDocumentChanges (ls : LocalStore κ δ) (documents : κ → Option (MutableDocument κ δ)) :
    LocalStore κ δ :=
  { ls with remoteDocumentCache := fun key =>
      match documents key with
      | none => ls.remoteDocumentCache key
      | some doc =>
        if doc.isNoDocument && doc.version = 0 then none
        else if isNewer doc (ls.get key) then some doc
        else ls.remoteDocumentCache key }

/-- The documents of an event that take the place of those in the cache. -/
def changedDocs (ls : LocalStore κ δ) (documents : κ → Option (MutableDocument κ δ)) :
    κ → Option (MutableDocument κ δ) :=
  fun key => (documents key).filter fun doc => isNewer doc (ls.get key)

/-- Whether an event says of a document that it exists and the cache that it does not, or the other way. -/
def existenceChanged (ls : LocalStore κ δ) (documents : κ → Option (MutableDocument κ δ)) (key : κ) : Bool :=
  (documents key).any fun doc => doc.isFoundDocument != (ls.get key).isFoundDocument

/-- `ApplyRemoteEvent`, of which only the documents matter here. -/
def applyRemoteEvent (ls : LocalStore κ δ) (documentUpdates : κ → Option (MutableDocument κ δ))
    (now : Timestamp) : LocalStore κ δ :=
  ((ls.populateDocumentChanges documentUpdates).computeViews (ls.changedDocs documentUpdates)
    (ls.existenceChanged documentUpdates) now).1

/-- `LocalStore::Start`: the mutation queue starts with one more than the highest id in it. -/
def start (ls : LocalStore κ δ) : LocalStore κ δ :=
  { ls with nextBatchId := ls.mutationQueue.foldl (fun maxBatchId batch => max maxBatchId batch.batchId) 0 + 1 }

/-! ## Runs -/

/-- What happens to a store. -/
inductive Event (κ δ : Type*)
  | write (mutations : List (Mutation κ δ)) (now : Timestamp)
  | acknowledge (batchId : ℤ) (mutationResults : List (MutationResult δ))
  | reject (batchId : ℤ)
  | remoteEvent (documentUpdates : κ → Option (MutableDocument κ δ)) (now : Timestamp)
  | restart

/-- No batch is empty, and the backend answers for batches that are in the queue, with one result for each
mutation. -/
def react (ls : LocalStore κ δ) : Event κ δ → Option (LocalStore κ δ)
  | .write mutations now => if mutations = [] then none else some (ls.writeLocally mutations now).1
  | .acknowledge batchId mutationResults => do
    let batch ← ls.lookupMutationBatch batchId
    if mutationResults.length = batch.mutations.length then
      some (ls.acknowledgeBatch ⟨batch, mutationResults⟩)
    else none
  | .reject batchId => do
    let toReject ← ls.lookupMutationBatch batchId
    some (ls.rejectBatch toReject)
  | .remoteEvent documentUpdates now => some (ls.applyRemoteEvent documentUpdates now)
  | .restart => some ls.start

/-! ## What the overlays stand for -/

/-- The batches of the queue that change a document. -/
def pending (ls : LocalStore κ δ) (key : κ) : List (MutationBatch κ δ) :=
  ls.mutationQueue.filter fun batch => key ∈ batch.keys

/-- What these batches make of the document, and the fields that they change. -/
def replay (ls : LocalStore κ δ) (key : κ) (doc : MutableDocument κ δ) : MutableDocument κ δ × Option FieldMask :=
  (ls.pending key).foldl (fun s batch => batch.applyToLocalView s.1 s.2) (doc, some [])

end LocalStore

end Firestore

end Datability
