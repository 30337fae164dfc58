import Mathlib.Data.Int.Cast.Defs
import Datability.ObjectValue

/-!
# Mutations

The writes of Firestore as the client applies them: `SetMutation`, `PatchMutation` and `DeleteMutation`
with their preconditions and field transforms. A mutation is applied to the local view of a document while
the write is pending, and to the cached remote document when the backend has acknowledged it. Since it is
slow to apply all the pending mutations each time a document is read, their joint effect is kept as one
mutation, the overlay.
-/

namespace Datability

namespace Firestore

open SortedMap

variable {δ : Type*}

/-- The time of a local write. -/
structure Timestamp where
  seconds : Int
  nanoseconds : Int
deriving DecidableEq, Repr

/-- The values that can be incremented. -/
inductive Number (δ : Type*)
  | integer (i : Int64)
  | double (d : δ)
deriving DecidableEq, Repr

namespace Number

def toValue : Number δ → Value δ
  | .integer i => .integer i
  | .double d => .double d

/-- The number as a floating point number. -/
def asDouble [IntCast δ] : Number δ → δ
  | .integer i => (i.toInt : δ)
  | .double d => d

/-- Integer addition that stays at the largest or the smallest integer instead of overflowing. -/
def safeIncrement (x y : Int64) : Int64 :=
  if x > 0 ∧ y > Int64.maxValue - x then Int64.maxValue
  else if x < 0 ∧ y < Int64.minValue - x then Int64.minValue
  else x + y

end Number

namespace Value

def kTypeKey : String := "__type__"

def kLocalWriteTimeKey : String := "__local_write_time__"

def kPreviousValueKey : String := "__previous_value__"

def kServerTimestampSentinel : String := "server_timestamp"

/-- The value that stands for the time of the server until the server has set it. -/
def encodeServerTimestamp (localWriteTime : Timestamp) (previousValue : Option (Value δ)) : Value δ :=
  .map ([(kTypeKey, .string kServerTimestampSentinel),
    (kLocalWriteTimeKey, .timestamp localWriteTime.seconds localWriteTime.nanoseconds)] ++
      (previousValue.map fun v => (kPreviousValueKey, v)).toList)

/-- Whether the fields of a map are those of an encoded server timestamp. -/
def isServerTimestamp (fields : MapValue δ) : Bool :=
  fields.length ≤ 3 &&
    match fields.find? fun e => e.1 = kTypeKey with
    | some (_, .string s) => s = kServerTimestampSentinel
    | _ => false

/-- The time of the write in an encoded server timestamp. -/
def getLocalWriteTime : MapValue δ → Option Timestamp
  | [] => none
  | (key, .timestamp seconds nanos) :: fields =>
    if key = kLocalWriteTimeKey then some ⟨seconds, nanos⟩ else getLocalWriteTime fields
  | _ :: fields => getLocalWriteTime fields

section Equals

-- two numbers are equal if they have the same bits, and two coordinates if they compare as equal
variable [DecidableEq δ] [BEq δ]

mutual

/-- Whether two values are equal. Of server timestamps only the times of the writes count. -/
def equals : Value δ → Value δ → Bool
  | .null, .null => true
  | .boolean a, .boolean b => a = b
  | .integer a, .integer b => a = b
  | .double a, .double b => decide (a = b)
  | .timestamp s n, .timestamp t m => s = t && n = m
  | .string a, .string b => a = b
  | .bytes a, .bytes b => a = b
  | .reference a, .reference b => a = b
  | .geoPoint x y, .geoPoint x' y' => x == x' && y == y'
  | .array a, .array b => arrayEquals a b
  | .map a, .map b =>
    if isServerTimestamp a then isServerTimestamp b && getLocalWriteTime a = getLocalWriteTime b
    else !isServerTimestamp b && objectEquals a b
  | _, _ => false

def arrayEquals : List (Value δ) → List (Value δ) → Bool
  | [], [] => true
  | a :: as, b :: bs => a.equals b && arrayEquals as bs
  | _, _ => false

def objectEquals : List (String × Value δ) → List (String × Value δ) → Bool
  | [], [] => true
  | (k, a) :: as, (l, b) :: bs => k = l && a.equals b && objectEquals as bs
  | _, _ => false

end

end Equals

end Value

/-- `TransformOperation`: what becomes of a field depends on its value. -/
inductive TransformOperation (δ : Type*)
  | serverTimestamp
  | arrayUnion (elements : List (Value δ))
  | arrayRemove (elements : List (Value δ))
  | increment (operand : Number δ)

namespace TransformOperation

/-- The value from which an increment starts. The other transforms are idempotent and need none. -/
def computeBaseValue (previousValue : Option (Value δ)) : Number δ :=
  match previousValue with
  | some (.integer i) => .integer i
  | some (.double d) => .double d
  | _ => .integer 0

def coercedFieldValueArray : Option (Value δ) → List (Value δ)
  | some (.array values) => values
  | _ => []

variable [DecidableEq δ] [BEq δ]

def contains (haystack : List (Value δ)) (needle : Value δ) : Bool := haystack.any fun v => v.equals needle

/-- The elements that are not in the array yet, each once. -/
def newElements (array : List (Value δ)) : List (Value δ) → List (Value δ) → List (Value δ)
  | found, [] => found
  | found, element :: elements =>
    if !contains array element && !contains found element then
      newElements array (found ++ [element]) elements
    else newElements array found elements

variable [Add δ] [IntCast δ]

/-- The new value of a field in the local view. -/
def applyToLocalView (previousValue : Option (Value δ)) (localWriteTime : Timestamp) :
    TransformOperation δ → Value δ
  | .serverTimestamp => .encodeServerTimestamp localWriteTime previousValue
  | .arrayUnion elements =>
    let array := coercedFieldValueArray previousValue
    .array (array ++ newElements array [] elements)
  | .arrayRemove elements =>
    .array ((coercedFieldValueArray previousValue).filter fun v => !contains elements v)
  | .increment operand =>
    match computeBaseValue previousValue, operand with
    | .integer base, .integer i => .integer (Number.safeIncrement base i)
    | base, operand => .double (base.asDouble + operand.asDouble)

/-- The new value of a field in the remote document. The backend does not send the results of array
transforms, so these are computed. -/
def applyToRemoteDocument (previousValue : Option (Value δ)) (transformResult : Value δ) :
    TransformOperation δ → Value δ
  | .serverTimestamp | .increment _ => transformResult
  | .arrayUnion elements => applyToLocalView previousValue ⟨0, 0⟩ (.arrayUnion elements)
  | .arrayRemove elements => applyToLocalView previousValue ⟨0, 0⟩ (.arrayRemove elements)

end TransformOperation

/-- A transform of the field at a path. -/
structure FieldTransform (δ : Type*) where
  path : FieldPath
  transformation : TransformOperation δ

/-! ## Documents -/

/-- `DocumentType`. -/
inductive DocumentType
  | invalid
  | foundDocument
  | noDocument
  | unknownDocument
deriving DecidableEq, Repr

/-- `DocumentState`. -/
inductive DocumentState
  | hasLocalMutations
  | hasCommittedMutations
  | synced
deriving DecidableEq, Repr

/-- `MutableDocument`. The type `κ` is that of document keys, and a version is a time, of which `0` is
`SnapshotVersion::None`. -/
structure MutableDocument (κ δ : Type*) where
  key : κ
  documentType : DocumentType := .invalid
  version : ℕ := 0
  value : MapValue δ := []
  documentState : DocumentState := .synced

namespace MutableDocument

variable {κ : Type*}

def invalidDocument (key : κ) : MutableDocument κ δ := { key }

def isFoundDocument (doc : MutableDocument κ δ) : Bool := doc.documentType = .foundDocument

def isNoDocument (doc : MutableDocument κ δ) : Bool := doc.documentType = .noDocument

def isValidDocument (doc : MutableDocument κ δ) : Bool := doc.documentType ≠ .invalid

def hasLocalMutations (doc : MutableDocument κ δ) : Bool := doc.documentState = .hasLocalMutations

/-- The value at a path of the document. -/
def field (doc : MutableDocument κ δ) (path : FieldPath) : Option (Value δ) := (Value.map doc.value).get path

def convertToFoundDocument (doc : MutableDocument κ δ) (version : ℕ) (value : MapValue δ) :
    MutableDocument κ δ :=
  { doc with version, documentType := .foundDocument, value, documentState := .synced }

def convertToNoDocument (doc : MutableDocument κ δ) (version : ℕ) : MutableDocument κ δ :=
  { doc with version, documentType := .noDocument, value := [], documentState := .synced }

def convertToUnknownDocument (doc : MutableDocument κ δ) (version : ℕ) : MutableDocument κ δ :=
  { doc with version, documentType := .unknownDocument, value := [], documentState := .hasCommittedMutations }

def setHasCommittedMutations (doc : MutableDocument κ δ) : MutableDocument κ δ :=
  { doc with documentState := .hasCommittedMutations }

def setHasLocalMutations (doc : MutableDocument κ δ) : MutableDocument κ δ :=
  { doc with documentState := .hasLocalMutations, version := 0 }

end MutableDocument

/-- `Precondition`. -/
inductive Precondition
  | none
  | exists (exists' : Bool)
  | updateTime (updateTime' : ℕ)
deriving DecidableEq, Repr

def Precondition.isValidFor {κ : Type*} (doc : MutableDocument κ δ) : Precondition → Bool
  | .updateTime t => doc.isFoundDocument && doc.version = t
  | .exists e => e = doc.isFoundDocument
  | .none => true

/-! ## Mutations -/

/-- `Mutation`, without those that only transactions use. -/
inductive Mutation (κ δ : Type*)
  | set (key : κ) (value : MapValue δ) (precondition : Precondition) (fieldTransforms : List (FieldTransform δ))
  | patch (key : κ) (value : MapValue δ) (fieldMask : FieldMask) (precondition : Precondition)
      (fieldTransforms : List (FieldTransform δ))
  | delete (key : κ) (precondition : Precondition)

/-- What the backend returns for a mutation. -/
structure MutationResult (δ : Type*) where
  version : ℕ
  transformResults : List (Value δ)

namespace Mutation

variable {κ : Type*}

def key : Mutation κ δ → κ
  | .set key _ _ _ | .patch key _ _ _ _ | .delete key _ => key

def precondition : Mutation κ δ → Precondition
  | .set _ _ precondition _ | .patch _ _ _ precondition _ | .delete _ precondition => precondition

def fieldTransforms : Mutation κ δ → List (FieldTransform δ)
  | .set _ _ _ transforms | .patch _ _ _ _ transforms => transforms
  | .delete _ _ => []

/-- The mask of a patch. -/
def fieldMask : Mutation κ δ → Option FieldMask
  | .patch _ _ mask _ _ => some mask
  | _ => none

def isPatch : Mutation κ δ → Bool
  | .patch .. => true
  | _ => false

/-- The fields that a patch sets, and those that it deletes because they are in the mask only. -/
def getPatch (value : MapValue δ) : FieldMask → TransformMap δ
  | [] => []
  | path :: mask =>
    if path = [] then getPatch value mask
    else insert path ((Value.map value).get path) (getPatch value mask)

variable [DecidableEq δ] [BEq δ] [Add δ] [IntCast δ]

/-- The values of the transformed fields in the local view. All transforms start from the same document. -/
def localTransformResults (previousData : MapValue δ) (localWriteTime : Timestamp)
    (transforms : List (FieldTransform δ)) : TransformMap δ :=
  transforms.foldl (fun results t =>
    insert t.path (some (t.transformation.applyToLocalView ((Value.map previousData).get t.path)
      localWriteTime)) results) []

/-- The values of the transformed fields in the remote document. -/
def serverTransformResults (previousData : MapValue δ) (serverTransformResults : List (Value δ))
    (transforms : List (FieldTransform δ)) : TransformMap δ :=
  (transforms.zip serverTransformResults).foldl (fun results t =>
    insert t.1.path (some (t.1.transformation.applyToRemoteDocument ((Value.map previousData).get t.1.path)
      t.2)) results) []

/-- The document as the app sees it while the mutation is pending, with the fields that the mutations so
far have changed; no mask means that the whole document has been set or deleted. -/
def applyToLocalView (document : MutableDocument κ δ) (previousMask : Option FieldMask)
    (localWriteTime : Timestamp) : Mutation κ δ → MutableDocument κ δ × Option FieldMask
  | .set _ value precondition transforms =>
    if precondition.isValidFor document then
      let results := localTransformResults document.value localWriteTime transforms
      ((document.convertToFoundDocument document.version (MapValue.setAll results value)).setHasLocalMutations,
        none)
    else (document, previousMask)
  | .patch _ value fieldMask precondition transforms =>
    if precondition.isValidFor document then
      let results := localTransformResults document.value localWriteTime transforms
      let data := MapValue.setAll results (MapValue.setAll (getPatch value fieldMask) document.value)
      ((document.convertToFoundDocument document.version data).setHasLocalMutations,
        previousMask.map fun mask =>
          transforms.foldl (fun mask t => insertKey t.path mask) (fieldMask.foldl (fun mask p => insertKey p mask) mask))
    else (document, previousMask)
  | .delete _ precondition =>
    if precondition.isValidFor document then
      ((document.convertToNoDocument 0).setHasLocalMutations, none)
    else (document, previousMask)

/-- The cached document after the backend has acknowledged the mutation. If it does not meet the
precondition of a patch, then it is outdated, and its content is not known. -/
def applyToRemoteDocument (document : MutableDocument κ δ) (result : MutationResult δ) :
    Mutation κ δ → MutableDocument κ δ
  | .set _ value _ transforms =>
    let results := serverTransformResults document.value result.transformResults transforms
    (document.convertToFoundDocument result.version (MapValue.setAll results value)).setHasCommittedMutations
  | .patch _ value fieldMask precondition transforms =>
    if precondition.isValidFor document then
      let results := serverTransformResults document.value result.transformResults transforms
      let data := MapValue.setAll results (MapValue.setAll (getPatch value fieldMask) document.value)
      (document.convertToFoundDocument result.version data).setHasCommittedMutations
    else document.convertToUnknownDocument result.version
  | .delete _ _ => (document.convertToNoDocument result.version).setHasCommittedMutations

/-- Add the value from which an increment starts. -/
def addBaseValue (document : MutableDocument κ δ) (base : Option (MapValue δ)) (t : FieldTransform δ) :
    Option (MapValue δ) :=
  match t.transformation with
  | .increment _ =>
    some (MapValue.set t.path (TransformOperation.computeBaseValue (document.field t.path)).toValue (base.getD []))
  | _ => base

/-- The values from which the increments of the mutation start. -/
def extractTransformBaseValue (document : MutableDocument κ δ) (mutation : Mutation κ δ) :
    Option (MapValue δ) :=
  mutation.fieldTransforms.foldl (addBaseValue document) none

/-- The loop of `CalculateOverlayMutation` over the paths of the mask. If there is nothing at a path, then
the map in which it would be is taken instead. -/
def overlayLoop (docValue : MapValue δ) (patchValue : MapValue δ) (maskSet : FieldMask) :
    FieldMask → MapValue δ × FieldMask
  | [] => (patchValue, maskSet)
  | path :: mask =>
    if path ∈ maskSet then overlayLoop docValue patchValue maskSet mask
    else
      let path := if ((Value.map docValue).get path).isNone && path.length > 1 then path.dropLast else path
      match (Value.map docValue).get path with
      | some value => overlayLoop docValue (MapValue.set path value patchValue) (insertKey path maskSet) mask
      | none => overlayLoop docValue (MapValue.delete path patchValue) (insertKey path maskSet) mask

/-- The mutation that has the effect of all mutations that led to the document. -/
def calculateOverlayMutation (doc : MutableDocument κ δ) (mask : Option FieldMask) : Option (Mutation κ δ) :=
  if doc.hasLocalMutations then
    match mask with
    | none =>
      if doc.isNoDocument then some (.delete doc.key .none) else some (.set doc.key doc.value .none [])
    | some mask =>
      let overlay := overlayLoop doc.value [] [] mask
      some (.patch doc.key overlay.1 overlay.2 .none [])
  else none

/-- Apply mutations to a document one after the other, each with the time of its write. -/
def replay (document : MutableDocument κ δ) (mask : Option FieldMask)
    (mutations : List (Mutation κ δ × Timestamp)) : MutableDocument κ δ × Option FieldMask :=
  mutations.foldl (fun s m => m.1.applyToLocalView s.1 s.2 m.2) (document, mask)

/-- The local view of a document that has an overlay or none. -/
def applyOverlay (document : MutableDocument κ δ) (now : Timestamp) (overlay : Option (Mutation κ δ)) :
    MutableDocument κ δ :=
  match overlay with
  | some overlay => (overlay.applyToLocalView document (some []) now).1
  | none => document

end Mutation

/-- The transforms of a mutation: no path is empty, and the elements of arrays can be sorted. -/
def FieldTransform.WellFormed (t : FieldTransform δ) : Prop :=
  t.path ≠ [] ∧
    match t.transformation with
    | .arrayUnion elements => ∀ e ∈ elements, e.sortFields.Ordered
    | _ => True

/-- The mutations that set fields and delete none, as `setData` and `updateData` make them unless they are
given `FieldValue.delete()`: a patch has a value for each path of its mask. -/
def Mutation.SetsFields {κ : Type*} : Mutation κ δ → Prop
  | .set _ value _ transforms => Value.OrderedEntries value ∧ ∀ t ∈ transforms, t.WellFormed
  | .patch _ value fieldMask _ transforms =>
    Value.OrderedEntries value ∧ SortedKeys fieldMask ∧
      (∀ p ∈ fieldMask, p ≠ [] ∧ ((Value.map value).get p).isSome = true) ∧ ∀ t ∈ transforms, t.WellFormed
  | .delete _ _ => True

/-! ## Batches -/

/-- `MutationBatch`: the mutations of one write, and those that restore the values from which its
increments start. -/
structure MutationBatch (κ δ : Type*) where
  batchId : ℤ
  localWriteTime : Timestamp
  baseMutations : List (Mutation κ δ)
  mutations : List (Mutation κ δ)

namespace MutationBatch

variable {κ : Type*} [DecidableEq κ] [DecidableEq δ] [BEq δ] [Add δ] [IntCast δ]

/-- Apply the mutations of the batch to a document, those that restore the base state first. -/
def applyToLocalView (document : MutableDocument κ δ) (mutatedFields : Option FieldMask)
    (batch : MutationBatch κ δ) : MutableDocument κ δ × Option FieldMask :=
  (batch.baseMutations ++ batch.mutations).foldl (fun s mutation =>
    if mutation.key = s.1.key then mutation.applyToLocalView s.1 s.2 batch.localWriteTime else s)
    (document, mutatedFields)

/-- Apply the acknowledged mutations of the batch to a cached document. -/
def applyToRemoteDocument (document : MutableDocument κ δ) (mutationResults : List (MutationResult δ))
    (batch : MutationBatch κ δ) : MutableDocument κ δ :=
  (batch.mutations.zip mutationResults).foldl (fun document m =>
    if m.1.key = document.key then m.1.applyToRemoteDocument document m.2 else document) document

end MutationBatch

end Firestore

end Datability
