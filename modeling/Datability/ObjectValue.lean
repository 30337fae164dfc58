import Mathlib.Data.String.Basic
import Datability.SortedMap

/-!
# Document values

The values that the fields of a Firestore document hold, and `ObjectValue`, which reads and changes the
fields of a document at paths. The fields of a map are kept in the order of their names: `ApplyChanges`
relies on it when it merges the fields of a map with the ones that are set and deleted.
-/

namespace Datability

namespace Firestore

open SortedMap

/-- `google_firestore_v1_Value`. The type `δ` is that of the floating point numbers. -/
inductive Value (δ : Type*)
  | null
  | boolean (b : Bool)
  | integer (i : Int64)
  | double (d : δ)
  | timestamp (seconds : Int) (nanos : Int)
  | string (s : String)
  | bytes (b : List UInt8)
  | reference (name : String)
  | geoPoint (latitude longitude : δ)
  | array (values : List (Value δ))
  | map (fields : List (String × Value δ))
deriving Repr

/-- `google_firestore_v1_MapValue`: the entries of a map. -/
abbrev MapValue (δ : Type*) := List (String × Value δ)

/-- The segments of a path. -/
abbrev FieldPath := List String

/-- A set of paths, in the order of `FieldPath`. -/
abbrev FieldMask := List FieldPath

/-- For each path a value to set, or none if the field is deleted; in the order of `FieldPath`. -/
abbrev TransformMap (δ : Type*) := List (FieldPath × Option (Value δ))

def FieldPath.isImmediateParentOf (path potentialChild : FieldPath) : Bool :=
  path.length + 1 == potentialChild.length && path.isPrefixOf potentialChild

variable {δ : Type*}

namespace Value

mutual

/-- Sort the entries of every map in the value. -/
def sortFields : Value δ → Value δ
  | .map fields => .map ((sortEntries fields).insertionSort fun a b => a.1 ≤ b.1)
  | .array values => .array (sortValues values)
  | .null => .null
  | .boolean b => .boolean b
  | .integer i => .integer i
  | .double d => .double d
  | .timestamp seconds nanos => .timestamp seconds nanos
  | .string s => .string s
  | .bytes b => .bytes b
  | .reference name => .reference name
  | .geoPoint latitude longitude => .geoPoint latitude longitude

def sortEntries : List (String × Value δ) → List (String × Value δ)
  | [] => []
  | (key, value) :: fields => (key, value.sortFields) :: sortEntries fields

def sortValues : List (Value δ) → List (Value δ)
  | [] => []
  | value :: values => value.sortFields :: sortValues values

end

mutual

/-- Every map in the value has its entries in ascending order of their names. -/
def Ordered : Value δ → Prop
  | .map fields => OrderedEntries fields
  | .array values => OrderedValues values
  | _ => True

def OrderedEntries : List (String × Value δ) → Prop
  | [] => True
  | (key, value) :: fields => (∀ e ∈ fields, key < e.1) ∧ value.Ordered ∧ OrderedEntries fields

def OrderedValues : List (Value δ) → Prop
  | [] => True
  | value :: values => value.Ordered ∧ OrderedValues values

end

/-- The value at a path. A path leads through maps only. -/
def get : Value δ → FieldPath → Option (Value δ)
  | v, [] => some v
  | .map fields, segment :: path =>
    match fields.lookup segment with
    | some v => v.get path
    | none => none
  | _, _ :: _ => none

end Value

namespace MapValue

/-- The number of entries of a map after the changes. -/
def calculateSizeOfUnion (mapValue upserts : MapValue δ) (deletes : List String) : ℕ :=
  upserts.length + mapValue.countP fun entry => !deletes.contains entry.1 && !(upserts.lookup entry.1).isSome

/-- The loop of `ApplyChanges`: the next entry of the result is that of the source or of the upserts,
until the result has `room` more entries. Only the first of the remaining deletes is compared with the
key of the source. -/
def mergeLoop (source upserts : MapValue δ) (deletes : List String) : ℕ → MapValue δ
  | 0 => []
  | room + 1 =>
    match source, upserts with
    | (sourceKey, sourceValue) :: source, upserts =>
      if deletes.head? = some sourceKey then mergeLoop source upserts deletes.tail (room + 1)
      else match upserts with
        | [] => (sourceKey, sourceValue) :: mergeLoop source [] deletes room
        | (key, value) :: upserts =>
          if key = sourceKey then (sourceKey, value.sortFields) :: mergeLoop source upserts deletes room
          else if sourceKey < key then
            (sourceKey, sourceValue) :: mergeLoop source ((key, value) :: upserts) deletes room
          else (key, value.sortFields) ::
            mergeLoop ((sourceKey, sourceValue) :: source) upserts deletes room
    | [], (key, value) :: upserts => (key, value.sortFields) :: mergeLoop [] upserts deletes room
    | [], [] => []
termination_by source.length + upserts.length
decreasing_by all_goals simp_all <;> omega

/-- Add, replace or delete entries of a map. -/
def applyChanges (parent upserts : MapValue δ) (deletes : List String) : MapValue δ :=
  mergeLoop parent upserts deletes (calculateSizeOfUnion parent upserts deletes)

/-- Write the value of the entry with this name. -/
def setEntry (segment : String) (value : Value δ) (fields : MapValue δ) : MapValue δ :=
  fields.map fun entry => if entry.1 = segment then (segment, value) else entry

/-- Change the map at a path as `change` does. The maps on the way are created where there is none, and
a value of another type is replaced by an empty map. -/
def parentMap (change : MapValue δ → MapValue δ) : FieldPath → MapValue δ → MapValue δ
  | [], fields => change fields
  | segment :: path, fields =>
    match fields.lookup segment with
    | some (.map inner) => setEntry segment (.map (parentMap change path inner)) fields
    | some _ => setEntry segment (.map (parentMap change path [])) fields
    | none =>
      setEntry segment (.map (parentMap change path [])) (applyChanges fields [(segment, .map [])] [])

/-- Set the value at a path, which is not empty. -/
def set (path : FieldPath) (value : Value δ) (fields : MapValue δ) : MapValue δ :=
  parentMap (fun parent => applyChanges parent [(path.getLastD "", value)] []) path.dropLast fields

/-- The loop of `SetAll`: the changes to the map at `parent` are collected and made together. -/
def setAllLoop (parent : FieldPath) (upserts : MapValue δ) (deletes : List String) :
    TransformMap δ → MapValue δ → MapValue δ
  | [], fields => parentMap (fun inner => applyChanges inner upserts deletes) parent fields
  | (path, value) :: data, fields =>
    if parent.isImmediateParentOf path then
      match value with
      | some value => setAllLoop parent (insert (path.getLastD "") value upserts) deletes data fields
      | none => setAllLoop parent upserts (insertKey (path.getLastD "") deletes) data fields
    else
      let fields := parentMap (fun inner => applyChanges inner upserts deletes) parent fields
      match value with
      | some value => setAllLoop path.dropLast [(path.getLastD "", value)] [] data fields
      | none => setAllLoop path.dropLast [] [path.getLastD ""] data fields

/-- Set or delete the fields at the paths of `data`. -/
def setAll (data : TransformMap δ) (fields : MapValue δ) : MapValue δ :=
  setAllLoop [] [] [] data fields

/-- Delete the field at a path, which is not empty. Where the path does not lead to a map, there is
nothing to delete. -/
def delete : FieldPath → MapValue δ → MapValue δ
  | [], fields => fields
  | [segment], fields => applyChanges fields [] [segment]
  | segment :: path, fields =>
    match fields.lookup segment with
    | some (.map inner) => setEntry segment (.map (delete path inner)) fields
    | _ => fields

/-- The paths of the values that are not maps, and of the empty maps. -/
def extractFieldMask : MapValue δ → FieldMask
  | [] => []
  | (key, .map inner) :: fields =>
    let nestedMask := extractFieldMask inner
    if nestedMask = [] then insertKey [key] (extractFieldMask fields)
    else nestedMask.foldr (fun nestedPath => insertKey (key :: nestedPath)) (extractFieldMask fields)
  | (key, _) :: fields => insertKey [key] (extractFieldMask fields)

end MapValue

/-! ## What a document holds -/

namespace Value

/-- What a value is, without the entries of a map. -/
def shape : Value δ → Value δ
  | .map _ => .map []
  | v => v

/-- What there is at a path. A value is determined by this, so changes are described by it. -/
def look (v : Value δ) (path : FieldPath) : Option (Value δ) := (v.get path).map shape

end Value

namespace MapValue

/-- The upserts with their values sorted. -/
def sorted (upserts : MapValue δ) : MapValue δ := upserts.map fun e => (e.1, e.2.sortFields)

/-- The map as it should be after the changes. -/
def changed (source upserts : MapValue δ) (deletes : List String) : MapValue δ :=
  (union source (sorted upserts)).filter fun e => e.1 ∉ deletes

/-- No field that is to be deleted comes after a delete of a missing field and before a field that stays. -/
def Unobstructed (source upserts : MapValue δ) (deletes : List String) : Prop :=
  ∀ d ∈ deletes, d ∉ source.map Prod.fst → ∀ d' ∈ deletes, d' ∈ source.map Prod.fst → d < d' →
    ∀ e ∈ changed source upserts deletes, e.1 < d'

instance (source upserts : MapValue δ) (deletes : List String) :
    Decidable (Unobstructed source upserts deletes) :=
  inferInstanceAs (Decidable (∀ d ∈ deletes, d ∉ source.map Prod.fst → ∀ d' ∈ deletes,
    d' ∈ source.map Prod.fst → d < d' → ∀ e ∈ changed source upserts deletes, e.1 < d'))

end MapValue

end Firestore

end Datability
