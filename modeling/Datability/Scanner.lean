import Datability.Completion
import Datability.Device

/-!
# The plant scanner and its completion

`PlantScanner.plantScanner` once more, now with its calls of `completion` as they are made: the guards
before the request is sent, the handler of the request with its guards over the parsed body, and the
two `catch` blocks. `plantScannerReply` only has the value that the handler comes to.

What is used of Foundation is a parameter. A string is compared and split by its characters, which
are extended grapheme clusters up to canonical equivalence; how a string is cut into them is part of
the parameter.
-/

namespace Datability

open Completion

abbrev Data := List UInt8

/-- A photo, of which the scanner sees the PNG representation, if there is one. -/
structure UIImage where
  id : ℕ
  pngData : Option Data
deriving DecidableEq, Repr

/-- What the scanner uses of Foundation and of Swift's strings. -/
structure Foundation (Character : Type) where
  /-- `JSONSerialization.jsonObject(with:)`, with `none` when it throws. -/
  jsonObject : Data → Option Json
  /-- `JSONSerialization.data(withJSONObject:)`, with `none` when it throws. -/
  data : Json → Option Data
  /-- `base64EncodedString(options: .lineLength64Characters)`. -/
  base64EncodedString : Data → String
  characters : String → List Character
  /-- The character of `" "`. -/
  space : Character

/-- Under this Foundation a string is cut into its scalars. -/
structure Foundation.Scalars (lib : Foundation Char) : Prop where
  characters : lib.characters = String.toList
  space : lib.space = ' '

/-- What a data task hands to its completion handler. -/
structure TaskResult where
  data : Option Data
  /-- The response is not nil. -/
  response : Bool
  /-- The error is not nil. -/
  error : Bool
deriving DecidableEq, Repr

variable {Character : Type} [DecidableEq Character] (lib : Foundation Character)

/-- `components(separatedBy: " ")`, each part as its characters. -/
def Foundation.components (s : String) : List (List Character) :=
  (lib.characters s).splitOn lib.space

namespace PlantScanner

/-- The object that is sent to plant.id. -/
def requestObject (plantScannerImageData : String) (currentLoc : Location) : Json :=
  .object [("images", .array [.string plantScannerImageData]),
    ("modifiers", .array [.string "similar_images"]),
    ("plant_details", .array [.string "common_names", .string "url"]),
    ("latitude", .number currentLoc.latitude), ("longitude", .number currentLoc.longitude)]

/-- `plantScanner` up to the point where the request is sent. Its first guard, on the constant URL,
cannot fail. -/
def plantScanner (image : UIImage) (location : Option Location) : Prog Data Bool Unit :=
  guardLet location false fun currentLoc =>
  guardLet (image.pngData.map lib.base64EncodedString) false fun plantScannerImageData =>
  doCatch (b := false) do
    let httpBody ← attempt (lib.data (requestObject plantScannerImageData currentLoc))
    resume httpBody

/-- The guards over the parsed body of the reply. -/
def bodyGuards (expectedPlant : String) (json : Json) : Prog Data Bool Unit :=
  guardLet json.asObject false fun currentPlantScannerResults =>
  guardLet ((currentPlantScannerResults.lookup "is_plant").bind Json.asInt) false fun isPlantResults =>
  let isPlantResultsBool := isPlantResults == 1
  guardLet ((currentPlantScannerResults.lookup "suggestions").bind Json.asObjects) false
    fun plantScannerResults =>
  guardLet ((plantScannerResults.head?.bind (·.lookup "plant_details")).bind Json.asObject) false
    fun plantScannerFirstResult =>
  guardLet ((plantScannerResults.head?.bind (·.lookup "similar_images")).bind Json.asObjects) false
    fun plantScannerFirstResultImageStep1 =>
  guardLet ((plantScannerFirstResultImageStep1.head?.bind (·.lookup "url")).bind Json.asString) false
    fun _ =>
  guardLet ((plantScannerResults.head?.bind (·.lookup "plant_name")).bind Json.asString) false
    fun plantScannerFirstResultName =>
  guardLet ((plantScannerFirstResult.lookup "url").bind Json.asString) false fun _ =>
  if isPlantResultsBool then
    guardLet (lib.components plantScannerFirstResultName).head? false fun plantFamilyName =>
    guardLet (lib.components expectedPlant).head? false fun expectedPlantFamilyName =>
    if expectedPlantFamilyName = plantFamilyName then completion true else completion false
  else completion false

/-- The completion handler of the request. -/
def handler (expectedPlant : String) (result : TaskResult) : Prog Data Bool Unit :=
  if result.error = false ∧ result.response = true ∧ result.data.isSome then
    match result.data with
    | none => pure ()
    | some plantScannerData => doCatch (b := false) do
        let json ← attempt (lib.jsonObject plantScannerData)
        bodyGuards lib expectedPlant json
  else completion false

/-- The calls of the completion of `plantScanner` when its request, if one is sent, ends with
`result`. -/
def verdicts (image : UIImage) (expectedPlant : String) (location : Option Location)
    (result : TaskResult) : List Bool :=
  allCalls (plantScanner lib image location) fun _ => handler lib expectedPlant result

/-! ## What the verdict is about -/

/-- The image and the request can be encoded. -/
def Encodes (image : UIImage) (location : Location) : Prop :=
  ∃ png, image.pngData = some png ∧
    (lib.data (requestObject (lib.base64EncodedString png) location)).isSome = true

end PlantScanner

/-- The text before the first space. -/
def Foundation.firstWord (s : String) : List Character :=
  (lib.characters s).takeWhile (· ≠ lib.space)

namespace Json

/-- A number or a boolean that equals one. -/
def IsOne (json : Json) : Prop := json = .number 1 ∨ json = .bool true

def IsObject (json : Json) : Prop := ∃ fields, json = .object fields

def IsString (json : Json) : Prop := ∃ s, json = .string s

/-- An array of objects whose first one is `first`. -/
def HasFirst (first : List (String × Json)) (json : Json) : Prop :=
  ∃ rest, json = .array (.object first :: rest) ∧ ∀ x ∈ rest, x.IsObject

/-- A suggestion with a details page and a similar image that names the plant `name`. -/
structure Suggests (name : String) (suggestion : List (String × Json)) : Prop where
  details : ∃ details, suggestion.lookup "plant_details" = some (.object details) ∧
    ∃ url, details.lookup "url" = some url ∧ url.IsString
  image : ∃ images, suggestion.lookup "similar_images" = some images ∧
    ∃ image, images.HasFirst image ∧ ∃ url, image.lookup "url" = some url ∧ url.IsString
  name : suggestion.lookup "plant_name" = some (.string name)

/-- The body of a reply that identifies a plant whose first word is `word`, where `firstWord` cuts off
the first word of a name. -/
def Identifies {α : Type} (firstWord : String → α) (word : α) (json : Json) : Prop :=
  ∃ fields, json = .object fields ∧
    (∃ isPlant, fields.lookup "is_plant" = some isPlant ∧ isPlant.IsOne) ∧
    ∃ suggestions, fields.lookup "suggestions" = some suggestions ∧
      ∃ first, suggestions.HasFirst first ∧ ∃ name, Suggests name first ∧ firstWord name = word

end Json

/-- The request came back without error, with a response, and with a body that identifies the plant. -/
def PlantScanner.Identified (expectedPlant : String) (result : TaskResult) : Prop :=
  result.error = false ∧ result.response = true ∧ ∃ body, result.data = some body ∧
    ∃ json, lib.jsonObject body = some json ∧
      json.Identifies lib.firstWord (lib.firstWord expectedPlant)

namespace Json

/-! ## What the verdict does not depend on -/

/-- Two objects that agree on the fields `ks`, each up to its own relation. They may differ in further
fields and in the order of their keys. -/
def AgreeOn (ks : List (String × (Json → Json → Prop))) (f g : List (String × Json)) : Prop :=
  ∀ k ∈ ks, Option.Rel k.2 (f.lookup k.1) (g.lookup k.1)

/-- Two objects related by `R`, or the same value. -/
def SameObject (R : List (String × Json) → List (String × Json) → Prop) (x y : Json) : Prop :=
  x = y ∨ ∃ f g, x = .object f ∧ y = .object g ∧ R f g

/-- Two arrays of objects whose first ones are related by `R`, or the same value. The contents of the
later ones are free. -/
def SameFirst (R : List (String × Json) → List (String × Json) → Prop) (x y : Json) : Prop :=
  x = y ∨ ∃ f g, x.HasFirst f ∧ y.HasFirst g ∧ R f g

/-- Two suggestions that agree on what the scanner reads. -/
def SameSuggestion : List (String × Json) → List (String × Json) → Prop :=
  AgreeOn [("plant_details", SameObject (AgreeOn [("url", Eq)])),
    ("similar_images", SameFirst (AgreeOn [("url", Eq)])), ("plant_name", Eq)]

/-- Two bodies that agree on what the scanner reads: they may differ in the contents of later
suggestions, in further fields and in the order of keys, at every depth. -/
def SameBody : Json → Json → Prop :=
  SameObject (AgreeOn [("is_plant", Eq), ("suggestions", SameFirst SameSuggestion)])

end Json

/-! ## A sample photo -/

namespace Sample

/-- The bytes of a text. -/
def ascii (s : String) : Data := s.toList.map fun c => UInt8.ofNat c.toNat

/-- The signature of a PNG file stands for a photo. -/
def photo : UIImage := ⟨1, some [137, 80, 78, 71]⟩

/-- A body that names a rose, as text. -/
def roseText : Data := ascii <|
  "\x7b\"is_plant\":true,\"suggestions\":[\x7b\"plant_details\":\x7b\"url\":\"wiki\"\x7d," ++
  "\"similar_images\":[\x7b\"url\":\"image\"\x7d],\"plant_name\":\"Rosa rugosa\"\x7d]\x7d"

/-- The same body parsed. -/
def roseBody : Json :=
  .object [("is_plant", .bool true), ("suggestions", .array [.object [
    ("plant_details", .object [("url", .string "wiki")]),
    ("similar_images", .array [.object [("url", .string "image")]]),
    ("plant_name", .string "Rosa rugosa")]])]

/-- The request for the photo at the sample location, as text. -/
def requestText : Data := ascii <|
  "\x7b\"images\":[\"iVBORw==\"],\"modifiers\":[\"similar_images\"]," ++
  "\"plant_details\":[\"common_names\",\"url\"],\"latitude\":1,\"longitude\":2\x7d"

/-- Foundation on the sample photo and the sample body. -/
def foundation : Foundation Char where
  jsonObject d := if d = roseText then some roseBody else none
  data _ := some requestText
  base64EncodedString d := if d = [137, 80, 78, 71] then "iVBORw==" else ""
  characters := String.toList
  space := ' '

end Sample

end Datability
