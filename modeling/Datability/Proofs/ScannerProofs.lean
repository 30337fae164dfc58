import Datability.Scanner
import Datability.Proofs.CompletionProofs
import Mathlib.Algebra.Order.Field.Rat

/-!
# Proofs: the verdict of the plant scanner

The handler is a chain of guards, so its decision is a chain of existentials, one for each guard. The
proofs read that chain as a statement about the parsed body (`Json.Identifies`), and then show that
the statement does not look at anything else in the body.
-/

namespace Datability

open Completion

namespace Json

/-! ## The casts -/

theorem asObject_eq_some {json : Json} {fields : List (String × Json)} :
    json.asObject = some fields ↔ json = .object fields := by
  cases json <;> simp [asObject]

theorem asString_eq_some {json : Json} {s : String} : json.asString = some s ↔ json = .string s := by
  cases json <;> simp [asString]

theorem asInt_eq_one {json : Json} : json.asInt = some 1 ↔ json.IsOne := by
  cases json with
  | number q =>
    simp only [asInt, Option.ite_none_right_eq_some, Option.some.injEq, IsOne, Json.number.injEq,
      reduceCtorEq, or_false]
    constructor
    · rintro ⟨⟨hden, -, -⟩, hnum⟩
      exact Rat.ext hnum hden
    · rintro rfl
      simp
  | bool b => cases b <;> simp [asInt, IsOne]
  | null | string s | array xs | object fields => simp [asInt, IsOne]

theorem mapM_asObject {xs : List Json} {fs : List (List (String × Json))} :
    xs.mapM asObject = some fs ↔ xs = fs.map .object := by
  induction xs generalizing fs with
  | nil =>
    cases fs <;> simp
  | cons x xs ih =>
    cases fs with
    | nil => simp [List.mapM_cons, Option.bind_eq_some_iff]
    | cons f fs => simp [List.mapM_cons, Option.bind_eq_some_iff, asObject_eq_some, ih]

/-- The first element of an array of objects. -/
theorem head_asObjects {json : Json} {first : List (String × Json)} :
    (∃ fs, json.asObjects = some fs ∧ fs.head? = some first) ↔ json.HasFirst first := by
  constructor
  · rintro ⟨fs, hfs, hhead⟩
    obtain ⟨rest, rfl⟩ : ∃ rest, fs = first :: rest := by
      cases fs with
      | nil => simp at hhead
      | cons f rest => exact ⟨rest, by simpa using hhead⟩
    cases json with
    | array xs =>
      obtain rfl := mapM_asObject.1 hfs
      exact ⟨rest.map .object, rfl, by simp [IsObject]⟩
    | null | bool b | number q | string s | object fields => simp [asObjects] at hfs
  · rintro ⟨rest, rfl, hrest⟩
    obtain ⟨fs, rfl⟩ : ∃ fs : List (List (String × Json)), rest = fs.map .object := by
      refine ⟨rest.map fun x => x.asObject.getD [], ?_⟩
      rw [List.map_map]
      refine (List.map_id _).symm.trans (List.map_congr_left fun x hx => ?_)
      obtain ⟨f, rfl⟩ := hrest x hx
      rfl
    exact ⟨first :: fs, mapM_asObject.2 rfl, rfl⟩

end Json

/-! ## The verdict -/

section Verdict

variable {Character : Type} [DecidableEq Character] (lib : Foundation Character)

/-- `components(separatedBy: " ")` starts with the text before the first space. -/
theorem Foundation.components_head (s : String) :
    (lib.components s).head? = some (lib.firstWord s) := by
  unfold components firstWord
  induction lib.characters s with
  | nil => simp
  | cons c cs ih =>
    rw [List.splitOn_cons_eq_if_modifyHead]
    by_cases hc : c = lib.space
    · simp [hc]
    · simp [hc, List.head?_modifyHead, ih]

namespace PlantScanner

/-- The guards over the body decide whether it identifies the plant. -/
theorem bodyGuards_decides (expectedPlant : String) (json : Json) :
    Decides (bodyGuards lib expectedPlant json)
      (json.Identifies lib.firstWord (lib.firstWord expectedPlant)) := by
  unfold bodyGuards
  refine Decides.congr (.guardLet fun fields => .guardLet fun isPlant => .guardLet fun suggestions =>
    .guardLet fun details => .guardLet fun images => .guardLet fun image => .guardLet fun name =>
    .guardLet fun wiki => .ite (.guardLet fun word => .guardLet fun expected =>
    .ite (decides_completion true))) ?_
  simp only [Option.bind_eq_some_iff, Json.asObject_eq_some, Json.asString_eq_some,
    lib.components_head, Option.some.injEq, beq_iff_eq]
  constructor
  · rintro ⟨fields, rfl, z, ⟨isPlant, hisPlant, hz⟩, fs, ⟨suggestions, hsuggestions, hfs⟩, details,
      ⟨_, ⟨first, hfirst, hdetails⟩, rfl⟩, is, ⟨images, ⟨first', hfirst', himages⟩, his⟩, url,
      ⟨_, ⟨image, himage, hurl⟩, rfl⟩, name, ⟨_, ⟨first'', hfirst'', hname⟩, rfl⟩, wiki,
      ⟨_, hwiki, rfl⟩, rfl, word, rfl, expected, rfl, hword, -⟩
    -- the three readings of the first suggestion are of the same one
    obtain rfl : first = first' := Option.some.inj (hfirst.symm.trans hfirst')
    obtain rfl : first = first'' := Option.some.inj (hfirst.symm.trans hfirst'')
    have hsuggests : Json.Suggests name first :=
      ⟨⟨details, hdetails, _, hwiki, _, rfl⟩,
        ⟨images, himages, image, Json.head_asObjects.1 ⟨is, his, himage⟩, _, hurl, _, rfl⟩, hname⟩
    exact ⟨fields, rfl, ⟨isPlant, hisPlant, Json.asInt_eq_one.1 hz⟩, suggestions, hsuggestions, first,
      Json.head_asObjects.1 ⟨fs, hfs, hfirst⟩, name, hsuggests, hword.symm⟩
  · rintro ⟨fields, rfl, ⟨isPlant, hisPlant, hz⟩, suggestions, hsuggestions, first, hfirst, name,
      ⟨⟨details, hdetails, _, hwiki, wiki, rfl⟩, ⟨images, himages, image, himage, _, hurl, url, rfl⟩,
        hname⟩, hword⟩
    obtain ⟨fs, hfs, hfirst⟩ := Json.head_asObjects.2 hfirst
    obtain ⟨is, his, himage⟩ := Json.head_asObjects.2 himage
    exact ⟨fields, rfl, 1, ⟨isPlant, hisPlant, Json.asInt_eq_one.2 hz⟩, fs,
      ⟨suggestions, hsuggestions, hfs⟩, details, ⟨_, ⟨first, hfirst, hdetails⟩, rfl⟩, is,
      ⟨images, ⟨first, hfirst, himages⟩, his⟩, url, ⟨_, ⟨image, himage, hurl⟩, rfl⟩, name,
      ⟨_, ⟨first, hfirst, hname⟩, rfl⟩, wiki, ⟨_, hwiki, rfl⟩, rfl, _, rfl, _, rfl, hword.symm, trivial⟩

theorem handler_decides (expectedPlant : String) (result : TaskResult) :
    Decides (handler lib expectedPlant result) (Identified lib expectedPlant result) := by
  obtain ⟨data, response, error⟩ := result
  unfold handler Identified
  cases data with
  | none =>
    rw [if_neg (by simp)]
    exact (decides_completion false).congr (by simp)
  | some body =>
    by_cases hc : error = false ∧ response = true
    · rw [if_pos (by simpa using hc)]
      refine Decides.congr (.doCatch fun json => bodyGuards_decides lib expectedPlant json) ?_
      simp [hc]
    · rw [if_neg (by simpa using hc)]
      refine (decides_completion false).congr ⟨by simp, fun h => absurd ⟨h.1, h.2.1⟩ hc⟩

omit [DecidableEq Character] in
/-- Before the request, either the completion is called with `false` or the request is sent. -/
theorem plantScanner_cases (image : UIImage) (location : Option Location) :
    (∃ loc, location = some loc ∧ Encodes lib image loc) ∧
        (∃ httpBody, Sends (plantScanner lib image location) httpBody) ∨
      ¬ (∃ loc, location = some loc ∧ Encodes lib image loc) ∧
        Calls (plantScanner lib image location) false := by
  unfold plantScanner Encodes
  cases location with
  | none => exact .inr ⟨by simp, calls_completion false⟩
  | some loc =>
    cases hpng : image.pngData with
    | none => exact .inr ⟨by simp, calls_completion false⟩
    | some png =>
      simp only [guardLet_some, Option.map_some]
      cases hbody : lib.data (requestObject (lib.base64EncodedString png) loc) with
      | none =>
        refine .inr ⟨by simp [hbody], ?_⟩
        rw [doCatch_attempt_none]
        exact calls_completion false
      | some httpBody =>
        refine .inl ⟨⟨loc, rfl, png, rfl, by simp [hbody]⟩, httpBody, ?_⟩
        rw [attempt_some_bind]
        exact (sends_resume httpBody).doCatch false

/-- All the calls of the completion: there is one, and it tells whether the photo was sent and the
plant identified. -/
theorem verdicts_eq (image : UIImage) (expectedPlant : String) (location : Option Location)
    (result : TaskResult) : ∃ b, verdicts lib image expectedPlant location result = [b] ∧
      (b = true ↔ (∃ loc, location = some loc ∧ Encodes lib image loc) ∧
        Identified lib expectedPlant result) := by
  rcases plantScanner_cases lib image location with ⟨hsent, httpBody, hsends⟩ | ⟨hsent, hcalls⟩
  · obtain ⟨b, hb, hP⟩ := handler_decides lib expectedPlant result
    exact ⟨b, hsends.allCalls hb, by simp [hsent, hP]⟩
  · exact ⟨false, hcalls.allCalls, by simp [hsent]⟩

end PlantScanner

end Verdict

/-! ## What the verdict does not depend on -/

namespace Json

variable {R : List (String × Json) → List (String × Json) → Prop} {f g : List (String × Json)} {x y : Json}

theorem AgreeOn.symm {ks : List (String × (Json → Json → Prop))}
    (hks : ∀ k ∈ ks, ∀ x y, k.2 x y → k.2 y x) (h : AgreeOn ks f g) : AgreeOn ks g f := by
  intro k hk
  have hrel := h k hk
  revert hrel
  cases f.lookup k.1 with
  | none =>
    cases g.lookup k.1 with
    | none => exact fun _ => .none
    | some y => nofun
  | some x =>
    cases g.lookup k.1 with
    | none => nofun
    | some y => exact fun | .some hxy => .some (hks k hk _ _ hxy)

theorem SameObject.symm (hR : ∀ f g, R f g → R g f) (h : SameObject R x y) : SameObject R y x := by
  rcases h with rfl | ⟨f, g, rfl, rfl, hfg⟩
  · exact .inl rfl
  · exact .inr ⟨g, f, rfl, rfl, hR f g hfg⟩

theorem SameFirst.symm (hR : ∀ f g, R f g → R g f) (h : SameFirst R x y) : SameFirst R y x := by
  rcases h with rfl | ⟨f, g, hf, hg, hfg⟩
  · exact .inl rfl
  · exact .inr ⟨g, f, hg, hf, hR f g hfg⟩

theorem SameSuggestion.symm (h : SameSuggestion f g) : SameSuggestion g f := by
  have hurl : ∀ f g, AgreeOn [("url", Eq)] f g → AgreeOn [("url", Eq)] g f :=
    fun f g => AgreeOn.symm (by simp)
  refine AgreeOn.symm (fun k hk x y => ?_) h
  simp only [List.mem_cons, List.not_mem_nil, or_false] at hk
  rcases hk with rfl | rfl | rfl
  · exact SameObject.symm hurl
  · exact SameFirst.symm hurl
  · exact Eq.symm

theorem SameBody.symm (h : SameBody x y) : SameBody y x := by
  refine SameObject.symm (fun f g => AgreeOn.symm fun k hk x y => ?_) h
  simp only [List.mem_cons, List.not_mem_nil, or_false] at hk
  rcases hk with rfl | rfl
  · exact Eq.symm
  · exact SameFirst.symm fun f g => SameSuggestion.symm

/-- A field that both objects are compared on is there in both or in neither. -/
theorem AgreeOn.lookup {ks : List (String × (Json → Json → Prop))} {k : String} {S : Json → Json → Prop}
    (h : AgreeOn ks f g) (hk : (k, S) ∈ ks) (hx : f.lookup k = some x) :
    ∃ y, g.lookup k = some y ∧ S x y := by
  have hrel := h _ hk
  rw [hx] at hrel
  revert hrel
  cases g.lookup k with
  | none => nofun
  | some y => exact fun | .some hxy => ⟨y, rfl, hxy⟩

theorem HasFirst.unique (hf : x.HasFirst f) (hg : x.HasFirst g) : f = g := by
  obtain ⟨rest, rfl, -⟩ := hf
  obtain ⟨rest', heq, -⟩ := hg
  simp only [Json.array.injEq, List.cons.injEq, Json.object.injEq] at heq
  exact heq.1

theorem SameFirst.hasFirst (hR : ∀ f, R f f) (h : SameFirst R x y) (hf : x.HasFirst f) :
    ∃ g, y.HasFirst g ∧ R f g := by
  rcases h with rfl | ⟨f', g, hf', hg, hfg⟩
  · exact ⟨f, hf, hR f⟩
  · rw [hf.unique hf']
    exact ⟨g, hg, hfg⟩

theorem AgreeOn.refl {ks : List (String × (Json → Json → Prop))} (hks : ∀ k ∈ ks, ∀ x, k.2 x x)
    (f : List (String × Json)) : AgreeOn ks f f := by
  intro k hk
  cases f.lookup k.1 with
  | none => exact .none
  | some x => exact .some (hks k hk x)

theorem SameSuggestion.refl (f : List (String × Json)) : SameSuggestion f f :=
  AgreeOn.refl (by simp [SameObject, SameFirst]) f

theorem SameSuggestion.suggests {name : String} (h : SameSuggestion f g) (hf : Suggests name f) :
    Suggests name g := by
  obtain ⟨⟨details, hdetails, url, hurl, hstr⟩, ⟨images, himages, image, himage, iurl, hiurl, histr⟩,
    hname⟩ := hf
  refine ⟨?_, ?_, ?_⟩
  · obtain ⟨y, hy, hsame⟩ := AgreeOn.lookup h List.mem_cons_self hdetails
    rcases hsame with rfl | ⟨d, d', hd, rfl, hdd⟩
    · exact ⟨details, hy, url, hurl, hstr⟩
    · obtain rfl : details = d := by simpa using hd
      obtain ⟨url', hurl', rfl⟩ := AgreeOn.lookup hdd List.mem_cons_self hurl
      exact ⟨d', hy, url, hurl', hstr⟩
  · obtain ⟨images', himages', hsame⟩ := AgreeOn.lookup h (.tail _ List.mem_cons_self) himages
    obtain ⟨image', himage', hagree⟩ := hsame.hasFirst (AgreeOn.refl (by simp)) himage
    obtain ⟨url', hurl', rfl⟩ := AgreeOn.lookup hagree List.mem_cons_self hiurl
    exact ⟨images', himages', image', himage', iurl, hurl', histr⟩
  · obtain ⟨y, hy, rfl⟩ := AgreeOn.lookup h (.tail _ (.tail _ List.mem_cons_self)) hname
    exact hy

theorem SameBody.identifies {α : Type} {firstWord : String → α} {word : α} (h : SameBody x y)
    (hx : x.Identifies firstWord word) : y.Identifies firstWord word := by
  rcases h with rfl | ⟨f, g, rfl, rfl, hfg⟩
  · exact hx
  obtain ⟨fields, heq, ⟨isPlant, hisPlant, hone⟩, suggestions, hsuggestions, first, hfirst, name, hname,
    hword⟩ := hx
  obtain rfl : f = fields := by simpa using heq
  obtain ⟨_, hisPlant', rfl⟩ := hfg.lookup List.mem_cons_self hisPlant
  obtain ⟨suggestions', hsuggestions', hsame⟩ := hfg.lookup (.tail _ List.mem_cons_self) hsuggestions
  obtain ⟨first', hfirst', hagree⟩ := hsame.hasFirst SameSuggestion.refl hfirst
  exact ⟨g, rfl, ⟨isPlant, hisPlant', hone⟩, suggestions', hsuggestions', first', hfirst', name,
    hagree.suggests hname, hword⟩

/-- Only what the scanner reads decides whether a body identifies a plant. -/
theorem SameBody.identifies_iff {α : Type} {firstWord : String → α} {word : α} (h : SameBody x y) :
    x.Identifies firstWord word ↔ y.Identifies firstWord word :=
  ⟨h.identifies, h.symm.identifies⟩

/-- The keys of an object are distinct, so their order does not matter. -/
theorem lookup_eq_of_perm (hf : (f.map Prod.fst).Nodup) (h : f.Perm g) (k : String) :
    f.lookup k = g.lookup k := by
  induction h with
  | nil => rfl
  | cons a _ ih => rw [List.lookup_cons, List.lookup_cons, ih (List.nodup_cons.1 hf).2]
  | swap a b l =>
    have hab : b.1 ≠ a.1 := fun heq => (List.nodup_cons.1 hf).1 (by simp [heq])
    obtain ⟨ka, va⟩ := a
    obtain ⟨kb, vb⟩ := b
    by_cases ha : k = ka
    · subst ha
      have hk : (k == kb) = false := beq_false_of_ne (Ne.symm hab)
      simp [List.lookup_cons, hk]
    · have hk : (k == ka) = false := beq_false_of_ne ha
      simp [List.lookup_cons, hk]
  | trans h₁ _ ih₁ ih₂ => exact (ih₁ hf).trans (ih₂ ((h₁.map Prod.fst).nodup hf))

/-- A body whose keys are in another order, with further fields `more`. -/
theorem sameBody_of_perm {more : List (String × Json)} (hkeys : ((f ++ more).map Prod.fst).Nodup)
    (hplant : more.lookup "is_plant" = none) (hsuggestions : more.lookup "suggestions" = none)
    (h : (f ++ more).Perm g) : SameBody (.object f) (.object g) := by
  have hlookup : ∀ k, more.lookup k = none → g.lookup k = f.lookup k := by
    intro k hk
    rw [← lookup_eq_of_perm hkeys h, List.lookup_append, hk, Option.or_none]
  refine .inr ⟨f, g, rfl, rfl, fun k hk => ?_⟩
  have hrefl : ∀ x, k.2 x x := by
    simp only [List.mem_cons, List.not_mem_nil, or_false] at hk
    rcases hk with rfl | rfl
    · exact fun x => rfl
    · exact fun x => .inl rfl
  have hsame : g.lookup k.1 = f.lookup k.1 := by
    simp only [List.mem_cons, List.not_mem_nil, or_false] at hk
    rcases hk with rfl | rfl
    · exact hlookup _ hplant
    · exact hlookup _ hsuggestions
  rw [hsame]
  cases f.lookup k.1 with
  | none => exact .none
  | some x => exact .some (hrefl x)

end Json

section Verdict

variable {Character : Type} [DecidableEq Character] (lib : Foundation Character)

namespace PlantScanner

/-- Bodies that agree on what is read get the same verdict. -/
theorem verdicts_of_sameBody {image : UIImage} {expectedPlant : String} {location : Option Location}
    {result : TaskResult} {body body' : Data} {json json' : Json} (hbody : result.data = some body)
    (hjson : lib.jsonObject body = some json) (hjson' : lib.jsonObject body' = some json')
    (hsame : json.SameBody json') :
    verdicts lib image expectedPlant location { result with data := some body' } =
      verdicts lib image expectedPlant location result := by
  obtain ⟨b, hb, hP⟩ := verdicts_eq lib image expectedPlant location result
  obtain ⟨b', hb', hP'⟩ :=
    verdicts_eq lib image expectedPlant location { result with data := some body' }
  have hidentified : Identified lib expectedPlant { result with data := some body' } ↔
      Identified lib expectedPlant result := by
    simp [Identified, hbody, hjson, hjson', hsame.identifies_iff]
  have hbb : b' = b := by
    rw [Bool.eq_iff_iff, hP', hP, hidentified]
  rw [hb, hb', hbb]

/-- **The plant verdict.** Whatever becomes of the request, the completion is called exactly once. It
is passed `true` exactly when the location was there, the photo and the request could be encoded, and
the reply identifies the plant. Bodies that agree on what is read get the same verdict. -/
theorem plant_verdict (image : UIImage) (expectedPlant : String) (location : Option Location)
    (result : TaskResult) :
    (∃ b, verdicts lib image expectedPlant location result = [b] ∧
      (b = true ↔ (∃ loc, location = some loc ∧ Encodes lib image loc) ∧
        Identified lib expectedPlant result)) ∧
    ∀ body body' json json', result.data = some body → lib.jsonObject body = some json →
      lib.jsonObject body' = some json' → json.SameBody json' →
        verdicts lib image expectedPlant location { result with data := some body' } =
          verdicts lib image expectedPlant location result := by
  refine ⟨verdicts_eq lib image expectedPlant location result, ?_⟩
  intro body body' json json' hbody hjson hjson' hsame
  exact verdicts_of_sameBody lib hbody hjson hjson' hsame

/-- The order of the keys and further fields of the body make no difference to the verdict. -/
theorem verdicts_of_perm {image : UIImage} {expectedPlant : String} {location : Option Location}
    {result : TaskResult} {body body' : Data} {f g more : List (String × Json)}
    (hbody : result.data = some body) (hjson : lib.jsonObject body = some (.object f))
    (hjson' : lib.jsonObject body' = some (.object g)) (hkeys : ((f ++ more).map Prod.fst).Nodup)
    (hplant : more.lookup "is_plant" = none) (hsuggestions : more.lookup "suggestions" = none)
    (h : (f ++ more).Perm g) :
    verdicts lib image expectedPlant location { result with data := some body' } =
      verdicts lib image expectedPlant location result :=
  verdicts_of_sameBody lib hbody hjson hjson' (Json.sameBody_of_perm hkeys hplant hsuggestions h)

-- a reply that names another rose is accepted
example : verdicts Sample.foundation Sample.photo "Rosa canina" (some ⟨1, 2⟩)
    ⟨some Sample.roseText, true, false⟩ = [true] := by decide +kernel

end PlantScanner

end Verdict

/-! ## The value that the handler comes to -/

section Scalars

variable {lib : Foundation Char}

theorem Foundation.Scalars.components (h : lib.Scalars) (s : String) :
    (Datability.components s).head? = some (String.ofList (lib.firstWord s)) := by
  have hhead := lib.components_head s
  rw [Foundation.components, h.characters, h.space] at hhead
  simp [Datability.components, hhead]

theorem bodyGuards_calls (h : lib.Scalars) (expectedPlant : String) (json : Json) :
    Calls (PlantScanner.bodyGuards lib expectedPlant json) (plantVerdict json expectedPlant) := by
  unfold PlantScanner.bodyGuards plantVerdict
  refine .guardLet fun fields => .guardLet_bind fun isPlant => .guardLet_bind fun results =>
    .guardLet_bind₂ fun details => .guardLet_bind₂ fun images => .guardLet_bind₂ fun image =>
    .guardLet_bind₂ fun name => .guardLet_bind fun wiki => ?_
  by_cases hone : isPlant = 1
  · rw [if_pos hone, if_pos (by simpa using hone), h.components, h.components, lib.components_head,
      lib.components_head]
    simp only [guardLet_some, Option.bind_eq_bind, Option.bind_some, Option.pure_def, Option.getD_some]
    by_cases hword : lib.firstWord expectedPlant = lib.firstWord name
    · rw [if_pos hword, hword, beq_self_eq_true]
      exact calls_completion true
    · have hne : String.ofList (lib.firstWord expectedPlant) ≠ String.ofList (lib.firstWord name) :=
        fun heq => hword (String.ofList_injective heq)
      rw [if_neg hword, beq_false_of_ne hne]
      exact calls_completion false
  · rw [if_neg hone, if_neg (by simpa using hone)]
    exact calls_completion false

/-- The handler passes on the value of `plantScannerReply`. -/
theorem handler_calls (h : lib.Scalars) (expectedPlant : String) (result : TaskResult) :
    ∃ b, plantScannerReply ⟨result.error, result.response, result.data.map lib.jsonObject⟩
        expectedPlant = some b ∧
      Calls (PlantScanner.handler lib expectedPlant result) b := by
  obtain ⟨data, response, error⟩ := result
  unfold PlantScanner.handler plantScannerReply
  cases data with
  | none => exact ⟨false, by simp, by simpa using calls_completion false⟩
  | some body =>
    by_cases hc : error = false ∧ response = true
    · rw [if_pos (by simpa using hc), if_pos (by simpa using hc)]
      cases hjson : lib.jsonObject body with
      | none =>
        refine ⟨false, by simp [hjson], ?_⟩
        simp only [hjson, doCatch_attempt_none]
        exact calls_completion false
      | some json =>
        refine ⟨plantVerdict json expectedPlant, by simp [hjson], ?_⟩
        simp only [hjson, attempt_some_bind]
        exact (bodyGuards_calls h expectedPlant json).doCatch false
    · rw [if_neg (by simpa using hc), if_neg (by simpa using hc)]
      exact ⟨false, rfl, calls_completion false⟩

end Scalars

end Datability
