import SensoryProse.Proofs.Language.Collecting
import SensoryProse.Proofs.Language.Deciding

/-!
# The order of registration

A collection remembers of the packs that were registered by one name what they hold and in which
order they came, and nothing of how they were mixed with packs of other names.  Among equally
specific rules, and among contractions of the same words, the one that was registered first has the
say.
-/

namespace SensoryProse

/-- What is found in a list stands before all else that passes the test. -/
theorem find?_eq_some_iff_place {α : Type} {test : α → Bool} {list : List α} {entry : α} :
    list.find? test = some entry ↔
      ∃ place : Nat, list[place]? = some entry ∧ test entry = true ∧
        ∀ (otherPlace : Nat) (other : α), list[otherPlace]? = some other → test other = true →
          place ≤ otherPlace := by
  rw [List.find?_eq_some_iff_getElem]
  constructor
  · rintro ⟨passes, place, inside, here, fails⟩
    refine ⟨place, List.getElem?_eq_some_iff.mpr ⟨inside, here⟩, passes, ?_⟩
    intro otherPlace other otherHere otherPasses
    obtain ⟨otherInside, rfl⟩ := List.getElem?_eq_some_iff.mp otherHere
    refine Nat.le_of_not_lt ?_
    intro less
    have otherFails := fails otherPlace less
    rw [otherPasses] at otherFails
    contradiction
  · rintro ⟨place, here, passes, first⟩
    obtain ⟨inside, here⟩ := List.getElem?_eq_some_iff.mp here
    refine ⟨passes, place, inside, here, ?_⟩
    intro otherPlace less
    rw [Bool.not_eq_true', Bool.eq_false_iff]
    intro otherPasses
    have atMost := first otherPlace _
      (List.getElem?_eq_getElem (Nat.lt_trans less inside)) otherPasses
    exact Nat.not_le_of_lt less atMost

namespace Languages

/-- Two histories that register the same packs by each name, in the same order. -/
def Reorders (packs others : List Language) : Prop :=
  ∀ name, others.filter (·.name == name) = packs.filter (·.name == name)

namespace Reorders

variable {packs others : List Language} (reorders : Reorders packs others)

include reorders

theorem find?_eq (name : String) : (ofList others).find? name = (ofList packs).find? name := by
  rw [find?_ofList, find?_ofList, reorders name]

theorem dedup_perm : (others.map (·.name)).dedup.Perm (packs.map (·.name)).dedup := by
  rw [List.perm_ext_iff_of_nodup (List.nodup_dedup _) (List.nodup_dedup _)]
  intro name
  have same : Registered others name ↔ Registered packs name := by
    rw [← find?_ofList_isSome_iff, ← find?_ofList_isSome_iff, reorders.find?_eq]
  simpa [Registered] using same

theorem size_eq : (ofList others).size = (ofList packs).size := by
  rw [size_ofList, size_ofList, reorders.dedup_perm.length_eq]

theorem names_eq : (ofList others).names = (ofList packs).names := by
  have perm : (ofList others).names.Perm (ofList packs).names :=
    (names_ofList_perm others).trans (reorders.dedup_perm.trans (names_ofList_perm packs).symm)
  exact perm.eq_of_pairwise (fun _ _ _ _ => String.le_antisymm) (names_pairwise _)
    (names_pairwise _)

end Reorders

/-- Where an entry of a table comes from: the turn of its pack and its place in the pack. -/
structure Origin where
  turn : Nat
  place : Nat
  deriving DecidableEq, Repr

namespace Origin

instance : LT Origin where
  lt left right := left.turn < right.turn ∨ left.turn = right.turn ∧ left.place < right.place

instance : LE Origin where
  le left right := left.turn < right.turn ∨ left.turn = right.turn ∧ left.place ≤ right.place

theorem lt_iff {left right : Origin} :
    left < right ↔ left.turn < right.turn ∨ left.turn = right.turn ∧ left.place < right.place :=
  Iff.rfl

theorem le_iff {left right : Origin} :
    left ≤ right ↔ left.turn < right.turn ∨ left.turn = right.turn ∧ left.place ≤ right.place :=
  Iff.rfl

theorem not_lt_iff {left right : Origin} : ¬right < left ↔ left ≤ right := by
  rw [le_iff, lt_iff]
  omega

theorem lt_irrefl (origin : Origin) : ¬origin < origin := by
  rw [lt_iff]
  omega

theorem lt_asymm {left right : Origin} (less : left < right) : ¬right < left := by
  rw [lt_iff] at *
  omega

end Origin

section

variable {α : Type} (packs : List Language) (name : String) (table : Language → List α)

/-- A pack of this name brought the entry with it. -/
def Brings (entry : α) (origin : Origin) : Prop :=
  ∃ pack, packs[origin.turn]? = some pack ∧ pack.name = name ∧
    (table pack)[origin.place]? = some entry

/-- All entries that were registered by a name, in the order of registration. -/
def registrations : List (α × Origin) :=
  (packs.zipIdx.filter (·.1.name == name)).flatMap fun pack =>
    (table pack.1).zipIdx.map fun entry => (entry.1, ⟨pack.2, entry.2⟩)

theorem registrations_map_fst :
    (registrations packs name table).map Prod.fst =
      (packs.filter (·.name == name)).flatMap table := by
  have named : (packs.zipIdx.filter (·.1.name == name)).map Prod.fst =
      packs.filter (·.name == name) := by
    conv => rhs; rw [← List.zipIdx_map_fst 0 packs, List.filter_map]
    rfl
  rw [registrations, List.map_flatMap, ← named, List.flatMap_map]
  simp [Function.comp_def]

theorem registrations_pairwise :
    (registrations packs name table).Pairwise fun left right => left.2 < right.2 := by
  rw [registrations, List.pairwise_flatMap]
  constructor
  · intro pack _
    rw [List.pairwise_map]
    refine (zipIdx_pairwise (table pack.1)).imp ?_
    intro left right less
    exact .inr ⟨rfl, less⟩
  · refine ((zipIdx_pairwise packs).filter _).imp ?_
    intro left right less first firstMember second secondMember
    obtain ⟨_, _, rfl⟩ := List.mem_map.mp firstMember
    obtain ⟨_, _, rfl⟩ := List.mem_map.mp secondMember
    exact .inl less

theorem getElem?_merged_iff (place : Nat) (entry : α) :
    ((packs.filter (·.name == name)).flatMap table)[place]? = some entry ↔
      ∃ origin, (registrations packs name table)[place]? = some (entry, origin) := by
  rw [← registrations_map_fst, List.getElem?_map, Option.map_eq_some_iff]
  constructor
  · rintro ⟨⟨_, origin⟩, placed, rfl⟩
    exact ⟨origin, placed⟩
  · rintro ⟨origin, placed⟩
    exact ⟨(entry, origin), placed, rfl⟩

variable {packs name table}

theorem brings_iff {entry : α} {origin : Origin} :
    Brings packs name table entry origin ↔
      ∃ place : Nat, (registrations packs name table)[place]? = some (entry, origin) := by
  obtain ⟨turn, place⟩ := origin
  rw [← List.mem_iff_getElem?]
  simp [registrations, Brings, List.mem_zipIdx_iff_getElem?, and_assoc]

theorem mem_merged_iff {entry : α} :
    entry ∈ (packs.filter (·.name == name)).flatMap table ↔
      ∃ origin, Brings packs name table entry origin := by
  rw [List.mem_iff_getElem?]
  simp only [getElem?_merged_iff, brings_iff]
  exact exists_comm

theorem registrations_lt {first second : Nat} {left right : α × Origin}
    (leftPlaced : (registrations packs name table)[first]? = some left)
    (rightPlaced : (registrations packs name table)[second]? = some right)
    (less : first < second) : left.2 < right.2 := by
  obtain ⟨firstInside, rfl⟩ := List.getElem?_eq_some_iff.mp leftPlaced
  obtain ⟨secondInside, rfl⟩ := List.getElem?_eq_some_iff.mp rightPlaced
  exact List.pairwise_iff_getElem.mp (registrations_pairwise packs name table) first second
    firstInside secondInside less

/-- The merged table is in the order of registration. -/
theorem registrations_le_iff {first second : Nat} {left right : α × Origin}
    (leftPlaced : (registrations packs name table)[first]? = some left)
    (rightPlaced : (registrations packs name table)[second]? = some right) :
    first ≤ second ↔ left.2 ≤ right.2 := by
  rw [← Origin.not_lt_iff]
  constructor
  · intro atMost less
    rcases Nat.lt_or_eq_of_le atMost with before | same
    · exact Origin.lt_asymm less (registrations_lt leftPlaced rightPlaced before)
    · rw [same, rightPlaced] at leftPlaced
      cases leftPlaced
      exact Origin.lt_irrefl _ less
  · intro notLess
    rcases Nat.lt_or_ge second first with after | atMost
    · exact absurd (registrations_lt rightPlaced leftPlaced after) notLess
    · exact atMost

end

section

variable (packs : List Language) (name : String)

theorem forall_merged_iff {α : Type} (table : Language → List α) (claim : α → Prop) :
    (∀ entry ∈ (packs.filter (·.name == name)).flatMap table, claim entry) ↔
      ∀ entry origin, Brings packs name table entry origin → claim entry := by
  simp only [mem_merged_iff, forall_exists_index]

/-- What holds of an entry by its place among the others in the merged table holds by its place in
the history. -/
theorem exists_place_iff {α : Type} (table : Language → List α) (entry : α)
    (claim : α → Prop → Prop) :
    (∃ place : Nat, ((packs.filter (·.name == name)).flatMap table)[place]? = some entry ∧
      ∀ (otherPlace : Nat) (other : α),
        ((packs.filter (·.name == name)).flatMap table)[otherPlace]? = some other →
          claim other (place ≤ otherPlace)) ↔
      ∃ origin, Brings packs name table entry origin ∧
        ∀ other otherOrigin, Brings packs name table other otherOrigin →
          claim other (origin ≤ otherOrigin) := by
  constructor
  · rintro ⟨place, here, claims⟩
    obtain ⟨origin, placed⟩ := (getElem?_merged_iff packs name table place entry).mp here
    refine ⟨origin, brings_iff.mpr ⟨place, placed⟩, ?_⟩
    intro other otherOrigin brought
    obtain ⟨otherPlace, otherPlaced⟩ := brings_iff.mp brought
    rw [← registrations_le_iff placed otherPlaced]
    exact claims otherPlace other
      ((getElem?_merged_iff packs name table otherPlace other).mpr ⟨otherOrigin, otherPlaced⟩)
  · rintro ⟨origin, brought, claims⟩
    obtain ⟨place, placed⟩ := brings_iff.mp brought
    refine ⟨place, (getElem?_merged_iff packs name table place entry).mpr ⟨origin, placed⟩, ?_⟩
    intro otherPlace other otherHere
    obtain ⟨otherOrigin, otherPlaced⟩ :=
      (getElem?_merged_iff packs name table otherPlace other).mp otherHere
    rw [registrations_le_iff placed otherPlaced]
    exact claims other otherOrigin (brings_iff.mpr ⟨otherPlace, otherPlaced⟩)

/-- The value that a property has in the shape of a phrase, if the most specific rule decides it
and, among equals, the one that was registered first. -/
structure DecidedByHistory {α : Type} (phrase : Phrase) (sense : Option Sense)
    (property : Rule → Option α) (value : Option α) : Prop where
  eq_some_iff : ∀ chosen, value = some chosen ↔
    ∃ rule origin, Brings packs name Language.rules rule origin ∧
      rule.applies phrase sense = true ∧ property rule = some chosen ∧
      ∀ other otherOrigin, Brings packs name Language.rules other otherOrigin →
        other.applies phrase sense = true → (property other).isSome = true →
          other.specificity < rule.specificity ∨
            other.specificity = rule.specificity ∧ origin ≤ otherOrigin
  eq_none_iff : value = none ↔
    ∀ rule origin, Brings packs name Language.rules rule origin →
      rule.applies phrase sense = true → property rule = none

/-- The contraction that is found for two words, if it is the first that was registered for
them. -/
structure FoundByHistory (left right : String) (value : Option Contraction) : Prop where
  eq_some_iff : ∀ rule, value = some rule ↔
    ∃ origin, Brings packs name Language.contractions rule origin ∧
      rule.joins left right = true ∧
      ∀ other otherOrigin, Brings packs name Language.contractions other otherOrigin →
        other.joins left right = true → origin ≤ otherOrigin
  eq_none_iff : value = none ↔
    ∀ rule origin, Brings packs name Language.contractions rule origin →
      rule.joins left right = false

theorem decided_by_history {α : Type} (property : Shape.Property α) (phrase : Phrase)
    (sense : Option Sense) :
    DecidedByHistory packs name phrase sense property.ofRule
      (property.ofShape ((collected packs name).shapeOf phrase sense)) := by
  have decided : (collected packs name).Decided phrase sense property.ofRule
      (property.ofShape ((collected packs name).shapeOf phrase sense)) :=
    Language.decided_shapeOf property
  constructor
  · intro chosen
    rw [decided.eq_some_iff]
    have earliest := fun rule : Rule =>
      exists_place_iff packs name Language.rules rule fun other first =>
        other.applies phrase sense = true → (property.ofRule other).isSome = true →
          other.specificity < rule.specificity ∨ other.specificity = rule.specificity ∧ first
    constructor
    · rintro ⟨⟨rule, place⟩, decides, sets⟩
      obtain ⟨listed, _, first⟩ := Language.decides_iff.mp decides
      obtain ⟨placed, applies⟩ := Language.mem_applying_iff.mp listed
      obtain ⟨origin, brought, first⟩ := (earliest rule).mp ⟨place, placed,
        fun otherPlace other otherPlaced otherApplies =>
          first (other, otherPlace) (Language.mem_applying_iff.mpr ⟨otherPlaced, otherApplies⟩)⟩
      exact ⟨rule, origin, brought, applies, sets, first⟩
    · rintro ⟨rule, origin, brought, applies, sets, first⟩
      obtain ⟨place, placed, first⟩ := (earliest rule).mpr ⟨origin, brought, first⟩
      refine ⟨(rule, place), Language.decides_iff.mpr
        ⟨Language.mem_applying_iff.mpr ⟨placed, applies⟩, by simp [sets], ?_⟩, sets⟩
      rintro ⟨other, otherPlace⟩ otherListed
      obtain ⟨otherPlaced, otherApplies⟩ := Language.mem_applying_iff.mp otherListed
      exact first otherPlace other otherPlaced otherApplies
  · rw [decided.eq_none_iff]
    exact forall_merged_iff packs name Language.rules fun rule =>
      rule.applies phrase sense = true → property.ofRule rule = none

theorem found_by_history (left right : String) :
    FoundByHistory packs name left right ((collected packs name).contractionOf? left right) := by
  rw [Language.contractionOf?, Contraction.find?, collected]
  constructor
  · intro rule
    rw [find?_eq_some_iff_place]
    have earliest := exists_place_iff packs name Language.contractions rule fun other first =>
      other.joins left right = true → first
    constructor
    · rintro ⟨place, placed, joins, first⟩
      obtain ⟨origin, brought, first⟩ := earliest.mp ⟨place, placed, first⟩
      exact ⟨origin, brought, joins, first⟩
    · rintro ⟨origin, brought, joins, first⟩
      obtain ⟨place, placed, first⟩ := earliest.mpr ⟨origin, brought, first⟩
      exact ⟨place, placed, joins, first⟩
  · rw [List.find?_eq_none]
    simp only [Bool.not_eq_true]
    exact forall_merged_iff packs name Language.contractions fun rule =>
      rule.joins left right = false

end

/-- What a collection keeps of the history of its registrations. -/
structure KeepsHistory (packs : List Language) : Prop where
  names : (ofList packs).names.Perm (packs.map (·.name)).dedup
  size : (ofList packs).size = (packs.map (·.name)).dedup.length
  ownName : ∀ language ∈ (ofList packs).toList,
    (ofList packs).find? language.name = some language
  held : ∀ name, Registered packs name → (ofList packs).find? name = some (collected packs name)
  missing : ∀ name, ¬Registered packs name → (ofList packs).find? name = none
  reordered : ∀ others, Reorders packs others →
    (∀ name, (ofList others).find? name = (ofList packs).find? name) ∧
      (ofList others).names = (ofList packs).names ∧ (ofList others).size = (ofList packs).size
  shaped : ∀ name language, (ofList packs).find? name = some language →
    ∀ (α : Type) (property : Shape.Property α) phrase sense,
      DecidedByHistory packs name phrase sense property.ofRule
        (property.ofShape (language.shapeOf phrase sense))
  contracted : ∀ name language, (ofList packs).find? name = some language →
    ∀ left right, FoundByHistory packs name left right (language.contractionOf? left right)

/-- A collection holds under each name the tables of its packs in the order of registration, and
this order breaks the ties between them. -/
theorem registered_in_order (packs : List Language) : KeepsHistory packs where
  names := names_ofList_perm packs
  size := size_ofList packs
  ownName _ member := find?_of_mem member
  held _ registered := find?_of_registered registered
  missing _ missing := find?_eq_none_of_missing missing
  reordered _ reorders := ⟨reorders.find?_eq, reorders.names_eq, reorders.size_eq⟩
  shaped name language found α property phrase sense := by
    rw [eq_collected_of_find? found]
    exact decided_by_history packs name property phrase sense
  contracted name language found left right := by
    rw [eq_collected_of_find? found]
    exact found_by_history packs name left right

/-- A pack for English that has nouns with an article. -/
def plainEnglish : Language where
  name := "english"
  rules := [{ wordClass := some .noun, article := some true }]
  contractions := [{ first := "is", second := "not", result := "isn't" }]

/-- A pack for English that has nouns without an article. -/
def headlineEnglish : Language where
  name := "english"
  rules := [{ wordClass := some .noun, article := some false, afterWord := some "s" }]
  contractions := [{ first := "not", second := "is", result := "ain't" }]

def elvish : Language where
  name := "elvish"
  rules := [{ wordClass := some .noun, afterWord := some "iel" }]

def lantern : Phrase where
  role := .subject
  wordClass := .noun
  text := "lantern"

/-- The plain pack was registered first, so that it decides about articles and contractions.  The
pack in between may as well come first. -/
theorem english_registered_in_order :
    Reorders [plainEnglish, elvish, headlineEnglish] [elvish, plainEnglish, headlineEnglish] ∧
      (ofList [elvish, plainEnglish, headlineEnglish]).find? "english" =
        (ofList [plainEnglish, elvish, headlineEnglish]).find? "english" ∧
      (ofList [plainEnglish, elvish, headlineEnglish]).find? "english" =
        some (collected [plainEnglish, elvish, headlineEnglish] "english") ∧
      DecidedByHistory [plainEnglish, elvish, headlineEnglish] "english" lantern none Rule.article
        (some true) ∧
      FoundByHistory [plainEnglish, elvish, headlineEnglish] "english" "is" "not"
        (some { first := "is", second := "not", result := "isn't" }) := by
  have kept := registered_in_order [plainEnglish, elvish, headlineEnglish]
  have reorders : Reorders [plainEnglish, elvish, headlineEnglish]
      [elvish, plainEnglish, headlineEnglish] := by
    intro name
    by_cases english : "english" = name
    · subst english
      rfl
    · simp [plainEnglish, headlineEnglish, List.filter_cons, english]
  have registered : Registered [plainEnglish, elvish, headlineEnglish] "english" := by decide
  have found := kept.held "english" registered
  have article := kept.shaped "english" _ found Bool Shape.Property.article lantern none
  have contraction := kept.contracted "english" _ found "is" "not"
  refine ⟨reorders, (kept.reordered _ reorders).1 "english", found, ?_, ?_⟩
  · have ranked : ((collected [plainEnglish, elvish, headlineEnglish] "english").rules.zipIdx.filter
        fun entry => (Shape.Property.article.ofRule entry.1).isSome).Pairwise
          Language.Outranks := by
      decide +kernel
    have decides : ((collected [plainEnglish, elvish, headlineEnglish] "english").shapeOf lantern
        none).article = some true :=
      (Language.ofShape_shapeOf_of_ranked .article (.refl _) ranked lantern none).trans
        (by decide +kernel)
    exact decides ▸ article
  · have finds : (collected [plainEnglish, elvish, headlineEnglish] "english").contractionOf? "is"
        "not" = some { first := "is", second := "not", result := "isn't" } := by
      decide +kernel
    exact finds ▸ contraction

end Languages

end SensoryProse
