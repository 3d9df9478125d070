import Mathlib.Data.List.Induction
import Mathlib.Data.List.Nodup
import SensoryProse.Proofs.Phrase.Attaching

/-!
# Editing trees

The modifiers of a phrase are a set in the order of attachment, which the phrase itself is not in.
Whatever is attached, detached or cleared at whatever phrase of a tree, all phrases of the tree keep
such sets; and as long as phrases are only attached, every phrase of the tree stays in its place.
-/

namespace SensoryProse.Phrase

/-- The modifiers are distinct from each other and from the phrase. -/
structure CarriesSet (phrase : Phrase) : Prop where
  distinct : Distinct phrase.modifiers
  apart : ∀ modifier ∈ phrase.modifiers, modifier.equivalent phrase = false

def WellFormed (phrase : Phrase) : Prop := ∀ node ∈ phrase.nodes, node.CarriesSet

instance (phrase : Phrase) : Decidable phrase.CarriesSet :=
  decidable_of_iff
    (Distinct phrase.modifiers ∧ ∀ modifier ∈ phrase.modifiers, modifier.equivalent phrase = false)
    ⟨fun ⟨distinct, apart⟩ => ⟨distinct, apart⟩, fun carries => ⟨carries.distinct, carries.apart⟩⟩

instance (phrase : Phrase) : Decidable phrase.WellFormed :=
  inferInstanceAs (Decidable (∀ node ∈ phrase.nodes, node.CarriesSet))

theorem wellFormed_iff {phrase : Phrase} :
    phrase.WellFormed ↔
      phrase.CarriesSet ∧ ∀ modifier ∈ phrase.modifiers, modifier.WellFormed := by
  rw [WellFormed, nodes_eq]
  constructor
  · intro everywhere
    refine ⟨everywhere phrase List.mem_cons_self, ?_⟩
    intro modifier member node nodeMember
    apply everywhere
    exact List.mem_cons_of_mem _ (List.mem_flatMap.mpr ⟨modifier, member, nodeMember⟩)
  · rintro ⟨here, below⟩ node member
    rcases List.mem_cons.mp member with rfl | deeper
    · exact here
    · obtain ⟨modifier, modifierMember, nodeMember⟩ := List.mem_flatMap.mp deeper
      exact below modifier modifierMember node nodeMember

/-- The keys of what a phrase refuses to take as a further modifier. -/
def taken (phrase : Phrase) : List Key := phrase.key :: phrase.modifiers.map key

/-- The phrase has an equivalent of `modifier` among its modifiers, or is one. -/
def refuses (phrase modifier : Phrase) : Bool :=
  modifier.equivalent phrase || phrase.modifiers.any (·.equivalent modifier)

theorem refuses_iff {phrase modifier : Phrase} :
    phrase.refuses modifier = true ↔ modifier.key ∈ phrase.taken := by
  simp [refuses, taken, equivalent_iff]

theorem equivalent_eq_false_iff {left right : Phrase} :
    left.equivalent right = false ↔ left.key ≠ right.key := by
  rw [Bool.eq_false_iff, ne_eq, equivalent_iff]

theorem distinct_iff {modifiers : List Phrase} :
    Distinct modifiers ↔ (modifiers.map key).Nodup := by
  simp only [Distinct, List.Nodup, List.pairwise_map, equivalent_eq_false_iff]

theorem carriesSet_iff {phrase : Phrase} : phrase.CarriesSet ↔ phrase.taken.Nodup := by
  rw [taken, List.nodup_cons, ← distinct_iff]
  constructor
  · rintro ⟨distinct, apart⟩
    refine ⟨?_, distinct⟩
    intro member
    obtain ⟨modifier, modifierMember, same⟩ := List.mem_map.mp member
    exact equivalent_eq_false_iff.mp (apart modifier modifierMember) same
  · rintro ⟨apart, distinct⟩
    refine ⟨distinct, ?_⟩
    intro modifier member
    rw [equivalent_eq_false_iff]
    intro same
    exact apart (List.mem_map.mpr ⟨modifier, member, same⟩)

theorem attach_eq (phrase modifier : Phrase) :
    phrase.attach modifier =
      if phrase.refuses modifier then phrase
      else { phrase with modifiers := phrase.modifiers ++ [modifier] } :=
  rfl

theorem attach_taken (phrase modifier : Phrase) :
    (phrase.attach modifier).taken =
      if phrase.refuses modifier then phrase.taken else phrase.taken ++ [modifier.key] := by
  rw [taken, attach_key, attach_eq]
  split
  · rfl
  · simp [taken]

theorem mem_attach_taken {phrase modifier : Phrase} {wanted : Key} :
    wanted ∈ (phrase.attach modifier).taken ↔ wanted ∈ phrase.taken ∨ wanted = modifier.key := by
  rw [attach_taken]
  split
  · rename_i refused
    have present := refuses_iff.mp refused
    constructor
    · exact Or.inl
    · rintro (member | rfl)
      · exact member
      · exact present
  · simp

theorem mem_attachAll_taken {phrase : Phrase} {batch : List Phrase} {wanted : Key} :
    wanted ∈ (phrase.attachAll batch).taken ↔ wanted ∈ phrase.taken ∨ wanted ∈ batch.map key := by
  induction batch generalizing phrase with
  | nil => simp
  | cons modifier batch induction =>
      rw [attachAll_cons, induction, mem_attach_taken, List.map_cons, List.mem_cons, or_assoc]

theorem forall₂_getElem? {α β : Type} {rel : α → β → Prop} {left : List α} {right : List β}
    (related : List.Forall₂ rel left right) {index : Nat} {value : α}
    (found : left[index]? = some value) :
    ∃ counterpart, right[index]? = some counterpart ∧ rel value counterpart := by
  induction related generalizing index with
  | nil => simp at found
  | cons here _ induction =>
      cases index with
      | zero =>
          cases found
          exact ⟨_, rfl, here⟩
      | succ index => exact induction found

/-- A relation between trees before and after a change that holds wherever it holds of the modifiers
one by one. -/
structure Local (rel : Phrase → Phrase → Prop) : Prop where
  refl : ∀ phrase, rel phrase phrase
  trans : ∀ {first second third}, rel first second → rel second third → rel first third
  below : ∀ (phrase : Phrase) {modifiers : List Phrase},
    List.Forall₂ rel phrase.modifiers modifiers → rel phrase { phrase with modifiers }

namespace Local

variable {rel : Phrase → Phrase → Prop} (isLocal : Local rel)

include isLocal

theorem modify {change : Phrase → Phrase} (changed : ∀ phrase, rel phrase (change phrase))
    (phrase : Phrase) (index : Nat) :
    rel phrase { phrase with modifiers := phrase.modifiers.modify index change } := by
  apply isLocal.below
  induction phrase.modifiers generalizing index with
  | nil => simp
  | cons modifier modifiers induction =>
      cases index with
      | zero =>
          refine .cons (changed modifier) ?_
          exact List.forall₂_same.mpr fun other _ => isLocal.refl other
      | succ index => exact .cons (isLocal.refl modifier) (induction index)

theorem modifyAt {change : Phrase → Phrase} (changed : ∀ phrase, rel phrase (change phrase))
    (path : List Nat) (phrase : Phrase) : rel phrase (Phrase.modifyAt change path phrase) := by
  induction path generalizing phrase with
  | nil => exact changed phrase
  | cons index path induction => exact isLocal.modify induction phrase index

theorem attachAll {batch : List Phrase}
    (attached : ∀ modifier ∈ batch, ∀ phrase : Phrase, rel phrase (phrase.attach modifier))
    (phrase : Phrase) : rel phrase (phrase.attachAll batch) := by
  induction batch generalizing phrase with
  | nil => exact isLocal.refl phrase
  | cons modifier batch induction =>
      rw [attachAll_cons]
      refine isLocal.trans (attached modifier List.mem_cons_self phrase) ?_
      exact induction (fun other member => attached other (List.mem_cons_of_mem _ member)) _

theorem chain {links : List Link}
    (attached : ∀ link ∈ links, ∀ phrase : Phrase,
      rel phrase (phrase.attach (link.attachment.below phrase)))
    (phrase : Phrase) : rel phrase (Phrase.chain links phrase) := by
  induction links generalizing phrase with
  | nil => exact isLocal.refl phrase
  | cons link links induction =>
      have later := induction fun other member => attached other (List.mem_cons_of_mem _ member)
      refine isLocal.trans (attached link List.mem_cons_self phrase) ?_
      unfold Phrase.chain
      -- The rest of the chain acts on the receiver or on the modifier that it went down to.
      cases link.descent? phrase with
      | none => exact later _
      | some index => exact isLocal.modify later _ index

end Local

/-- Something that is done to one phrase of a tree.  Wherever a chain leads to is a phrase of the
tree too, at which the next edit may be made. -/
inductive Edit where
  | chain (links : List Link)
  | attachAll (batch : List Phrase)
  | attachWords (words : List (WordClass × Role × String))
  | detach (test : Phrase → Bool)
  | clear

namespace Edit

def apply : Edit → Phrase → Phrase
  | chain links, phrase => Phrase.chain links phrase
  | attachAll batch, phrase => phrase.attachAll batch
  | attachWords words, phrase => phrase.attachWords words
  | detach test, phrase => phrase.without test
  | clear, phrase => phrase.bare

def attaches : Edit → Bool
  | chain _ | attachAll _ | attachWords _ => true
  | detach _ | clear => false

end Edit

/-- Edits one after the other, each at the phrase that a path leads to. -/
def edited (edits : List (List Nat × Edit)) (tree : Phrase) : Phrase :=
  edits.foldl (fun tree edit => tree.modifyAt edit.2.apply edit.1) tree

/-- The words of a batch stand in the context of the receiver, which attaching leaves as it is. -/
theorem attachWords_eq (phrase : Phrase) (words : List (WordClass × Role × String)) :
    phrase.attachWords words =
      phrase.attachAll (words.map fun (wordClass, role, text) =>
        (Attachment.word wordClass role text).below phrase) := by
  induction words generalizing phrase with
  | nil => rfl
  | cons word words induction =>
      have sameWords : (words.map fun (wordClass, role, text) =>
            (Attachment.word wordClass role text).below
              (phrase.attachWord word.1 word.2.1 word.2.2)) =
          words.map fun (wordClass, role, text) =>
            (Attachment.word wordClass role text).below phrase := by
        simp only [Attachment.below, attachWord, attach_context]
      rw [List.map_cons, attachAll_cons, ← sameWords]
      exact induction (phrase.attachWord word.1 word.2.1 word.2.2)

/-- The change keeps everything of the phrase but its modifiers, and keeps well-formed trees so. -/
structure Preserves (before after : Phrase) : Prop where
  bare : after.bare = before.bare
  wellFormed : before.WellFormed → after.WellFormed

theorem Preserves.key {before after : Phrase} (preserves : Preserves before after) :
    after.key = before.key :=
  (congrArg Phrase.key preserves.bare :)

theorem attach_preserves {modifier : Phrase} (wellFormed : modifier.WellFormed) (phrase : Phrase) :
    Preserves phrase (phrase.attach modifier) := by
  refine ⟨attach_bare phrase modifier, ?_⟩
  intro before
  obtain ⟨here, below⟩ := wellFormed_iff.mp before
  cases refused : phrase.refuses modifier with
  | true => rwa [attach_eq, refused, if_pos rfl]
  | false =>
      rw [wellFormed_iff]
      constructor
      · have new : modifier.key ∉ phrase.taken := by
          rw [← refuses_iff, refused]
          decide
        rw [carriesSet_iff, attach_taken, refused]
        rw [carriesSet_iff] at here
        rw [if_neg Bool.false_ne_true, ← List.concat_eq_append]
        exact here.concat new
      · intro other member
        rw [attach_eq, refused] at member
        rcases List.mem_append.mp member with present | added
        · exact below other present
        · rw [List.mem_singleton.mp added]
          exact wellFormed

theorem sublist_preserves (phrase : Phrase) {modifiers : List Phrase}
    (sublist : modifiers.Sublist phrase.modifiers) :
    Preserves phrase { phrase with modifiers } := by
  refine ⟨rfl, ?_⟩
  intro before
  obtain ⟨here, below⟩ := wellFormed_iff.mp before
  rw [wellFormed_iff]
  constructor
  · rw [carriesSet_iff] at *
    exact here.sublist ((sublist.map key).cons_cons _)
  · intro modifier member
    exact below modifier (sublist.mem member)

theorem preserves_local : Local Preserves where
  refl phrase := ⟨rfl, id⟩
  trans first second := ⟨second.bare.trans first.bare, fun before =>
    second.wellFormed (first.wellFormed before)⟩
  below phrase modifiers changed := by
    refine ⟨rfl, ?_⟩
    intro before
    obtain ⟨here, below⟩ := wellFormed_iff.mp before
    have sameKeys : modifiers.map key = phrase.modifiers.map key := by
      symm
      rw [← List.forall₂_eq_eq_eq, List.forall₂_map_left_iff, List.forall₂_map_right_iff]
      exact changed.imp fun _ _ preserves => preserves.key.symm
    rw [wellFormed_iff]
    constructor
    · rw [carriesSet_iff, taken] at *
      rw [sameKeys]
      exact here
    · intro modifier member
      obtain ⟨index, found⟩ := List.mem_iff_getElem?.mp member
      obtain ⟨original, originalFound, preserves⟩ := forall₂_getElem? changed.flip found
      exact preserves.wellFormed (below original (List.mem_of_getElem? originalFound))

def Attachment.WellFormed : Attachment → Prop
  | tree phrase => phrase.WellFormed
  | word _ _ _ => True

def Edit.WellFormed : Edit → Prop
  | chain links => ∀ link ∈ links, link.attachment.WellFormed
  | attachAll batch => ∀ modifier ∈ batch, modifier.WellFormed
  | _ => True

instance : (attachment : Attachment) → Decidable attachment.WellFormed
  | .tree phrase => inferInstanceAs (Decidable phrase.WellFormed)
  | .word _ _ _ => inferInstanceAs (Decidable True)

instance : (edit : Edit) → Decidable edit.WellFormed
  | .chain links => inferInstanceAs (Decidable (∀ link ∈ links, link.attachment.WellFormed))
  | .attachAll batch => inferInstanceAs (Decidable (∀ modifier ∈ batch, modifier.WellFormed))
  | .attachWords _ | .detach _ | .clear => inferInstanceAs (Decidable True)

theorem Attachment.below_wellFormed {attachment : Attachment} (wellFormed : attachment.WellFormed)
    (receiver : Phrase) : (attachment.below receiver).WellFormed := by
  cases attachment with
  | tree phrase => exact wellFormed
  | word wordClass role text =>
      rw [wellFormed_iff, carriesSet_iff]
      simp [below, taken]

theorem Edit.apply_preserves {edit : Edit} (wellFormed : edit.WellFormed) (phrase : Phrase) :
    Preserves phrase (edit.apply phrase) := by
  cases edit with
  | chain links =>
      exact preserves_local.chain
        (fun link member receiver =>
          attach_preserves (Attachment.below_wellFormed (wellFormed link member) receiver) receiver)
        phrase
  | attachAll batch =>
      exact preserves_local.attachAll
        (fun modifier member => attach_preserves (wellFormed modifier member)) phrase
  | attachWords words =>
      rw [apply, attachWords_eq]
      refine preserves_local.attachAll ?_ phrase
      intro modifier member
      obtain ⟨⟨wordClass, role, text⟩, _, rfl⟩ := List.mem_map.mp member
      have plain : (Attachment.word wordClass role text).WellFormed := trivial
      exact attach_preserves (Attachment.below_wellFormed plain phrase)
  | detach test => exact sublist_preserves phrase List.filter_sublist
  | clear => exact sublist_preserves phrase (List.nil_sublist _)

/-- Every phrase stands where it stood, with whatever was appended to its modifiers. -/
def Keeps (before after : Phrase) : Prop :=
  ∀ path node, before.at? path = some node →
    ∃ later, after.at? path = some later ∧ later.bare = node.bare

theorem keeps_of_modifiers {before after : Phrase} (bare : after.bare = before.bare)
    (kept : ∀ (index : Nat) modifier, before.modifiers[index]? = some modifier →
      ∃ later, after.modifiers[index]? = some later ∧ Keeps modifier later) :
    Keeps before after := by
  intro path node reached
  cases path with
  | nil =>
      cases reached
      exact ⟨after, rfl, bare⟩
  | cons index path =>
      obtain ⟨modifier, found, reached⟩ := Option.bind_eq_some_iff.mp reached
      obtain ⟨later, laterFound, keeps⟩ := kept index modifier found
      obtain ⟨laterNode, laterReached, same⟩ := keeps path node reached
      refine ⟨laterNode, ?_, same⟩
      rw [at?, laterFound]
      exact laterReached

theorem keeps_refl (phrase : Phrase) : Keeps phrase phrase :=
  fun _ node reached => ⟨node, reached, rfl⟩

theorem keeps_local : Local Keeps where
  refl := keeps_refl
  trans first second path node reached := by
    obtain ⟨later, laterReached, same⟩ := first path node reached
    obtain ⟨last, lastReached, lastSame⟩ := second path later laterReached
    exact ⟨last, lastReached, lastSame.trans same⟩
  below phrase modifiers changed := by
    refine keeps_of_modifiers (by rfl) ?_
    intro index modifier found
    exact forall₂_getElem? changed found

theorem attach_keeps (phrase modifier : Phrase) : Keeps phrase (phrase.attach modifier) := by
  apply keeps_of_modifiers (attach_bare phrase modifier)
  intro index present found
  refine ⟨present, ?_, keeps_refl present⟩
  rw [attach_eq]
  split
  · exact found
  · obtain ⟨bound, _⟩ := List.getElem?_eq_some_iff.mp found
    exact (List.getElem?_append_left bound).trans found

theorem Edit.apply_keeps {edit : Edit} (attaches : edit.attaches = true) (phrase : Phrase) :
    Keeps phrase (edit.apply phrase) := by
  cases edit with
  | chain links =>
      exact keeps_local.chain (fun _ _ receiver => attach_keeps receiver _) phrase
  | attachAll batch =>
      exact keeps_local.attachAll (fun modifier _ receiver => attach_keeps receiver modifier) phrase
  | attachWords words =>
      rw [apply, attachWords_eq]
      exact keeps_local.attachAll (fun modifier _ receiver => attach_keeps receiver modifier) phrase
  | detach _ => cases attaches
  | clear => cases attaches

/-- What every edit does to the phrase it is made at, a run of edits does to the tree. -/
theorem Local.edited {rel : Phrase → Phrase → Prop} (isLocal : Local rel)
    {edits : List (List Nat × Edit)}
    (applied : ∀ edit ∈ edits, ∀ phrase, rel phrase (edit.2.apply phrase)) (tree : Phrase) :
    rel tree (Phrase.edited edits tree) := by
  induction edits generalizing tree with
  | nil => exact isLocal.refl tree
  | cons edit edits induction =>
      refine isLocal.trans (isLocal.modifyAt (applied edit List.mem_cons_self) edit.1 tree) ?_
      exact induction (fun other member => applied other (List.mem_cons_of_mem edit member)) _

/-- The members of a batch that are the first of their kind and not refused. -/
def newcomers (phrase : Phrase) (batch : List Phrase) : List Phrase :=
  (batch.zipIdx.filter fun entry =>
    !phrase.refuses entry.1 && !(batch.take entry.2).any (·.equivalent entry.1)).map Prod.fst

theorem newcomers_concat (phrase : Phrase) (batch : List Phrase) (last : Phrase) :
    phrase.newcomers (batch ++ [last]) =
      phrase.newcomers batch ++
        if phrase.refuses last || batch.any (·.equivalent last) then [] else [last] := by
  have earlier : ∀ entry ∈ batch.zipIdx,
      (batch ++ [last]).take entry.2 = batch.take entry.2 := by
    intro entry member
    have bound := List.snd_lt_of_mem_zipIdx member
    exact List.take_append_of_le_length (by omega)
  rw [newcomers, List.zipIdx_append, List.filter_append, List.map_append, newcomers]
  congr 1
  · congr 1
    apply List.filter_congr
    intro entry member
    rw [earlier entry member]
  · cases refused : phrase.refuses last <;> cases present : batch.any (·.equivalent last) <;>
      simp [refused, present]

/-- A batch is appended without those that are refused or come again. -/
theorem attachAll_modifiers (phrase : Phrase) (batch : List Phrase) :
    (phrase.attachAll batch).modifiers = phrase.modifiers ++ phrase.newcomers batch := by
  induction batch using List.reverseRecOn with
  | nil => simp [newcomers]
  | append_singleton batch last induction =>
      -- What the whole batch before it left taken decides on the last member.
      have refused : (phrase.attachAll batch).refuses last =
          (phrase.refuses last || batch.any (·.equivalent last)) := by
        rw [Bool.eq_iff_iff, Bool.or_eq_true, refuses_iff, refuses_iff, mem_attachAll_taken]
        simp [equivalent_iff]
      have step : phrase.attachAll (batch ++ [last]) = (phrase.attachAll batch).attach last := by
        simp [attachAll]
      rw [step, attach_eq, refused, newcomers_concat, ← List.append_assoc, ← induction]
      split
      · rw [List.append_nil]
      · rfl

theorem attachAll_of_taken {phrase : Phrase} {batch : List Phrase}
    (present : ∀ modifier ∈ batch, modifier.key ∈ phrase.taken) :
    phrase.attachAll batch = phrase := by
  induction batch with
  | nil => rfl
  | cons modifier batch induction =>
      have refused := refuses_iff.mpr (present modifier List.mem_cons_self)
      rw [attachAll_cons, attach_eq, if_pos refused]
      exact induction fun other member => present other (List.mem_cons_of_mem modifier member)

/-- Attaching a batch again changes nothing. -/
theorem attachAll_attachAll (phrase : Phrase) (batch : List Phrase) :
    (phrase.attachAll batch).attachAll batch = phrase.attachAll batch := by
  apply attachAll_of_taken
  intro modifier member
  exact mem_attachAll_taken.mpr (.inr (List.mem_map.mpr ⟨modifier, member, rfl⟩))

/-- How a phrase takes further modifiers: what is there stays as it is, and what is new comes
behind it. -/
structure TakesInOrder (phrase : Phrase) : Prop where
  attached : ∀ modifier, (phrase.attach modifier).bare = phrase.bare ∧
    (phrase.attach modifier).modifiers = phrase.modifiers ++
      if modifier.equivalent phrase || phrase.modifiers.any (·.equivalent modifier) then []
      else [modifier]
  linked : ∀ link : Link, chain [link] phrase = phrase.attach (link.attachment.below phrase)
  batched : ∀ batch, (phrase.attachAll batch).bare = phrase.bare ∧
    (phrase.attachAll batch).modifiers = phrase.modifiers ++ phrase.newcomers batch
  worded : ∀ words, phrase.attachWords words =
    phrase.attachAll (words.map fun (wordClass, role, text) =>
      (Attachment.word wordClass role text).below phrase)
  repeated : ∀ batch, (phrase.attachAll batch).attachAll batch = phrase.attachAll batch

theorem chain_singleton (link : Link) (phrase : Phrase) :
    chain [link] phrase = phrase.attach (link.attachment.below phrase) := by
  unfold chain
  cases link.descent? phrase with
  | none => rfl
  | some index =>
      have unchanged : chain [] = id := rfl
      simp only [unchanged, List.modify_id]
      cases phrase.attach (link.attachment.below phrase)
      rfl

theorem takesInOrder (phrase : Phrase) : phrase.TakesInOrder where
  attached modifier := by
    refine ⟨attach_bare phrase modifier, ?_⟩
    rw [attach_modifiers]
    split
    · rw [List.append_nil]
    · rfl
  linked link := chain_singleton link phrase
  batched batch := ⟨attachAll_bare phrase batch, attachAll_modifiers phrase batch⟩
  worded := attachWords_eq phrase
  repeated := attachAll_attachAll phrase

/-- However a well-formed tree is edited with well-formed phrases, it stays well-formed; and while
phrases are only attached, whatever is there keeps its place. -/
theorem edits_keep_modifier_sets {tree : Phrase} {edits : List (List Nat × Edit)}
    (wellFormed : tree.WellFormed) (sound : ∀ edit ∈ edits, edit.2.WellFormed) :
    (edited edits tree).WellFormed ∧
      ((∀ edit ∈ edits, edit.2.attaches = true) → Keeps tree (edited edits tree)) ∧
      ∀ phrase : Phrase, phrase.TakesInOrder := by
  refine ⟨?_, ?_, takesInOrder⟩
  · have preserves := preserves_local.edited
      (fun edit member => Edit.apply_preserves (sound edit member)) tree
    exact preserves.wellFormed wellFormed
  · intro attaching
    exact keeps_local.edited (fun edit member => Edit.apply_keeps (attaching edit member)) tree

def brassLantern : Phrase where
  role := .subject
  wordClass := .noun
  text := "lantern"
  context := { determinant := true }
  modifiers :=
    [{ role := .descriptive, wordClass := .adjective, text := "brass"
       context := { determinant := true } }]

/-- The first chain goes down to the brass that is there, and the second, refused at its first step,
stays at the lantern. -/
def lanternAttachments : List (List Nat × Edit) :=
  [([], .chain
      [{ attachment := .word .adjective .descriptive "brass", descend := true },
        { attachment := .word .adverb .descriptive "dully" }]),
    ([], .chain
      [{ attachment := .tree brassLantern, descend := true },
        { attachment := .word .verb .verb "hangs", descend := true },
        { attachment := .word .noun .indirectObject "hook" }]),
    ([1], .attachAll
      (List.replicate 2 { role := .descriptive, wordClass := .adverb, text := "low" })),
    ([], .attachWords (List.replicate 2 (.adjective, .descriptive, "old")))]

def lanternRemovals : List (List Nat × Edit) :=
  [([], .detach fun modifier => modifier.role == .verb), ([0], .clear)]

theorem brassLantern_edited :
    brassLantern.WellFormed ∧
      (∀ edit ∈ lanternAttachments ++ lanternRemovals, edit.2.WellFormed) ∧
      (edited (lanternAttachments ++ lanternRemovals) brassLantern).WellFormed ∧
      Keeps brassLantern (edited lanternAttachments brassLantern) ∧
      (edited lanternAttachments brassLantern).nodes.map text =
        ["lantern", "brass", "dully", "hangs", "hook", "low", "old"] ∧
      (edited (lanternAttachments ++ lanternRemovals) brassLantern).nodes.map text =
        ["lantern", "brass", "old"] := by
  have wellFormed : brassLantern.WellFormed := by decide
  have sound : ∀ edit ∈ lanternAttachments ++ lanternRemovals, edit.2.WellFormed := by decide
  obtain ⟨edited, _, _⟩ := edits_keep_modifier_sets wellFormed sound
  obtain ⟨_, kept, _⟩ := edits_keep_modifier_sets wellFormed fun edit member =>
    sound edit (List.mem_append_left _ member)
  exact ⟨wellFormed, sound, edited, kept (by decide), by decide, by decide⟩

end SensoryProse.Phrase
