import Mathlib.Data.List.Dedup
import Mathlib.Data.List.Nodup
import SensoryProse.Lexicon.Basic

/-!
# What a lexicon holds

A sense is entered in a lexicon under its lexeme and its form.  A sense whose entry is taken is
refused, and any other one is appended to its lexeme or opens it.  So the senses that a lexicon
holds stand for a set of entries, and how many they are depends on what was inserted but not on the
order in which it came.
-/

namespace SensoryProse

namespace Sense

/-- What tells the senses of one lexeme apart.  The case of ASCII letters plays no part. -/
structure Form where
  name : List Char
  wordClass : WordClass
  tense : Option Tense
  perspective : Option Perspective
  plural : Bool
  deriving DecidableEq, Repr

def form (sense : Sense) : Form where
  name := Text.foldAscii sense.name
  wordClass := sense.wordClass
  tense := sense.tense
  perspective := sense.perspective
  plural := sense.plural

theorem sameForm_iff {left right : Sense} :
    left.sameForm right = true ↔ left.form = right.form := by
  simp [sameForm, spells, Text.sameUpToAsciiCase, form, and_assoc]

/-- The lexeme and the form that a sense is held under. -/
def entry (sense : Sense) : String × Form := (sense.lexemeKey, sense.form)

end Sense

namespace Lexeme

theorem holds_iff {lexeme : Lexeme} {sense : Sense} :
    lexeme.holds sense = true ↔ sense.form ∈ lexeme.senses.map Sense.form := by
  simp only [holds, List.any_eq_true, List.mem_map, Sense.sameForm_iff]

/-- A lexeme that is not empty and holds its own senses, each in another form. -/
structure Sound (lexeme : Lexeme) : Prop where
  inhabited : lexeme.senses ≠ []
  owned : ∀ sense ∈ lexeme.senses, sense.lexemeKey = lexeme.name
  forms : (lexeme.senses.map Sense.form).Nodup

theorem sound_append {lexeme : Lexeme} {sense : Sense} (sound : lexeme.Sound)
    (own : lexeme.name = sense.lexemeKey) (absent : lexeme.holds sense = false) :
    Sound { lexeme with senses := lexeme.senses ++ [sense] } where
  inhabited := by simp
  owned := by
    intro other member
    rcases List.mem_append.mp member with earlier | last
    · exact sound.owned other earlier
    · rw [List.mem_singleton.mp last]
      exact own.symm
  forms := by
    have fresh : sense.form ∉ lexeme.senses.map Sense.form := by
      rw [← holds_iff, absent]
      exact Bool.false_ne_true
    rw [List.map_append, List.map_singleton, (List.perm_append_singleton _ _).nodup_iff]
    exact List.nodup_cons.mpr ⟨fresh, sound.forms⟩

theorem sound_singleton (sense : Sense) :
    Sound { name := sense.lexemeKey, senses := [sense] } where
  inhabited := by simp
  owned := by simp
  forms := by simp

/-- The lexeme keeps its name and its senses, and may have taken further ones behind them. -/
structure GrowsInto (lexeme grown : Lexeme) : Prop where
  name : grown.name = lexeme.name
  senses : lexeme.senses <+: grown.senses

theorem forall₂_growsInto_refl (lexemes : List Lexeme) :
    List.Forall₂ GrowsInto lexemes lexemes :=
  List.forall₂_same.mpr fun _ _ => ⟨rfl, List.prefix_rfl⟩

end Lexeme

namespace Lexicon

/-- The sense is inserted into `before`, which comes to `after`.  The flag says whether it was
added. -/
inductive Inserts (sense : Sense) : List Lexeme → List Lexeme → Bool → Prop where
  | refused {lexemes : List Lexeme} {lexeme : Lexeme} :
      lexeme ∈ lexemes → lexeme.name = sense.lexemeKey → lexeme.holds sense = true →
      Inserts sense lexemes lexemes false
  | appended {before behind : List Lexeme} {lexeme : Lexeme} :
      (∀ other ∈ before, other.name ≠ sense.lexemeKey) → lexeme.name = sense.lexemeKey →
      lexeme.holds sense = false →
      Inserts sense (before ++ lexeme :: behind)
        (before ++ { lexeme with senses := lexeme.senses ++ [sense] } :: behind) true
  | opened {lexemes : List Lexeme} :
      (∀ other ∈ lexemes, other.name ≠ sense.lexemeKey) →
      Inserts sense lexemes (lexemes ++ [{ name := sense.lexemeKey, senses := [sense] }]) true

/-- A lexeme of another name is passed over. -/
theorem Inserts.cons {sense : Sense} {before after : List Lexeme} {added : Bool} {lexeme : Lexeme}
    (other : lexeme.name ≠ sense.lexemeKey) (inserts : Inserts sense before after added) :
    Inserts sense (lexeme :: before) (lexeme :: after) added := by
  cases inserts with
  | refused member same present =>
      exact .refused (List.mem_cons_of_mem lexeme member) same present
  | @appended before behind found others same absent =>
      have passed : ∀ earlier ∈ lexeme :: before, earlier.name ≠ sense.lexemeKey :=
        List.forall_mem_cons.mpr ⟨other, others⟩
      exact @Inserts.appended sense (lexeme :: before) behind found passed same absent
  | opened others => exact .opened (List.forall_mem_cons.mpr ⟨other, others⟩)

theorem insert_inserts (lexicon : Lexicon) (sense : Sense) :
    Inserts sense lexicon.lexemes (lexicon.insert sense).lexemes (lexicon.isNew sense) := by
  unfold insert isNew lexeme?
  induction lexicon.lexemes with
  | nil => exact .opened (by simp)
  | cons lexeme lexemes induction =>
      by_cases own : lexeme.name = sense.lexemeKey
      · simp only [insertInto, own, if_true, List.find?_cons, beq_self_eq_true]
        cases present : lexeme.holds sense with
        | true =>
            simp only [Lexeme.add, present, if_true]
            exact .refused List.mem_cons_self own present
        | false =>
            simp only [Lexeme.add, present]
            exact @Inserts.appended sense [] lexemes lexeme (by simp) own present
      · have skipped : (lexeme.name == sense.lexemeKey) = false := by simpa using own
        simp only [insertInto, own, if_false, List.find?_cons, skipped]
        exact induction.cons own

/-- The entries of the senses of some lexemes, in order. -/
def entriesOf (lexemes : List Lexeme) : List (String × Sense.Form) :=
  (lexemes.flatMap (·.senses)).map Sense.entry

/-- Lexemes that sort their senses by entry. -/
structure Sorted (lexemes : List Lexeme) : Prop where
  names : (lexemes.map (·.name)).Nodup
  sound : ∀ lexeme ∈ lexemes, lexeme.Sound

theorem Sorted.entriesOf_nodup {lexemes : List Lexeme} (sorted : Sorted lexemes) :
    (entriesOf lexemes).Nodup := by
  rw [entriesOf, List.map_flatMap, List.nodup_flatMap]
  constructor
  · intro lexeme member
    have forms := (sorted.sound lexeme member).forms
    have projected : lexeme.senses.map Sense.form =
        (lexeme.senses.map Sense.entry).map Prod.snd := by
      rw [List.map_map]
      rfl
    rw [projected] at forms
    exact forms.of_map _
  · have apart := List.pairwise_map.mp sorted.names
    refine apart.imp_of_mem ?_
    -- A shared entry would name both lexemes.
    intro left right leftMember rightMember different shared leftShared rightShared
    obtain ⟨sense, senseMember, rfl⟩ := List.mem_map.mp leftShared
    obtain ⟨other, otherMember, same⟩ := List.mem_map.mp rightShared
    have leftOwned := (sorted.sound left leftMember).owned sense senseMember
    have rightOwned := (sorted.sound right rightMember).owned other otherMember
    have sameKey : other.lexemeKey = sense.lexemeKey := congrArg Prod.fst same
    exact different (by rw [← leftOwned, ← sameKey, rightOwned])

/-- Whatever is held stays in its place, and further senses and lexemes come behind it. -/
structure Keeps (before after : List Lexeme) : Prop where
  lexemes : ∃ grown opened, after = grown ++ opened ∧ List.Forall₂ Lexeme.GrowsInto before grown
  senses : (before.flatMap (·.senses)).Sublist (after.flatMap (·.senses))

theorem keeps_refl (lexemes : List Lexeme) : Keeps lexemes lexemes where
  lexemes := ⟨lexemes, [], (List.append_nil _).symm, Lexeme.forall₂_growsInto_refl lexemes⟩
  senses := List.Sublist.refl _

namespace Inserts

variable {sense : Sense} {before after : List Lexeme} {added : Bool}
  (inserts : Inserts sense before after added)

include inserts

theorem sorted (sorted : Sorted before) : Sorted after := by
  cases inserts with
  | refused => exact sorted
  | @appended before behind lexeme _ own absent =>
      have sound := List.forall_mem_append.mp sorted.sound
      have soundHere := List.forall_mem_cons.mp sound.2
      constructor
      · simpa using sorted.names
      · refine List.forall_mem_append.mpr ⟨sound.1, List.forall_mem_cons.mpr ⟨?_, soundHere.2⟩⟩
        exact Lexeme.sound_append soundHere.1 own absent
  | opened others =>
      constructor
      · rw [List.map_append, List.map_singleton, (List.perm_append_singleton _ _).nodup_iff]
        refine List.nodup_cons.mpr ⟨?_, sorted.names⟩
        simpa using others
      · refine List.forall_mem_append.mpr ⟨sorted.sound, ?_⟩
        simpa using Lexeme.sound_singleton sense

theorem senses_perm :
    (after.flatMap (·.senses)).Perm
      (before.flatMap (·.senses) ++ if added then [sense] else []) := by
  cases inserts with
  | refused => simp
  | @appended before behind lexeme _ _ _ =>
      simp only [List.flatMap_append, List.flatMap_cons, List.append_assoc, if_true]
      have moved : ([sense] ++ behind.flatMap (·.senses)).Perm
          (behind.flatMap (·.senses) ++ [sense]) := List.perm_append_comm
      exact (moved.append_left _).append_left _
  | opened => simp

theorem keeps : Keeps before after := by
  have same := Lexeme.forall₂_growsInto_refl
  cases inserts with
  | refused => exact keeps_refl before
  | @appended before behind lexeme _ _ _ =>
      constructor
      · refine ⟨_, [], (List.append_nil _).symm, ?_⟩
        exact List.rel_append (same before) (.cons ⟨rfl, List.prefix_append _ _⟩ (same behind))
      · simp
  | opened => exact ⟨⟨before, _, rfl, same before⟩, by simp⟩

omit inserts in
theorem eq_of_refused (inserts : Inserts sense before after false) : after = before := by
  cases inserts
  rfl

/-- A sense is added exactly if its entry is not taken. -/
theorem added_iff (sorted : Sorted before) : added = true ↔ sense.entry ∉ entriesOf before := by
  constructor
  · rintro rfl
    have nodup := (inserts.sorted sorted).entriesOf_nodup
    have perm := inserts.senses_perm.map Sense.entry
    rw [entriesOf, perm.nodup_iff, List.map_append] at nodup
    intro taken
    exact List.disjoint_of_nodup_append nodup taken (by simp)
  · intro free
    cases inserts with
    | @refused _ lexeme member own present =>
        obtain ⟨held, heldMember, sameForm⟩ := List.mem_map.mp (Lexeme.holds_iff.mp present)
        have sameKey : held.lexemeKey = sense.lexemeKey := by
          rw [(sorted.sound lexeme member).owned held heldMember, own]
        have sameEntry : held.entry = sense.entry := Prod.ext sameKey sameForm
        refine absurd ?_ free
        rw [← sameEntry]
        exact List.mem_map_of_mem (List.mem_flatMap.mpr ⟨lexeme, member, heldMember⟩)
    | appended => rfl
    | opened => rfl

theorem mem_entriesOf (sorted : Sorted before) {entry : String × Sense.Form} :
    entry ∈ entriesOf after ↔ entry ∈ entriesOf before ∨ entry = sense.entry := by
  have fresh := inserts.added_iff sorted
  have perm := inserts.senses_perm.map Sense.entry
  rw [entriesOf, perm.mem_iff, List.map_append, List.mem_append]
  cases added with
  | true => simp [entriesOf]
  | false =>
      have taken : sense.entry ∈ entriesOf before := by simpa using fresh
      constructor
      · rintro (earlier | impossible)
        · exact .inl earlier
        · simp at impossible
      · rintro (earlier | rfl)
        · exact .inl earlier
        · exact .inl taken

end Inserts

end Lexicon

end SensoryProse
