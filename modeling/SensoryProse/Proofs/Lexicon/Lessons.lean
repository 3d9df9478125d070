import Mathlib.Data.List.Induction
import SensoryProse.Proofs.Lexicon.Entries

/-!
# What a lexicon is taught

A lexicon is taught by inserting senses and by learning phrases that it has no sense for.  Whatever
it is taught, it holds one sense for each entry that was inserted.  A phrase that was learned is
known, unless its form is held already for another language: then the phrase has no sense before and
none is inserted.
-/

namespace SensoryProse.Lexicon

/-- Something that a lexicon is taught by. -/
inductive Lesson where
  | insert (sense : Sense)
  /-- Makes sure that a sense is held. -/
  | verify (sense : Sense)
  | learn (phrase : Phrase)

namespace Lesson

def apply (lexicon : Lexicon) : Lesson → Lexicon
  | insert sense | verify sense => lexicon.insert sense
  | learn phrase => lexicon.learn phrase

/-- The sense that a lesson inserts.  Nothing is inserted for a phrase that has a sense. -/
def sense? (lexicon : Lexicon) : Lesson → Option Sense
  | insert sense | verify sense => some sense
  | learn phrase =>
      if phrase.text.isEmpty then none
      else if (lexicon.find? phrase.text phrase.wordClass phrase.context).isSome then none
      else some (.ofPhrase phrase)

theorem apply_eq (lexicon : Lexicon) (lesson : Lesson) :
    apply lexicon lesson = (lesson.sense? lexicon).elim lexicon lexicon.insert := by
  cases lesson with
  | insert sense => rfl
  | verify sense => rfl
  | learn phrase =>
      simp only [apply, Lexicon.learn, sense?]
      split
      · rfl
      · split <;> rfl

end Lesson

def taught (lexicon : Lexicon) (lessons : List Lesson) : Lexicon :=
  lessons.foldl Lesson.apply lexicon

/-- The senses that a sequence of lessons inserts, in order. -/
def inserted (lexicon : Lexicon) : List Lesson → List Sense
  | [] => []
  | lesson :: lessons =>
      (lesson.sense? lexicon).toList ++ inserted (Lesson.apply lexicon lesson) lessons

theorem taught_eq_foldl (lexicon : Lexicon) (lessons : List Lesson) :
    lexicon.taught lessons = (lexicon.inserted lessons).foldl insert lexicon := by
  induction lessons generalizing lexicon with
  | nil => rfl
  | cons lesson lessons induction =>
      rw [inserted, List.foldl_append, taught, List.foldl_cons, ← taught, induction,
        Lesson.apply_eq]
      cases lesson.sense? lexicon <;> rfl

/-- Whatever a lexicon of given senses is taught, it comes to a lexicon of those and of what the
lessons insert. -/
theorem taught_ofSenses (senses : List Sense) (seed : UInt64) (lessons : List Lesson) :
    (ofSenses senses seed).taught lessons =
      ofSenses (senses ++ (ofSenses senses seed).inserted lessons) seed := by
  rw [taught_eq_foldl, ofSenses, ofSenses, List.foldl_append]

/-- The entries of the senses held, in order. -/
def entries (lexicon : Lexicon) : List (String × Sense.Form) := entriesOf lexicon.lexemes

theorem ofSenses_concat (senses : List Sense) (last : Sense) (seed : UInt64) :
    ofSenses (senses ++ [last]) seed = (ofSenses senses seed).insert last := by
  simp [ofSenses]

theorem ofSenses_sorted (senses : List Sense) (seed : UInt64) :
    Sorted (ofSenses senses seed).lexemes := by
  induction senses using List.reverseRecOn with
  | nil => exact ⟨List.nodup_nil, by simp [ofSenses]⟩
  | append_singleton senses last induction =>
      rw [ofSenses_concat]
      exact (insert_inserts _ last).sorted induction

theorem mem_ofSenses_entries {senses : List Sense} {seed : UInt64} {entry : String × Sense.Form} :
    entry ∈ (ofSenses senses seed).entries ↔ entry ∈ senses.map Sense.entry := by
  induction senses using List.reverseRecOn with
  | nil => simp [ofSenses, entries, entriesOf]
  | append_singleton senses last induction =>
      rw [ofSenses_concat, entries,
        (insert_inserts _ last).mem_entriesOf (ofSenses_sorted senses seed), ← entries, induction]
      simp

/-- A lexicon holds as many senses as there are entries among those that were inserted. -/
theorem ofSenses_size (senses : List Sense) (seed : UInt64) :
    (ofSenses senses seed).size = (senses.map Sense.entry).dedup.length := by
  have sorted := ofSenses_sorted senses seed
  have perm : (ofSenses senses seed).entries.Perm (senses.map Sense.entry).dedup := by
    apply (List.perm_ext_iff_of_nodup sorted.entriesOf_nodup (List.nodup_dedup _)).mpr
    intro entry
    rw [List.mem_dedup]
    exact mem_ofSenses_entries
  rw [← perm.length_eq, entries, entriesOf, List.length_map]
  rfl

theorem insert_size (lexicon : Lexicon) (sense : Sense) :
    (lexicon.insert sense).size = lexicon.size + if lexicon.isNew sense then 1 else 0 := by
  have lengths := (lexicon.insert_inserts sense).senses_perm.length_eq
  rw [List.length_append] at lengths
  rw [size, size, senses, senses, lengths]
  split <;> rfl

theorem apply_keeps (lexicon : Lexicon) (lesson : Lesson) :
    Keeps lexicon.lexemes (lesson.apply lexicon).lexemes := by
  rw [Lesson.apply_eq]
  cases lesson.sense? lexicon with
  | none => exact keeps_refl lexicon.lexemes
  | some sense => exact (lexicon.insert_inserts sense).keeps

/-- What a lexicon is after it was taught: it holds one sense for each entry that was inserted, and
no lesson disturbs what is held. -/
structure HoldsEntriesOnce (senses : List Sense) (seed : UInt64) (lessons : List Lesson)
    (lexicon : Lexicon) : Prop where
  names : (lexicon.lexemes.map (·.name)).Nodup
  sound : ∀ lexeme ∈ lexicon.lexemes, lexeme.Sound
  keeps : ∀ lesson : Lesson, Keeps lexicon.lexemes (lesson.apply lexicon).lexemes
  grows : ∀ sense, (lexicon.insert sense).size = lexicon.size + if lexicon.isNew sense then 1 else 0
  size : lexicon.size =
    ((senses ++ (ofSenses senses seed).inserted lessons).map Sense.entry).dedup.length
  unordered : ∀ otherSenses otherSeed otherLessons,
    (senses ++ (ofSenses senses seed).inserted lessons).Perm
      (otherSenses ++ (ofSenses otherSenses otherSeed).inserted otherLessons) →
    lexicon.size = ((ofSenses otherSenses otherSeed).taught otherLessons).size

theorem taught_holds_entries_once (senses : List Sense) (seed : UInt64) (lessons : List Lesson) :
    HoldsEntriesOnce senses seed lessons ((ofSenses senses seed).taught lessons) := by
  rw [taught_ofSenses]
  have sorted := ofSenses_sorted (senses ++ (ofSenses senses seed).inserted lessons) seed
  refine ⟨sorted.names, sorted.sound, apply_keeps _, insert_size _, ofSenses_size _ _, ?_⟩
  intro otherSenses otherSeed otherLessons perm
  rw [taught_ofSenses, ofSenses_size, ofSenses_size]
  exact (perm.map Sense.entry).dedup.length_eq

def being (name : String) (tense : Option Tense) : Sense :=
  { name, wordClass := .verb, lexeme := "be", tense }

def mothIn (language : String) : Phrase where
  role := .subject
  wordClass := .noun
  text := "moth"
  context := .inLanguage language

/-- Neither a sense in capitals nor a moth of another language is held besides what is there, and
in another order as many senses are held. -/
theorem being_held_once :
    let taught := (ofSenses [being "is" none, being "was" none] 0).taught
      [.insert (being "IS" none), .verify (being "was" (some .past)), .learn (mothIn "elvish"),
        .learn (mothIn "english")]
    let other := (ofSenses [] 7).taught
      [.learn (mothIn "english"), .insert (being "was" (some .past)), .insert (being "IS" none),
        .insert (.ofPhrase (mothIn "elvish")), .verify (being "is" none),
        .verify (being "was" none)]
    taught.lexemes.map (fun lexeme => (lexeme.name, lexeme.senses.map (·.name))) =
        [("be", ["is", "was", "was"]), ("moth", ["moth"])] ∧
      taught.size = other.size := by
  have held := taught_holds_entries_once [being "is" none, being "was" none] 0
    [.insert (being "IS" none), .verify (being "was" (some .past)), .learn (mothIn "elvish"),
      .learn (mothIn "english")]
  refine ⟨by decide, held.unordered [] 7 _ ?_⟩
  decide

theorem find?_eq_none_iff {lexicon : Lexicon} {text : String} {wordClass : WordClass}
    {context : Context} :
    lexicon.find? text wordClass context = none ↔
      lexicon.senses.filter (fun sense => sense.spells text && languagesAgree sense context) =
        [] := by
  unfold find?
  split
  · rename_i unmatched
    simp [unmatched]
  · rename_i first others candidates
    rw [candidates]
    split <;> simp

theorem find?_isSome_iff {lexicon : Lexicon} {text : String} {wordClass : WordClass}
    {context : Context} :
    (lexicon.find? text wordClass context).isSome = true ↔
      ∃ sense ∈ lexicon.senses, sense.spells text = true ∧ languagesAgree sense context = true := by
  rw [Option.isSome_iff_ne_none, ne_eq, find?_eq_none_iff, List.filter_eq_nil_iff]
  simp only [Bool.and_eq_true, not_forall, not_not, exists_prop]

theorem languagesAgree_eq_false_iff {sense : Sense} {context : Context} :
    languagesAgree sense context = false ↔
      ∃ its ours, sense.language = some its ∧ context.language = some ours ∧ its ≠ ours := by
  unfold languagesAgree
  cases sense.language <;> cases context.language <;> simp

/-- Every sense that spells the phrase is one of another language. -/
def ForeignTo (lexicon : Lexicon) (phrase : Phrase) : Prop :=
  ∀ sense ∈ lexicon.senses, sense.spells phrase.text = true →
    ∃ its ours, sense.language = some its ∧ phrase.context.language = some ours ∧ its ≠ ours

theorem foreignTo_iff {lexicon : Lexicon} {phrase : Phrase} :
    lexicon.ForeignTo phrase ↔
      (lexicon.find? phrase.text phrase.wordClass phrase.context).isSome = false := by
  rw [Bool.eq_false_iff, ne_eq, find?_isSome_iff, ForeignTo]
  simp only [← languagesAgree_eq_false_iff, Bool.eq_false_iff, not_exists, not_and, ne_eq]

/-- The phrase is foreign to the lexicon, in which its own form is taken. -/
structure Shadows (lexicon : Lexicon) (phrase : Phrase) : Prop where
  foreign : lexicon.ForeignTo phrase
  taken : ∃ sense ∈ lexicon.senses,
    sense.lexemeKey = phrase.text ∧ sense.form = (Sense.ofPhrase phrase).form

section

variable {lexicon : Lexicon} {phrase : Phrase}

theorem insert_of_old {sense : Sense} (old : lexicon.isNew sense = false) :
    lexicon.insert sense = lexicon := by
  have inserts := lexicon.insert_inserts sense
  rw [old] at inserts
  have unchanged := inserts.eq_of_refused
  cases lexicon
  simpa [insert] using unchanged

theorem mem_insert_of_new {sense : Sense} (new : lexicon.isNew sense = true) :
    sense ∈ (lexicon.insert sense).senses := by
  have perm := (lexicon.insert_inserts sense).senses_perm
  rw [new, if_pos rfl] at perm
  exact perm.mem_iff.mpr (by simp)

theorem isNew_ofPhrase_iff (sorted : Sorted lexicon.lexemes) :
    lexicon.isNew (.ofPhrase phrase) = true ↔
      ¬∃ sense ∈ lexicon.senses,
        sense.lexemeKey = phrase.text ∧ sense.form = (Sense.ofPhrase phrase).form := by
  have key : (Sense.ofPhrase phrase).lexemeKey = phrase.text := rfl
  rw [(lexicon.insert_inserts _).added_iff sorted, entriesOf, List.mem_map]
  simp only [Sense.entry, Prod.mk.injEq, key]
  rfl

/-- A sense made of a phrase suits the phrase. -/
theorem ofPhrase_suits (phrase : Phrase) :
    (Sense.ofPhrase phrase).spells phrase.text = true ∧
      languagesAgree (.ofPhrase phrase) phrase.context = true := by
  constructor
  · simp [Sense.spells, Sense.ofPhrase, Text.sameUpToAsciiCase]
  · unfold languagesAgree Sense.ofPhrase
    cases phrase.context.language <;> simp

theorem find?_isSome_of_mem (held : Sense.ofPhrase phrase ∈ lexicon.senses) :
    (lexicon.find? phrase.text phrase.wordClass phrase.context).isSome = true :=
  find?_isSome_iff.mpr ⟨_, held, ofPhrase_suits phrase⟩

theorem find?_learn_isSome_iff (sorted : Sorted lexicon.lexemes)
    (written : phrase.text.isEmpty = false) :
    ((lexicon.learn phrase).find? phrase.text phrase.wordClass phrase.context).isSome = true ↔
      ¬lexicon.Shadows phrase := by
  have foreign : lexicon.ForeignTo phrase ↔ _ := foreignTo_iff
  have new : lexicon.isNew (.ofPhrase phrase) = true ↔ _ := isNew_ofPhrase_iff sorted
  unfold learn
  rw [written, if_neg Bool.false_ne_true]
  cases known : (lexicon.find? phrase.text phrase.wordClass phrase.context).isSome with
  | true =>
      refine iff_of_true known ?_
      intro shadows
      simp [known] at foreign
      exact foreign shadows.foreign
  | false =>
      rw [if_neg Bool.false_ne_true]
      cases added : lexicon.isNew (.ofPhrase phrase) with
      | true =>
          refine iff_of_true (find?_isSome_of_mem (mem_insert_of_new added)) ?_
          intro shadows
          exact new.mp added shadows.taken
      | false =>
          rw [insert_of_old added, known]
          refine iff_of_false Bool.false_ne_true (not_not_intro ⟨foreign.mpr known, ?_⟩)
          simpa [added] using new

end

/-- Whatever a lexicon was taught before, a phrase that it learns is known to it, unless the phrase
is foreign to the lexicon and its form is taken. -/
theorem learned_known_iff (senses : List Sense) (seed : UInt64) (lessons : List Lesson)
    {phrase : Phrase} (written : phrase.text.isEmpty = false) :
    let lexicon := (ofSenses senses seed).taught lessons
    ((lexicon.learn phrase).find? phrase.text phrase.wordClass phrase.context).isSome = true ↔
      ¬lexicon.Shadows phrase := by
  have sorted := ofSenses_sorted (senses ++ (ofSenses senses seed).inserted lessons) seed
  rw [← taught_ofSenses] at sorted
  exact find?_learn_isSome_iff sorted written

/-- A lexicon that has learned an elvish moth. -/
def elvishMoths : Lexicon := (ofSenses [] 0).taught [.learn (mothIn "elvish")]

/-- English moths in the plural are another form than the elvish moth. -/
def englishMoths : Phrase :=
  { mothIn "english" with context := { language := some "english", plural := true } }

/-- The one moth that cannot be learned has the form of the elvish moth. -/
theorem moths_learned :
    elvishMoths.Shadows (mothIn "english") ∧
      ((elvishMoths.learn (mothIn "english")).find? "moth" .noun
        (mothIn "english").context).isSome = false ∧
      englishMoths.text.isEmpty = false ∧
      ((elvishMoths.learn englishMoths).find? "moth" .noun englishMoths.context).isSome = true := by
  have shadows : elvishMoths.Shadows (mothIn "english") :=
    ⟨foreignTo_iff.mpr (by decide), by decide⟩
  have unshadowed : ¬elvishMoths.Shadows englishMoths := by
    intro shadowed
    exact absurd shadowed.taken (by decide)
  have written : englishMoths.text.isEmpty = false := by decide
  refine ⟨shadows, ?_, written, ?_⟩
  · rw [Bool.eq_false_iff]
    intro known
    exact (learned_known_iff [] 0 [.learn (mothIn "elvish")] rfl).mp known shadows
  · exact (learned_known_iff [] 0 [.learn (mothIn "elvish")] written).mpr unshadowed

/-- Learning an English moth after an elvish one leaves it unknown. -/
theorem english_moth_unknown :
    (mothIn "english").text.isEmpty = false ∧
      (elvishMoths.learn (mothIn "english")).find? (mothIn "english").text
        (mothIn "english").wordClass (mothIn "english").context = none := by
  decide

end SensoryProse.Lexicon
