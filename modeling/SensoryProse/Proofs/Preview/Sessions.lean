import Mathlib.Data.List.Nodup
import SensoryProse.Preview.Run

/-!
# What the lines of a session do

A session is consistent: its entities have names of their own, are numbered in the order in which
they came, and have descriptions, whose strengths lie on the scale.  Every line keeps it so.  A line
that is answered with a refusal changes nothing.  One that describes an entity is accepted just if
its arguments ask for a description, and it adds that description to the entity of that name and
does nothing else.
-/

namespace SensoryProse

theorem Text.not_blank_of_mem_wordsFrom {started chars word : List Char}
    (letters : ∀ c ∈ started, isBlank c = false) (member : word ∈ wordsFrom started chars) :
    ∀ c ∈ word, isBlank c = false := by
  induction chars generalizing started with
  | nil =>
      unfold wordsFrom at member
      split at member
      · cases member
      · obtain rfl := List.mem_singleton.mp member
        simpa using letters
  | cons first rest induction =>
      unfold wordsFrom at member
      split at member
      · split at member
        · exact induction (by simp) member
        · rcases List.mem_cons.mp member with rfl | later
          · simpa using letters
          · exact induction (by simp) later
      · rename_i letter
        refine induction ?_ member
        exact List.forall_mem_cons.mpr ⟨by simpa using letter, letters⟩

theorem Text.not_blank_of_mem_words {text word : String} (member : word ∈ words text) :
    ∀ c ∈ word.toList, isBlank c = false := by
  obtain ⟨chars, found, rfl⟩ := List.mem_map.mp member
  rw [String.toList_ofList]
  exact not_blank_of_mem_wordsFrom (by simp) found

namespace Preview

/-- The reply is one that a line is refused with. -/
def Reply.Refuses (reply : Reply) : Prop := ∃ refusal : Refusal, reply.lines = refusal.lines

namespace Session

variable {Words : Type} [Vocabulary Words]

/-- The session after the given lines, of which none behind one that closes it is read. -/
def after (narrator : Narrator Words) (session : Session) : List String → Session
  | [] => session
  | line :: lines =>
      let reply := session.respond narrator line
      if reply.closes then reply.session else reply.session.after narrator lines

def OnScale (description : Description) : Prop :=
  -100 ≤ description.event.strength ∧ description.event.strength ≤ 100

structure Consistent (entities : List Entity) : Prop where
  named : (entities.map (·.name)).Nodup
  numbered : entities.map (·.id) = List.range' 1 entities.length
  described : ∀ entity ∈ entities, entity.descriptions ≠ []
  scaled : ∀ entity ∈ entities, ∀ description ∈ entity.descriptions, OnScale description

/-- One description more, and this for the entity of the given name.  If there is none, one is added
behind the others. -/
inductive Describes (name : String) (description : Description) :
    List Entity → List Entity → Prop where
  | known {front back : List Entity} {entity : Entity} :
      entity.name = name →
      Describes name description (front ++ entity :: back)
        (front ++ { entity with descriptions := entity.descriptions ++ [description] } :: back)
  | new {entities : List Entity} :
      (∀ entity ∈ entities, entity.name ≠ name) →
      Describes name description entities
        (entities ++ [{ id := entities.length + 1, name, descriptions := [description] }])

theorem describeIn_describes (name : String) (description : Description) (entities : List Entity) :
    Describes name description entities
      (describeIn name description entities.length entities) := by
  suffices general : ∀ front, (∀ entity ∈ front, entity.name ≠ name) →
      Describes name description (front ++ entities)
        (front ++ describeIn name description (front ++ entities).length entities) by
    simpa using general [] (by simp)
  induction entities with
  | nil =>
      intro front others
      simpa [describeIn] using Describes.new others
  | cons entity entities induction =>
      intro front others
      unfold describeIn
      split
      · rename_i same
        exact .known same
      · rename_i different
        have all : ∀ other ∈ front ++ [entity], other.name ≠ name := by
          simpa [or_imp, forall_and] using ⟨others, different⟩
        simpa using induction (front ++ [entity]) all

/-- What is kept of an entity when its name turns proper. -/
def record (entity : Entity) : Nat × String × List Description :=
  (entity.id, entity.name, entity.descriptions)

theorem toggleProperIn_records (name : String) (entities : List Entity) :
    (toggleProperIn name entities).map record = entities.map record := by
  induction entities with
  | nil => rfl
  | cons entity entities induction =>
      unfold toggleProperIn
      split
      · rfl
      · rw [List.map_cons, induction, List.map_cons]

theorem onScale_of (phrase : Phrase) (strength : Int) (channel : Channel) (modifier : Int) :
    OnScale { event := .of phrase strength channel, modifier } := by
  simp only [OnScale, Event.of, Event.clampStrength, Event.weakest, Event.strongest]
  omega

/-- What a line can do to the entities. -/
inductive Effect (entities : List Entity) : List Entity → Prop where
  | none : Effect entities entities
  | described {changed : List Entity} {name : String} {description : Description} :
      OnScale description → Describes name description entities changed → Effect entities changed
  | toggled {changed : List Entity} :
      changed.map record = entities.map record → Effect entities changed

theorem respond_effect (narrator : Narrator Words) (session : Session) (line : String) :
    Effect session.entities (session.respond narrator line).session.entities := by
  unfold respond
  split
  · exact .none
  · exact .none
  · rename_i command _
    cases command with
    | quit | help | look | band | light | modifier | tense | language | anonymize => exact .none
    | entity name channel strength detail =>
        exact .described (onScale_of _ strength channel session.modifier)
          (describeIn_describes name _ session.entities)
    | proper name =>
        simp only [perform]
        split
        · exact .none
        · exact .toggled (toggleProperIn_records name session.entities)

section

variable {entities changed : List Entity} (consistent : Consistent entities)

include consistent

theorem Consistent.congr (same : changed.map record = entities.map record) :
    Consistent changed := by
  have view {α : Type} (part : Nat × String × List Description → α) :
      changed.map (part ∘ record) = entities.map (part ∘ record) := by
    rw [← List.map_map, same, List.map_map]
  have all (holds : List Description → Prop) :
      (∀ entity ∈ changed, holds entity.descriptions) ↔
        ∀ entity ∈ entities, holds entity.descriptions := by
    have descriptions : changed.map (·.descriptions) = entities.map (·.descriptions) :=
      view fun kept => kept.2.2
    rw [← List.forall_mem_map, descriptions, List.forall_mem_map]
  have size : changed.length = entities.length := by simpa using congrArg List.length same
  exact {
    named := (view fun kept => kept.2.1) ▸ consistent.named
    numbered := by
      rw [size, ← consistent.numbered]
      exact view fun kept => kept.1
    described := (all (· ≠ [])).mpr consistent.described
    scaled := (all fun descriptions => ∀ description ∈ descriptions, OnScale description).mpr
      consistent.scaled }

theorem Consistent.of_describes {name : String} {description : Description}
    (scaled : OnScale description) (describes : Describes name description entities changed) :
    Consistent changed := by
  obtain ⟨named, numbered, described, allScaled⟩ := consistent
  cases describes with
  | @known front back entity same =>
      obtain ⟨frontDescribed, restDescribed⟩ := List.forall_mem_append.mp described
      obtain ⟨frontScaled, restScaled⟩ := List.forall_mem_append.mp allScaled
      obtain ⟨entityScaled, backScaled⟩ := List.forall_mem_cons.mp restScaled
      constructor
      · simpa using named
      · simpa using numbered
      · refine List.forall_mem_append.mpr ⟨frontDescribed, List.forall_mem_cons.mpr ⟨?_, ?_⟩⟩
        · simp
        · exact (List.forall_mem_cons.mp restDescribed).2
      · refine List.forall_mem_append.mpr ⟨frontScaled, List.forall_mem_cons.mpr ⟨?_, backScaled⟩⟩
        exact List.forall_mem_append.mpr ⟨entityScaled, by simpa using scaled⟩
  | new others =>
      constructor
      · simpa [List.nodup_append', named] using others
      · simp [numbered, List.range'_concat, Nat.add_comm]
      · exact List.forall_mem_append.mpr ⟨described, by simp⟩
      · exact List.forall_mem_append.mpr ⟨allScaled, by simpa using scaled⟩

end

theorem Effect.consistent {entities changed : List Entity} (effect : Effect entities changed)
    (consistent : Consistent entities) : Consistent changed := by
  cases effect with
  | none => exact consistent
  | described scaled describes => exact consistent.of_describes scaled describes
  | toggled same => exact consistent.congr same

/-- The number and the name of an entity. -/
def label (entity : Entity) : Nat × String := (entity.id, entity.name)

/-- Entities keep their places, their numbers and their names, and new ones come behind them. -/
theorem Effect.labels {entities changed : List Entity} (effect : Effect entities changed) :
    entities.map label <+: changed.map label := by
  cases effect with
  | none => exact List.prefix_rfl
  | described _ describes =>
      cases describes with
      | known => simp [label]
      | new => simp
  | toggled same =>
      have labels := congrArg (List.map fun kept => (kept.1, kept.2.1)) same
      rw [List.map_map, List.map_map] at labels
      exact (show changed.map label = entities.map label from labels) ▸ List.prefix_rfl

theorem after_consistent (narrator : Narrator Words) {session : Session}
    (consistent : Consistent session.entities) (lines : List String) :
    Consistent (session.after narrator lines).entities := by
  induction lines generalizing session with
  | nil => exact consistent
  | cons line lines induction =>
      have replied := (respond_effect narrator session line).consistent consistent
      simp only [after]
      split
      · exact replied
      · exact induction replied

end Session

/-- What stands behind the first word of a line, as far as it tells refusals from other replies. -/
def mark (line : String) : List Char := (line.toList.dropWhile (· != ' ')).take 9

theorem mark_append {front back : String}
    (enough : 9 ≤ (front.toList.dropWhile (· != ' ')).length) :
    mark (front ++ back) = mark front := by
  have inhabited : (front.toList.dropWhile (· != ' ')).isEmpty = false := by
    rw [List.isEmpty_eq_false_iff_exists_mem, ← List.length_pos_iff_exists_mem]
    omega
  rw [mark, mark, String.toList_append, List.dropWhile_append, inhabited, if_neg Bool.false_ne_true,
    List.take_append_of_le_length enough]

theorem mark_word_append {word line : String} (plain : ∀ c ∈ word.toList, Text.isBlank c = false) :
    mark (word ++ line) = mark line := by
  have noSpace : ∀ c ∈ word.toList, (c != ' ') = true := by
    intro c member
    have letter := plain c member
    simp only [bne_iff_ne, ne_eq]
    rintro rfl
    exact absurd letter (by decide)
  rw [mark, mark, String.toList_append, List.dropWhile_append_of_pos noSpace]

/-- The letters that refusals begin with. -/
def refusalLetters : List Char := ['U', 'N', 'S', 'B']

/-- A line begins as only lines of refusals do. -/
def Rebukes (line : String) : Prop :=
  line.toList.head? ∈ refusalLetters.map some ∧ mark line ≠ mark " proper name: "

instance (line : String) : Decidable (Rebukes line) := inferInstanceAs (Decidable (_ ∧ _))

theorem Rebukes.append {front : String} (rebukes : Rebukes front)
    (enough : 9 ≤ (front.toList.dropWhile (· != ' ')).length) (back : String) :
    Rebukes (front ++ back) := by
  refine ⟨?_, by rw [mark_append enough]; exact rebukes.2⟩
  obtain ⟨first, rest, begins⟩ : ∃ first rest, front.toList = first :: rest := by
    apply List.exists_cons_of_ne_nil
    intro empty
    simp [empty] at enough
  rw [String.toList_append, begins]
  rw [Rebukes, begins] at rebukes
  exact rebukes.1

theorem not_rebukes_append {front : String}
    (begins : front.toList.head?.any (· ∉ refusalLetters) = true)
    (back : String) : ¬Rebukes (front ++ back) := by
  intro rebukes
  cases chars : front.toList with
  | nil => simp [chars] at begins
  | cons first rest =>
      rw [Rebukes, String.toList_append, chars] at rebukes
      simp_all

theorem Refusal.rebukes (refusal : Refusal) : ∃ first ∈ refusal.lines.head?, Rebukes first := by
  cases refusal with
  | misused command => cases command <;> exact ⟨_, rfl, by decide⟩
  | unknownCommand word =>
      refine ⟨_, rfl, ?_⟩
      rw [String.append_assoc]
      exact Rebukes.append (by decide) (by decide) _
  | unknownChannel word => exact ⟨_, rfl, Rebukes.append (by decide) (by decide) word⟩
  | unknownEntity name => exact ⟨_, rfl, Rebukes.append (by decide) (by decide) name⟩
  | badStrength word => exact ⟨_, rfl, Rebukes.append (by decide) (by decide) word⟩
  | badBounds => exact ⟨_, rfl, by decide⟩

theorem Reply.Refuses.rebukes {reply : Reply} (refuses : reply.Refuses) {first : String}
    (begins : reply.lines.head? = some first) : Rebukes first := by
  obtain ⟨refusal, same⟩ := refuses
  obtain ⟨its, itsFirst, rebukes⟩ := refusal.rebukes
  rw [← same, begins] at itsFirst
  obtain rfl := Option.some.inj itsFirst
  exact rebukes

theorem Command.read?_eq_some {line : String} {command : Command}
    (read : Command.read? line = some (.ok command)) :
    ∃ word arguments, Text.words line = word :: arguments ∧
      Command.readArguments (Text.lower word) arguments = .ok command := by
  unfold read? at read
  split at read
  · cases read
  · rename_i word arguments words
    exact ⟨word, arguments, words, Option.some.inj read⟩

namespace Command

theorem read?_of_entity {line command : String} {arguments : List String}
    (words : Text.words line = command :: arguments) (isEntity : Text.lower command = "entity") :
    read? line = some (readEntity arguments) := by
  simp [read?, words, isEntity, readArguments]

theorem readEntity_eq_ok {arguments : List String} {command : Command}
    (read : readEntity arguments = .ok command) :
    ∃ name channelWord strengthWord words channel strength,
      arguments = name :: channelWord :: strengthWord :: words ∧ words ≠ [] ∧
        channel? channelWord = some channel ∧ small? strengthWord = some strength ∧
        command = .entity name channel strength (" ".intercalate words) := by
  unfold readEntity at read
  split at read
  · rename_i name channelWord strengthWord word words
    split at read
    · cases read
    · rename_i channel knownChannel
      split at read
      · cases read
      · rename_i strength knownStrength
        cases read
        exact ⟨name, channelWord, strengthWord, word :: words, channel, strength, rfl,
          List.cons_ne_nil word words, knownChannel, knownStrength, rfl⟩
  · cases read

theorem readBand_eq_ok {arguments : List String} {command : Command}
    (read : readBand arguments = .ok command) :
    ∃ channel low high, command = .band channel low high := by
  unfold readBand at read
  split at read
  · split at read
    · cases read
    · split at read
      · cases read
        exact ⟨_, _, _, rfl⟩
      · cases read
  · cases read

theorem map_orUsage_eq_ok {α : Type} {usage : Usage} {argument : Option α} {make : α → Command}
    {command : Command} (read : (orUsage usage argument).map make = .ok command) :
    ∃ value, argument = some value ∧ command = make value := by
  cases argument with
  | none => cases read
  | some value =>
      cases read
      exact ⟨value, rfl, rfl⟩

theorem proper_mem_words {line name : String}
    (read : read? line = some (.ok (.proper name))) : name ∈ Text.words line := by
  obtain ⟨word, arguments, words, its⟩ := read?_eq_some read
  rw [words]
  unfold readArguments at its
  split at its
  case h_8 =>
      obtain ⟨value, first, same⟩ := map_orUsage_eq_ok its
      cases same
      exact List.mem_cons_of_mem _ (List.mem_of_head? first)
  case h_7 =>
      obtain ⟨_, _, _, _, _, _, _, _, _, _, other⟩ := readEntity_eq_ok its
      cases other
  case h_9 =>
      obtain ⟨_, _, _, other⟩ := readBand_eq_ok its
      cases other
  case h_10 | h_11 | h_12 | h_13 =>
      obtain ⟨_, _, other⟩ := map_orUsage_eq_ok its
      cases other
  all_goals cases its

end Command

namespace Session

variable {Words : Type} [Vocabulary Words] {narrator : Narrator Words} {session : Session}
  {line : String}

/-- No line that is refused changes anything. -/
theorem session_of_refuses (refuses : (session.respond narrator line).Refuses) :
    (session.respond narrator line).session = session := by
  unfold respond at refuses ⊢
  split at refuses
  · rfl
  · rfl
  · rename_i command read
    -- A reply is innocent if it begins with a word that no refusal begins with.
    have innocent (front back : String)
        (line : (session.perform narrator command).lines.head? = some (front ++ back))
        (begins : front.toList.head?.any (· ∉ refusalLetters) = true) :
        (session.perform narrator command).session = session :=
      absurd (refuses.rebukes line) (not_rebukes_append begins back)
    cases command with
    | quit | help | look => rfl
    | entity name channel strength detail =>
        exact innocent "Described " (name ++ " on " ++ channel.tag)
          (by simp [perform, String.append_assoc]) (by decide)
    | proper name =>
        have plain := Text.not_blank_of_mem_words (Command.proper_mem_words read)
        simp only [perform] at refuses ⊢
        split at refuses
        · rfl
        · have rebukes := refuses.rebukes rfl
          refine absurd ?_ rebukes.2
          rw [String.append_assoc, mark_word_append plain, mark_append (by decide)]
    | band channel low high =>
        exact innocent "Viewer "
          (channel.tag ++ " band: " ++ toString low ++ ".." ++ toString high)
          (by simp [perform, String.append_assoc]) (by decide)
    | light luminosity =>
        exact innocent "Luminosity: " (Decimal.floatText luminosity) rfl (by decide)
    | modifier amount =>
        exact innocent "Modifier for new descriptives: " (toString amount) rfl (by decide)
    | tense tense => exact innocent "Tense: " (Named.name tense) rfl (by decide)
    | language name =>
        cases loaded : (narrator.languages.find? name).isSome with
        | true =>
            exact innocent "Language: " name (by simp [perform, loaded]) (by decide)
        | false =>
            exact innocent "'" (name ++ "' is not loaded; rendering will fall back")
              (by simp [perform, loaded, String.append_assoc]) (by decide)
    | anonymize => exact innocent "Anonymize: " (flagText (!session.anonymize)) rfl (by decide)

/-- The description that the arguments of a line ask for, and the name of what is described.  It is
an adjective made of the words behind the first three, of which the second names the channel and the
third is the strength. -/
inductive Asks (modifier : Int) : List String → String → Description → Prop where
  | adjective {name channelWord strengthWord : String} {detail : List String} {channel : Channel}
      {strength : Int} :
      detail ≠ [] → channel? channelWord = some channel → small? strengthWord = some strength →
      Asks modifier (name :: channelWord :: strengthWord :: detail) name
        { event :=
            .of { role := .descriptive, wordClass := .adjective, text := " ".intercalate detail }
              strength channel
          modifier }

/-- What is added by a line that describes an entity, given the arguments of the line. -/
structure Adds (session changed : Session) (arguments : List String) (name : String)
    (description : Description) : Prop where
  asked : Asks session.modifier arguments name description
  scaled : OnScale description
  describes : Describes name description session.entities changed.entities
  others : changed = { session with entities := changed.entities }

theorem adds_of_entity {command : String} {arguments : List String}
    (words : Text.words line = command :: arguments) (isEntity : Text.lower command = "entity")
    (accepted : ¬(session.respond narrator line).Refuses) :
    ∃ name description,
      Adds session (session.respond narrator line).session arguments name description := by
  have read := Command.read?_of_entity words isEntity
  cases command : Command.readEntity arguments with
  | error refusal =>
      refine absurd ⟨refusal, ?_⟩ accepted
      simp [respond, read, command]
  | ok command =>
      obtain ⟨name, channelWord, strengthWord, detail, channel, strength, rfl, inhabited,
        knownChannel, knownStrength, rfl⟩ := Command.readEntity_eq_ok command
      simp only [respond, read, command]
      exact ⟨name, _, .adjective inhabited knownChannel knownStrength,
        onScale_of _ strength channel session.modifier,
        describeIn_describes name _ session.entities, rfl⟩

theorem Asks.unique {modifier : Int} {arguments : List String} {name other : String}
    {description otherDescription : Description} (asks : Asks modifier arguments name description)
    (otherAsks : Asks modifier arguments other otherDescription) :
    other = name ∧ otherDescription = description := by
  cases asks with
  | adjective _ knownChannel knownStrength =>
      cases otherAsks with
      | adjective _ otherChannel otherStrength =>
          obtain rfl := Option.some.inj (knownChannel.symm.trans otherChannel)
          obtain rfl := Option.some.inj (knownStrength.symm.trans otherStrength)
          exact ⟨rfl, rfl⟩

/-- A line that asks for a description is answered with what no refusal begins with. -/
theorem Asks.accepted {modifier : Int} {command name : String} {arguments : List String}
    {description : Description} (asks : Asks modifier arguments name description)
    (words : Text.words line = command :: arguments) (isEntity : Text.lower command = "entity") :
    ¬(session.respond narrator line).Refuses := by
  cases asks with
  | @adjective _ channelWord strengthWord detail channel strength inhabited knownChannel
      knownStrength =>
      obtain ⟨first, rest, rfl⟩ := List.exists_cons_of_ne_nil inhabited
      have read : Command.read? line =
          some (.ok (.entity name channel strength (" ".intercalate (first :: rest)))) := by
        rw [Command.read?_of_entity words isEntity]
        simp [Command.readEntity, knownChannel, knownStrength]
      have answer : (session.respond narrator line).lines.head? =
          some ("Described " ++ (name ++ " on " ++ channel.tag)) := by
        simp [respond, read, perform, String.append_assoc]
      intro refuses
      exact not_rebukes_append (by decide) _ (refuses.rebukes answer)

theorem accepted_iff {command : String} {arguments : List String}
    (words : Text.words line = command :: arguments) (isEntity : Text.lower command = "entity") :
    ¬(session.respond narrator line).Refuses ↔
      ∃ name description, Asks session.modifier arguments name description := by
  constructor
  · intro accepted
    obtain ⟨name, description, adds⟩ := adds_of_entity words isEntity accepted
    exact ⟨name, description, adds.asked⟩
  · rintro ⟨name, description, asks⟩
    exact asks.accepted words isEntity

theorem session_of_idle {command : String} {arguments : List String}
    (words : Text.words line = command :: arguments)
    (idle : Text.lower command ∈ ["look", "help", "h", "?"]) :
    (session.respond narrator line).session = session := by
  have read : Command.read? line = some (.ok .look) ∨ Command.read? line = some (.ok .help) := by
    simp only [List.mem_cons, List.not_mem_nil, or_false] at idle
    rcases idle with its | its | its | its <;>
      simp [Command.read?, words, its, Command.readArguments]
  rcases read with read | read <;> simp only [respond, read, perform]

/-- Either a line closes the session and what stands behind it is not read, or what is printed on is
what the session after the lines prints. -/
theorem transcript_append (narrator : Narrator Words) (session : Session) (lines : List String) :
    (∀ more, transcript narrator session (lines ++ more) = transcript narrator session lines) ∨
      ∃ printed, ∀ more, transcript narrator session (lines ++ more) =
        printed ++ transcript narrator (session.after narrator lines) more := by
  induction lines generalizing session with
  | nil => exact .inr ⟨"", fun more => by simp [after]⟩
  | cons line lines induction =>
      cases closes : (session.respond narrator line).closes with
      | true =>
          left
          simp [transcript, closes]
      | false =>
          simp only [List.cons_append, transcript, after, closes, Bool.false_eq_true, if_false]
          refine (induction (session.respond narrator line).session).imp ?_ ?_
          · intro unread more
            rw [unread]
          · rintro ⟨printed, printsOn⟩
            refine ⟨prompt ++ Outcome.joinLines (session.respond narrator line).lines ++ printed,
              fun more => ?_⟩
            simp [printsOn, String.append_assoc]

/-- What a line does to a session. -/
structure Heeds (narrator : Narrator Words) (session : Session) (line : String) : Prop where
  labels : session.entities.map label <+:
    (session.respond narrator line).session.entities.map label
  refused : (session.respond narrator line).Refuses →
    (session.respond narrator line).session = session
  idle : ∀ command arguments, Text.words line = command :: arguments →
    Text.lower command ∈ ["look", "help", "h", "?"] →
    (session.respond narrator line).session = session
  accepted_iff : ∀ command arguments, Text.words line = command :: arguments →
    Text.lower command = "entity" →
    (¬(session.respond narrator line).Refuses ↔
      ∃ name description, Asks session.modifier arguments name description)
  described : ∀ command arguments, Text.words line = command :: arguments →
    Text.lower command = "entity" → ¬(session.respond narrator line).Refuses →
    ∃ name description,
      Adds session (session.respond narrator line).session arguments name description

/-- Whatever lines it has read, a session is consistent, and it is the session that goes on with the
lines that follow. -/
theorem consistent_after_lines (narrator : Narrator Words) (lines : List String) :
    let session := (start narrator).after narrator lines
    Consistent session.entities ∧ (∀ line, Heeds narrator session line) ∧
      ((∀ more, transcript narrator (start narrator) (lines ++ more) =
          transcript narrator (start narrator) lines) ∨
        ∃ printed, ∀ more, transcript narrator (start narrator) (lines ++ more) =
          printed ++ transcript narrator session more) := by
  intro session
  have fresh : Consistent (start narrator).entities := by constructor <;> simp [start]
  refine ⟨after_consistent narrator fresh lines, ?_, transcript_append narrator _ lines⟩
  intro line
  exact {
    labels := (respond_effect narrator session line).labels
    refused := session_of_refuses
    idle := fun _ _ => session_of_idle
    accepted_iff := fun _ _ => Session.accepted_iff
    described := fun _ _ => adds_of_entity }

/-- A narrator that knows no language and no words. -/
def speechless : Narrator where
  lexicon := {}

/-- A description of the lamp of the given strength, made while descriptions are offset by five. -/
def brightRed (strength : Int) : Description where
  event :=
    { phrase := { role := .descriptive, wordClass := .adjective, text := "bright red" }
      strength
      channel := .visible }
  modifier := 5

/-- A line that describes a lamp is accepted, and one on a channel that there is not is refused. -/
theorem lamp_described :
    let session := (start speechless).after speechless ["modifier 5"]
    let accepted := session.respond speechless "Entity Lamp VISIBLE 500 bright red"
    let refused := session.respond speechless "entity Lamp odd 500 bright red"
    ¬accepted.Refuses ∧
      Adds session accepted.session ["Lamp", "VISIBLE", "500", "bright", "red"] "Lamp"
        (brightRed 100) ∧
      refused.Refuses ∧ refused.session = session := by
  intro session accepted refused
  have words : Text.words "Entity Lamp VISIBLE 500 bright red" =
      ["Entity", "Lamp", "VISIBLE", "500", "bright", "red"] := by
    decide +kernel
  have isEntity : Text.lower "Entity" = "entity" := by decide +kernel
  have visible : channel? "VISIBLE" = some .visible := by decide +kernel
  have strength : small? "500" = some 500 := by decide +kernel
  have asks : Asks session.modifier ["Lamp", "VISIBLE", "500", "bright", "red"] "Lamp"
      (brightRed 100) := .adjective (by decide) visible strength
  have refuses : refused.Refuses := ⟨.unknownChannel "odd", rfl⟩
  obtain ⟨_, heeds, _⟩ := consistent_after_lines speechless ["modifier 5"]
  have heedsEntity := heeds "Entity Lamp VISIBLE 500 bright red"
  have accepts := (heedsEntity.accepted_iff _ _ words isEntity).mpr ⟨_, _, asks⟩
  obtain ⟨name, description, adds⟩ := heedsEntity.described _ _ words isEntity accepts
  obtain ⟨rfl, rfl⟩ := asks.unique adds.asked
  exact ⟨accepts, adds, refuses, (heeds "entity Lamp odd 500 bright red").refused refuses⟩

/-- A strength is brought into the scale, a refused line adds nothing, and behind the line that
closes the session none is read. -/
example (narrator : Narrator Words) :
    ((start narrator).after narrator ["entity Lamp visible 500 bright", "entity Lamp odd 1 dim",
        "ENTITY moth audible +7 humming", "q", "entity wing visible 0 torn"]).entities.map
      (fun entity => (label entity, entity.descriptions.map (·.event.strength))) =
        [((1, "Lamp"), [100]), ((2, "moth"), [7])] := by
  rfl

end Session

end Preview

end SensoryProse
