import SensoryProse.Phrase.Attach

/-!
# Laws of attaching

Attaching leaves everything of the receiver but its modifiers as it is, and changes these at most by
appending.  A list of modifiers is attached in full when its members are pairwise distinct, distinct
from the receiver and distinct from what the receiver carries already.
-/

namespace SensoryProse.Phrase

/-- Modifiers no two of which are equivalent. -/
def Distinct (modifiers : List Phrase) : Prop :=
  modifiers.Pairwise fun left right => left.equivalent right = false

/-- A tree at every phrase of which the modifiers are distinct. -/
def DistinctThroughout (phrase : Phrase) : Prop :=
  ∀ node ∈ phrase.nodes, Distinct node.modifiers

instance (modifiers : List Phrase) : Decidable (Distinct modifiers) :=
  inferInstanceAs (Decidable (List.Pairwise _ _))

instance (phrase : Phrase) : Decidable phrase.DistinctThroughout :=
  inferInstanceAs (Decidable (∀ node ∈ phrase.nodes, Distinct node.modifiers))

/-- Nothing but modifiers tells phrases apart that are the same without any. -/
theorem eq_of_bare {phrase other : Phrase} (same : phrase.bare = other.bare) :
    { phrase with modifiers := other.modifiers } = other := by
  cases phrase
  cases other
  simpa [bare] using same

/-- Attaching keeps everything of the receiver but its modifiers. -/
@[simp] theorem attach_bare (phrase modifier : Phrase) :
    (phrase.attach modifier).bare = phrase.bare := by
  unfold attach
  split <;> rfl

@[simp] theorem attach_key (phrase modifier : Phrase) :
    (phrase.attach modifier).key = phrase.key :=
  (congrArg key (attach_bare phrase modifier) :)

@[simp] theorem attach_context (phrase modifier : Phrase) :
    (phrase.attach modifier).context = phrase.context :=
  (congrArg context (attach_bare phrase modifier) :)

theorem attach_modifiers (phrase modifier : Phrase) :
    (phrase.attach modifier).modifiers =
      if modifier.equivalent phrase || phrase.modifiers.any (·.equivalent modifier) then
        phrase.modifiers
      else phrase.modifiers ++ [modifier] := by
  unfold attach
  split <;> rfl

theorem attach_modifiers_of_fresh {phrase modifier : Phrase}
    (different : modifier.equivalent phrase = false)
    (absent : ∀ present ∈ phrase.modifiers, present.equivalent modifier = false) :
    (phrase.attach modifier).modifiers = phrase.modifiers ++ [modifier] := by
  have noneEquivalent : phrase.modifiers.any (·.equivalent modifier) = false := by
    simpa using absent
  simp [attach_modifiers, different, noneEquivalent]

theorem attach_bare_modifiers (phrase modifier : Phrase) :
    (phrase.bare.attach modifier).modifiers =
      if modifier.equivalent phrase then [] else [modifier] := by
  simp [attach_modifiers, bare, equivalent, key]

@[simp] theorem attachAll_nil (phrase : Phrase) : phrase.attachAll [] = phrase := rfl

@[simp] theorem attachAll_cons (phrase modifier : Phrase) (modifiers : List Phrase) :
    phrase.attachAll (modifier :: modifiers) = (phrase.attach modifier).attachAll modifiers := rfl

@[simp] theorem attachAll_bare (phrase : Phrase) (modifiers : List Phrase) :
    (phrase.attachAll modifiers).bare = phrase.bare := by
  induction modifiers generalizing phrase with
  | nil => rfl
  | cons modifier modifiers induction => rw [attachAll_cons, induction, attach_bare]

@[simp] theorem attachAll_role (phrase : Phrase) (modifiers : List Phrase) :
    (phrase.attachAll modifiers).role = phrase.role :=
  (congrArg role (attachAll_bare phrase modifiers) :)

@[simp] theorem attachAll_key (phrase : Phrase) (modifiers : List Phrase) :
    (phrase.attachAll modifiers).key = phrase.key :=
  (congrArg key (attachAll_bare phrase modifiers) :)

/-- Distinct modifiers that are new to the receiver are all attached, in order. -/
theorem attachAll_modifiers_of_distinct {phrase : Phrase} {modifiers : List Phrase}
    (distinct : Distinct modifiers)
    (different : ∀ modifier ∈ modifiers, modifier.equivalent phrase = false)
    (absent : ∀ present ∈ phrase.modifiers, ∀ modifier ∈ modifiers,
      present.equivalent modifier = false) :
    (phrase.attachAll modifiers).modifiers = phrase.modifiers ++ modifiers := by
  induction modifiers generalizing phrase with
  | nil => simp
  | cons modifier modifiers induction =>
      obtain ⟨headDistinct, tailDistinct⟩ := List.pairwise_cons.mp distinct
      have appended : (phrase.attach modifier).modifiers = phrase.modifiers ++ [modifier] :=
        attach_modifiers_of_fresh (different modifier List.mem_cons_self)
          (fun present member => absent present member modifier List.mem_cons_self)
      have tailDifferent : ∀ other ∈ modifiers,
          other.equivalent (phrase.attach modifier) = false := by
        intro other member
        have fresh := different other (List.mem_cons_of_mem modifier member)
        simpa [equivalent] using fresh
      have tailAbsent : ∀ present ∈ (phrase.attach modifier).modifiers, ∀ other ∈ modifiers,
          present.equivalent other = false := by
        intro present presentMember other member
        rw [appended, List.mem_append, List.mem_singleton] at presentMember
        rcases presentMember with earlier | rfl
        · exact absent present earlier other (List.mem_cons_of_mem modifier member)
        · exact headDistinct other member
      rw [attachAll_cons, induction tailDistinct tailDifferent tailAbsent, appended]
      simp

end SensoryProse.Phrase
