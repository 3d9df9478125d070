import Mathlib.Data.List.Dedup
import Mathlib.Data.List.Induction
import SensoryProse.Language.Collection

/-!
# What a collection holds

A collection holds under a name the packs that were registered by it, merged in the order in which
they came.  So which phrases are served by a pack of their own, and which are left to the base
language, can be told from the packs alone.
-/

namespace SensoryProse

theorem Language.append_hasRules (language other : Language) :
    (language.append other).hasRules = (language.hasRules || other.hasRules) := by
  cases rules : language.rules <;> simp [append, hasRules, rules]

theorem Language.foldl_append (first : Language) (others : List Language) :
    others.foldl .append first =
      { first with
        rules := first.rules ++ others.flatMap (·.rules)
        contractions := first.contractions ++ others.flatMap (·.contractions) } := by
  induction others generalizing first with
  | nil => simp
  | cons second others induction => simp [induction, append]

namespace Languages

/-- One language made of several packs.  It has the name of the first. -/
def merged? : List Language → Option Language
  | [] => none
  | first :: others => some (others.foldl .append first)

theorem merged?_concat (packs : List Language) (pack : Language) :
    merged? (packs ++ [pack]) = some ((merged? packs).elim pack (·.append pack)) := by
  cases packs with
  | nil => rfl
  | cons first others => simp [merged?]

theorem merged?_any_hasRules (packs : List Language) :
    (merged? packs).any (·.hasRules) = packs.any (·.hasRules) := by
  induction packs using List.reverseRecOn with
  | nil => rfl
  | append_singleton packs pack induction =>
      rw [merged?_concat, List.any_append, ← induction]
      cases merged? packs with
      | none => simp
      | some language => simp [Language.append_hasRules]

theorem find?_addTo (language : Language) (list : List Language) (name : String) :
    (addTo language list).find? (·.name == name) =
      if language.name = name then
        some ((list.find? (·.name == name)).elim language (·.append language))
      else list.find? (·.name == name) := by
  induction list with
  | nil => by_cases wanted : language.name = name <;> simp [addTo, wanted]
  | cons first others induction =>
      by_cases merges : first.name = language.name
      · have kept : (first.append language).name = first.name := rfl
        by_cases wanted : language.name = name <;> simp [addTo, merges, wanted, kept]
      · by_cases found : first.name = name
        · have other : language.name ≠ name := fun same => merges (found.trans same.symm)
          rw [addTo, if_neg merges, if_neg other]
          simp [found]
        · simp [addTo, merges, found, induction]

theorem find?_add (languages : Languages) (language : Language) (name : String) :
    (languages.add language).find? name =
      if language.name = name then
        some ((languages.find? name).elim language (·.append language))
      else languages.find? name :=
  find?_addTo language languages.toList name

theorem ofList_concat (packs : List Language) (pack : Language) :
    ofList (packs ++ [pack]) = (ofList packs).add pack := by
  simp [ofList]

theorem find?_ofList (packs : List Language) (name : String) :
    (ofList packs).find? name = merged? (packs.filter (·.name == name)) := by
  induction packs using List.reverseRecOn with
  | nil => rfl
  | append_singleton packs pack induction =>
      -- The pack registered last is merged last.
      rw [ofList_concat, find?_add, induction, List.filter_append]
      by_cases wanted : pack.name = name
      · simp [wanted, merged?_concat]
      · simp [wanted]

theorem name_of_find? {languages : Languages} {name : String} {language : Language}
    (found : languages.find? name = some language) : language.name = name := by
  simpa using List.find?_some found

theorem select_eq_or (languages : Languages) (requested : Option String) (base : String) :
    languages.select requested base =
      ((requested.bind languages.find?).filter (·.hasRules)).or (languages.find? base) := by
  unfold select
  split
  · rename_i served
    rw [served, Option.some_or]
  · rename_i unserved
    rw [unserved, Option.none_or]

/-- Whatever was selected has rules, or else is the base language. -/
theorem find?_of_select {languages : Languages} {requested : Option String} {base : String}
    {language : Language} (selected : languages.select requested base = some language) :
    (∃ name, languages.find? name = some language ∧ language.hasRules = true) ∨
      languages.find? base = some language := by
  rw [select_eq_or, Option.or_eq_some_iff] at selected
  rcases selected with served | ⟨_, fallback⟩
  · obtain ⟨found, rules⟩ := Option.filter_eq_some_iff.mp served
    obtain ⟨name, _, found⟩ := Option.bind_eq_some_iff.mp found
    exact .inl ⟨name, found, rules⟩
  · exact .inr fallback

/-- A language that was selected is selected again for whoever asks for it by its name. -/
theorem select_name {languages : Languages} {requested : Option String} {base : String}
    {language : Language} (selected : languages.select requested base = some language) :
    languages.select (some language.name) base = some language := by
  rw [select_eq_or, Option.bind_some]
  rcases find?_of_select selected with ⟨name, found, rules⟩ | fallback
  · rw [name_of_find? found, found]
    simp [Option.filter, rules]
  · rw [name_of_find? fallback, fallback]
    cases rules : language.hasRules <;> simp [Option.filter, rules]

def Registered (packs : List Language) (name : String) : Prop := ∃ pack ∈ packs, pack.name = name

/-- What is asked for is the name of a pack with rules. -/
def Spoken (packs : List Language) (requested : Option String) : Prop :=
  ∃ pack ∈ packs, some pack.name = requested ∧ pack.hasRules = true

instance (packs : List Language) (name : String) : Decidable (Registered packs name) :=
  inferInstanceAs (Decidable (∃ pack ∈ packs, pack.name = name))

instance (packs : List Language) (requested : Option String) :
    Decidable (Spoken packs requested) :=
  inferInstanceAs (Decidable (∃ pack ∈ packs, some pack.name = requested ∧ pack.hasRules = true))

theorem find?_ofList_isSome_iff {packs : List Language} {name : String} :
    ((ofList packs).find? name).isSome = true ↔ Registered packs name := by
  have nonempty : ∀ list : List Language, (merged? list).isSome = true ↔ list ≠ [] := by
    intro list
    cases list <;> simp [merged?]
  rw [find?_ofList, nonempty]
  simp [Registered]

theorem served_ofList_iff {packs : List Language} {requested : Option String} :
    ((requested.bind (ofList packs).find?).filter (·.hasRules)).isSome = true ↔
      Spoken packs requested := by
  cases requested with
  | none => simp [Spoken]
  | some name =>
      have served : ∀ found : Option Language,
          (found.filter (·.hasRules)).isSome = found.any (·.hasRules) := by
        intro found
        cases found with
        | none => rfl
        | some language => cases rules : language.hasRules <;> simp [Option.filter, rules]
      rw [Option.bind_some, served, find?_ofList, merged?_any_hasRules]
      simp [Spoken]

/-- A selection fails if the base language is missing and what is asked for is not spoken. -/
theorem select_ofList_eq_none_iff {packs : List Language} {requested : Option String}
    {base : String} :
    (ofList packs).select requested base = none ↔
      ¬Spoken packs requested ∧ ¬Registered packs base := by
  rw [← served_ofList_iff, ← find?_ofList_isSome_iff, select]
  split
  · rename_i served
    simp [served]
  · rename_i unserved
    simp [unserved]

/-- What the packs of one name come to: their tables, one after the other. -/
def collected (packs : List Language) (name : String) : Language where
  name
  rules := (packs.filter (·.name == name)).flatMap (·.rules)
  contractions := (packs.filter (·.name == name)).flatMap (·.contractions)

theorem find?_of_registered {packs : List Language} {name : String}
    (registered : Registered packs name) :
    (ofList packs).find? name = some (collected packs name) := by
  obtain ⟨pack, member, named⟩ := registered
  have wanted : pack ∈ packs.filter (·.name == name) :=
    List.mem_filter.mpr ⟨member, beq_iff_eq.mpr named⟩
  rw [find?_ofList, collected]
  cases packsOfName : packs.filter (·.name == name) with
  | nil =>
      rw [packsOfName] at wanted
      contradiction
  | cons first others =>
      have firstNamed : first.name = name := by
        have firstMember : first ∈ packs.filter (·.name == name) := by
          rw [packsOfName]
          exact List.mem_cons_self
        exact beq_iff_eq.mp (List.mem_filter.mp firstMember).2
      rw [merged?, Language.foldl_append, firstNamed, List.flatMap_cons, List.flatMap_cons]

theorem find?_eq_none_of_missing {packs : List Language} {name : String}
    (missing : ¬Registered packs name) : (ofList packs).find? name = none := by
  rw [← Option.not_isSome_iff_eq_none, find?_ofList_isSome_iff]
  exact missing

theorem eq_collected_of_find? {packs : List Language} {name : String} {language : Language}
    (found : (ofList packs).find? name = some language) : language = collected packs name := by
  have registered : Registered packs name := by
    rw [← find?_ofList_isSome_iff, found]
    rfl
  rw [find?_of_registered registered] at found
  exact (Option.some.inj found).symm

/-- The names that a collection holds, in the order in which they first came. -/
theorem addTo_map_name (language : Language) (list : List Language) :
    (addTo language list).map (·.name) =
      if language.name ∈ list.map (·.name) then list.map (·.name)
      else list.map (·.name) ++ [language.name] := by
  induction list with
  | nil => simp [addTo]
  | cons first others induction =>
      by_cases merges : first.name = language.name
      · simp [addTo, merges, Language.append]
      · have different : language.name ≠ first.name := Ne.symm merges
        by_cases held : language.name ∈ others.map (·.name)
        · rw [addTo, if_neg merges, List.map_cons, induction, if_pos held, List.map_cons,
            if_pos (List.mem_cons_of_mem _ held)]
        · rw [addTo, if_neg merges, List.map_cons, induction, if_neg held, List.map_cons,
            if_neg (List.not_mem_cons_of_ne_of_not_mem different held), List.cons_append]

theorem map_name_ofList_nodup (packs : List Language) :
    ((ofList packs).toList.map (·.name)).Nodup := by
  induction packs using List.reverseRecOn with
  | nil => exact List.nodup_nil
  | append_singleton packs pack induction =>
      rw [ofList_concat, add, addTo_map_name]
      split
      · exact induction
      · rename_i fresh
        rw [← List.concat_eq_append]
        exact induction.concat fresh

theorem find?_of_mem {packs : List Language} {language : Language}
    (member : language ∈ (ofList packs).toList) :
    (ofList packs).find? language.name = some language := by
  obtain ⟨found, isFound⟩ : ∃ found, (ofList packs).find? language.name = some found := by
    rw [← Option.isSome_iff_exists]
    exact List.find?_isSome.mpr ⟨language, member, beq_self_eq_true _⟩
  have foundMember : found ∈ (ofList packs).toList := List.mem_of_find?_eq_some isFound
  have same : found = language :=
    List.inj_on_of_nodup_map (map_name_ofList_nodup packs) foundMember member
      (name_of_find? isFound)
  rw [isFound, same]

theorem map_name_ofList_perm (packs : List Language) :
    ((ofList packs).toList.map (·.name)).Perm (packs.map (·.name)).dedup := by
  rw [List.perm_ext_iff_of_nodup (map_name_ofList_nodup packs) (List.nodup_dedup _)]
  intro name
  have held : name ∈ (ofList packs).toList.map (·.name) ↔
      ((ofList packs).find? name).isSome = true := by
    rw [find?, List.find?_isSome]
    simp
  rw [held, find?_ofList_isSome_iff]
  simp [Registered]

theorem size_ofList (packs : List Language) :
    (ofList packs).size = (packs.map (·.name)).dedup.length := by
  rw [← (map_name_ofList_perm packs).length_eq, List.length_map, size]

theorem names_ofList_perm (packs : List Language) :
    (ofList packs).names.Perm (packs.map (·.name)).dedup :=
  (List.mergeSort_perm _ _).trans (map_name_ofList_perm packs)

theorem names_pairwise (languages : Languages) : languages.names.Pairwise (· ≤ ·) := by
  have sorted : languages.names.Pairwise fun left right => decide (left ≤ right) = true := by
    apply List.pairwise_mergeSort
    · intro first second third
      rw [decide_eq_true_eq, decide_eq_true_eq, decide_eq_true_eq]
      exact String.le_trans
    · intro left right
      rw [Bool.or_eq_true, decide_eq_true_eq, decide_eq_true_eq]
      exact String.le_total left right
  simpa using sorted

end Languages

end SensoryProse
