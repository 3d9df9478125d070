import Mathlib.Data.List.Chain
import SensoryProse.Language.English

/-!
# Contracting by blocks

Contracting cuts the words into blocks and writes one word for each.  A block is as long as it can
be: each of its words contracts with what the words before it have come to, and the first word
behind it does not.  What is written of a block was never held against the word before it, so that
a contraction may be left to contract again, but no other word may.
-/

namespace SensoryProse.Contraction

/-- The words are the two sides of the rule, in either order and in any case of ASCII letters. -/
def Joins (rule : Contraction) (left right : String) : Prop :=
  (Text.foldAscii rule.first = Text.foldAscii left ∧
      Text.foldAscii rule.second = Text.foldAscii right) ∨
    (Text.foldAscii rule.first = Text.foldAscii right ∧
      Text.foldAscii rule.second = Text.foldAscii left)

/-- No rule of the table joins the words. -/
def Apart (rules : List Contraction) (left right : String) : Prop :=
  ∀ rule ∈ rules, ¬rule.Joins left right

/-- The rule is the first of the table that joins the words. -/
def FirstJoining (rules : List Contraction) (left right : String) (rule : Contraction) : Prop :=
  rule.Joins left right ∧ ∃ before behind, rules = before ++ rule :: behind ∧
    Apart before left right

/-- What a block of words contracts to, word by word from the left. -/
inductive Contracts (rules : List Contraction) : List String → String → Prop where
  | word (word : String) : Contracts rules [word] word
  | next {block : List String} {left word : String} {rule : Contraction} :
      Contracts rules block left →
      FirstJoining rules left word rule →
      Contracts rules (block ++ [word]) rule.result

/-- A block of words and what is written for it. -/
@[ext]
structure Block where
  words : List String
  result : String

/-- How words are cut into blocks.  No block contracts with the first word of the next one. -/
structure CutInto (rules : List Contraction) (words written : List String) (blocks : List Block) :
    Prop where
  whole : blocks.flatMap Block.words = words
  inhabited : ∀ block ∈ blocks, block.words ≠ []
  contracted : ∀ block ∈ blocks, Contracts rules block.words block.result
  maximal : blocks.IsChain fun block next =>
    ∀ word ∈ next.words.head?, Apart rules block.result word
  written : blocks.map Block.result = written

section

variable {rules : List Contraction}

theorem joins_iff {rule : Contraction} {left right : String} :
    rule.joins left right = true ↔ rule.Joins left right := by
  simp only [joins, Joins, Text.sameUpToAsciiCase, Bool.or_eq_true, Bool.and_eq_true, beq_iff_eq]

theorem find?_eq_some_iff {left right : String} {rule : Contraction} :
    find? rules left right = some rule ↔ FirstJoining rules left right rule := by
  simp [find?, List.find?_eq_some_iff_append, FirstJoining, Apart, ← joins_iff]

theorem find?_eq_none_iff {left right : String} :
    find? rules left right = none ↔ Apart rules left right := by
  simp [find?, Apart, ← joins_iff]

theorem FirstJoining.not_apart {left right : String} {rule : Contraction}
    (joining : FirstJoining rules left right rule) : ¬Apart rules left right := by
  rw [← find?_eq_none_iff, find?_eq_some_iff.mpr joining]
  exact Option.some_ne_none rule

theorem FirstJoining.unique {left right : String} {rule other : Contraction}
    (joining : FirstJoining rules left right rule)
    (also : FirstJoining rules left right other) : rule = other := by
  rw [← find?_eq_some_iff] at joining also
  exact Option.some.inj (joining.symm.trans also)

theorem Contracts.ne_nil {block : List String} {result : String}
    (contracts : Contracts rules block result) : block ≠ [] := by
  cases contracts <;> simp

theorem Contracts.of_concat {front : List String} {word result : String}
    (contracts : Contracts rules (front ++ [word]) result) :
    (front = [] ∧ result = word) ∨
      ∃ left rule, Contracts rules front left ∧ FirstJoining rules left word rule ∧
        result = rule.result := by
  generalize same : front ++ [word] = block at contracts
  cases contracts with
  | word =>
      rw [← List.nil_append [result]] at same
      obtain ⟨rfl, sameWord⟩ := List.append_inj' same rfl
      exact .inl ⟨rfl, (List.head_eq_of_cons_eq sameWord).symm⟩
  | @next before left last rule begun joining =>
      obtain ⟨rfl, sameWord⟩ := List.append_inj' same rfl
      obtain rfl := List.head_eq_of_cons_eq sameWord
      exact .inr ⟨left, rule, begun, joining, rfl⟩

theorem Contracts.unique {block : List String} {result other : String}
    (contracts : Contracts rules block result) (also : Contracts rules block other) :
    result = other := by
  induction contracts generalizing other with
  | word word =>
      have split : Contracts rules ([] ++ [word]) other := also
      rcases split.of_concat with ⟨_, rfl⟩ | ⟨_, _, begun, _⟩
      · rfl
      · exact absurd rfl begun.ne_nil
  | next contracts joining induction =>
      rcases also.of_concat with ⟨rfl, _⟩ | ⟨left, rule, begun, alsoJoining, rfl⟩
      · exact absurd rfl contracts.ne_nil
      · cases induction begun
        rw [joining.unique alsoJoining]

/-- What the front of a block comes to is joined with the word behind it. -/
theorem Contracts.joined {front back : List String} {left word result : String}
    (contracts : Contracts rules (front ++ word :: back) result)
    (begun : Contracts rules front left) : ∃ rule, FirstJoining rules left word rule := by
  induction back using List.reverseRecOn generalizing result with
  | nil =>
      rcases contracts.of_concat with ⟨rfl, _⟩ | ⟨_, rule, also, joining, _⟩
      · exact absurd rfl begun.ne_nil
      · cases begun.unique also
        exact ⟨rule, joining⟩
  | append_singleton back last induction =>
      rw [← List.cons_append, ← List.append_assoc] at contracts
      rcases contracts.of_concat with ⟨empty, _⟩ | ⟨_, _, shorter, _⟩
      · simp at empty
      · exact induction shorter

namespace CutInto

variable {words written : List String} {block : Block} {blocks : List Block}

theorem tail (cut : CutInto rules words written (block :: blocks)) :
    CutInto rules (blocks.flatMap Block.words) (blocks.map Block.result) blocks where
  whole := rfl
  inhabited := (List.forall_mem_cons.mp cut.inhabited).2
  contracted := (List.forall_mem_cons.mp cut.contracted).2
  maximal := cut.maximal.tail
  written := rfl

theorem eq_nil (cut : CutInto rules [] written blocks) : blocks = [] := by
  rw [List.eq_nil_iff_forall_not_mem]
  intro block member
  exact cut.inhabited block member (List.flatMap_eq_nil_iff.mp cut.whole block member)

/-- The first block does not contract with the word behind it. -/
theorem apart (cut : CutInto rules words written (block :: blocks)) :
    ∀ word ∈ (blocks.flatMap Block.words).head?, Apart rules block.result word := by
  cases blocks with
  | nil => simp
  | cons next others =>
      intro word first
      refine (List.isChain_cons_cons.mp cut.maximal).1 word ?_
      have inhabited := cut.tail.inhabited next List.mem_cons_self
      rwa [List.flatMap_cons, List.head?_append_of_ne_nil _ inhabited] at first

theorem cons (cut : CutInto rules words written blocks) (block : Block)
    (contracts : Contracts rules block.words block.result)
    (apart : ∀ word ∈ words.head?, Apart rules block.result word) :
    CutInto rules (block.words ++ words) (block.result :: written) (block :: blocks) where
  whole := by rw [List.flatMap_cons, cut.whole]
  inhabited := List.forall_mem_cons.mpr ⟨contracts.ne_nil, cut.inhabited⟩
  contracted := List.forall_mem_cons.mpr ⟨contracts, cut.contracted⟩
  maximal := by
    refine List.isChain_cons.mpr ⟨?_, cut.maximal⟩
    intro next isNext word first
    refine apart word ?_
    obtain ⟨others, rfl⟩ := List.head?_eq_some_iff.mp isNext
    have inhabited := cut.inhabited next List.mem_cons_self
    rwa [← cut.whole, List.flatMap_cons, List.head?_append_of_ne_nil _ inhabited]
  written := by rw [List.map_cons, cut.written]

/-- The first block is the longest beginning that contracts. -/
theorem longest (cut : CutInto rules words written (block :: blocks)) {front : List String}
    {result : String} (contracts : Contracts rules front result) (begins : front <+: words) :
    front.length ≤ block.words.length := by
  by_contra longer
  have whole : block.words ++ blocks.flatMap Block.words = words := by
    rw [← cut.whole, List.flatMap_cons]
  obtain ⟨back, rfl⟩ : block.words <+: front :=
    List.prefix_of_prefix_length_le (whole ▸ List.prefix_append _ _) begins (by omega)
  cases back with
  | nil => simp at longer
  | cons word back =>
      obtain ⟨rule, joining⟩ := contracts.joined (cut.contracted block List.mem_cons_self)
      obtain ⟨behind, split⟩ := begins
      have follows : blocks.flatMap Block.words = word :: back ++ behind := by
        rw [← whole, List.append_assoc] at split
        exact (List.append_cancel_left split).symm
      refine joining.not_apart (cut.apart word ?_)
      rw [follows]
      rfl

theorem unique (cut : CutInto rules words written blocks) {others : List Block}
    {alsoWritten : List String} (also : CutInto rules words alsoWritten others) :
    blocks = others := by
  induction blocks generalizing words written others alsoWritten with
  | nil =>
      obtain rfl : [] = words := cut.whole
      exact also.eq_nil.symm
  | cons block blocks induction =>
      cases others with
      | nil =>
          obtain rfl : [] = words := also.whole
          exact cut.eq_nil
      | cons other others =>
          have whole := cut.whole
          have alsoWhole := also.whole
          rw [List.flatMap_cons] at whole alsoWhole
          have contracts := cut.contracted block List.mem_cons_self
          have alsoContracts := also.contracted other List.mem_cons_self
          have sameLength : block.words.length = other.words.length :=
            Nat.le_antisymm (also.longest contracts (whole ▸ List.prefix_append _ _))
              (cut.longest alsoContracts (alsoWhole ▸ List.prefix_append _ _))
          obtain ⟨sameWords, sameRest⟩ := List.append_inj (whole.trans alsoWhole.symm) sameLength
          have sameBlock : block = other := by
            refine Block.ext sameWords (contracts.unique ?_)
            rwa [sameWords]
          rw [sameBlock, induction cut.tail (sameRest ▸ also.tail)]

end CutInto

theorem contractAfter_cutInto {block : List String} {last : String}
    (contracts : Contracts rules block last) (words : List String) :
    ∃ blocks, CutInto rules (block ++ words) (contractAfter rules last words) blocks := by
  induction words generalizing block last with
  | nil =>
      refine ⟨[⟨block, last⟩], ?_⟩
      constructor <;> simp [contractAfter, contracts, contracts.ne_nil]
  | cons word words induction =>
      cases found : find? rules last word with
      | some rule =>
          rw [contractAfter, found, List.append_cons]
          exact induction (.next contracts (find?_eq_some_iff.mp found))
      | none =>
          obtain ⟨blocks, cut⟩ := induction (.word word)
          refine ⟨⟨block, last⟩ :: blocks, ?_⟩
          rw [contractAfter, found]
          refine cut.cons ⟨block, last⟩ contracts ?_
          simpa using find?_eq_none_iff.mp found

theorem contract_cutInto (rules : List Contraction) (words : List String) :
    ∃ blocks, CutInto rules words (contract rules words) blocks := by
  cases words with
  | nil => exact ⟨[], by constructor <;> simp [contract]⟩
  | cons word words => exact contractAfter_cutInto (.word word) words

theorem contract_eq_iff {words written : List String} :
    contract rules words = written ↔ ∃! blocks, CutInto rules words written blocks := by
  obtain ⟨blocks, cut⟩ := contract_cutInto rules words
  constructor
  · rintro rfl
    exact ⟨blocks, cut, fun others also => also.unique cut⟩
  · rintro ⟨others, also, _⟩
    rw [← cut.written, ← also.written, cut.unique also]

theorem contractAfter_length_le (last : String) (words : List String) :
    (contractAfter rules last words).length ≤ words.length + 1 := by
  induction words generalizing last with
  | nil => simp [contractAfter]
  | cons word words induction =>
      unfold contractAfter
      split
      · exact (induction _).trans (Nat.le_succ _)
      · simpa using induction word

/-- No two words that stand side by side are joined. -/
def Settled (rules : List Contraction) (words : List String) : Prop := words.IsChain (Apart rules)

theorem contractAfter_eq_cons_iff {last : String} {words : List String} :
    contractAfter rules last words = last :: words ↔ Settled rules (last :: words) := by
  induction words generalizing last with
  | nil => simp [contractAfter, Settled]
  | cons word words induction =>
      rw [Settled, List.isChain_cons_cons, ← find?_eq_none_iff, contractAfter]
      cases found : find? rules last word with
      | none =>
          rw [List.cons.injEq]
          exact and_congr (by simp) induction
      | some rule =>
          refine iff_of_false ?_ (by simp)
          intro unchanged
          have shorter : (contractAfter rules rule.result words).length ≤ words.length + 1 :=
            contractAfter_length_le rule.result words
          have longer := congrArg List.length unchanged
          simp at longer
          omega

theorem contract_eq_self_iff {words : List String} :
    contract rules words = words ↔ Settled rules words := by
  cases words with
  | nil => simp [contract, Settled]
  | cons word words => exact contractAfter_eq_cons_iff

theorem contract_of_no_rules (words : List String) : contract [] words = words := by
  rw [contract_eq_self_iff]
  refine (List.pairwise_of_forall_mem_list ?_).isChain
  intro _ _ _ _ rule member
  cases member

/-- What a rule results in is a side of no rule. -/
def Final (rules : List Contraction) : Prop :=
  ∀ rule ∈ rules, ∀ other ∈ rules,
    Text.foldAscii other.first ≠ Text.foldAscii rule.result ∧
      Text.foldAscii other.second ≠ Text.foldAscii rule.result

theorem Final.apart (final : Final rules) {rule : Contraction} (member : rule ∈ rules)
    (left : String) : Apart rules left rule.result := by
  intro other otherMember joins
  obtain ⟨notFirst, notSecond⟩ := final rule member other otherMember
  rcases joins with ⟨_, second⟩ | ⟨first, _⟩
  · exact notSecond second
  · exact notFirst first

theorem Contracts.word_or_result {block : List String} {result : String}
    (contracts : Contracts rules block result) :
    block = [result] ∨ ∃ rule ∈ rules, result = rule.result := by
  cases contracts with
  | word => exact .inl rfl
  | @next _ _ _ rule _ joining =>
      refine .inr ⟨rule, ?_, rfl⟩
      obtain ⟨_, before, behind, rfl, _⟩ := joining
      simp

namespace CutInto

variable {words written : List String} {blocks : List Block}

/-- A word that is left as it is does not contract with what is written before it. -/
theorem apart_of_kept (cut : CutInto rules words written blocks) :
    blocks.IsChain fun block next =>
      next.words = [next.result] → Apart rules block.result next.result := by
  refine cut.maximal.imp ?_
  intro block next apart kept
  refine apart next.result ?_
  rw [kept]
  rfl

theorem settled (cut : CutInto rules words written blocks) (final : Final rules) :
    Settled rules written := by
  rw [← cut.written, Settled, List.isChain_map]
  refine cut.apart_of_kept.imp_of_mem_imp ?_
  intro block next _ member apart
  rcases (cut.contracted next member).word_or_result with kept | ⟨rule, inTable, same⟩
  · exact apart kept
  · rw [same]
    exact final.apart inTable block.result

end CutInto

/-- A word that is written was there before, or a rule results in it. -/
theorem mem_contract {words : List String} {word : String}
    (member : word ∈ contract rules words) :
    word ∈ words ∨ ∃ rule ∈ rules, word = rule.result := by
  obtain ⟨blocks, cut⟩ := contract_cutInto rules words
  rw [← cut.written] at member
  obtain ⟨block, inBlocks, rfl⟩ := List.mem_map.mp member
  refine (cut.contracted block inBlocks).word_or_result.imp ?_ id
  intro kept
  rw [← cut.whole]
  refine List.mem_flatMap.mpr ⟨block, inBlocks, ?_⟩
  rw [kept]
  exact List.mem_singleton_self block.result

end

end SensoryProse.Contraction

namespace SensoryProse.Language

open Contraction

/-- How a language contracts words.  The words that it writes are the results of the one way to cut
the words into blocks. -/
structure ContractsByBlocks (language : Language) (words : List String) : Prop where
  looks_up : ∀ left right rule, language.contractionOf? left right = some rule ↔
    FirstJoining language.contractions left right rule
  eq_iff : ∀ written, language.contract words = written ↔
    ∃! blocks, CutInto language.contractions words written blocks
  length_le : (language.contract words).length ≤ words.length
  eq_nil_iff : language.contract words = [] ↔ words = []

/-- Words are contracted by blocks, which are as long as they can be. -/
theorem contracts_by_blocks (language : Language) (words : List String) :
    language.ContractsByBlocks words where
  looks_up _ _ _ := find?_eq_some_iff
  eq_iff _ := contract_eq_iff
  length_le := by
    cases words with
    | nil => simp [contract, Contraction.contract]
    | cons word words => exact contractAfter_length_le word words
  eq_nil_iff := by
    obtain ⟨blocks, cut⟩ := contract_cutInto language.contractions words
    constructor
    · intro empty
      obtain rfl : blocks = [] := List.map_eq_nil_iff.mp (cut.written.trans empty)
      exact cut.whole.symm
    · rintro rfl
      rfl

/-- A language that contracts what a rule of it results in. -/
def drowsy : Language where
  name := "drowsy"
  contractions := [⟨"do", "not", "don't"⟩, ⟨"I", "don't", "dunno"⟩]

example : drowsy.contract ["do", "not", "I", "do", "not"] = ["dunno", "don't"] := by decide

/-- What is left to contract among the words that a language writes.  A word that it kept does not
contract with the word before it, so that only the result of a rule may. -/
structure LeavesContractions (language : Language) (words : List String) : Prop where
  kept : ∃ blocks, CutInto language.contractions words (language.contract words) blocks ∧
    blocks.IsChain fun block next =>
      next.words = [next.result] → Apart language.contractions block.result next.result
  again : language.contract (language.contract words) = language.contract words ↔
    Settled language.contractions (language.contract words)
  settled : Final language.contractions →
    Settled language.contractions (language.contract words) ∧
      language.contract (language.contract words) = language.contract words

/-- Contracting leaves at most results of rules to contract with the words before them. -/
theorem contract_leaves_contractions (language : Language) (words : List String) :
    language.LeavesContractions words := by
  obtain ⟨blocks, cut⟩ := contract_cutInto language.contractions words
  exact {
    kept := ⟨blocks, cut, cut.apart_of_kept⟩
    again := contract_eq_self_iff
    settled := fun final => ⟨cut.settled final, contract_eq_self_iff.mpr (cut.settled final)⟩ }

/-- English contracts no contraction. -/
theorem english_leaves_contractions :
    Final english.contractions ∧
      english.contract ["It", "is", "not", "as", "you", "are"] =
        ["it's", "not", "as", "you're"] ∧
      Settled english.contractions (english.contract ["It", "is", "not", "as", "you", "are"]) := by
  have final : Final english.contractions := by
    unfold Final
    decide
  exact ⟨final, by decide, ((contract_leaves_contractions _ _).settled final).1⟩

/-- The result of a rule may still contract with the word before it. -/
theorem dunno_left_to_contract :
    ¬∀ (language : Language) (words : List String),
      Settled language.contractions (language.contract words) ∧
        language.contract (language.contract words) = language.contract words := by
  intro settles
  exact absurd (settles drowsy ["I", "do", "not"]).2 (by decide)

end SensoryProse.Language
