import SensoryProse.Proofs.Ron.Values

/-!
# Documents

A document is a value between gaps, perhaps behind the attribute that lets present values stand
without their word and parentheses.  Every spelling of a document is read back.
-/

namespace SensoryProse.Ron

variable {chars rest : List Char}

/-- The leniency for present values. -/
def LeniencyText (leniency : String) (chars : List Char) : Prop :=
  leniency = "implicit_some" ∧ chars = leniency.toList

/-- What stands in front of the value: nothing, or the attribute `#![enable(implicit_some)]` with
gaps between its tokens. -/
inductive Header : Bool → List Char → Prop where
  | none : Header false []
  | implicitSome {afterHash afterBang afterBracket afterEnable names beforeEnd afterEnd :
      List Char} :
      IsGap afterHash → IsGap afterBang → IsGap afterBracket → IsGap afterEnable →
      Separated ')' LeniencyText ["implicit_some"] names → IsGap beforeEnd → IsGap afterEnd →
      Header true ('#' :: (afterHash ++ '!' :: (afterBang ++ '[' :: (afterBracket
        ++ ("enable".toList ++ (afterEnable ++ '(' :: (names ++ (beforeEnd
          ++ ']' :: afterEnd))))))))

/-- A whole text: its value, and whether parentheses around present values may be left out. -/
inductive DocumentText : Bool → Value → List Char → Prop where
  | intro {lenient : Bool} {value : Value} {front header body behind : List Char} :
      IsGap front → Header lenient header → Written nestingLimit value body → IsLastGap behind →
      DocumentText lenient value (front ++ (header ++ (body ++ behind)))

theorem LeniencyText.readsBack {name : String} (spelled : LeniencyText name chars) :
    ReadsBack leniency name chars := by
  obtain ⟨rfl, rfl⟩ := spelled
  have named : NameText ⟨"implicit_some", false⟩ "implicit_some".toList :=
    .plain (by decide) (by decide)
  refine .exact named.starts fun rest delimited => ?_
  rw [leniency, named.reads delimited]
  simp [leniencies]

/-- A token of one mark is passed over with the gap behind it. -/
theorem expect_append {token : String} {space : List Char} (spelled : IsGap space) :
    expect token (token.toList ++ (space ++ rest)) = gap rest := by
  have front : token.toList.isPrefixOf (token.toList ++ (space ++ rest)) = true := by
    simp [List.isPrefixOf_iff_prefix]
  rw [expect, if_pos front, ← String.length_toList, List.drop_left, spelled.gap_append]

/-- Where a text begins with a character that begins no gap, there is none. -/
theorem gap_cons {c : Char} (other : c ∉ [' ', '\t', '\n', '\r', '/']) :
    gap (c :: rest) = some (c :: rest) := by
  simp only [List.mem_cons, List.not_mem_nil, or_false, not_or] at other
  simp [gap, skip, isSpace, other]

theorem Header.attributeNames {header : List Char} (written : Header true header)
    (starts : Starts chars) :
    attributeNames (header ++ (chars ++ rest)) = some (["implicit_some"], chars ++ rest) := by
  cases written with
  | @implicitSome a b c d names e f spaceA spaceB spaceC spaceD written spaceE spaceF =>
      have hash : ∀ rest, expect "#" ('#' :: (a ++ '!' :: rest)) = some ('!' :: rest) :=
        fun _ => (expect_append spaceA).trans (gap_cons (by decide))
      have bang : ∀ rest, expect "!" ('!' :: (b ++ '[' :: rest)) = some ('[' :: rest) :=
        fun _ => (expect_append spaceB).trans (gap_cons (by decide))
      have bracket : ∀ rest, expect "[" ('[' :: (c ++ ("enable".toList ++ rest)))
          = some ("enable".toList ++ rest) :=
        fun _ => (expect_append spaceC).trans (gap_cons (by decide))
      have enable : ∀ rest, expect "enable" ("enable".toList ++ (d ++ '(' :: rest))
          = some ('(' :: rest) :=
        fun _ => (expect_append spaceD).trans (gap_cons (by decide))
      have paren : ∀ rest, expect "(" ('(' :: rest) = gap rest := fun _ => expect_append .nil
      have back : ∀ name ∈ ["implicit_some"], ∀ chars, LeniencyText name chars →
          ReadsBack leniency name chars := fun _ _ _ spelled => spelled.readsBack
      obtain ⟨others, start, written⟩ := written.gap_append (by decide)
        (fun _ _ spelled => spelled.readsBack.starts) (e ++ ']' :: (f ++ (chars ++ rest)))
      have read : items ')' leniency (others ++ (e ++ ']' :: (f ++ (chars ++ rest))))
          = some (["implicit_some"], e ++ ']' :: (f ++ (chars ++ rest))) :=
        written.items (by decide) back
      have closed : Follows (e ++ ']' :: (f ++ (chars ++ rest))) (']' :: (f ++ (chars ++ rest))) :=
        .ofGap spaceE (by decide)
      have after : expect "]" (']' :: (f ++ (chars ++ rest))) = some (chars ++ rest) :=
        (expect_append spaceF).trans starts.gap_append
      simp only [List.append_assoc, List.cons_append, Ron.attributeNames, hash, bang, bracket,
        enable, paren, start, read, closed.gap, after, Option.bind_eq_bind, Option.bind_some]
      rfl

/-- Whatever is switched on, the value is found behind the header. -/
theorem Header.attributes {lenient : Bool} {header : List Char} (written : Header lenient header)
    (starts : Starts chars) (rest : List Char) {fuel : Nat} (enough : 2 ≤ fuel) :
    ∃ names, attributes fuel (header ++ (chars ++ rest)) = some (names, chars ++ rest)
      ∧ names.contains "implicit_some" = lenient := by
  obtain ⟨fuel, rfl⟩ : ∃ more, fuel = more + 2 := ⟨fuel - 2, by omega⟩
  have noHash : (chars ++ rest).head? ≠ some '#' := by
    obtain ⟨c, front, rfl, other⟩ := starts
    simp only [List.cons_append, List.head?_cons, Ne, Option.some.injEq]
    rintro rfl
    exact absurd (by decide) other
  have stop : ∀ fuel, Ron.attributes (fuel + 1) (chars ++ rest) = some ([], chars ++ rest) :=
    fun fuel => by rw [Ron.attributes, if_neg noHash]
  cases lenient with
  | false =>
      cases written
      exact ⟨[], stop _, rfl⟩
  | true =>
      have first : (header ++ (chars ++ rest)).head? = some '#' := by cases written; rfl
      refine ⟨["implicit_some"], ?_, by decide⟩
      rw [Ron.attributes, if_pos first, written.attributeNames starts]
      simp [stop]

theorem Header.starts {lenient : Bool} {header : List Char} (written : Header lenient header)
    (starts : Starts chars) :
    gap (header ++ (chars ++ rest)) = some (header ++ (chars ++ rest)) := by
  cases written with
  | none => exact starts.gap_append
  | implicitSome => exact gap_cons (by decide)

theorem document?_of_text {lenient : Bool} {value : Value} {text : String} {place : Place}
    (written : DocumentText lenient value text.toList) (suits : place.Suits value) :
    document? place text = some { value, lenient } := by
  generalize split : text.toList = chars at written
  cases written with
  | @intro front header body behind before head inner after =>
      have back := inner.readsBack lenient suits
      have start : gap text.toList = some (header ++ (body ++ behind)) := by
        rw [split, before.gap_append, head.starts back.starts]
      have enough : 2 ≤ (header ++ (body ++ behind)).length + 1 := by
        obtain ⟨c, more, rfl, -⟩ := back.starts
        simp only [List.length_append, List.length_cons]
        omega
      obtain ⟨names, read, isLenient⟩ := head.attributes back.starts behind enough
      obtain ⟨left, found, finished⟩ := back.reads (.ofLastGap after)
      simp only [document?, start, read, isLenient, found, finished, Option.bind_eq_bind,
        Option.bind_some]

end SensoryProse.Ron
