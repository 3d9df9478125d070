import SensoryProse.Proofs.Ron.Texts
import SensoryProse.Ron.Reading

/-!
# Items of lists, tuples, maps and records

Items are spelled with a gap around each and a comma behind each but perhaps the last.  They are
read back up to the closing bracket if each item is read back by itself.
-/

namespace SensoryProse.Ron

variable {α : Type} {chars rest : List Char}

/-- Items with commas up to the closing bracket. -/
inductive Separated (close : Char) (spelled : α → List Char → Prop) :
    List α → List Char → Prop where
  | nil {space : List Char} : IsGap space → Separated close spelled [] (space ++ [close])
  | last {value : α} {front chars behind : List Char} :
      IsGap front → spelled value chars → IsGap behind →
      Separated close spelled [value] (front ++ (chars ++ (behind ++ [close])))
  | cons {value : α} {values : List α} {front chars behind others : List Char} :
      IsGap front → spelled value chars → IsGap behind → Separated close spelled values others →
      Separated close spelled (value :: values) (front ++ (chars ++ (behind ++ ',' :: others)))

/-- The brackets that may stand behind items. -/
def closings : List Char := [')', ']', '}']

theorem closings_subset_stops : closings ⊆ stops := by simp [closings, stops]

theorem closings_subset_separators : closings ⊆ separators := by simp [closings, separators]

/-- One item is read back, and what stands behind it decides what comes next. -/
theorem itemsFrom_item (fuel : Nat) {close c : Char} {reader : Reader α} {value : α}
    {front behind tail : List Char} (closing : close ∈ closings) (space : IsGap front)
    (back : ReadsBack reader value chars) (follows : Follows behind (c :: tail)) :
    itemsFrom close reader (fuel + 1) (front ++ (chars ++ behind))
      = if c = ',' then prepend value (itemsFrom close reader fuel tail)
        else if c = close then some ([value], tail) else none := by
  obtain ⟨left, read, found⟩ := back.reads follows
  have start : gap (front ++ (chars ++ behind)) = some (chars ++ behind) := by
    rw [space.gap_append, back.starts.gap_append]
  obtain ⟨d, more, rfl, other⟩ := back.starts
  have notClosed : d ≠ close := by
    rintro rfl
    exact other (closings_subset_separators closing)
  rw [itemsFrom, start, List.cons_append]
  rw [List.cons_append] at read
  simp [notClosed, read, found]

namespace Separated

variable {close : Char} {spelled : α → List Char → Prop} {values : List α} {reader : Reader α}

theorem length_le (written : Separated close spelled values chars) :
    values.length ≤ chars.length := by
  induction written with
  | nil _ => simp
  | last _ _ _ =>
      simp only [List.length_cons, List.length_append]
      omega
  | cons _ _ _ _ ih =>
      simp only [List.length_cons, List.length_append]
      omega

theorem head?_append (written : Separated close spelled values chars) (rest : List Char) :
    (chars ++ rest).head? = chars.head? := by
  cases written <;> simp [List.head?_append]

/-- The closing bracket does not come first if there are items. -/
theorem head?_ne_close (written : Separated close spelled values chars) (filled : values ≠ [])
    (closing : close ∈ closings)
    (starts : ∀ value chars, spelled value chars → Starts chars) : chars.head? ≠ some close := by
  have notFirst : ∀ {front chars behind : List Char}, IsGap front → Starts chars →
      (front ++ (chars ++ behind)).head? ≠ some close := by
    intro front chars behind space starts first
    obtain ⟨tail, split⟩ : ∃ tail, front ++ (chars ++ behind) = close :: tail :=
      List.head?_eq_some_iff.mp first
    have stopped : Follows ([] ++ close :: tail) (close :: tail) :=
      .ofGap .nil (closings_subset_stops closing)
    have start : gap (front ++ (chars ++ behind)) = some (chars ++ behind) := by
      rw [space.gap_append, starts.gap_append]
    rw [split, ← List.nil_append (close :: tail), stopped.gap, Option.some.injEq] at start
    obtain ⟨c, more, rfl, other⟩ := starts
    obtain ⟨rfl, -⟩ := List.cons.inj start
    exact other (closings_subset_separators closing)
  cases written with
  | nil _ => exact absurd rfl filled
  | last before spelled _ => exact notFirst before (starts _ _ spelled)
  | cons before spelled _ _ => exact notFirst before (starts _ _ spelled)

/-- The gap in front of the first item may be passed over. -/
theorem gap_append (written : Separated close spelled values chars) (closing : close ∈ closings)
    (starts : ∀ value chars, spelled value chars → Starts chars) (rest : List Char) :
    ∃ others, gap (chars ++ rest) = some (others ++ rest)
      ∧ Separated close spelled values others := by
  cases written with
  | nil space =>
      have closed : Follows (_ ++ close :: rest) (close :: rest) :=
        .ofGap space (closings_subset_stops closing)
      exact ⟨[close], by simpa using closed.gap, .nil .nil⟩
  | last before spelled after =>
      refine ⟨_, ?_, .last .nil spelled after⟩
      rw [List.append_assoc, before.gap_append, List.append_assoc, (starts _ _ spelled).gap_append]
      simp
  | cons before spelled after written =>
      refine ⟨_, ?_, .cons .nil spelled after written⟩
      rw [List.append_assoc, before.gap_append, List.append_assoc, (starts _ _ spelled).gap_append]
      simp

theorem itemsFrom (written : Separated close spelled values chars) (closing : close ∈ closings)
    (back : ∀ value ∈ values, ∀ chars, spelled value chars → ReadsBack reader value chars)
    {fuel : Nat} (enough : values.length < fuel) :
    itemsFrom close reader fuel (chars ++ rest) = some (values, rest) := by
  have stop := closings_subset_stops closing
  have notComma : close ≠ ',' := by
    rintro rfl
    exact absurd closing (by decide)
  induction written generalizing fuel with
  | @nil space isGap =>
      obtain ⟨fuel, rfl⟩ := Nat.exists_eq_succ_of_ne_zero (Nat.ne_of_gt enough)
      rw [List.append_assoc, List.singleton_append, Ron.itemsFrom,
        (Follows.ofGap isGap stop).gap]
      simp
  | @last value front chars behind before spelled after =>
      obtain ⟨fuel, rfl⟩ := Nat.exists_eq_succ_of_ne_zero (Nat.ne_of_gt (Nat.zero_lt_of_lt enough))
      have follows : Follows (behind ++ close :: rest) (close :: rest) := .ofGap after stop
      have read := itemsFrom_item fuel closing before (back value List.mem_cons_self _ spelled)
        follows
      simpa [notComma] using read
  | @cons value values front chars behind others before spelled after _ ih =>
      obtain ⟨fuel, rfl⟩ := Nat.exists_eq_succ_of_ne_zero (Nat.ne_of_gt (Nat.zero_lt_of_lt enough))
      have follows : Follows (behind ++ ',' :: (others ++ rest)) (',' :: (others ++ rest)) :=
        .ofGap after (by decide)
      have read := itemsFrom_item fuel closing before (back value List.mem_cons_self _ spelled)
        follows
      have later := ih (fun value member => back value (List.mem_cons_of_mem _ member))
        (Nat.lt_of_succ_lt_succ enough)
      rw [later] at read
      simpa [prepend] using read

theorem items (written : Separated close spelled values chars) (closing : close ∈ closings)
    (back : ∀ value ∈ values, ∀ chars, spelled value chars → ReadsBack reader value chars) :
    items close reader (chars ++ rest) = some (values, rest) := by
  refine written.itemsFrom closing back ?_
  have short := written.length_le
  simp only [List.length_append]
  omega

end Separated

/-! ## Fields and entries -/

/-- A field is spelled by its name and its value with a colon between them. -/
inductive FieldText (spelled : Value → List Char → Prop) : String × Value → List Char → Prop where
  | intro {key : Name} {value : Value} {title before behind chars : List Char} :
      NameText key title → IsGap before → IsGap behind → spelled value chars →
      FieldText spelled (key.text, value) (title ++ (before ++ ':' :: (behind ++ chars)))

theorem FieldText.plain {spelled : Value → List Char → Prop} {key : String} {value : Value}
    {title chars : List Char} (named : NameText ⟨key, false⟩ title)
    (written : spelled value chars) :
    FieldText spelled (key, value) (title ++ ([] ++ ':' :: ([] ++ chars))) :=
  .intro named .nil .nil written

/-- An entry of a map is spelled by two values with a colon between them. -/
inductive EntryText (spelled : Value → List Char → Prop) : Value × Value → List Char → Prop where
  | intro {key value : Value} {first before behind second : List Char} :
      spelled key first → IsGap before → IsGap behind → spelled value second →
      EntryText spelled (key, value) (first ++ (before ++ ':' :: (behind ++ second)))

theorem colon_of_gap {left tail : List Char} (found : gap left = some (':' :: tail)) :
    colon left = gap tail := by
  rw [colon, found]
  rfl

theorem colon_eq_none {left tail : List Char} (found : gap left = some tail)
    (other : ∀ c ∈ tail.head?, c ≠ ':') : colon left = none := by
  rw [colon, found]
  cases tail with
  | nil => rfl
  | cons c tail => simp [other c rfl]

theorem colon_append {before behind : List Char} (after : IsGap before) (space : IsGap behind)
    (starts : Starts chars) :
    colon (before ++ ':' :: (behind ++ (chars ++ rest))) = some (chars ++ rest) := by
  have found : gap (before ++ ':' :: (behind ++ (chars ++ rest))) = some (':' :: _) :=
    (Follows.ofGap after (by decide)).gap
  rw [colon_of_gap found, space.gap_append, starts.gap_append]

theorem FieldText.readsBack {spelled : Value → List Char → Prop} {item : String → Reader Value}
    {entry : String × Value} (written : FieldText spelled entry chars)
    (back : ∀ chars, spelled entry.2 chars → ReadsBack (item entry.1) entry.2 chars) :
    ReadsBack (field item) entry chars := by
  cases written with
  | @intro key value title before behind chars named after space spelled =>
      have inner := back chars spelled
      refine ⟨?_, fun {rest tail} follows => ?_⟩
      · obtain ⟨c, front, rfl, other⟩ := named.starts
        exact ⟨c, _, rfl, other⟩
      · obtain ⟨left, read, found⟩ := inner.reads follows
        have delimited : Delimited (before ++ ':' :: (behind ++ (chars ++ rest))) :=
          after.delimited (delimited_cons (by decide))
        refine ⟨left, ?_, found⟩
        simp [field, named.reads delimited, colon_append after space inner.starts, read]

theorem EntryText.readsBack {spelled : Value → List Char → Prop} {item : Reader Value}
    {pair : Value × Value} (written : EntryText spelled pair chars)
    (back : ∀ value chars, spelled value chars → ReadsBack item value chars) :
    ReadsBack (entry item) pair chars := by
  cases written with
  | @intro key value first before behind second spelledKey after space spelledValue =>
      have backKey := back key first spelledKey
      have backValue := back value second spelledValue
      refine ⟨?_, fun {rest tail} follows => ?_⟩
      · obtain ⟨c, front, rfl, other⟩ := backKey.starts
        exact ⟨c, _, rfl, other⟩
      · obtain ⟨left, read, found⟩ := backValue.reads follows
        have colonFollows : Follows (before ++ ':' :: (behind ++ (second ++ rest)))
            (':' :: (behind ++ (second ++ rest))) := .ofGap after (by decide)
        obtain ⟨middle, readKey, foundColon⟩ := backKey.reads colonFollows
        refine ⟨left, ?_, found⟩
        simp [entry, readKey, colon_of_gap foundColon, space.gap_append,
          backValue.starts.gap_append, read]

end SensoryProse.Ron
