import Cohort.Json.Reading
import Cohort.Proofs.Facts.Members
import Cohort.Proofs.Text.DecimalLayout

/-!
# What the compact text of a value shows

The text of a value is put together from the texts of its parts: one rule for each kind of value
says how.  Quoted texts escape no more characters than they must, objects show the members that
count in the order of their names, and numbers are shown with the fewest digits.
-/

namespace Cohort.Json

/-!
## Quoted texts
-/

/-- What stands for a character in a quoted text: the character itself, a letter that is read as
it, or its code if there is no such letter. -/
inductive Escapes : Char → List Char → Prop where
  | itself {character : Char} :
      32 ≤ character.toNat → character ≠ '"' → character ≠ '\\' → Escapes character [character]
  | letter {character letter : Char} :
      escaped? letter = some character → letter ≠ '/' → Escapes character ['\\', letter]
  | code {character high low : Char} :
      (∀ letter, escaped? letter ≠ some character) →
      hexUnit? '0' '0' high low = some character.toNat → low.isUpper = false →
      Escapes character ['\\', 'u', '0', '0', high, low]

inductive EscapesAll : List Char → List Char → Prop where
  | nil : EscapesAll [] []
  | cons {character : Char} {characters shown body : List Char} :
      Escapes character shown → EscapesAll characters body →
      EscapesAll (character :: characters) (shown ++ body)

inductive Quotes (text : String) : List Char → Prop where
  | marks {body : List Char} : EscapesAll text.toList body → Quotes text ('"' :: (body ++ ['"']))

theorem escapes_code {character : Char} (control : character.toNat < 32)
    (noLetter : ∀ letter, escaped? letter ≠ some character) :
    Escapes character
      ['\\', 'u', '0', '0', hexDigit (character.toNat / 16), hexDigit character.toNat] := by
  have codes : ∀ code < 32, hexUnit? '0' '0' (hexDigit (code / 16)) (hexDigit code) = some code ∧
      (hexDigit code).isUpper = false := by decide
  obtain ⟨read, lower⟩ := codes _ control
  exact .code noLetter read lower

theorem toList_pushQuoted (text : String) (character : Char) :
    ∃ shown, Escapes character shown ∧
      (pushQuoted text character).toList = text.toList ++ shown := by
  unfold pushQuoted
  split
  next => exact ⟨['\\', '"'], .letter rfl (by decide), String.toList_append⟩
  next => exact ⟨['\\', '\\'], .letter rfl (by decide), String.toList_append⟩
  next => exact ⟨['\\', 'n'], .letter rfl (by decide), String.toList_append⟩
  next => exact ⟨['\\', 'r'], .letter rfl (by decide), String.toList_append⟩
  next => exact ⟨['\\', 't'], .letter rfl (by decide), String.toList_append⟩
  next => exact ⟨['\\', 'b'], .letter rfl (by decide), String.toList_append⟩
  next => exact ⟨['\\', 'f'], .letter rfl (by decide), String.toList_append⟩
  next notQuote notBackslash _ _ _ _ _ =>
    dsimp only
    split
    next control =>
      refine ⟨_, escapes_code control ?_, by simp⟩
      intro letter read
      unfold escaped? at read
      split at read
      all_goals cases read <;> contradiction
    next printed =>
      exact ⟨_, .itself (by omega) notQuote notBackslash, String.toList_push _⟩

theorem toList_foldl_pushQuoted (characters : List Char) (text : String) :
    ∃ body, EscapesAll characters body ∧
      (characters.foldl pushQuoted text).toList = text.toList ++ body := by
  induction characters generalizing text with
  | nil => exact ⟨[], .nil, (List.append_nil _).symm⟩
  | cons character characters inductionHypothesis =>
      obtain ⟨shown, escapes, pushed⟩ := toList_pushQuoted text character
      obtain ⟨body, escapesAll, folded⟩ := inductionHypothesis (pushQuoted text character)
      refine ⟨shown ++ body, .cons escapes escapesAll, ?_⟩
      rw [List.foldl_cons, folded, pushed, List.append_assoc]

theorem quotes_quoted (text : String) : Quotes text (quoted text).toList := by
  obtain ⟨body, escapesAll, folded⟩ := toList_foldl_pushQuoted text.toList "\""
  unfold quoted
  rw [String.toList_push, folded]
  exact .marks escapesAll

/-!
## Numbers
-/

/-- A whole number is shown with its digits, a decimal with as few as any that is rounded to the
same double. -/
inductive Number.Shows : Number → List Char → Prop where
  | natural {value : ℕ} : Shows (.whole value) (Nat.toDigits 10 value)
  | negative {value : ℕ} : 0 < value → Shows (.whole (-value)) ('-' :: Nat.toDigits 10 value)
  | decimal {negative : Bool} {significand : ℕ} {exponent : ℤ} {decimal : Text.Decimal}
      {text : List Char} :
      Text.IsShortest (Text.scaledDouble significand exponent) decimal →
      Text.SpellsNumber text decimal.size →
      Shows (.decimal negative significand exponent) ((if negative then ['-'] else []) ++ text)

theorem Number.shows_text (number : Number) : number.Shows number.text.toList := by
  cases number with
  | whole value =>
      cases value with
      | ofNat value =>
          have shown : (toString (Int.ofNat value)).toList = Nat.toDigits 10 value :=
            Nat.toList_repr
          rw [text, shown]
          exact .natural
      | negSucc before =>
          have shown : (toString (Int.negSucc before)).toList =
              '-' :: Nat.toDigits 10 (before + 1) :=
            String.toList_append.trans (congrArg ('-' :: ·) Nat.toList_repr)
          rw [text, shown]
          exact .negative (Nat.succ_pos before)
  | decimal negative significand exponent =>
      obtain ⟨decimal, isShortest, spells⟩ :=
        Text.exists_doubleText_spells (Text.scaledDouble significand exponent)
      rw [text, String.toList_ofList]
      exact .decimal isShortest spells

/-!
## Values
-/

/-- Whether some entries are the members that count, in the order of the bytes of their names. -/
structure ListsByName (members entries : List (String × Json)) : Prop where
  sorted : entries.Pairwise fun first second => Text.utf8 first.1 < Text.utf8 second.1
  mem_iff : ∀ name value, (name, value) ∈ entries ↔ memberOf? members name = some value

/-- Whether a text shows a value, with one rule for each kind of value. -/
inductive ShownAs : Json → List Char → Prop where
  | null : ShownAs null ['n', 'u', 'l', 'l']
  | true : ShownAs (bool true) ['t', 'r', 'u', 'e']
  | false : ShownAs (bool false) ['f', 'a', 'l', 's', 'e']
  | number {value : Number} {text : List Char} : value.Shows text → ShownAs (number value) text
  | string {value : String} {text : List Char} : Quotes value text → ShownAs (string value) text
  | array {items : List Json} {texts : List (List Char)} :
      List.Forall₂ ShownAs items texts →
      ShownAs (array items) ('[' :: ([','].intercalate texts ++ [']']))
  | object {members entries : List (String × Json)} {names texts : List (List Char)} :
      ListsByName members entries →
      List.Forall₂ Quotes (entries.map Prod.fst) names →
      List.Forall₂ ShownAs (entries.map Prod.snd) texts →
      ShownAs (object members)
        ('\x7b' :: ([','].intercalate (List.zipWith (fun name text => name ++ ':' :: text) names
          texts) ++ ['\x7d']))

theorem itemTexts_eq (items : List Json) (finished : List String) :
    itemTexts items finished = finished.reverse ++ items.map compact := by
  induction items generalizing finished with
  | nil => simp [itemTexts]
  | cons item items inductionHypothesis => simp [itemTexts, inductionHypothesis]

theorem memberTexts_eq (members : List (String × Json)) (finished : List (String × String)) :
    memberTexts members finished =
      finished.reverse ++ members.map fun member => (member.1, member.2.compact) := by
  induction members generalizing finished with
  | nil => simp [memberTexts]
  | cons member members inductionHypothesis => simp [memberTexts, inductionHypothesis]

theorem shownAs_array {items : List Json}
    (shown : ∀ item ∈ items, item.ShownAs item.compact.toList) :
    (array items).ShownAs (array items).compact.toList := by
  have texts : List.Forall₂ ShownAs items (items.map fun item => item.compact.toList) := by
    rw [List.forall₂_map_right_iff, List.forall₂_same]
    exact shown
  rw [compact, itemTexts_eq, String.toList_append, String.toList_append, String.toList_intercalate,
    List.reverse_nil, List.nil_append, List.map_map]
  exact .array texts

theorem listsByName_toList (members : List (String × Json)) :
    ListsByName members (NameMap.ofEntries members).toList where
  sorted := NameMap.pairwise_utf8_toList _
  mem_iff _ _ := mem_toList_members_iff

theorem shownAs_object {members : List (String × Json)}
    (shown : ∀ member ∈ members, member.2.ShownAs member.2.compact.toList) :
    (object members).ShownAs (object members).compact.toList := by
  have lists := listsByName_toList members
  have sameEntries : (NameMap.ofEntries (memberTexts members [])).toList =
      (NameMap.ofEntries members).toList.map fun entry => (entry.1, entry.2.compact) := by
    rw [memberTexts_eq, List.reverse_nil, List.nil_append, NameMap.ofEntries_map,
      Std.ExtTreeMap.toList_map]
  generalize (NameMap.ofEntries members).toList = entries at lists sameEntries
  have names : List.Forall₂ Quotes (entries.map Prod.fst)
      (entries.map fun entry => (quoted entry.1).toList) := by
    rw [List.forall₂_map_left_iff, List.forall₂_map_right_iff, List.forall₂_same]
    exact fun entry _ => quotes_quoted entry.1
  have texts : List.Forall₂ ShownAs (entries.map Prod.snd)
      (entries.map fun entry => entry.2.compact.toList) := by
    rw [List.forall₂_map_left_iff, List.forall₂_map_right_iff, List.forall₂_same]
    intro entry membership
    have counts := (lists.mem_iff entry.1 entry.2).mp membership
    exact shown entry (mem_of_memberOf?_eq_some counts)
  have pieces : List.zipWith (fun name text => name ++ ':' :: text)
      (entries.map fun entry => (quoted entry.1).toList)
      (entries.map fun entry => entry.2.compact.toList) =
      entries.map fun entry => (quoted entry.1 ++ ":" ++ entry.2.compact).toList := by
    rw [List.zipWith_map, List.zipWith_self]
    simp
  rw [compact, sameEntries, String.toList_append, String.toList_append,
    String.toList_intercalate, List.map_map, List.map_map]
  have shownObject := ShownAs.object lists names texts
  rw [pieces] at shownObject
  exact shownObject

mutual

theorem shownAs_compact : ∀ value : Json, value.ShownAs value.compact.toList
  | null => .null
  | bool true => .true
  | bool false => .false
  | number value => .number value.shows_text
  | string value => .string (quotes_quoted value)
  | array items => shownAs_array (shownAs_items items)
  | object members => shownAs_object (shownAs_members members)

theorem shownAs_items : ∀ items : List Json, ∀ item ∈ items, item.ShownAs item.compact.toList
  | [] => List.forall_mem_nil _
  | item :: items => List.forall_mem_cons.mpr ⟨shownAs_compact item, shownAs_items items⟩

theorem shownAs_members : ∀ members : List (String × Json), ∀ member ∈ members,
    member.2.ShownAs member.2.compact.toList
  | [] => List.forall_mem_nil _
  | (_, value) :: members =>
      List.forall_mem_cons.mpr ⟨shownAs_compact value, shownAs_members members⟩

end

end Cohort.Json
