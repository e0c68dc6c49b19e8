import ImportResolution.Json.Typed
import ImportResolution.Proofs.Json.Strings
import ImportResolution.Proofs.Outcome

/-!
# Objects as they are written

An object is written as braces around its members, with commas between them and a colon
behind each key, and blanks may stand between any of these. `IsMembers` is this grammar for
members whose values are given by a grammar of their own. It follows the readers of objects
in one point: a comma belongs to the member behind it, so what is left of an object behind a
value is a list of members again, none of which is the first.

`readObject_of_isObject` reads an object whose values are strings: its members are put in
one after the other, in the order in which they are written.
-/

namespace ImportResolution

namespace Json

/-! ## Blanks and what stands between parts -/

/-- A text of blanks only. -/
def IsBlanks (text : Text) : Prop := ∀ char ∈ text, Cursor.isBlank char = true

theorem isBlanks_nil : IsBlanks [] := nofun

theorem skipWhile_append {test : Char → Bool} {run rest : Text}
    (passes : ∀ char ∈ run, test char = true) (stops : ∀ char ∈ rest.head?, test char = false)
    (position : Position) :
    Cursor.skipWhile test position (run ++ rest) = ⟨position.afterText run, rest⟩ := by
  induction run generalizing position with
  | nil =>
      cases rest with
      | nil => rfl
      | cons char rest => simp [Cursor.skipWhile, stops char rfl, Position.afterText]
  | cons head run ih =>
      rw [List.forall_mem_cons] at passes
      simpa [Cursor.skipWhile, passes.1, Position.afterText] using ih passes.2 (position.after head)

theorem skipBlanks_append {blanks rest : Text} {char : Char} (isBlanks : IsBlanks blanks)
    (stops : Cursor.isBlank char = false) (position : Position) :
    Cursor.skipBlanks ⟨position, blanks ++ char :: rest⟩ =
      ⟨position.afterText blanks, char :: rest⟩ :=
  skipWhile_append isBlanks (by simpa using stops) position

theorem skipBlanks_of_isBlanks {blanks : Text} (isBlanks : IsBlanks blanks) (position : Position) :
    Cursor.skipBlanks ⟨position, blanks⟩ = ⟨position.afterText blanks, []⟩ := by
  have atEnd : ∀ char ∈ ([] : Text).head?, Cursor.isBlank char = false := nofun
  simpa [Cursor.skipBlanks] using skipWhile_append isBlanks atEnd position

@[simp]
theorem Cursor.next_cons (position : Position) (char : Char) (rest : Text) :
    Cursor.next ⟨position, char :: rest⟩ = ⟨position.after char, rest⟩ :=
  rfl

/-- What stands between two members of an object, or before the first of them. -/
inductive Separates : (isFirst : Bool) → Text → Prop
  | first {blanks : Text} (isBlanks : IsBlanks blanks) : Separates true blanks
  | later {before after : Text} (areBefore : IsBlanks before) (areAfter : IsBlanks after) :
      Separates false (before ++ ',' :: after)

/-- A value may be followed by this: it cannot be part of the value. -/
def Follows (text : Text) : Prop :=
  ∃ char rest, text = char :: rest ∧ (Cursor.isBlank char ∨ char = ',' ∨ char = '\x7d')

theorem follows_blanks {blanks rest : Text} (isBlanks : IsBlanks blanks) (ends : Follows rest) :
    Follows (blanks ++ rest) := by
  cases blanks with
  | nil => exact ends
  | cons char blanks => exact ⟨char, blanks ++ rest, rfl, Or.inl (isBlanks char (by simp))⟩

/-! ## The grammar of objects -/

section Grammar

variable {Value : Type}

/-- The members of an object, given how a value is written behind the colon. -/
inductive IsMembers (writes : Text → Value → Prop) :
    (isFirst : Bool) → Text → List (Text × Value) → Prop
  | nil {isFirst : Bool} {blanks : Text} (isBlanks : IsBlanks blanks) :
      IsMembers writes isFirst blanks []
  | cons {isFirst : Bool} {separator written blanks value rest : Text} {key : Text}
      {denoted : Value} {members : List (Text × Value)} (separates : Separates isFirst separator)
      (spells : Spells written key) (isBlanks : IsBlanks blanks) (isValue : writes value denoted)
      (others : IsMembers writes false rest members) :
      IsMembers writes isFirst
        (separator ++ '"' :: (written ++ '"' :: (blanks ++ ':' :: (value ++ rest))))
        ((key, denoted) :: members)

/-- An object with blanks before it. -/
def IsObject (writes : Text → Value → Prop) (text : Text) (members : List (Text × Value)) : Prop :=
  ∃ blanks inner, IsBlanks blanks ∧ IsMembers writes true inner members ∧
    text = blanks ++ '\x7b' :: (inner ++ ['\x7d'])

variable {writes : Text → Value → Prop} {isFirst : Bool} {text : Text}
  {members : List (Text × Value)}

theorem IsMembers.length_le (isMembers : IsMembers writes isFirst text members) :
    members.length ≤ text.length := by
  induction isMembers with
  | nil => simp
  | cons _ _ _ _ _ ih => simp; omega

theorem IsMembers.follows (isMembers : IsMembers writes false text members) (rest : Text) :
    Follows (text ++ '\x7d' :: rest) := by
  cases isMembers with
  | nil isBlanks => exact follows_blanks isBlanks ⟨'\x7d', rest, rfl, by simp⟩
  | cons separates _ _ _ _ =>
      cases separates with
      | later areBefore _ =>
          rw [List.append_assoc, List.append_assoc]
          exact follows_blanks areBefore ⟨',', _, rfl, by simp⟩

end Grammar

/-- A string with blanks before it. -/
def IsString (text denoted : Text) : Prop :=
  ∃ blanks written, IsBlanks blanks ∧ Spells written denoted ∧
    text = blanks ++ '"' :: (written ++ ['"'])

/-! ## Reading objects -/

section Reading

variable {isFirst : Bool} {separator written key blanks : Text} (position : Position) (rest : Text)

theorem nextKey_of_separates (separates : Separates isFirst separator)
    (spells : Spells written key) :
    ∃ after, nextKey isFirst ⟨position, separator ++ '"' :: (written ++ '"' :: rest)⟩ =
      .ok (some (key, ⟨after, rest⟩)) := by
  cases separates with
  | first isBlanks =>
      rcases readString_of_spells spells rest ((position.afterText separator).after '"') with
        ⟨after, reads⟩
      refine ⟨after, ?_⟩
      rw [nextKey, skipBlanks_append isBlanks rfl]
      simp [reads, Except.map]
  | @later before gap areBefore areAfter =>
      rcases readString_of_spells spells rest
        ((((position.afterText before).after ',').afterText gap).after '"') with ⟨after, reads⟩
      have noBlank : Cursor.isBlank '"' = false := rfl
      refine ⟨after, ?_⟩
      rw [List.append_assoc, nextKey, List.cons_append, skipBlanks_append areBefore rfl]
      simp [skipBlanks_append areAfter noBlank, reads, Except.map]

theorem nextKey_of_isBlanks (isBlanks : IsBlanks blanks) :
    nextKey isFirst ⟨position, blanks ++ '\x7d' :: rest⟩ = .ok none := by
  rw [nextKey, skipBlanks_append isBlanks rfl]
  rfl

theorem colon_of_isBlanks (isBlanks : IsBlanks blanks) :
    ∃ after, colon ⟨position, blanks ++ ':' :: rest⟩ = .ok ⟨after, rest⟩ := by
  rw [colon, skipBlanks_append isBlanks rfl]
  exact ⟨_, rfl⟩

/-- A key and its colon are read, and what is left is the value. -/
theorem exists_nextKey_colon (separates : Separates isFirst separator)
    (spells : Spells written key) (isBlanks : IsBlanks blanks) :
    ∃ keyEnd after,
      nextKey isFirst
          ⟨position, separator ++ '"' :: (written ++ '"' :: (blanks ++ ':' :: rest))⟩ =
        .ok (some (key, keyEnd)) ∧
      colon keyEnd = .ok ⟨after, rest⟩ := by
  rcases nextKey_of_separates position (blanks ++ ':' :: rest) separates spells with
    ⟨keyEnd, readsKey⟩
  rcases colon_of_isBlanks keyEnd rest isBlanks with ⟨after, readsColon⟩
  exact ⟨_, after, readsKey, readsColon⟩

theorem enter_of_lt {depth : Nat} (shallow : depth + 1 < maxDepth) (cursor : Cursor) :
    enter depth cursor = .ok cursor.next :=
  if_neg (Nat.not_le.mpr shallow)

theorem endOfObject_of_isBlanks (isBlanks : IsBlanks blanks) :
    ∃ after, endOfObject ⟨position, blanks ++ '\x7d' :: rest⟩ = .ok ⟨after, rest⟩ := by
  rw [endOfObject, skipBlanks_append isBlanks rfl]
  exact ⟨_, rfl⟩

theorem readValue_of_isString {text denoted : Text} (isString : IsString text denoted)
    (fuel depth : Nat) :
    ∃ after, readValue (fuel + 1) depth ⟨position, text ++ rest⟩ =
      .ok (.string denoted, ⟨after, rest⟩) := by
  rcases isString with ⟨blanks, written, isBlanks, spells, rfl⟩
  rcases readString_of_spells spells rest ((position.afterText blanks).after '"') with
    ⟨after, reads⟩
  refine ⟨after, ?_⟩
  rw [List.append_assoc, List.cons_append, List.append_assoc, readValue,
    skipBlanks_append isBlanks rfl]
  simp [reads, bind, Except.bind, pure, Except.pure]

theorem readText_of_isString {text denoted : Text} (isString : IsString text denoted) :
    ∃ after, readText ⟨position, text ++ rest⟩ = .ok (denoted, ⟨after, rest⟩) := by
  rcases isString with ⟨blanks, written, isBlanks, spells, rfl⟩
  rcases readString_of_spells spells rest ((position.afterText blanks).after '"') with
    ⟨after, reads⟩
  refine ⟨after, ?_⟩
  rw [List.append_assoc, List.cons_append, List.append_assoc, readText,
    skipBlanks_append isBlanks rfl]
  exact reads

theorem endOfText_of_isBlanks (isBlanks : IsBlanks blanks) :
    endOfText ⟨position, blanks⟩ = .ok () := by
  rw [endOfText, skipBlanks_of_isBlanks isBlanks]
  rfl

end Reading

/-- Members put in one after the other, each with a text for its value. -/
def insertTexts (members : Members Json) (pairs : List (Text × Text)) : Members Json :=
  pairs.foldl (fun members pair => members.insert pair.1 (.string pair.2)) members

theorem readMembers_of_isMembers {isFirst : Bool} {text : Text} {pairs : List (Text × Text)}
    {fuel : Nat} (isMembers : IsMembers IsString isFirst text pairs) (enough : pairs.length < fuel)
    (depth : Nat) (members : Members Json) (position : Position) (rest : Text) :
    ∃ after blanks, IsBlanks blanks ∧
      readMembers fuel depth isFirst members ⟨position, text ++ '\x7d' :: rest⟩ =
        .ok (insertTexts members pairs, ⟨after, blanks ++ '\x7d' :: rest⟩) := by
  induction isMembers generalizing fuel members position with
  | @nil isFirst blanks isBlanks =>
      rcases fuel with _ | fuel
      · contradiction
      · refine ⟨position, blanks, isBlanks, ?_⟩
        rw [readMembers, nextKey_of_isBlanks position rest isBlanks]
        rfl
  | @cons isFirst separator written blanks value others key denoted pairs separates spells isBlanks
      isString _ ih =>
      -- Besides the member itself, its value needs some fuel.
      rcases fuel with _ | _ | fuel
      · contradiction
      · simp at enough
      · simp only [List.append_assoc, List.cons_append]
        rcases exists_nextKey_colon position (value ++ (others ++ '\x7d' :: rest)) separates spells
          isBlanks with ⟨keyEnd, colonEnd, readsKey, readsColon⟩
        rcases readValue_of_isString colonEnd (others ++ '\x7d' :: rest) isString fuel depth with
          ⟨valueEnd, readsValue⟩
        have enoughLeft : pairs.length < fuel + 1 := Nat.lt_of_succ_lt_succ enough
        rcases ih enoughLeft (members.insert key (.string denoted)) valueEnd with
          ⟨after, left, areBlanks, readsOthers⟩
        refine ⟨after, left, areBlanks, ?_⟩
        rw [readMembers, readsKey, ok_bind]
        simp only [readsColon, readsValue, readsOthers, ok_bind]
        rfl

/-- One level below the top, an object of strings is read as its members one after the other. -/
theorem readObject_of_isObject {text : Text} {pairs : List (Text × Text)}
    (isObject : IsObject IsString text pairs) (position : Position) (rest : Text) :
    ∃ after, readObject 1 ⟨position, text ++ rest⟩ = .ok (insertTexts [] pairs, ⟨after, rest⟩) := by
  rcases isObject with ⟨blanks, inner, isBlanks, isMembers, rfl⟩
  have enough : pairs.length < 2 * (inner ++ '\x7d' :: rest).length + 2 := by
    have bound := isMembers.length_le
    rw [List.length_append]
    omega
  rcases readMembers_of_isMembers isMembers enough 2 []
    ((position.afterText blanks).after '\x7b') rest with ⟨last, left, areBlanks, readsMembers⟩
  rcases endOfObject_of_isBlanks last rest areBlanks with ⟨after, ends⟩
  refine ⟨after, ?_⟩
  simp only [List.append_assoc, List.cons_append, List.nil_append]
  rw [readObject, skipBlanks_append isBlanks rfl]
  simp only [enter_of_lt (show 1 + 1 < maxDepth by decide), Cursor.next_cons, ok_bind,
    readsMembers, ends]
  rfl

/-! ## The way in which objects are printed -/

theorem isString_text (text : Text) : IsString (Json.string text).text text := by
  refine ⟨[], text.flatMap escapedChar, isBlanks_nil, spells_printed text, ?_⟩
  simp [Json.text, stringText]

section Printed

variable {Value : Type} {writes : Text → Value → Prop} {form : Value → Json}
  (printed : ∀ value, writes (form value).text value)

include printed in
theorem isMembers_membersText {isFirst : Bool} {separator : Text}
    (separates : Separates isFirst separator) (member : Text × Value)
    (members : List (Text × Value)) :
    IsMembers writes isFirst
      (separator ++ membersText ((member :: members).map fun member => (member.1, form member.2)))
      (member :: members) := by
  induction members generalizing isFirst separator member with
  | nil =>
      have others : IsMembers writes false [] [] := .nil isBlanks_nil
      simpa [membersText, stringText] using
        IsMembers.cons separates (spells_printed member.1) isBlanks_nil (printed member.2) others
  | cons next members ih =>
      have others := ih (.later isBlanks_nil isBlanks_nil) next
      simpa [membersText, stringText] using
        IsMembers.cons separates (spells_printed member.1) isBlanks_nil (printed member.2) others

include printed in
theorem isObject_text (members : List (Text × Value)) :
    IsObject writes (Json.object (members.map fun member => (member.1, form member.2))).text
      members := by
  have first : Separates true [] := .first isBlanks_nil
  have isMembers : IsMembers writes true
      (membersText (members.map fun member => (member.1, form member.2))) members := by
    cases members with
    | nil => exact .nil isBlanks_nil
    | cons member members => exact isMembers_membersText printed first member members
  exact ⟨[], _, isBlanks_nil, isMembers, by simp [Json.text]⟩

end Printed

end Json

end ImportResolution
