import ImportResolution.Proofs.Json.Objects
import ImportResolution.Settings.Reader

/-!
# Documents that declare aliases

A document declares aliases if its object for them has them as its members. Whatever else it
has stands before or behind that object: members with other keys, no two of which are the
same field, with values that their fields can read, or any value under a key that is no
field.

`Settings.parse_of_declares` says that such a document can be read, and that its settings
have the aliases that are put in one after the other.
-/

namespace ImportResolution

namespace Settings

namespace Field

variable {field : Field} {settings later : Settings} {cursor after : Json.Cursor} {key : Text}

theorem key_of_ofKey? (isField : ofKey? key = some field) : field.key = key := by
  simpa using List.find?_some isField

/-- Only the field for the aliases changes them. -/
theorem aliases_of_read (other : field ≠ .aliases)
    (reads : field.read settings cursor = .ok (later, after)) :
    later.aliases = settings.aliases := by
  cases field with
  | aliases => contradiction
  | cwd | root | extensions | stripExtensions | imageTypes | imageScale =>
      rcases exists_of_bind_eq_ok reads with ⟨read, -, formed⟩
      cases formed
      rfl

end Field

/-! ## Members of a document -/

/-- A value under a key can be read, or skipped if the key is no field, wherever it stands. -/
def Passes (key value : Text) : Prop :=
  ∀ settings position rest, Json.Follows rest →
    match Field.ofKey? key with
    | none => ∃ after, Json.skipValue ⟨position, value ++ rest⟩ = .ok ⟨after, rest⟩
    | some field => ∃ later after,
        field.read settings ⟨position, value ++ rest⟩ = .ok (later, ⟨after, rest⟩)

/-- A text stands for a directory from which relative paths are taken. -/
theorem passes_cwd {value text : Text} (isString : Json.IsString value text) :
    Passes Field.cwd.key value := by
  rintro settings position rest -
  rcases isString with ⟨blanks, written, isBlanks, spells, rfl⟩
  have alone : Json.IsString ('"' :: (written ++ ['"'])) text :=
    ⟨[], written, Json.isBlanks_nil, spells, rfl⟩
  rcases Json.readText_of_isString (position.afterText blanks) rest alone with ⟨after, reads⟩
  have isField : Field.ofKey? Field.cwd.key = some .cwd := rfl
  rw [isField]
  refine ⟨{ settings with cwd := some (BaseDirectory.ofText text) }, after, ?_⟩
  simp only [List.append_assoc, List.cons_append, List.nil_append] at reads ⊢
  rw [Field.read, Json.readOptional, Json.skipBlanks_append isBlanks rfl]
  simp [reads, bind, Except.bind, pure, Except.pure]

/-- A key with the text of its value, in a document that declares aliases. -/
inductive IsMember (pairs : List (Text × Text)) : Text × Text → Prop
  | aliases {value : Text} (isObject : Json.IsObject Json.IsString value pairs) :
      IsMember pairs (Field.aliases.key, value)
  | other {key value : Text} (noAliases : key ≠ Field.aliases.key) (passes : Passes key value) :
      IsMember pairs (key, value)

/-- The fields for which members of a document have values. -/
def fieldsOf (members : List (Text × Text)) : List Field :=
  members.filterMap fun member => Field.ofKey? member.1

/-- A document whose object for the aliases has these members in this order. -/
def Declares (document : Text) (pairs : List (Text × Text)) : Prop :=
  ∃ members text blanks, Json.IsObject Eq text members ∧ Json.IsBlanks blanks ∧
    document = text ++ blanks ∧ (fieldsOf members).Nodup ∧
    Field.aliases.key ∈ members.map Prod.fst ∧ ∀ member ∈ members, IsMember pairs member

section Member

variable {pairs : List (Text × Text)} {key value rest : Text}

/-- Whether by this member or before it, the aliases are declared once it has been read. -/
theorem IsMember.exists_read {field : Field} (isMember : IsMember pairs (key, value))
    (isField : Field.ofKey? key = some field) (follows : Json.Follows rest) (settings : Settings)
    (position : Json.Position) :
    ∃ later after, field.read settings ⟨position, value ++ rest⟩ = .ok (later, ⟨after, rest⟩) ∧
      (Field.aliases.key = key ∨ settings.aliases = Json.insertTexts [] pairs →
        later.aliases = Json.insertTexts [] pairs) := by
  cases isMember with
  | aliases isObject =>
      cases isField
      rcases Json.readObject_of_isObject isObject position rest with ⟨after, reads⟩
      refine ⟨{ settings with aliases := Json.insertTexts [] pairs }, after, ?_, fun _ => rfl⟩
      rw [Field.read, reads]
      rfl
  | other noAliases passes =>
      have reads := passes settings position rest follows
      rw [isField] at reads
      rcases reads with ⟨later, after, reads⟩
      have other : field ≠ .aliases := by
        rintro rfl
        exact noAliases (Field.key_of_ofKey? isField).symm
      refine ⟨later, after, reads, ?_⟩
      rintro (isAliases | declared)
      · exact absurd isAliases.symm noAliases
      · rw [Field.aliases_of_read other reads, declared]

theorem IsMember.exists_skip (isMember : IsMember pairs (key, value))
    (noField : Field.ofKey? key = none) (follows : Json.Follows rest) (position : Json.Position) :
    ∃ after, Json.skipValue ⟨position, value ++ rest⟩ = .ok ⟨after, rest⟩ := by
  cases isMember with
  | aliases => contradiction
  | other noAliases passes =>
      have skips := passes {} position rest follows
      rwa [noField] at skips

end Member

/-! ## Reading a document -/

section Reading

variable {isFirst : Bool} {separator written blanks key : Text} {fuel : Nat} {seen : List Field}
  {settings : Settings} (separates : Json.Separates isFirst separator)
  (spells : Json.Spells written key) (isBlanks : Json.IsBlanks blanks)

include separates spells isBlanks in
theorem exists_readFields_eq_of_skip (noField : Field.ofKey? key = none)
    (position : Json.Position) (value rest : Text)
    (skips : ∀ position, ∃ after,
      Json.skipValue ⟨position, value ++ rest⟩ = .ok ⟨after, rest⟩) :
    ∃ after, readFields (fuel + 1) isFirst seen settings
        ⟨position, separator ++ '"' :: (written ++ '"' :: (blanks ++ ':' :: (value ++ rest)))⟩ =
      readFields fuel false seen settings ⟨after, rest⟩ := by
  rcases Json.exists_nextKey_colon position (value ++ rest) separates spells isBlanks with
    ⟨keyEnd, colonEnd, readsKey, readsColon⟩
  rcases skips colonEnd with ⟨after, skipsValue⟩
  refine ⟨after, ?_⟩
  rw [readFields, readsKey, ok_bind]
  simp only [noField, readsColon, skipsValue, ok_bind]

include separates spells isBlanks in
theorem exists_readFields_eq_of_read {field : Field} {declared : Settings → Prop}
    (isField : Field.ofKey? key = some field) (unseen : field ∉ seen) (position : Json.Position)
    (value rest : Text)
    (reads : ∀ position, ∃ later after,
      field.read settings ⟨position, value ++ rest⟩ = .ok (later, ⟨after, rest⟩) ∧
        declared later) :
    ∃ later after, declared later ∧
      readFields (fuel + 1) isFirst seen settings
          ⟨position, separator ++ '"' :: (written ++ '"' :: (blanks ++ ':' :: (value ++ rest)))⟩ =
        readFields fuel false (field :: seen) later ⟨after, rest⟩ := by
  rcases Json.exists_nextKey_colon position (value ++ rest) separates spells isBlanks with
    ⟨keyEnd, colonEnd, readsKey, readsColon⟩
  rcases reads colonEnd with ⟨later, after, readsValue, isDeclared⟩
  refine ⟨later, after, isDeclared, ?_⟩
  rw [readFields, readsKey, ok_bind]
  simp only [isField, if_neg unseen, readsColon, readsValue, ok_bind]

end Reading

theorem exists_readFields {pairs members : List (Text × Text)} {isFirst : Bool} {text : Text}
    {fuel : Nat} {seen : List Field} (isMembers : Json.IsMembers Eq isFirst text members)
    (areMembers : ∀ member ∈ members, IsMember pairs member) (enough : members.length < fuel)
    (distinct : (fieldsOf members).Nodup) (unseen : ∀ field ∈ fieldsOf members, field ∉ seen)
    (settings : Settings) (position : Json.Position) (rest : Text) :
    ∃ later after blanks, Json.IsBlanks blanks ∧
      readFields fuel isFirst seen settings ⟨position, text ++ '\x7d' :: rest⟩ =
        .ok (later, ⟨after, blanks ++ '\x7d' :: rest⟩) ∧
      (Field.aliases.key ∈ members.map Prod.fst ∨
          settings.aliases = Json.insertTexts [] pairs →
        later.aliases = Json.insertTexts [] pairs) := by
  -- Along the members, those still to come have fields that neither repeat nor were seen, and
  -- once the aliases are declared, they stay.
  induction isMembers generalizing fuel seen settings position with
  | @nil isFirst blanks isBlanks =>
      rcases fuel with _ | fuel
      · contradiction
      · refine ⟨settings, position, blanks, isBlanks, ?_, by simp⟩
        rw [readFields, Json.nextKey_of_isBlanks position rest isBlanks]
        rfl
  | @cons isFirst separator written blanks value others key denoted members separates spells
      isBlanks isValue isMembers ih =>
      subst isValue
      rw [List.forall_mem_cons] at areMembers
      rcases areMembers with ⟨isMember, areMembers⟩
      rcases fuel with _ | fuel
      · contradiction
      have enoughLeft : members.length < fuel := Nat.lt_of_succ_lt_succ enough
      have follows := isMembers.follows rest
      simp only [List.append_assoc, List.cons_append, List.map_cons, List.mem_cons]
      cases isField : Field.ofKey? key with
      | none =>
          have sameFields : fieldsOf ((key, value) :: members) = fieldsOf members :=
            List.filterMap_cons_none isField
          rw [sameFields] at distinct unseen
          rcases exists_readFields_eq_of_skip separates spells isBlanks isField position value
            (others ++ '\x7d' :: rest) (isMember.exists_skip isField follows) with
            ⟨valueEnd, skips⟩
          rcases ih areMembers enoughLeft distinct unseen settings valueEnd with
            ⟨later, after, left, areBlanks, readsOthers, declared⟩
          refine ⟨later, after, left, areBlanks, skips.trans readsOthers, ?_⟩
          have noAliases : Field.aliases.key ≠ key := by
            rintro rfl
            contradiction
          simpa [noAliases] using declared
      | some field =>
          have moreFields : fieldsOf ((key, value) :: members) = field :: fieldsOf members :=
            List.filterMap_cons_some isField
          rw [moreFields, List.nodup_cons] at distinct
          rw [moreFields, List.forall_mem_cons] at unseen
          have unseenLeft : ∀ other ∈ fieldsOf members, other ∉ field :: seen := by
            intro other other_mem
            rw [List.mem_cons, not_or]
            exact ⟨ne_of_mem_of_not_mem other_mem distinct.1, unseen.2 other other_mem⟩
          rcases exists_readFields_eq_of_read separates spells isBlanks isField unseen.1 position
            value (others ++ '\x7d' :: rest)
            (isMember.exists_read isField follows settings) with
            ⟨middle, valueEnd, middleDeclared, reads⟩
          rcases ih areMembers enoughLeft distinct.2 unseenLeft middle valueEnd with
            ⟨later, after, left, areBlanks, readsOthers, declared⟩
          refine ⟨later, after, left, areBlanks, reads.trans readsOthers, ?_⟩
          rintro ((here | later) | before)
          · exact declared (Or.inr (middleDeclared (Or.inl here)))
          · exact declared (Or.inl later)
          · exact declared (Or.inr (middleDeclared (Or.inr before)))

/-- The settings of a document that declares aliases have them, put in one after the other. -/
theorem parse_of_declares {document : Text} {pairs : List (Text × Text)}
    (declares : Declares document pairs) :
    ∃ settings, parse document = .ok settings ∧
      settings.aliases = Json.insertTexts [] pairs := by
  rcases declares with ⟨members, text, trailing, ⟨blanks, inner, isBlanks, isMembers, rfl⟩,
    areTrailing, rfl, distinct, declared, areMembers⟩
  have enough : members.length < (inner ++ '\x7d' :: trailing).length + 1 := by
    have bound := isMembers.length_le
    rw [List.length_append]
    omega
  have unseen : ∀ field ∈ fieldsOf members, field ∉ [] := by simp
  rcases exists_readFields isMembers areMembers enough distinct unseen {}
    ((Json.Position.afterText {} blanks).after '\x7b') trailing with
    ⟨settings, last, left, areBlanks, reads, isDeclared⟩
  rcases Json.endOfObject_of_isBlanks last trailing areBlanks with ⟨after, ends⟩
  refine ⟨settings, ?_, isDeclared (Or.inl declared)⟩
  have shape : blanks ++ '\x7b' :: (inner ++ ['\x7d']) ++ trailing =
      blanks ++ '\x7b' :: (inner ++ '\x7d' :: trailing) := by simp
  rw [shape, parse, Json.Cursor.start, readDocument, Json.skipBlanks_append isBlanks rfl]
  simp only [Json.enter_of_lt (show 0 + 1 < Json.maxDepth by decide), Json.Cursor.next_cons,
    ok_bind, pure_bind, reads, ends, Json.endOfText_of_isBlanks after areTrailing]
  rfl

end Settings

end ImportResolution
