import TextVectors.Json.Text
import TextVectors.Proofs.Json.Numbers
import TextVectors.Proofs.Lists

/-!
# Values that have been written

Whatever is written is a value of the grammar, and a reader finds in it what was
written. `Conveys` says so of the text alone, wherever it comes to stand: it goes from
the texts of items and members to those of lists and records, for a reader that may
also find nothing in some of them.
-/

namespace TextVectors

namespace Json

/-! ## The bytes of texts -/

/-- The bytes of a text. -/
def utf8 (text : String) : List UInt8 :=
  text.toUTF8.toList

theorem toList_loop (bytes : ByteArray) (index : Nat) (before : List UInt8) :
    ByteArray.toList.loop bytes index before =
      before.reverse ++ bytes.data.toList.drop index := by
  fun_induction ByteArray.toList.loop bytes index before with
  | case1 index before inside ih =>
      have found : bytes.get! index = bytes.data[index]! := rfl
      have length : index < bytes.data.toList.length := inside
      rw [ih, found, getElem!_pos bytes.data index inside, List.drop_eq_getElem_cons length]
      simp
  | case2 index before outside =>
      have length : bytes.data.toList.length ≤ index := Nat.le_of_not_lt outside
      simp [List.drop_eq_nil_of_le length]

theorem utf8_eq (text : String) : utf8 text = text.toList.flatMap String.utf8EncodeChar := by
  have encoded : text.toUTF8 = text.toList.utf8Encode := String.utf8Encode_toList.symm
  rw [utf8, ByteArray.toList, toList_loop, encoded, List.utf8Encode, List.data_toByteArray]
  simp

theorem fromUTF8?_utf8 (text : String) :
    String.fromUTF8? (utf8 text).toByteArray = some text := by
  rw [fromUTF8?_eq_some_iff, utf8_eq, ← String.utf8Encode_toList]
  rfl

@[simp]
theorem utf8_append (text later : String) : utf8 (text ++ later) = utf8 text ++ utf8 later := by
  simp [utf8_eq]

theorem utf8_intercalate (values : List String) :
    utf8 (",".intercalate values) = joined (values.map utf8) := by
  have comma : utf8 "," = [0x2C] := by
    rw [utf8_eq]
    rfl
  induction values with
  | nil =>
      rw [String.intercalate_nil, utf8_eq]
      rfl
  | cons value values ih =>
      cases values with
      | nil => simp [joined, behindCommas]
      | cons next later =>
          rw [String.intercalate_cons_cons, utf8_append, utf8_append, comma, ih]
          simp [joined, behindCommas]

/-! ## Strings -/

/-- What stands between the quotes of a text that has been written. -/
def bodyOf (text : String) : List UInt8 :=
  (text.toList.flatMap escaped).flatMap String.utf8EncodeChar

theorem codeUnit_of_control {c : Char} (control : c.toNat < 0x20) :
    CodeUnit ([0x30, 0x30] ++ (Number.writeByte c.toNat.toUInt8).flatMap String.utf8EncodeChar)
      c.toNat := by
  have read : ∀ value : Fin 0x20, (hexUnit ([0x30, 0x30] ++
      (Number.writeByte value.val.toUInt8).flatMap String.utf8EncodeChar)).toOption =
        some (value.val, []) := by
    decide +kernel
  have unit := eq_ok_of_toOption (read ⟨c.toNat, control⟩)
  rcases hexUnit_eq_ok_iff.mp unit with ⟨digits, unit, same⟩
  rw [List.append_nil] at same
  exact same ▸ unit

theorem denotes_escaped (c : Char) {body : List UInt8} {text : List Char}
    (later : Denotes body text) :
    Denotes ((escaped c).flatMap String.utf8EncodeChar ++ body) (c :: text) := by
  have eq_of_toNat (other : Char) (same : c.toNat = other.toNat) : c = other :=
    Char.toNat_inj.mp same
  unfold escaped
  split_ifs with quote backslash back feed line return_ tab control
  · subst quote
    exact @Denotes.short 0x22 _ _ _ (by decide) later
  · subst backslash
    exact @Denotes.short 0x5C _ _ _ (by decide) later
  · rcases eq_of_toNat '\x08' back with rfl
    exact @Denotes.short 0x62 _ _ _ (by decide) later
  · rcases eq_of_toNat '\x0c' feed with rfl
    exact @Denotes.short 0x66 _ _ _ (by decide) later
  · subst line
    exact @Denotes.short 0x6E _ _ _ (by decide) later
  · subst return_
    exact @Denotes.short 0x72 _ _ _ (by decide) later
  · subst tab
    exact @Denotes.short 0x74 _ _ _ (by decide) later
  · have front : ['\\', 'u', '0', '0'].flatMap String.utf8EncodeChar = [0x5C, 0x75, 0x30, 0x30] :=
      rfl
    have split : '\\' :: 'u' :: '0' :: '0' :: Number.writeByte c.toNat.toUInt8 =
        ['\\', 'u', '0', '0'] ++ Number.writeByte c.toNat.toUInt8 := rfl
    have digits := Denotes.unit (codeUnit_of_control control) later
    rw [split, List.flatMap_append, front]
    simpa using digits
  · have plain := Denotes.plain (Nat.le_of_not_lt control) quote backslash later
    simpa using plain

theorem denotes_bodyOf (text : String) : Denotes (bodyOf text) text.toList := by
  unfold bodyOf
  induction text.toList with
  | nil => exact .nil
  | cons c rest ih =>
      rw [List.flatMap_cons, List.flatMap_append]
      exact denotes_escaped c ih

theorem utf8_writeString (text : String) : utf8 (writeString text) = quoted (bodyOf text) := by
  have quote : utf8 "\"" = [0x22] := by
    rw [utf8_eq]
    rfl
  simp only [writeString, utf8_append, quote]
  simp [utf8_eq, quoted, bodyOf]

/-! ## Containers -/

/-- A value whose bytes are those of a text. -/
structure Item.Spells (item : Item) (text : String) : Prop where
  text_eq : item.text = utf8 text
  value : Value item.value

theorem utf8_writeList {items : List Item} {values : List String}
    (spelled : List.Forall₂ Item.Spells items values) :
    utf8 (writeList values) = listText [] items := by
  have opening : utf8 "[" = [0x5B] := by
    rw [utf8_eq]
    rfl
  have closing : utf8 "]" = [0x5D] := by
    rw [utf8_eq]
    rfl
  have pieces : values.map utf8 = items.map Item.text := by
    induction spelled with
    | nil => rfl
    | cons first _ ih => rw [List.map_cons, List.map_cons, first.text_eq, ih]
  simp [writeList, utf8_intercalate, opening, closing, pieces, listText, enclosed]

/-- The member of a name, as it is written. -/
def memberOf (name : String) (item : Item) : Member where
  before := []
  key := bodyOf name
  between := []
  item
  blanks_before := blanks_nil
  body_key := (denotes_bodyOf name).body
  blanks_between := blanks_nil

theorem named_memberOf (name : String) (item : Item) : (memberOf name item).Named name :=
  denotes_bodyOf name

theorem utf8_writeObject {fields : List (String × Item)} {members : List (String × String)}
    (spelled : List.Forall₂ (fun field member => field.1 = member.1 ∧ field.2.Spells member.2)
      fields members) :
    utf8 (writeObject members) =
      objectText [] (fields.map fun field => memberOf field.1 field.2) := by
  have opening : utf8 "\x7b" = [0x7B] := by
    rw [utf8_eq]
    rfl
  have closing : utf8 "\x7d" = [0x7D] := by
    rw [utf8_eq]
    rfl
  have colon : utf8 ":" = [0x3A] := by
    rw [utf8_eq]
    rfl
  have written : writeObject members = "\x7b" ++
      ",".intercalate (members.map fun member => writeString member.1 ++ ":" ++ member.2) ++
        "\x7d" := rfl
  have pieces :
      (members.map fun member => writeString member.1 ++ ":" ++ member.2).map utf8 =
        (fields.map fun field => memberOf field.1 field.2).map Member.text := by
    clear written
    induction spelled with
    | nil => rfl
    | cons first _ ih =>
        simp only [List.map_cons, ih, utf8_append, utf8_writeString, colon, Member.text, memberOf,
          first.1, first.2.text_eq]
        simp
  simp only [written, utf8_append, utf8_intercalate, opening, closing, pieces]
  simp [objectText, enclosed]

/-! ## Natural numbers -/

/-- Digits of a number, which all fit the significand. -/
structure Counts (digits : List UInt8) (value : Nat) : Prop where
  whole : Whole digits
  extended : extend 0 0 digits = (value, digits.length, false)

theorem utf8_toString (value : Nat) :
    utf8 (toString value) =
      if value < 10 then [UInt8.ofNat (0x30 + value)]
      else utf8 (toString (value / 10)) ++ [UInt8.ofNat (0x30 + value % 10)] := by
  have digit : ∀ digit : Fin 10, String.utf8EncodeChar (Nat.digitChar digit) =
      [UInt8.ofNat (0x30 + digit)] := by
    decide
  simp only [Nat.toString_eq_ofList_toDigits, utf8_eq, String.toList_ofList]
  rw [Nat.toDigits_eq_if (by decide)]
  split_ifs with small
  · simpa using digit ⟨value, small⟩
  · simpa using digit ⟨value % 10, Nat.mod_lt _ (by decide)⟩

theorem extend_concat {start taken value count : Nat} {digits : List UInt8} {digit : UInt8}
    (whole : extend start taken digits = (value, count, false))
    (fits : value * 10 + digitValue digit < significandBound) :
    extend start taken (digits ++ [digit]) = (value * 10 + digitValue digit, count + 1, false) := by
  induction digits generalizing start taken with
  | nil =>
      cases whole
      simp only [List.nil_append, extend, fits, if_true]
  | cons first digits ih =>
      simp only [extend, List.cons_append] at whole ⊢
      split_ifs at whole ⊢ with small
      · exact ih whole
      · cases whole

theorem counts_toString {value : Nat} (small : value < significandBound) :
    Counts (utf8 (toString value)) value := by
  have digit : ∀ digit : Fin 10, Digit (UInt8.ofNat (0x30 + digit)) ∧
      digitValue (UInt8.ofNat (0x30 + digit)) = digit ∧
      (UInt8.ofNat (0x30 + digit) = 0x30 → digit = 0) := by
    decide
  induction value using Nat.strong_induction_on with
  | h value ih =>
    rw [utf8_toString]
    split_ifs with one
    · rcases digit ⟨value, one⟩ with ⟨isDigit, worth, zero⟩
      constructor
      · by_cases nothing : value = 0
        · subst nothing
          exact .zero
        · refine .digits isDigit ?_ (by simp)
          intro same
          exact nothing (congrArg Fin.val (zero same))
      · simp only [extend, Nat.zero_mul, Nat.zero_add, worth, small, if_true, List.length_singleton]
    · -- The digits of the value without its last one, and the last one behind them.
      have front := ih (value / 10) (by omega) (by omega)
      rcases digit ⟨value % 10, Nat.mod_lt _ (by decide)⟩ with ⟨isDigit, worth, _⟩
      have together : value / 10 * 10 + value % 10 = value := Nat.div_add_mod' value 10
      rcases front with ⟨whole, extended⟩
      have fits : value / 10 * 10 + digitValue (UInt8.ofNat (0x30 + value % 10)) <
          significandBound := by
        rwa [worth, together]
      constructor
      · generalize utf8 (toString (value / 10)) = digits at whole extended
        cases whole with
        | zero =>
            have nothing : 0 = value / 10 := congrArg Prod.fst extended
            omega
        | digits first positive others =>
            refine .digits first positive ?_
            intro byte mem
            rcases List.mem_append.mp mem with inside | last
            · exact others byte inside
            · exact List.mem_singleton.mp last ▸ isDigit
      · rw [extend_concat extended fits, worth, together, List.length_append,
          List.length_singleton]

theorem Counts.value {digits : List UInt8} {value : Nat} (counts : Counts digits value) :
    Value digits := by
  have unsigned := Unsigned.mk counts.whole .none .none
  simpa using Value.number unsigned

theorem Counts.number {digits : List UInt8} {value : Nat} (counts : Counts digits value) :
    number digits = .ok (.natural value, []) := by
  rcases counts with ⟨whole, extended⟩
  cases whole with
  | zero =>
      have nothing : 0 = value := congrArg Prod.fst extended
      subst nothing
      rfl
  | @digits first others digit positive all =>
      have minus : first ≠ 0x2D := digit.ne (by decide)
      have taken := takeWhile_isDigit all endsNumber_nil.endsDigits
      have dropped := dropWhile_isDigit all endsNumber_nil.endsDigits
      rw [List.append_nil] at taken dropped
      rw [number_of_ne minus, unsigned_eq_ok_iff]
      refine .inr ⟨first, others, rfl, isDigit_iff.mpr digit, positive, ?_⟩
      rw [wholeDigits, taken, dropped, excess, extended, Nat.sub_self]
      rfl

/-! ## What is read of what was written -/

variable {α β γ : Type}

/-- A reader finds a value in a text that was written, wherever the text stands: this value and no
other if it is `sound`, and none if it is not. -/
def Conveys (read : Reader α) (text : String) (x : α) (sound : Prop) : Prop :=
  ∃ item : Item, item.Spells text ∧ FindsWithin read item.value fun found => sound ∧ x = found

theorem FindsWithin.congr {read : Reader α} {v : List UInt8} {allowed allowed' : α → Prop}
    (finds : FindsWithin read v allowed) (same : ∀ x, allowed x ↔ allowed' x) :
    FindsWithin read v allowed' := by
  intro blanks blank rest ends rest' found
  rw [← same found]
  exact finds blank ends

theorem conveys_of_value {read : Reader α} {text : String} {x : α} {sound : Prop}
    (value : Value (utf8 text))
    (finds : FindsWithin read (utf8 text) fun found => sound ∧ x = found) :
    Conveys read text x sound := by
  have same : Item.text ⟨[], utf8 text, [], blanks_nil, blanks_nil⟩ = utf8 text := by
    simp [Item.text]
  exact ⟨_, ⟨same, value⟩, finds⟩

theorem conveys_string (text : String) : Conveys string (writeString text) text True := by
  have value : Value (utf8 (writeString text)) := by
    rw [utf8_writeString]
    exact .string (denotes_bodyOf text).body
  have only {found : String} : Text (utf8 (writeString text)) found ↔ text = found := by
    rw [utf8_writeString]
    constructor
    · rintro ⟨body, denotes, same⟩
      rw [quoted, quoted, List.cons.injEq, List.append_left_inj] at same
      exact Denotes.unique (same.2 ▸ denotes_bodyOf text) denotes
    · rintro rfl
      exact ⟨bodyOf text, denotes_bodyOf text, rfl⟩
  apply conveys_of_value value
  exact FindsWithin.congr (Finds.within (string_finds value)) fun found => by simp [only]

theorem conveys_natural {value : Nat} (small : value < significandBound) :
    Conveys size (toString value) value True := by
  have counts := counts_toString small
  refine conveys_of_value counts.value (FindsWithin.congr (size_finds counts.number small) ?_)
  simp [eq_comm]

theorem Conveys.map {read : Reader α} {read' : Reader β} {f : α → β} {text : String} {x : α}
    {sound : Prop} (conveys : Conveys read text x sound)
    (same : ∀ bytes, read' bytes = read bytes >>= fun found => return (f found.1, found.2)) :
    Conveys read' text (f x) sound := by
  rcases conveys with ⟨item, spells, finds⟩
  refine ⟨item, spells, ?_⟩
  intro blanks blank rest ends rest' found
  simp only [same, bind_eq_ok_iff, pure, Except.pure, Except.ok.injEq, Prod.exists, Prod.mk.injEq,
    finds blank ends]
  constructor
  · rintro ⟨_, _, ⟨⟨given, rfl⟩, rfl⟩, rfl, rfl⟩
    exact ⟨⟨given, rfl⟩, rfl⟩
  · rintro ⟨⟨given, rfl⟩, rfl⟩
    exact ⟨x, _, ⟨⟨given, rfl⟩, rfl⟩, rfl, rfl⟩

/-- A whole text is read as the value that it conveys. -/
theorem Conveys.readWhole {read : Reader α} {text : String} {x found : α} {sound : Prop}
    (conveys : Conveys read text x sound) :
    readWhole read (utf8 text) = .ok found ↔ sound ∧ x = found := by
  rcases conveys with ⟨item, ⟨same, _⟩, finds⟩
  have ends : EndsNumber item.after := by
    have nothing := endsNumber_append item.blanks_after endsNumber_nil
    rwa [List.append_nil] at nothing
  simp only [readWhole_eq_ok_iff, ← same, Item.text, finds item.blanks_before ends]
  constructor
  · rintro ⟨_, _, given, rfl⟩
    exact given
  · intro given
    exact ⟨_, item.blanks_after, given, rfl⟩

/-! ## What is read of containers -/

/-- A reader finds in a value what it finds when nothing else is there. -/
theorem FindsWithin.alone {read : Reader α} {v : List UInt8} {allowed : α → Prop}
    (finds : FindsWithin read v allowed) (found : α) :
    read v = .ok (found, []) ↔ allowed found := by
  have here := @finds [] blanks_nil [] endsNumber_nil [] found
  simpa using here

theorem FindsWithin.as_alone {read : Reader α} {v : List UInt8} {allowed : α → Prop}
    (finds : FindsWithin read v allowed) :
    FindsWithin read v fun found => read v = .ok (found, []) := by
  intro blanks blank rest ends rest' found
  simp only [finds.alone]
  exact finds blank ends

/-- What is conveyed by the items of a list is conveyed by the list, in their order. -/
theorem conveys_list {read : Reader α} {write : β → String} {f : β → α} {sound : β → Prop}
    {xs : List β} (conveys : ∀ x ∈ xs, Conveys read (write x) (f x) (sound x)) :
    Conveys (list read) (writeList (xs.map write)) (xs.map f) (∀ x ∈ xs, sound x) := by
  rcases exists_forall₂_of_forall_mem conveys with ⟨items, all⟩
  have spelled : List.Forall₂ Item.Spells items (xs.map write) := by
    rw [List.forall₂_map_right_iff]
    exact all.flip.imp fun item x conveyed => conveyed.1
  have values : ∀ item ∈ items, Value item.value := by
    intro item mem
    rcases exists_mem_of_forall₂_right all mem with ⟨x, _, spells, _⟩
    exact spells.value
  have finds : ∀ item ∈ items, FindsWithin read item.value fun y =>
      read item.value = .ok (y, []) := by
    intro item mem
    rcases exists_mem_of_forall₂_right all mem with ⟨x, _, _, finds⟩
    exact finds.as_alone
  have whole := @list_finds _ read (fun v y => read v = .ok (y, [])) [] items blanks_nil values
    finds
  -- Item by item, what is found alone is what is conveyed.
  have same {found : List α} :
      List.Forall₂ (fun item y => read item.value = .ok (y, [])) items found ↔
        (∀ x ∈ xs, sound x) ∧ xs.map f = found := by
    clear spelled values finds whole conveys
    induction all generalizing found with
    | nil => simp [eq_comm]
    | @cons x item xs items first _ ih =>
        simp only [List.forall₂_cons_left_iff, FindsWithin.alone first.2, ih, List.forall_mem_cons,
          List.map_cons]
        constructor
        · rintro ⟨_, _, ⟨here, rfl⟩, ⟨later, rfl⟩, rfl⟩
          exact ⟨⟨here, later⟩, rfl⟩
        · rintro ⟨⟨here, later⟩, rfl⟩
          exact ⟨f x, xs.map f, ⟨here, rfl⟩, ⟨later, rfl⟩, rfl⟩
  refine conveys_of_value ?_ ?_
  · rw [utf8_writeList spelled]
    exact .list blanks_nil values
  · rw [utf8_writeList spelled]
    intro blanks blank rest _ rest' found
    simp only [whole blank, same]

/-! ## What is read of records -/

/-- What the fields of a record find in values that nothing stands around. -/
def Shape.alone {σ : Type} : Shape.Allowed σ := fun field draft v next =>
  field.read draft v = .ok (next, [])

section
variable {σ : Type} {shape : Shape σ} {name : String} {field : Field σ} {item : Item}

theorem Shape.fills_nil_iff {allowed : Shape.Allowed σ} {draft filled : σ} :
    shape.Fills allowed draft [] filled ↔ draft = filled := by
  constructor
  · intro fills
    cases fills
    rfl
  · rintro rfl
    exact .done

/-- The field of a member that was written, and no other, finds something in its value. -/
theorem Shape.findsMember_memberOf (known : shape.fields.find? (·.name = name) = some field)
    {given : σ → σ → Prop}
    (finds : ∀ draft, FindsWithin (field.read draft) item.value (given draft)) :
    shape.FindsMember Shape.alone (memberOf name item) := by
  intro other found named atField draft
  rcases named.unique (named_memberOf name item) with rfl
  rw [known, Option.some.injEq] at atField
  subst atField
  exact FindsWithin.as_alone (finds draft)

theorem Shape.gives_memberOf_iff (known : shape.fields.find? (·.name = name) = some field)
    {given : σ → σ → Prop}
    (finds : ∀ draft, FindsWithin (field.read draft) item.value (given draft))
    {draft next : σ} :
    shape.Gives Shape.alone draft (memberOf name item) next ↔
      field.isFilled draft = false ∧ given draft next := by
  rw [← FindsWithin.alone (finds draft) next]
  constructor
  · rintro ⟨other, named, atField⟩
    rcases named.unique (named_memberOf name item) with rfl
    rcases atField with ⟨unknown, _⟩ | ⟨found, same, unfilled, given⟩
    · simp [known] at unknown
    · rw [known, Option.some.injEq] at same
      subst same
      exact ⟨unfilled, given⟩
  · rintro ⟨unfilled, given⟩
    exact ⟨name, named_memberOf name item, .inr ⟨field, known, unfilled, given⟩⟩

end

/-- The first of two fields. -/
def Field.first (name : String) (read : Reader α) : Field (Option α × Option β) :=
  .of name (·.1) (fun draft x => (some x, draft.2)) read .required

/-- The second of two fields. -/
def Field.second (name : String) (read : Reader β) : Field (Option α × Option β) :=
  .of name (·.2) (fun draft y => (draft.1, some y)) read .required

/-- The shape of a record of two fields. -/
def Shape.pair (name first second : String) (readFirst : Reader α) (readSecond : Reader β) :
    Shape (Option α × Option β) where
  name := name
  fields := [.first first readFirst, .second second readSecond]
  empty := (none, none)

section
variable {name first second : String} {readFirst : Reader α} {readSecond : Reader β}

theorem Shape.find?_pair_first :
    (Shape.pair name first second readFirst readSecond).fields.find? (·.name = first) =
      some (.first first readFirst) := by
  simp [Shape.pair, Field.first, Field.of]

theorem Shape.find?_pair_second (different : first ≠ second) :
    (Shape.pair name first second readFirst readSecond).fields.find? (·.name = second) =
      some (.second second readSecond) := by
  simp [Shape.pair, Field.first, Field.second, Field.of, different]

theorem Shape.fillAbsent_pair (x : α) (y : β) :
    Shape.fillAbsent (Shape.pair name first second readFirst readSecond).fields
      (some x, some y) = .ok (some x, some y) :=
  rfl

variable {x : α} {y : β} {textFirst textSecond : String} {soundFirst soundSecond : Prop}

/-- What is conveyed by the two members of a record is conveyed by the record. -/
theorem conveys_pair (different : first ≠ second)
    (conveysFirst : Conveys readFirst textFirst x soundFirst)
    (conveysSecond : Conveys readSecond textSecond y soundSecond) :
    Conveys (Shape.pair name first second readFirst readSecond).read
      (writeObject [(first, textFirst), (second, textSecond)]) (some x, some y)
      (soundFirst ∧ soundSecond) := by
  rcases conveysFirst with ⟨itemFirst, spellsFirst, findsFirst⟩
  rcases conveysSecond with ⟨itemSecond, spellsSecond, findsSecond⟩
  let members := [memberOf first itemFirst, memberOf second itemSecond]
  have spelled : utf8 (writeObject [(first, textFirst), (second, textSecond)]) =
      objectText [] members :=
    @utf8_writeObject [(first, itemFirst), (second, itemSecond)] _
      (.cons ⟨rfl, spellsFirst⟩ (.cons ⟨rfl, spellsSecond⟩ .nil))
  have values : ∀ member ∈ members, Value member.item.value := by
    simp [members, memberOf, spellsFirst.value, spellsSecond.value]
  have knownFirst := @Shape.find?_pair_first _ _ name first second readFirst readSecond
  have knownSecond :=
    @Shape.find?_pair_second _ _ name first second readFirst readSecond different
  have inFirst (draft : Option α × Option β) :
      FindsWithin ((Field.first first readFirst).read draft) itemFirst.value _ :=
    Field.of_finds findsFirst
  have inSecond (draft : Option α × Option β) :
      FindsWithin ((Field.second second readSecond).read draft) itemSecond.value _ :=
    Field.of_finds findsSecond
  have finds : ∀ member ∈ members,
      (Shape.pair name first second readFirst readSecond).FindsMember Shape.alone member := by
    intro member mem
    simp only [members, List.mem_cons, List.not_mem_nil, or_false] at mem
    rcases mem with rfl | rfl
    · exact Shape.findsMember_memberOf knownFirst inFirst
    · exact Shape.findsMember_memberOf knownSecond inSecond
  refine conveys_of_value ?_ ?_
  · rw [spelled]
    exact .object blanks_nil values
  · rw [spelled]
    intro blanks blank rest _ rest' found
    rw [Shape.object_finds finds blanks_nil values blank]
    refine and_congr_left fun _ => ?_
    simp only [members, Shape.fills_cons_iff, Shape.fills_nil_iff,
      Shape.gives_memberOf_iff knownFirst inFirst, Shape.gives_memberOf_iff knownSecond inSecond]
    constructor
    · rintro ⟨_, ⟨_, ⟨_, _, ⟨givenFirst, rfl⟩, rfl⟩, _, ⟨_, _, ⟨givenSecond, rfl⟩, rfl⟩, rfl⟩,
        filled⟩
      rw [Shape.fillAbsent_pair] at filled
      exact ⟨⟨givenFirst, givenSecond⟩, Except.ok.inj filled⟩
    · rintro ⟨⟨givenFirst, givenSecond⟩, rfl⟩
      exact ⟨_, ⟨_, ⟨rfl, _, ⟨givenFirst, rfl⟩, rfl⟩, _, ⟨rfl, _, ⟨givenSecond, rfl⟩, rfl⟩, rfl⟩,
        Shape.fillAbsent_pair x y⟩

end

end Json

/-! ## Components -/

namespace Number.Layout

variable (layout : Layout) {decimal : Decimal}

/-- A text of digits, the marks of the layout, and the signs of a number. -/
def Numeral (text : String) : Prop :=
  ∀ c ∈ text.toList, c.isDigit = true ∨ c ∈ ['-', '.', 'e'] ∨
    c ∈ layout.wholeMark.toList ∨ c ∈ layout.plusMark.toList

theorem numeral_append_iff {front back : String} :
    layout.Numeral (front ++ back) ↔ layout.Numeral front ∧ layout.Numeral back := by
  simp only [Numeral, String.toList_append, List.mem_append, or_imp, forall_and]

theorem numeral_ofList {digits : List Char} (all : ∀ c ∈ digits, c.isDigit = true) :
    layout.Numeral (String.ofList digits) := by
  intro c mem
  rw [String.toList_ofList] at mem
  exact .inl (all c mem)

theorem isDigit_of_mem_replicate {count : Nat} {c : Char} (mem : c ∈ List.replicate count '0') :
    c.isDigit = true := by
  rw [(List.mem_replicate.mp mem).2]
  decide

theorem numeral_wholeMark : layout.Numeral layout.wholeMark :=
  fun _ mem => .inr (.inr (.inl mem))

theorem numeral_plusMark : layout.Numeral layout.plusMark :=
  fun _ mem => .inr (.inr (.inr mem))

theorem numeral_positionalText {digits : List Char} (all : ∀ c ∈ digits, c.isDigit = true)
    (place : Int) : layout.Numeral (layout.positionalText digits place) := by
  unfold positionalText
  split_ifs
  · rw [numeral_append_iff]
    refine ⟨by simp [Numeral], layout.numeral_ofList fun c mem => ?_⟩
    exact (List.mem_append.mp mem).elim isDigit_of_mem_replicate (all c)
  · rw [numeral_append_iff]
    refine ⟨layout.numeral_ofList fun c mem => ?_, layout.numeral_wholeMark⟩
    exact (List.mem_append.mp mem).elim (all c) isDigit_of_mem_replicate
  · rw [numeral_append_iff, numeral_append_iff]
    refine ⟨⟨?_, by simp [Numeral]⟩, ?_⟩
    · exact layout.numeral_ofList fun c mem => all c (List.mem_of_mem_take mem)
    · exact layout.numeral_ofList fun c mem => all c (List.mem_of_mem_drop mem)

theorem numeral_exponentText {digits : List Char} (all : ∀ c ∈ digits, c.isDigit = true)
    (place : Int) : layout.Numeral (layout.exponentText digits place) := by
  have front : layout.Numeral (String.ofList (digits.take 1)) :=
    layout.numeral_ofList fun c mem => all c (List.mem_of_mem_take mem)
  have rest : layout.Numeral
      (if digits.length ≤ 1 then "" else "." ++ String.ofList (digits.drop 1)) := by
    split
    · simp [Numeral]
    · rw [numeral_append_iff]
      refine ⟨by simp [Numeral], ?_⟩
      exact layout.numeral_ofList fun c mem => all c (List.mem_of_mem_drop mem)
  have sign : layout.Numeral (if place - 1 < 0 then "-" else layout.plusMark) := by
    split
    · simp [Numeral]
    · exact layout.numeral_plusMark
  have power : layout.Numeral (toString (place - 1).natAbs) := by
    rw [Nat.toString_eq_ofList_toDigits]
    exact layout.numeral_ofList fun c => Nat.isDigit_of_mem_toDigits (by decide) (by decide)
  simp only [exponentText, numeral_append_iff]
  exact ⟨⟨⟨⟨front, rest⟩, by simp [Numeral]⟩, sign⟩, power⟩

theorem numeral_text (negative : Bool) (decimal : Decimal) :
    layout.Numeral (layout.text negative decimal) := by
  have digits : ∀ c ∈ decimal.digits, c.isDigit = true :=
    fun c => Nat.isDigit_of_mem_toDigits (by decide) (by decide)
  simp only [text, numeral_append_iff]
  constructor
  · cases negative <;> simp [Numeral]
  · split
    · exact layout.numeral_positionalText digits _
    · exact layout.numeral_exponentText digits _

end Number.Layout

/-- Only a component that is infinite or undefined is written as nothing. -/
theorem Json.writeSingle_eq_null_iff {component : Number.Single} :
    writeSingle component = "null" ↔ component.isFinite = false := by
  unfold writeSingle Number.Single.isFinite
  cases component.value with
  | finite negative significand exponent =>
      have numeral := componentLayout.numeral_text negative
        (Number.Decimal.shortest .single significand exponent)
      simp only [Number.Binary.text?, Option.getD_some, Number.Binary.isFinite, Bool.true_eq_false,
        iff_false]
      intro same
      rw [same] at numeral
      exact absurd (numeral 'n' (by decide +kernel)) (by decide +kernel)
  | _ => simp [Number.Binary.text?, Number.Binary.isFinite]

end TextVectors
