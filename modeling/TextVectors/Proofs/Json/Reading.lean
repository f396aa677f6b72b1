import TextVectors.Json.Decode
import TextVectors.Proofs.Json.Skipping

/-!
# What is read of values

A reader meets a value of the grammar, with blanks in front of it and anything
behind it. It `Finds` something if it takes just the value and what it finds is
given by the value alone. A string is found by its text, a list by what is found
of its items one by one, and a member of an object by its name and then its
value, unless it has no field.

The lemmas say so both ways: whatever a value does not hold is not found in it,
in particular nothing in a value of another kind.
-/

namespace TextVectors

namespace Json

variable {α σ : Type}

/-- The reader takes just the value, whatever stands behind it, and finds what is allowed. -/
def Finds (read : Reader α) (v : List UInt8) (allowed : α → Prop) : Prop :=
  ∀ {blanks : List UInt8}, Blanks blanks → ∀ {rest rest' : List UInt8} {found : α},
    read (blanks ++ (v ++ rest)) = .ok (found, rest') ↔ allowed found ∧ rest' = rest

/-- The same, as long as what stands behind the value could not continue a number. -/
def FindsWithin (read : Reader α) (v : List UInt8) (allowed : α → Prop) : Prop :=
  ∀ {blanks : List UInt8}, Blanks blanks → ∀ {rest : List UInt8}, EndsNumber rest →
    ∀ {rest' : List UInt8} {found : α},
      read (blanks ++ (v ++ rest)) = .ok (found, rest') ↔ allowed found ∧ rest' = rest

theorem Finds.within {read : Reader α} {v : List UInt8} {allowed : α → Prop}
    (finds : Finds read v allowed) : FindsWithin read v allowed :=
  fun blank _ _ => finds blank

theorem wrongKind_ne_ok (expected : String) (bytes : List UInt8) (found : α) :
    wrongKind expected bytes ≠ .ok found := by
  have stops (fault : Fault) (rest : List UInt8) :
      (Defect.before fault rest : Except Defect α) ≠ .ok found := by
    simp [Defect.before]
  cases bytes with
  | nil => exact stops _ _
  | cons byte rest =>
      simp only [wrongKind]
      split_ifs
      · exact bind_ne_ok (fun _ => stops _ _) _
      · exact bind_ne_ok (fun _ => stops _ _) _
      · exact bind_ne_ok (fun _ => stops _ _) _
      · exact bind_ne_ok (fun _ => stops _ _) _
      · exact bind_ne_ok (fun _ => stops _ _) _
      · exact stops _ _
      · exact stops _ _
      · simp [Defect.at]

/-- A value is a string, a list or an object, or begins with none of their bytes. -/
theorem Value.kind {v : List UInt8} (value : Value v) :
    (∃ body, Body body ∧ v = quoted body) ∨
      (∃ lead items, Blanks lead ∧ (∀ item ∈ items, Value item.value) ∧ v = listText lead items) ∨
      (∃ lead members, Blanks lead ∧ (∀ member ∈ members, Value member.item.value) ∧
        v = objectText lead members) ∨
      ∃ first others, v = first :: others ∧ first ≠ 0x22 ∧ first ≠ 0x5B ∧ first ≠ 0x7B := by
  cases value with
  | string wellFormed => exact .inl ⟨_, wellFormed, rfl⟩
  | list blank values => exact .inr (.inl ⟨_, _, blank, values, rfl⟩)
  | object blank values => exact .inr (.inr (.inl ⟨_, _, blank, values, rfl⟩))
  | number unsigned =>
      rcases unsigned.exists_cons with ⟨first, others, rfl, digit⟩
      exact .inr (.inr (.inr ⟨first, others, rfl, digit.ne (by decide), digit.ne (by decide),
        digit.ne (by decide)⟩))
  | _ => exact .inr (.inr (.inr ⟨_, _, rfl, by decide, by decide, by decide⟩))

/-! ## Strings -/

/-- A string that stands for a text. -/
def Text (v : List UInt8) (text : String) : Prop :=
  ∃ body, Denotes body text.toList ∧ v = quoted body

theorem Text.value {v : List UInt8} {text : String} (stands : Text v text) : Value v := by
  rcases stands with ⟨body, denotes, rfl⟩
  exact .string denotes.body

theorem string_finds {v : List UInt8} (value : Value v) : Finds string v (Text v) := by
  intro blanks blank rest rest' text
  rw [string, value.skipBlanks blank]
  rcases value.exists_cons with ⟨first, others, rfl, _⟩
  by_cases quote : first = 0x22
  · subst quote
    rcases value.kind with ⟨body, wellFormed, same⟩ | ⟨_, _, _, _, same⟩ | ⟨_, _, _, _, same⟩ |
      ⟨_, _, same, other, _⟩
    · rw [quoted, List.cons.injEq] at same
      rcases same with ⟨_, rfl⟩
      simp only [List.cons_append, List.append_assoc, List.nil_append,
        stringRest_append_eq_ok_iff wellFormed]
      constructor
      · rintro ⟨rfl, denotes⟩
        exact ⟨⟨body, denotes, rfl⟩, rfl⟩
      · rintro ⟨⟨other, denotes, same⟩, rfl⟩
        rw [quoted, List.cons.injEq, List.append_left_inj] at same
        exact ⟨rfl, same.2 ▸ denotes⟩
    · cases same
    · cases same
    · cases same
      exact absurd rfl other
  · have noString : ¬Text (first :: others) text := by
      rintro ⟨body, _, same⟩
      cases same
      exact quote rfl
    simp [quote, wrongKind_ne_ok, noString]

/-! ## Pieces of containers -/

/-- Pieces with commas between them, or with one in front of the first as well. -/
def strung (first : Bool) (pieces : List (List UInt8)) : List UInt8 :=
  bif first then joined pieces else behindCommas pieces

theorem strung_cons (first : Bool) (piece : List UInt8) (pieces : List (List UInt8)) :
    strung first (piece :: pieces) =
      (bif first then [] else [0x2C]) ++ (piece ++ strung false pieces) := by
  cases first <;> simp [strung, joined, behindCommas]

theorem strung_nil (first : Bool) : strung first [] = [] := by
  cases first <;> rfl

/-- A number that is an item of a container ends before what stands behind the item. -/
theorem Item.endsNumber_after (item : Item) (frame : Frame) (pieces : List (List UInt8))
    (rest : List UInt8) :
    EndsNumber (item.after ++ (strung false pieces ++ frame.closing :: rest)) :=
  endsNumber_append item.blanks_after
    (endsNumber_behindCommas (endsNumber_closing frame rest) pieces)

theorem length_le_strung {pieces : List (List UInt8)} (filled : ∀ piece ∈ pieces, piece ≠ [])
    (first : Bool) : pieces.length ≤ (strung first pieces).length := by
  induction pieces generalizing first with
  | nil => simp
  | cons piece pieces ih =>
      have here := List.length_pos_of_ne_nil (filled piece (by simp))
      have later := ih (fun other mem => filled other (by simp [mem])) false
      simp only [strung_cons, List.length_cons, List.length_append]
      omega

theorem Item.text_ne_nil {item : Item} (value : Value item.value) : item.text ≠ [] := by
  rcases value.exists_cons with ⟨first, others, same, _⟩
  simp [Item.text, same]

theorem Member.text_ne_nil (member : Member) : member.text ≠ [] := by
  simp [Member.text]

theorem length_le_items {items : List Item} (values : ∀ item ∈ items, Value item.value)
    (first : Bool) : items.length ≤ (strung first (items.map Item.text)).length := by
  rw [← List.length_map Item.text]
  apply length_le_strung
  intro piece mem
  rcases List.mem_map.mp mem with ⟨item, inside, rfl⟩
  exact Item.text_ne_nil (values item inside)

theorem length_le_members (members : List Member) (first : Bool) :
    members.length ≤ (strung first (members.map Member.text)).length := by
  rw [← List.length_map Member.text]
  apply length_le_strung
  intro piece mem
  rcases List.mem_map.mp mem with ⟨member, _, rfl⟩
  exact member.text_ne_nil

theorem length_le_listText {lead : List UInt8} {items : List Item}
    (values : ∀ item ∈ items, Value item.value) : items.length ≤ (listText lead items).length := by
  have few : items.length ≤ (joined (items.map Item.text)).length := length_le_items values true
  simp only [listText, enclosed, List.length_cons, List.length_append]
  omega

theorem length_le_enclosed {opening closing : UInt8} {lead piece : List UInt8}
    {pieces : List (List UInt8)} (mem : piece ∈ pieces) :
    piece.length ≤ (enclosed opening lead pieces closing).length := by
  have inside : piece.length ≤ (joined pieces).length := by
    cases pieces with
    | nil => cases mem
    | cons first others =>
        rcases List.mem_cons.mp mem with rfl | later
        · simp [joined]
        · have sub : (0x2C :: piece).Sublist (behindCommas others) :=
            List.sublist_flatten_of_mem (List.mem_map_of_mem later)
          have le := sub.length_le
          simp only [joined, List.length_append, List.length_cons] at le ⊢
          omega
  simp only [enclosed, List.length_cons, List.length_append]
  omega

section
variable {blanks : List UInt8} (blank : Blanks blanks) (first : Bool)
include blank

theorem nextItem_closing (rest : List UInt8) :
    nextItem first (blanks ++ (strung first [] ++ 0x5D :: rest)) = .ok (false, 0x5D :: rest) := by
  have atEnd : skipBlanks (blanks ++ (strung first [] ++ 0x5D :: rest)) = 0x5D :: rest := by
    rw [strung_nil, List.nil_append, skipBlanks_append blank, skipBlanks_cons rfl]
  simp [nextItem, atEnd]

theorem nextItem_item {item : Item} (value : Value item.value) (pieces : List (List UInt8))
    (rest : List UInt8) :
    nextItem first (blanks ++ (strung first (item.text :: pieces) ++ rest)) =
      .ok (true, item.value ++ (item.after ++ (strung false pieces ++ rest))) := by
  have text : item.text ++ (strung false pieces ++ rest) =
      item.before ++ (item.value ++ (item.after ++ (strung false pieces ++ rest))) := by
    simp [Item.text]
  have atValue {lead : List UInt8} (blankLead : Blanks lead) :
      skipBlanks (lead ++ (item.text ++ (strung false pieces ++ rest))) =
        item.value ++ (item.after ++ (strung false pieces ++ rest)) := by
    rw [text, ← List.append_assoc, value.skipBlanks (blankLead.append item.blanks_before)]
  rcases value.exists_cons with ⟨byte, others, same, _, notEnd, _⟩
  rw [same, List.cons_append] at atValue ⊢
  cases first with
  | true =>
      simp only [strung_cons, cond_true, List.nil_append, List.append_assoc]
      simp [nextItem, atValue blank, notEnd]
  | false =>
      have atComma := skipBlanks_append blank
        (0x2C :: (item.text ++ (strung false pieces ++ rest)))
      rw [skipBlanks_cons rfl] at atComma
      have behind := atValue blanks_nil
      rw [List.nil_append] at behind
      simp only [strung_cons, cond_false, List.cons_append, List.nil_append, List.append_assoc]
      simp [nextItem, atComma, behind, notEnd]

theorem nextKey_closing (rest : List UInt8) :
    nextKey first (blanks ++ (strung first [] ++ 0x7D :: rest)) = .ok (false, 0x7D :: rest) := by
  have atEnd : skipBlanks (blanks ++ (strung first [] ++ 0x7D :: rest)) = 0x7D :: rest := by
    rw [strung_nil, List.nil_append, skipBlanks_append blank, skipBlanks_cons rfl]
  simp [nextKey, atEnd]

theorem nextKey_member (member : Member) (pieces : List (List UInt8)) (rest : List UInt8) :
    nextKey first (blanks ++ (strung first (member.text :: pieces) ++ rest)) =
      .ok (true, member.key ++ 0x22 ::
        (member.between ++ 0x3A :: (member.item.text ++ (strung false pieces ++ rest)))) := by
  have text : member.text ++ (strung false pieces ++ rest) = member.before ++ 0x22 ::
      (member.key ++ 0x22 ::
        (member.between ++ 0x3A :: (member.item.text ++ (strung false pieces ++ rest)))) := by
    simp [Member.text, quoted]
  have atKey {lead : List UInt8} (blankLead : Blanks lead) :
      skipBlanks (lead ++ (member.text ++ (strung false pieces ++ rest))) = 0x22 ::
        (member.key ++ 0x22 ::
          (member.between ++ 0x3A :: (member.item.text ++ (strung false pieces ++ rest)))) := by
    rw [text, ← List.append_assoc, skipBlanks_append (blankLead.append member.blanks_before),
      skipBlanks_cons rfl]
  cases first with
  | true =>
      simp only [strung_cons, cond_true, List.nil_append, List.append_assoc]
      simp [nextKey, atKey blank]
  | false =>
      have atComma := skipBlanks_append blank
        (0x2C :: (member.text ++ (strung false pieces ++ rest)))
      rw [skipBlanks_cons rfl] at atComma
      have behind := atKey blanks_nil
      rw [List.nil_append] at behind
      simp only [strung_cons, cond_false, List.cons_append, List.nil_append, List.append_assoc]
      simp [nextKey, atComma, behind]

end

/-! ## Lists -/

theorem items_succ_eq_ok_iff {read : Reader α} {fuel index : Nat} {first : Bool}
    {bytes behind rest : List UInt8} (more : nextItem first bytes = .ok (true, behind))
    {xs : List α} :
    items read (fuel + 1) index first bytes = .ok (xs, rest) ↔
      ∃ x later others, read behind = .ok (x, later) ∧
        items read fuel (index + 1) false later = .ok (others, rest) ∧ xs = x :: others := by
  simp only [items, more, bind_eq_ok_iff, mapError_eq_ok_iff, Except.ok.injEq, exists_eq_left',
    if_true, Prod.exists, pure, Except.pure, Prod.mk.injEq]
  constructor
  · rintro ⟨x, later, here, others, _, there, rfl, rfl⟩
    exact ⟨x, later, others, here, there, rfl⟩
  · rintro ⟨x, later, others, here, there, rfl⟩
    exact ⟨x, later, here, others, rest, there, rfl, rfl⟩

/-- What is read of the items that are left of a list. -/
theorem items_eq_ok_iff {read : Reader α} {allowed : List UInt8 → α → Prop}
    {rest rest' : List UInt8} {xs : List α} {list : List Item}
    (values : ∀ item ∈ list, Value item.value)
    (finds : ∀ item ∈ list, FindsWithin read item.value (allowed item.value)) {blanks : List UInt8}
    (blank : Blanks blanks) {fuel : Nat} (enough : list.length < fuel) (index : Nat)
    (first : Bool) :
    items read fuel index first (blanks ++ (strung first (list.map Item.text) ++ 0x5D :: rest)) =
        .ok (xs, rest') ↔
      List.Forall₂ (fun item x => allowed item.value x) list xs ∧ rest' = rest := by
  induction list generalizing blanks fuel index first xs with
  | nil =>
      cases fuel with
      | zero => cases enough
      | succ fuel =>
          simp [items, nextItem_closing blank, bind, Except.bind, pure, Except.pure, eq_comm]
  | cons item list ih =>
      cases fuel with
      | zero => cases enough
      | succ fuel =>
          have more := nextItem_item blank first (values item (by simp)) (list.map Item.text)
            (0x5D :: rest)
          have later {others : List α} :
              items read fuel (index + 1) false
                  (item.after ++ (strung false (list.map Item.text) ++ 0x5D :: rest)) =
                    .ok (others, rest') ↔
                List.Forall₂ (fun item x => allowed item.value x) list others ∧ rest' = rest := by
            apply ih
            · intro other mem
              exact values other (by simp [mem])
            · intro other mem
              exact finds other (by simp [mem])
            · exact item.blanks_after
            · exact Nat.lt_of_succ_lt_succ enough
          have ends : EndsNumber (item.after ++
              (strung false (list.map Item.text) ++ 0x5D :: rest)) :=
            item.endsNumber_after .list _ rest
          have here {x : α} {behind : List UInt8} :=
            @finds item (by simp) [] blanks_nil _ ends behind x
          rw [List.nil_append] at here
          rw [List.map_cons, items_succ_eq_ok_iff more]
          simp only [here, List.forall₂_cons_left_iff]
          constructor
          · rintro ⟨x, _, others, ⟨found, rfl⟩, there, rfl⟩
            rcases later.mp there with ⟨all, same⟩
            exact ⟨⟨x, others, found, all, rfl⟩, same⟩
          · rintro ⟨⟨x, others, found, all, rfl⟩, same⟩
            exact ⟨x, _, others, ⟨found, rfl⟩, later.mpr ⟨all, same⟩, rfl⟩

/-- A list is read item by item. -/
theorem list_finds {read : Reader α} {allowed : List UInt8 → α → Prop} {lead : List UInt8}
    {list : List Item} (blank : Blanks lead) (values : ∀ item ∈ list, Value item.value)
    (finds : ∀ item ∈ list, FindsWithin read item.value (allowed item.value)) :
    Finds (Json.list read) (listText lead list) fun xs =>
      List.Forall₂ (fun item x => allowed item.value x) list xs := by
  intro blanks blankBefore rest rest' xs
  have inside : listText lead list ++ rest =
      0x5B :: (lead ++ (strung true (list.map Item.text) ++ 0x5D :: rest)) := by
    simp [listText, enclosed, strung]
  have enough : list.length <
      (lead ++ (strung true (list.map Item.text) ++ 0x5D :: rest)).length + 1 := by
    have few := length_le_items values true
    simp only [List.length_append, List.length_cons]
    omega
  rw [Json.list, inside, skipBlanks_append blankBefore, skipBlanks_cons rfl]
  exact items_eq_ok_iff values finds blank enough 0 true

/-- Nothing else is a list. -/
theorem list_other_finds {read : Reader α} {first : UInt8} {others : List UInt8}
    (value : Value (first :: others)) (noList : first ≠ 0x5B) :
    Finds (Json.list read) (first :: others) fun _ => False := by
  intro blanks blank rest rest' xs
  rw [Json.list, value.skipBlanks blank]
  simp [noList, wrongKind_ne_ok]

/-! ## Members -/

namespace Member

/-- The key of a member stands for a name. -/
def Named (member : Member) (name : String) : Prop :=
  Denotes member.key name.toList

instance (member : Member) (name : String) : Decidable (member.Named name) :=
  inferInstanceAs (Decidable (Denotes member.key name.toList))

theorem Named.unique {member : Member} {name other : String} (first : member.Named name)
    (second : member.Named other) : name = other :=
  Denotes.unique first second

end Member

theorem Field.of_finds {name : String} {get : σ → Option α} {set : σ → α → σ} {read : Reader α}
    {absence : Absence σ} {allowed : α → Prop} {draft : σ} {v : List UInt8}
    (finds : FindsWithin read v allowed) :
    FindsWithin ((Field.of name get set read absence).read draft) v fun next =>
      ∃ x, allowed x ∧ next = set draft x := by
  intro blanks blank rest ends rest' next
  simp only [Field.of, map_eq_ok_iff, Prod.exists, Prod.mk.injEq, finds blank ends]
  constructor
  · rintro ⟨x, _, ⟨found, rfl⟩, rfl, rfl⟩
    exact ⟨⟨x, found, rfl⟩, rfl⟩
  · rintro ⟨⟨x, found, rfl⟩, rfl⟩
    exact ⟨x, _, ⟨found, rfl⟩, rfl, rfl⟩

namespace Shape

variable {shape : Shape σ}

/-- Reads a member from behind the opening quote of its key: fills the field of its name, or passes
over the member if there is none. -/
def member (shape : Shape σ) (draft : σ) : Reader σ := fun bytes => do
  let (name, rest) ← stringRest bytes
  match shape.fields.find? (·.name = name) with
  | some field =>
    if field.isFilled draft then Defect.before (.duplicateField name) (objectPlace rest)
    else
      let content ← colon rest
      (field.read draft content).mapError (·.within (.field name))
  | none =>
    let content ← colon rest
    let later ← (skipValue content).mapError (·.within (.field name))
    return (draft, later)

theorem member_eq_ok_iff {draft next : σ} {bytes later : List UInt8} :
    shape.member draft bytes = .ok (next, later) ↔
      ∃ name rest content, stringRest bytes = .ok (name, rest) ∧ colon rest = .ok content ∧
        ((shape.fields.find? (·.name = name) = none ∧ skipValue content = .ok later ∧
            next = draft) ∨
          ∃ field, shape.fields.find? (·.name = name) = some field ∧
            field.isFilled draft = false ∧ field.read draft content = .ok (next, later)) := by
  simp only [member, bind_eq_ok_iff, Prod.exists]
  refine exists_congr fun name => exists_congr fun rest => ?_
  rw [exists_and_left]
  refine and_congr_right fun _ => ?_
  cases shape.fields.find? (·.name = name) with
  | none =>
      simp [bind_eq_ok_iff, mapError_eq_ok_iff, pure, Except.pure, eq_comm (a := draft), and_comm]
  | some field =>
      cases filled : field.isFilled draft with
      | false => simp [filled, bind_eq_ok_iff, mapError_eq_ok_iff]
      | true => simp [filled, Defect.before]

theorem members_succ {fuel : Nat} {first : Bool} {draft : σ} {bytes behind : List UInt8}
    (more : nextKey first bytes = .ok (true, behind)) :
    shape.members (fuel + 1) first draft bytes =
      shape.member draft behind >>= fun found => shape.members fuel false found.1 found.2 := by
  simp only [members, more, ok_bind, if_true, member, bind_assoc]
  refine bind_congr fun found => ?_
  cases shape.fields.find? (·.name = found.1) with
  | none => simp only [bind_assoc, pure_bind]
  | some field =>
      cases filled : field.isFilled draft with
      | false => simp only [filled, Bool.false_eq_true, if_false, bind_assoc]
      | true =>
          simp only [filled, if_true]
          rfl

theorem members_closing {fuel : Nat} {first : Bool} {draft : σ} {bytes rest : List UInt8}
    (closing : nextKey first bytes = .ok (false, 0x7D :: rest)) {out : σ × List UInt8} :
    shape.members (fuel + 1) first draft bytes = .ok out ↔
      ∃ draft', fillAbsent shape.fields draft = .ok draft' ∧ out = (draft', rest) := by
  simp only [members, closing, bind, Except.bind]
  cases fillAbsent shape.fields draft with
  | error fault => simp [Defect.before]
  | ok draft' => simp [pure, Except.pure, eq_comm]

/-- What the fields of a record may find, given what is held before. -/
abbrev Allowed (σ : Type) :=
  Field σ → σ → List UInt8 → σ → Prop

/-- Each field finds in a value what it may. -/
def FindsFields (shape : Shape σ) (allowed : Allowed σ) : Prop :=
  ∀ field ∈ shape.fields, ∀ (draft : σ) {v : List UInt8}, Value v →
    FindsWithin (field.read draft) v (allowed field draft v)

/-- The field of a member's name, if there is one, finds in its value what it may. -/
def FindsMember (shape : Shape σ) (allowed : Allowed σ) (member : Member) : Prop :=
  ∀ {name : String} {field : Field σ}, member.Named name →
    shape.fields.find? (·.name = name) = some field → ∀ draft,
      FindsWithin (field.read draft) member.item.value (allowed field draft member.item.value)

theorem FindsFields.member {allowed : Allowed σ} (finds : shape.FindsFields allowed)
    {member : Member} (value : Value member.item.value) : shape.FindsMember allowed member := by
  intro name field _ known draft
  exact finds field (List.mem_of_find?_eq_some known) draft value

/-- The members of an object, one after another, change what is held of a record. One of a name
without a field changes nothing, and no field is filled twice. -/
inductive Fills (shape : Shape σ) (allowed : Allowed σ) : σ → List Member → σ → Prop where
  | done {draft : σ} : Fills shape allowed draft [] draft
  | other {draft filled : σ} {member : Member} {members : List Member} {name : String}
      (named : member.Named name) (unknown : shape.fields.find? (·.name = name) = none)
      (later : Fills shape allowed draft members filled) :
      Fills shape allowed draft (member :: members) filled
  | field {draft next filled : σ} {member : Member} {members : List Member} {name : String}
      {field : Field σ} (named : member.Named name)
      (known : shape.fields.find? (·.name = name) = some field)
      (unfilled : field.isFilled draft = false)
      (given : allowed field draft member.item.value next)
      (later : Fills shape allowed next members filled) :
      Fills shape allowed draft (member :: members) filled

/-- What is held of a record behind a member: the field of its name is filled, which it was not
before, or nothing changes if there is none. -/
def Gives (shape : Shape σ) (allowed : Allowed σ) (draft : σ) (member : Member) (next : σ) : Prop :=
  ∃ name, member.Named name ∧
    ((shape.fields.find? (·.name = name) = none ∧ next = draft) ∨
      ∃ field, shape.fields.find? (·.name = name) = some field ∧ field.isFilled draft = false ∧
        allowed field draft member.item.value next)

theorem fills_cons_iff {allowed : Allowed σ} {draft filled : σ} {member : Member}
    {members : List Member} :
    Fills shape allowed draft (member :: members) filled ↔
      ∃ next, shape.Gives allowed draft member next ∧ Fills shape allowed next members filled := by
  constructor
  · intro fills
    cases fills with
    | other named unknown later => exact ⟨draft, ⟨_, named, .inl ⟨unknown, rfl⟩⟩, later⟩
    | field named known unfilled given later =>
        exact ⟨_, ⟨_, named, .inr ⟨_, known, unfilled, given⟩⟩, later⟩
  · rintro ⟨next, ⟨name, named, ⟨unknown, rfl⟩ | ⟨field, known, unfilled, given⟩⟩, later⟩
    · exact .other named unknown later
    · exact .field named known unfilled given later

theorem colon_between {between : List UInt8} (blank : Blanks between) (rest : List UInt8) :
    colon (between ++ 0x3A :: rest) = .ok rest := by
  rw [colon, skipBlanks_append blank, skipBlanks_cons rfl]
  simp

/-- What is read of a member: nothing, if it has a name without a field, or what its field finds. -/
theorem member_finds {allowed : Allowed σ} {member : Member}
    (finds : shape.FindsMember allowed member) (value : Value member.item.value)
    {behind : List UInt8} (ends : EndsNumber behind)
    {draft next : σ} {later : List UInt8} :
    shape.member draft (member.key ++ 0x22 :: (member.between ++ 0x3A ::
        (member.item.before ++ (member.item.value ++ behind)))) = .ok (next, later) ↔
      shape.Gives allowed draft member next ∧ later = behind := by
  have skipped : skipValue (member.item.before ++ (member.item.value ++ behind)) = .ok behind :=
    skipValue_complete member.item.blanks_before value ends
  simp only [member_eq_ok_iff, stringRest_append_eq_ok_iff member.body_key]
  constructor
  · rintro ⟨name, _, content, ⟨rfl, named⟩, atColon, known⟩
    rw [colon_between member.blanks_between] at atColon
    cases atColon
    rcases known with ⟨unknown, passed, rfl⟩ | ⟨field, known, unfilled, here⟩
    · rw [skipped] at passed
      cases passed
      exact ⟨⟨name, named, .inl ⟨unknown, rfl⟩⟩, rfl⟩
    · rcases (finds named known draft member.item.blanks_before ends).mp here with ⟨given, rfl⟩
      exact ⟨⟨name, named, .inr ⟨field, known, unfilled, given⟩⟩, rfl⟩
  · rintro ⟨⟨name, named, known⟩, rfl⟩
    refine ⟨name, _, _, ⟨rfl, named⟩, colon_between member.blanks_between _, ?_⟩
    rcases known with ⟨unknown, rfl⟩ | ⟨field, known, unfilled, given⟩
    · exact .inl ⟨unknown, skipped, rfl⟩
    · refine .inr ⟨field, known, unfilled, ?_⟩
      exact (finds named known draft member.item.blanks_before ends).mpr ⟨given, rfl⟩

/-- What is read of the members that are left of an object. -/
theorem members_eq_ok_iff {allowed : Allowed σ} {rest rest' : List UInt8} {members : List Member}
    (finds : ∀ member ∈ members, shape.FindsMember allowed member)
    (values : ∀ member ∈ members, Value member.item.value) {blanks : List UInt8}
    (blank : Blanks blanks) {fuel : Nat} (enough : members.length < fuel) (first : Bool)
    {draft out : σ} :
    shape.members fuel first draft
        (blanks ++ (strung first (members.map Member.text) ++ 0x7D :: rest)) = .ok (out, rest') ↔
      ∃ filled, Fills shape allowed draft members filled ∧
        fillAbsent shape.fields filled = .ok out ∧ rest' = rest := by
  induction members generalizing blanks fuel first draft with
  | nil =>
      cases fuel with
      | zero => cases enough
      | succ fuel =>
          rw [List.map_nil, members_closing (nextKey_closing blank first rest)]
          constructor
          · rintro ⟨_, absent, same⟩
            cases same
            exact ⟨draft, .done, absent, rfl⟩
          · rintro ⟨filled, fills, absent, rfl⟩
            cases fills
            exact ⟨out, absent, rfl⟩
  | cons member members ih =>
      cases fuel with
      | zero => cases enough
      | succ fuel =>
          have later {next : σ} : shape.members fuel false next
                (member.item.after ++ (strung false (members.map Member.text) ++ 0x7D :: rest)) =
                  .ok (out, rest') ↔
              ∃ filled, Fills shape allowed next members filled ∧
                fillAbsent shape.fields filled = .ok out ∧ rest' = rest := by
            apply ih
            · intro other mem
              exact finds other (by simp [mem])
            · intro other mem
              exact values other (by simp [mem])
            · exact member.item.blanks_after
            · exact Nat.lt_of_succ_lt_succ enough
          have more := nextKey_member blank first member (members.map Member.text) (0x7D :: rest)
          rw [Item.text, List.append_assoc, List.append_assoc] at more
          have ends : EndsNumber (member.item.after ++
              (strung false (members.map Member.text) ++ 0x7D :: rest)) :=
            member.item.endsNumber_after .object _ rest
          rw [List.map_cons, members_succ more]
          simp only [bind_eq_ok_iff, Prod.exists, fills_cons_iff,
            member_finds (finds member (by simp)) (values member (by simp)) ends]
          constructor
          · rintro ⟨next, _, ⟨gives, rfl⟩, there⟩
            rcases later.mp there with ⟨filled, fills, done⟩
            exact ⟨filled, ⟨next, gives, fills⟩, done⟩
          · rintro ⟨filled, ⟨next, gives, fills⟩, done⟩
            exact ⟨next, _, ⟨gives, rfl⟩, later.mpr ⟨filled, fills, done⟩⟩

/-! ## Records -/

/-- The items of a list, one after another, give a record its fields. Only fields at the end may be
left out. -/
inductive Lists (allowed : Allowed σ) : List (Field σ) → σ → List Item → σ → Prop where
  | done {draft : σ} : Lists allowed [] draft [] draft
  | field {field : Field σ} {fields : List (Field σ)} {draft next filled : σ} {item : Item}
      {items : List Item} (given : allowed field draft item.value next)
      (later : Lists allowed fields next items filled) :
      Lists allowed (field :: fields) draft (item :: items) filled
  | absent {field : Field σ} {fields : List (Field σ)} {draft filled : σ} {fill : σ → σ}
      (standard : field.absence = .standard fill)
      (later : Lists allowed fields (fill draft) [] filled) :
      Lists allowed (field :: fields) draft [] filled

theorem closeList_eq_ok_iff {bytes rest : List UInt8} :
    closeList bytes = .ok rest ↔ skipBlanks bytes = 0x5D :: rest := by
  unfold closeList
  cases skipBlanks bytes with
  | nil => simp [Defect.before]
  | cons byte others =>
      by_cases closing : byte = 0x5D
      · simp [closing]
      · simp only [closing, if_false, List.cons.injEq, false_and, iff_false]
        split
        · split <;> simp [Defect.at]
        · simp [Defect.at]

theorem closeList_ne_ok_of_more {first : Bool} {bytes behind : List UInt8}
    (more : nextItem first bytes = .ok (true, behind)) (rest : List UInt8) :
    closeList bytes ≠ .ok rest := by
  rw [Ne, closeList_eq_ok_iff]
  intro atEnd
  simp [nextItem, atEnd] at more

theorem listed_cons_eq_ok_iff {field : Field σ} {fields : List (Field σ)} {index : Nat} {draft : σ}
    {bytes behind : List UInt8} (more : nextItem (index = 0) bytes = .ok (true, behind))
    {out : σ × List UInt8} :
    shape.listed (field :: fields) index draft bytes = .ok out ↔
      ∃ next later, field.read draft behind = .ok (next, later) ∧
        shape.listed fields (index + 1) next later = .ok out := by
  simp only [listed, more, bind_eq_ok_iff, mapError_eq_ok_iff, Except.ok.injEq, exists_eq_left',
    if_true, Prod.exists]

theorem listed_cons_closing {field : Field σ} {fields : List (Field σ)} {index : Nat} {draft : σ}
    {bytes behind : List UInt8} (closing : nextItem (index = 0) bytes = .ok (false, behind))
    {out : σ × List UInt8} :
    shape.listed (field :: fields) index draft bytes = .ok out ↔
      ∃ fill, field.absence = .standard fill ∧
        shape.listed fields (index + 1) (fill draft) behind = .ok out := by
  simp only [listed, closing, bind, Except.bind, Bool.false_eq_true, if_false]
  cases field.absence <;> simp [Defect.before]

/-- What is read of the items that are left of a record, up to the end of its list. -/
theorem listed_eq_ok_iff {allowed : Allowed σ} {fields : List (Field σ)}
    (finds : ∀ field ∈ fields, ∀ (draft : σ) {v : List UInt8}, Value v →
      FindsWithin (field.read draft) v (allowed field draft v))
    {rest rest' : List UInt8} {list : List Item} (values : ∀ item ∈ list, Value item.value)
    {blanks : List UInt8} (blank : Blanks blanks) (index : Nat) {draft out : σ} :
    (∃ behind, shape.listed fields index draft
        (blanks ++ (strung (index = 0) (list.map Item.text) ++ 0x5D :: rest)) = .ok (out, behind) ∧
          closeList behind = .ok rest') ↔
      Lists allowed fields draft list out ∧ rest' = rest := by
  -- on the fields, as they are read: the items may end before them, but may not go on behind them
  induction fields generalizing list blanks index draft with
  | nil =>
      cases list with
      | nil =>
          have atEnd : closeList (blanks ++ (strung (index = 0) [] ++ 0x5D :: rest)) =
              .ok rest := by
            rw [closeList_eq_ok_iff, strung_nil, List.nil_append, skipBlanks_append blank,
              skipBlanks_cons rfl]
          simp only [listed, Except.ok.injEq, Prod.mk.injEq, List.map_nil]
          constructor
          · rintro ⟨_, ⟨rfl, rfl⟩, closed⟩
            rw [atEnd, Except.ok.injEq] at closed
            exact ⟨.done, closed.symm⟩
          · rintro ⟨lists, rfl⟩
            cases lists
            exact ⟨_, ⟨rfl, rfl⟩, atEnd⟩
      | cons item list =>
          have more := nextItem_item blank (index = 0) (values item (by simp)) (list.map Item.text)
            (0x5D :: rest)
          simp only [listed, Except.ok.injEq, Prod.mk.injEq, List.map_cons]
          constructor
          · rintro ⟨_, ⟨rfl, rfl⟩, closed⟩
            exact absurd closed (closeList_ne_ok_of_more more rest')
          · rintro ⟨lists, _⟩
            cases lists
  | cons field fields ih =>
      have later {list : List Item} (values : ∀ item ∈ list, Value item.value)
          {blanks : List UInt8} (blank : Blanks blanks) {next : σ} :
          (∃ behind, shape.listed fields (index + 1) next
              (blanks ++ (strung false (list.map Item.text) ++ 0x5D :: rest)) = .ok (out, behind) ∧
                closeList behind = .ok rest') ↔
            Lists allowed fields next list out ∧ rest' = rest :=
        ih (fun field mem => finds field (by simp [mem])) values blank (index + 1)
      cases list with
      | nil =>
          have closing := nextItem_closing blank (index = 0) rest
          have ended {next : σ} := @later [] (by simp) [] blanks_nil next
          simp only [List.map_nil, strung_nil, List.nil_append] at ended
          simp only [List.map_nil, listed_cons_closing closing]
          constructor
          · rintro ⟨behind, ⟨fill, standard, there⟩, closed⟩
            rcases ended.mp ⟨behind, there, closed⟩ with ⟨lists, same⟩
            exact ⟨.absent standard lists, same⟩
          · rintro ⟨lists, same⟩
            cases lists with
            | absent standard lists =>
                rcases ended.mpr ⟨lists, same⟩ with ⟨behind, there, closed⟩
                exact ⟨behind, ⟨_, standard, there⟩, closed⟩
      | cons item list =>
          have value := values item (by simp)
          have more := nextItem_item blank (index = 0) value (list.map Item.text) (0x5D :: rest)
          have ends : EndsNumber (item.after ++
              (strung false (list.map Item.text) ++ 0x5D :: rest)) :=
            item.endsNumber_after .list _ rest
          have here {next : σ} {behind : List UInt8} :=
            @finds field (by simp) draft _ value [] blanks_nil _ ends behind next
          rw [List.nil_append] at here
          have there {next : σ} := @later list (fun other mem => values other (by simp [mem]))
            item.after item.blanks_after next
          simp only [List.map_cons, listed_cons_eq_ok_iff more, here]
          constructor
          · rintro ⟨behind, ⟨next, _, ⟨given, rfl⟩, read⟩, closed⟩
            rcases there.mp ⟨behind, read, closed⟩ with ⟨lists, same⟩
            exact ⟨.field given lists, same⟩
          · rintro ⟨lists, same⟩
            cases lists with
            | field given lists =>
                rcases there.mpr ⟨lists, same⟩ with ⟨behind, read, closed⟩
                exact ⟨behind, ⟨_, _, ⟨given, rfl⟩, read⟩, closed⟩

/-- A record is read from an object by the names of its members. -/
theorem object_finds {allowed : Allowed σ} {lead : List UInt8} {members : List Member}
    (finds : ∀ member ∈ members, shape.FindsMember allowed member) (blank : Blanks lead)
    (values : ∀ member ∈ members, Value member.item.value) :
    Finds shape.read (objectText lead members) fun out =>
      ∃ filled, Fills shape allowed shape.empty members filled ∧
        fillAbsent shape.fields filled = .ok out := by
  intro blanks blankBefore rest rest' out
  have inside : objectText lead members ++ rest =
      0x7B :: (lead ++ (strung true (members.map Member.text) ++ 0x7D :: rest)) := by
    simp [objectText, enclosed, strung]
  have enough : members.length <
      (lead ++ (strung true (members.map Member.text) ++ 0x7D :: rest)).length + 1 := by
    have few := length_le_members members true
    simp only [List.length_append, List.length_cons]
    omega
  rw [read, inside, skipBlanks_append blankBefore, skipBlanks_cons rfl]
  simp only [members_eq_ok_iff finds values blank enough true, ← and_assoc, exists_and_right]

/-- A record is read from a list by the order of the items. -/
theorem list_finds {allowed : Allowed σ} (finds : shape.FindsFields allowed) {lead : List UInt8}
    {list : List Item} (blank : Blanks lead) (values : ∀ item ∈ list, Value item.value) :
    Finds shape.read (listText lead list) (Lists allowed shape.fields shape.empty list) := by
  intro blanks blankBefore rest rest' out
  have inside : listText lead list ++ rest =
      0x5B :: (lead ++ (strung (0 = 0) (list.map Item.text) ++ 0x5D :: rest)) := by
    simp [listText, enclosed, strung]
  rw [read, inside, skipBlanks_append blankBefore, skipBlanks_cons rfl,
    ← listed_eq_ok_iff finds values blank 0]
  simp only [bind_eq_ok_iff, pure, Except.pure, Except.ok.injEq, Prod.exists, Prod.mk.injEq]
  constructor
  · rintro ⟨_, behind, listed, _, closed, rfl, rfl⟩
    exact ⟨behind, listed, closed⟩
  · rintro ⟨behind, listed, closed⟩
    exact ⟨_, behind, listed, _, closed, rfl, rfl⟩

/-- Nothing else is a record. -/
theorem other_finds {first : UInt8} {others : List UInt8} (value : Value (first :: others))
    (noList : first ≠ 0x5B) (noObject : first ≠ 0x7B) :
    Finds shape.read (first :: others) fun _ => False := by
  intro blanks blank rest rest' out
  rw [read, value.skipBlanks blank]
  simp [noList, noObject, wrongKind_ne_ok]

end Shape

/-! ## Whole texts -/

theorem skipBlanks_eq_nil_iff {bytes : List UInt8} : skipBlanks bytes = [] ↔ Blanks bytes := by
  constructor
  · intro skipped
    rcases exists_blanks_of_skipBlanks skipped with ⟨blanks, blank, rfl⟩
    rwa [List.append_nil]
  · intro blank
    have skipped := skipBlanks_append blank []
    rwa [List.append_nil] at skipped

theorem readFront_eq_ok_iff {read : Reader α} {bytes : List UInt8} {found : α} :
    readFront read bytes = .ok found ↔ ∃ rest, read bytes = .ok (found, rest) := by
  simp [readFront, map_eq_ok_iff]

theorem readWhole_eq_ok_iff {read : Reader α} {bytes : List UInt8} {found : α} :
    readWhole read bytes = .ok found ↔ ∃ rest, Blanks rest ∧ read bytes = .ok (found, rest) := by
  simp only [readWhole, bind_eq_ok_iff, Prod.exists]
  constructor
  · rintro ⟨_, rest, given, atEnd⟩
    split at atEnd
    · rename_i whole
      cases atEnd
      exact ⟨rest, skipBlanks_eq_nil_iff.1 whole, given⟩
    · cases atEnd
  · rintro ⟨rest, blank, given⟩
    refine ⟨found, rest, given, ?_⟩
    rw [skipBlanks_eq_nil_iff.2 blank]
    rfl

end Json

end TextVectors
