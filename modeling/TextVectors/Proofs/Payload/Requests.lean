import TextVectors.Payload
import TextVectors.Proofs.Json.Fronts
import TextVectors.Proofs.Lists

/-!
# The JSON of a request

A request is an object with one member that is named `input`, or a list of that
one value. The value is a list of strings, and the texts that they stand for are
the texts of the request: however a character is spelled, whatever blanks stand
between the words, and whatever the other members hold.

`readTexts_finds` says that these texts are read of a value, and that no others
are. So an object that lacks the member, has it twice or holds something else in
it is refused: `Unfit`.
-/

namespace TextVectors

namespace Payload

open Json

/-! ## The texts of a request -/

/-- A list of strings that stand for texts. -/
def TextList (v : List UInt8) (texts : List String) : Prop :=
  ∃ lead items, Blanks lead ∧ v = listText lead items ∧
    List.Forall₂ (fun item text => Text item.value text) items texts

theorem values_of_texts {items : List Json.Item} {texts : List String}
    (all : List.Forall₂ (fun item text => Text item.value text) items texts) :
    ∀ item ∈ items, Value item.value := by
  intro item mem
  rcases exists_mem_of_forall₂_right all.flip mem with ⟨text, _, stands⟩
  exact Text.value stands

theorem TextList.value {v : List UInt8} {texts : List String} (given : TextList v texts) :
    Value v := by
  rcases given with ⟨lead, items, blank, rfl, all⟩
  exact .list blank (values_of_texts all)

theorem strings_find {lead : List UInt8} {items : List Json.Item} (blank : Blanks lead)
    (values : ∀ item ∈ items, Value item.value) :
    Finds (list string) (listText lead items) fun texts =>
      List.Forall₂ (fun item text => Text item.value text) items texts :=
  list_finds blank values fun item mem => Finds.within (string_finds (values item mem))

theorem textList_finds {v : List UInt8} (value : Value v) : Finds (list string) v (TextList v) := by
  intro blanks blank rest rest' texts
  constructor
  · intro read
    rcases value.kind with ⟨body, _, rfl⟩ | ⟨lead, items, blankLead, values, rfl⟩ |
      ⟨lead, members, _, _, rfl⟩ | ⟨first, others, rfl, _, noList, _⟩
    · exact absurd ((list_other_finds value (by decide) blank).mp read).1 id
    · rcases (strings_find blankLead values blank).mp read with ⟨all, same⟩
      exact ⟨⟨lead, items, blankLead, rfl, all⟩, same⟩
    · exact absurd ((list_other_finds value (by decide) blank).mp read).1 id
    · exact absurd ((list_other_finds value noList blank).mp read).1 id
  · rintro ⟨⟨lead, items, blankLead, rfl, all⟩, rfl⟩
    exact (strings_find blankLead (values_of_texts all) blank).mpr ⟨all, rfl⟩

/-- There is one way only to see a list in its bytes. -/
theorem TextList.forall₂ {lead : List UInt8} {items : List Json.Item} {texts : List String}
    (given : TextList (listText lead items) texts) (blank : Blanks lead)
    (values : ∀ item ∈ items, Value item.value) :
    List.Forall₂ (fun item text => Text item.value text) items texts := by
  have read : list string ([] ++ (listText lead items ++ [])) = .ok (texts, []) :=
    (textList_finds given.value blanks_nil).mpr ⟨given, rfl⟩
  exact ((strings_find blank values blanks_nil).mp read).1

/-! ## Members -/

/-- The member has a name, and it is not the one that a request needs. -/
def Other (member : Member) : Prop :=
  ∃ name, member.Named name ∧ name ≠ "input"

theorem not_other_of_named {member : Member} (named : member.Named "input") : ¬Other member := by
  rintro ⟨name, other, different⟩
  exact different (other.unique named)

/-- What the field of a request may find. -/
def allowed : Shape.Allowed (Option (List String)) := fun _ _ v next =>
  ∃ texts, TextList v texts ∧ next = some texts

theorem requestShape_finds : requestShape.FindsFields allowed := by
  intro field mem draft v value
  rcases List.mem_singleton.mp mem with rfl
  exact Json.Field.of_finds (Finds.within (textList_finds value))

theorem find?_fields_eq_none_iff {name : String} :
    requestShape.fields.find? (·.name = name) = none ↔ name ≠ "input" := by
  simp [requestShape, Json.Field.of, eq_comm]

theorem find?_fields_eq_some_iff {name : String} {field : Json.Field (Option (List String))} :
    requestShape.fields.find? (·.name = name) = some field ↔
      name = "input" ∧ field ∈ requestShape.fields := by
  simp [requestShape, Json.Field.of, eq_comm]

/-- A member is passed over, or it gives the texts of the request for the first time. -/
theorem fills_cons_iff {draft filled : Option (List String)} {member : Member}
    {members : List Member} :
    requestShape.Fills allowed draft (member :: members) filled ↔
      (Other member ∧ requestShape.Fills allowed draft members filled) ∨
        (member.Named "input" ∧ draft = none ∧
          ∃ texts, TextList member.item.value texts ∧
            requestShape.Fills allowed (some texts) members filled) := by
  have isFilled {field : Json.Field (Option (List String))} (known : field ∈ requestShape.fields) :
      field.isFilled draft = draft.isSome := by
    rcases List.mem_singleton.mp known with rfl
    rfl
  simp only [Shape.fills_cons_iff, Shape.Gives, find?_fields_eq_none_iff, find?_fields_eq_some_iff]
  constructor
  · rintro ⟨next, ⟨name, named, ⟨different, rfl⟩ | ⟨field, ⟨rfl, known⟩, unfilled, given⟩⟩, later⟩
    · exact .inl ⟨⟨name, named, different⟩, later⟩
    · rw [isFilled known, Option.isSome_eq_false_iff, Option.isNone_iff_eq_none] at unfilled
      rcases given with ⟨texts, given, rfl⟩
      exact .inr ⟨named, unfilled, texts, given, later⟩
  · rintro (⟨⟨name, named, different⟩, later⟩ | ⟨named, rfl, texts, given, later⟩)
    · exact ⟨draft, ⟨name, named, .inl ⟨different, rfl⟩⟩, later⟩
    · have known := List.mem_singleton_self (Json.Field.of "input" id (fun _ texts => some texts)
        (Json.list Json.string) .required)
      refine ⟨some texts, ⟨"input", named, .inr ?_⟩, later⟩
      exact ⟨_, ⟨rfl, known⟩, isFilled known, texts, given, rfl⟩

theorem fills_some_iff {texts : List String} {filled : Option (List String)}
    {members : List Member} :
    requestShape.Fills allowed (some texts) members filled ↔
      (∀ member ∈ members, Other member) ∧ filled = some texts := by
  induction members with
  | nil =>
      constructor
      · intro fills
        cases fills
        simp
      · rintro ⟨_, rfl⟩
        exact .done
  | cons member members ih => simp [fills_cons_iff, ih, and_assoc]

/-- Just one of the members gives texts. -/
def Fits (members : List Member) (texts : List String) : Prop :=
  ∃ earlier input later, members = earlier ++ input :: later ∧ input.Named "input" ∧
    TextList input.item.value texts ∧ ∀ member ∈ earlier ++ later, Other member

theorem fits_cons_iff {member : Member} {members : List Member} {texts : List String} :
    Fits (member :: members) texts ↔
      (Other member ∧ Fits members texts) ∨
        (member.Named "input" ∧ TextList member.item.value texts ∧
          ∀ member ∈ members, Other member) := by
  constructor
  · rintro ⟨earlier, input, later, same, named, given, others⟩
    rcases List.cons_eq_append_iff.mp same with ⟨rfl, atInput⟩ | ⟨earlier, rfl, rfl⟩
    · cases atInput
      exact .inr ⟨named, given, by simpa using others⟩
    · simp only [List.cons_append, List.forall_mem_cons] at others
      exact .inl ⟨others.1, earlier, input, later, rfl, named, given, others.2⟩
  · rintro (⟨other, earlier, input, later, rfl, named, given, others⟩ | ⟨named, given, others⟩)
    · exact ⟨member :: earlier, input, later, rfl, named, given,
        List.forall_mem_cons.mpr ⟨other, others⟩⟩
    · exact ⟨[], member, members, rfl, named, given, by simpa using others⟩

theorem fills_none_iff {texts : List String} {members : List Member} :
    requestShape.Fills allowed none members (some texts) ↔ Fits members texts := by
  induction members with
  | nil =>
      constructor
      · intro fills
        cases fills
      · rintro ⟨earlier, input, later, same, _⟩
        simp at same
  | cons member members ih =>
      simp only [fills_cons_iff, fits_cons_iff, ih, fills_some_iff, true_and]
      refine or_congr_right (and_congr_right fun _ => ?_)
      constructor
      · rintro ⟨other, given, others, same⟩
        cases same
        exact ⟨given, others⟩
      · rintro ⟨given, others⟩
        exact ⟨texts, given, others, rfl⟩

theorem fillAbsent_eq_ok_iff {filled out : Option (List String)} :
    Shape.fillAbsent requestShape.fields filled = .ok out ↔
      ∃ texts, filled = some texts ∧ out = some texts := by
  cases filled with
  | none => simp [requestShape, Shape.fillAbsent, Json.Field.of]
  | some texts => simp [requestShape, Shape.fillAbsent, Json.Field.of, eq_comm]

/-! ## Requests -/

theorem readTexts_eq_ok_iff {bytes rest : List UInt8} {texts : List String} :
    readTexts bytes = .ok (texts, rest) ↔
      ∃ draft, requestShape.read bytes = .ok (draft, rest) ∧ draft.getD [] = texts := by
  simp [readTexts, bind_eq_ok_iff, pure, Except.pure]

theorem object_finds {lead : List UInt8} {members : List Member} (blank : Blanks lead)
    (values : ∀ member ∈ members, Value member.item.value) :
    Finds readTexts (objectText lead members) (Fits members) := by
  intro blanks blankBefore rest rest' texts
  have finds : ∀ member ∈ members, requestShape.FindsMember allowed member :=
    fun member mem => requestShape_finds.member (values member mem)
  simp only [readTexts_eq_ok_iff, Shape.object_finds finds blank values blankBefore,
    fillAbsent_eq_ok_iff]
  constructor
  · rintro ⟨_, ⟨⟨_, fills, found, rfl, rfl⟩, same⟩, rfl⟩
    exact ⟨fills_none_iff.1 fills, same⟩
  · rintro ⟨fits, same⟩
    exact ⟨_, ⟨⟨_, fills_none_iff.2 fits, texts, rfl, rfl⟩, same⟩, rfl⟩

theorem listText_finds {lead : List UInt8} {items : List Json.Item} (blank : Blanks lead)
    (values : ∀ item ∈ items, Value item.value) :
    Finds readTexts (listText lead items) fun texts =>
      ∃ item, items = [item] ∧ TextList item.value texts := by
  intro blanks blankBefore rest rest' texts
  simp only [readTexts_eq_ok_iff, Shape.list_finds requestShape_finds blank values blankBefore]
  constructor
  · rintro ⟨_, ⟨lists, same⟩, rfl⟩
    cases lists with
    | field given later =>
        rcases given with ⟨texts, given, rfl⟩
        cases later
        exact ⟨⟨_, rfl, given⟩, same⟩
    | absent standard _ => cases standard
  · rintro ⟨⟨item, rfl, given⟩, same⟩
    exact ⟨some texts, ⟨.field ⟨texts, given, rfl⟩ .done, same⟩, rfl⟩

/-- A JSON text that asks for the vectors of some texts. -/
inductive Asks (texts : List String) : List UInt8 → Prop where
  | object {lead : List UInt8} {earlier later : List Member} {input : Member} (blank : Blanks lead)
      (named : input.Named "input") (given : TextList input.item.value texts)
      (others : ∀ member ∈ earlier ++ later, Other member)
      (values : ∀ member ∈ earlier ++ later, Value member.item.value) :
      Asks texts (objectText lead (earlier ++ input :: later))
  | list {lead : List UInt8} {item : Json.Item} (blank : Blanks lead)
      (given : TextList item.value texts) : Asks texts (listText lead [item])

theorem values_of_others {earlier later : List Member} {input : Member} {texts : List String}
    (given : TextList input.item.value texts)
    (values : ∀ member ∈ earlier ++ later, Value member.item.value) :
    ∀ member ∈ earlier ++ input :: later, Value member.item.value := by
  intro member mem
  rcases List.mem_append.mp mem with before | behind
  · exact values member (by simp [before])
  · rcases List.mem_cons.mp behind with rfl | behind
    · exact given.value
    · exact values member (by simp [behind])

theorem Asks.value {v : List UInt8} {texts : List String} (asks : Asks texts v) : Value v := by
  cases asks with
  | object blank named given others values => exact .object blank (values_of_others given values)
  | list blank given => exact .list blank (by simpa using given.value)

theorem TextList.length_le {v : List UInt8} {texts : List String} (given : TextList v texts) :
    texts.length ≤ v.length := by
  rcases given with ⟨lead, items, _, rfl, all⟩
  rw [← all.length_eq]
  exact length_le_listText (values_of_texts all)

/-- A request has no more texts than bytes. -/
theorem Asks.length_le {v : List UInt8} {texts : List String} (asks : Asks texts v) :
    texts.length ≤ v.length := by
  cases asks with
  | @object lead earlier later input blank named given others values =>
      have inside : input.text ∈ (earlier ++ input :: later).map Member.text :=
        List.mem_map_of_mem (by simp)
      have whole : input.text.length ≤ (objectText lead (earlier ++ input :: later)).length :=
        length_le_enclosed inside
      have few := given.length_le
      simp only [Member.text, Json.Item.text, List.length_append, List.length_cons] at whole
      omega
  | @list lead item blank given =>
      have inside : item.text ∈ [item].map Json.Item.text := List.mem_map_of_mem (by simp)
      have whole : item.text.length ≤ (listText lead [item]).length := length_le_enclosed inside
      have few := given.length_le
      simp only [Json.Item.text, List.length_append] at whole
      omega

/-- The texts of a request are read of a value, if it is one, and no others are. -/
theorem readTexts_finds {v : List UInt8} (value : Value v) :
    Finds readTexts v fun texts => Asks texts v := by
  intro blanks blank rest rest' texts
  constructor
  · intro read
    have nothing {first : UInt8} {others : List UInt8} (value : Value (first :: others))
        (noList : first ≠ 0x5B) (noObject : first ≠ 0x7B) :
        readTexts (blanks ++ (first :: others ++ rest)) ≠ .ok (texts, rest') := by
      simp only [Ne, readTexts_eq_ok_iff, Shape.other_finds value noList noObject blank, false_and,
        exists_false, not_false_eq_true]
    rcases value.kind with ⟨body, _, rfl⟩ | ⟨lead, items, blankLead, values, rfl⟩ |
      ⟨lead, members, blankLead, values, rfl⟩ | ⟨first, others, rfl, _, noList, noObject⟩
    · exact absurd read (nothing value (by decide) (by decide))
    · rcases (listText_finds blankLead values blank).mp read with ⟨⟨item, rfl, given⟩, same⟩
      exact ⟨.list blankLead given, same⟩
    · rcases (object_finds blankLead values blank).mp read with
        ⟨⟨earlier, input, later, rfl, named, given, others⟩, same⟩
      refine ⟨.object blankLead named given others fun member mem => values member ?_, same⟩
      simp only [List.mem_append, List.mem_cons] at mem ⊢
      exact mem.imp_right .inr
    · exact absurd read (nothing value noList noObject)
  · rintro ⟨asks, rfl⟩
    cases asks with
    | object blankLead named given others values =>
        exact (object_finds blankLead (values_of_others given values) blank).mpr
          ⟨⟨_, _, _, rfl, named, given, others⟩, rfl⟩
    | list blankLead given =>
        exact (listText_finds blankLead (by simpa using given.value) blank).mpr
          ⟨⟨_, rfl, given⟩, rfl⟩

/-- Requests can be checked. -/
theorem asks_iff {v : List UInt8} {texts : List String} :
    Asks texts v ↔ Value v ∧ readTexts v = .ok (texts, []) := by
  have found (value : Value v) :
      readTexts v = .ok (texts, []) ↔ Asks texts v ∧ ([] : List UInt8) = [] := by
    have read := @readTexts_finds v value [] blanks_nil [] [] texts
    rwa [List.nil_append, List.append_nil] at read
  constructor
  · intro asks
    exact ⟨asks.value, (found asks.value).mpr ⟨asks, rfl⟩⟩
  · rintro ⟨value, read⟩
    exact ((found value).mp read).1

instance (v : List UInt8) (texts : List String) : Decidable (Asks texts v) :=
  decidable_of_iff _ asks_iff.symm

/-! ## Requests in front -/

theorem strings_settled : Settled (list string) where
  taken := Takes.append (list_takes string_takes) textList_finds
  refused := list_refused string_settled

theorem readTexts_takes : Takes readTexts := by
  intro bytes rest texts taken
  rcases readTexts_eq_ok_iff.1 taken with ⟨draft, taken, _⟩
  refine Shape.read_takes ?_ taken
  intro field mem draft
  rcases List.mem_singleton.mp mem with rfl
  exact Json.Field.of_takes draft (list_takes string_takes)

/-- The text begins with a request, whatever comes behind it. -/
def AsksInFront (texts : List String) (bytes : List UInt8) : Prop :=
  ∃ before v after, Blanks before ∧ Asks texts v ∧ bytes = before ++ (v ++ after)

theorem readFront_readTexts_eq_ok_iff {bytes : List UInt8} {texts : List String} :
    readFront readTexts bytes = .ok texts ↔ AsksInFront texts bytes := by
  rw [readFront_eq_ok_iff]
  constructor
  · rintro ⟨rest, taken⟩
    rcases readTexts_takes taken with ⟨before, v, blank, value, rfl⟩
    exact ⟨before, v, rest, blank, ((readTexts_finds value blank).mp taken).1, rfl⟩
  · rintro ⟨before, v, after, blank, asks, rfl⟩
    exact ⟨after, (readTexts_finds asks.value blank).mpr ⟨asks, rfl⟩⟩

instance (texts : List String) (bytes : List UInt8) : Decidable (AsksInFront texts bytes) :=
  decidable_of_iff _ readFront_readTexts_eq_ok_iff

/-- A text that is refused for its shape does not begin with a request, however it goes on. -/
theorem not_asksInFront_of_misshapen {bytes : List UInt8} {defect : Defect}
    (stopped : readFront readTexts bytes = .error defect)
    (misshapen : defect.fault.isMisshapen = true) (tail : List UInt8) (texts : List String) :
    ¬AsksInFront texts (bytes ++ tail) := by
  rw [← readFront_readTexts_eq_ok_iff, readFront_eq_ok_iff]
  rintro ⟨rest, taken⟩
  have settled : ∀ field ∈ requestShape.fields, ∀ draft, Settled (field.read draft) := by
    intro field mem draft
    rcases List.mem_singleton.mp mem with rfl
    exact Json.Field.of_settled draft strings_settled
  rcases readTexts_eq_ok_iff.1 taken with ⟨draft, taken, _⟩
  cases shaped : requestShape.read bytes with
  | error other =>
      simp only [readFront, readTexts, shaped, bind, Except.bind, Except.map,
        Except.error.injEq] at stopped
      subst stopped
      exact Shape.read_refused settled shaped misshapen tail _ taken
  | ok found =>
      simp [readFront, readTexts, shaped, bind, Except.bind, Except.map, pure, Except.pure]
        at stopped

/-! ## Objects that are no requests -/

/-- The members of an object that is no request: none of them is named as it should be, or two are,
or the value of the one is no list, or is a list with something in it that is no string. -/
inductive Unfit (members : List Member) : Prop where
  | missing (absent : ∀ member ∈ members, ¬member.Named "input")
  | twice {first second : Member} (both : [first, second].Sublist members)
      (named : first.Named "input") (again : second.Named "input")
  | noList {input : Member} (mem : input ∈ members) (named : input.Named "input")
      (other : ∀ lead items, Blanks lead → input.item.value ≠ listText lead items)
  | noString {input : Member} {lead : List UInt8} {items : List Json.Item} {item : Json.Item}
      (mem : input ∈ members) (named : input.Named "input") (blank : Blanks lead)
      (list : input.item.value = listText lead items) (values : ∀ item ∈ items, Value item.value)
      (inside : item ∈ items) (other : ∀ body, item.value ≠ quoted body)

theorem Fits.eq_of_named {members : List Member} {texts : List String} (fits : Fits members texts)
    {member : Member} (mem : member ∈ members) (named : member.Named "input") :
    TextList member.item.value texts := by
  rcases fits with ⟨earlier, input, later, rfl, _, given, others⟩
  simp only [List.mem_append, List.mem_cons] at mem others
  rcases mem with before | rfl | behind
  · exact absurd (others member (.inl before)) (not_other_of_named named)
  · exact given
  · exact absurd (others member (.inr behind)) (not_other_of_named named)

theorem Fits.not_twice {members : List Member} {texts : List String} (fits : Fits members texts)
    {first second : Member} (both : [first, second].Sublist members) (named : first.Named "input")
    (again : second.Named "input") : False := by
  induction members with
  | nil => cases both
  | cons member members ih =>
      rcases fits_cons_iff.1 fits with ⟨other, fits⟩ | ⟨_, _, others⟩
      · cases both with
        | cons _ later => exact ih fits later
        | cons_cons _ _ => exact not_other_of_named named other
      · have inside : second ∈ members := by
          cases both with
          | cons _ later => exact later.subset (by simp)
          | cons_cons _ later => exact later.subset (by simp)
        exact not_other_of_named again (others second inside)

theorem Unfit.not_fits {members : List Member} (unfit : Unfit members) (texts : List String) :
    ¬Fits members texts := by
  intro fits
  cases unfit with
  | missing absent =>
      rcases fits with ⟨earlier, input, later, rfl, named, _⟩
      exact absent input (by simp) named
  | twice both named again => exact fits.not_twice both named again
  | noList mem named other =>
      rcases fits.eq_of_named mem named with ⟨lead, items, blank, same, _⟩
      exact other lead items blank same
  | @noString input lead items item mem named blank list values inside other =>
      have given := fits.eq_of_named mem named
      rw [list] at given
      rcases exists_mem_of_forall₂_right (given.forall₂ blank values).flip inside with
        ⟨text, _, body, _, same⟩
      exact other body same

/-! ## Main result -/

/-- Whatever stands behind a request, its texts are read, and of an object that is none, no texts
are. A request with nothing but blanks behind it is a whole text as well. -/
theorem readTexts_faithful {before : List UInt8} (blank : Blanks before) (after : List UInt8) :
    (∀ texts v, Asks texts v →
      readFront readTexts (before ++ (v ++ after)) = .ok texts ∧
        (Blanks after → readWhole readTexts (before ++ (v ++ after)) = .ok texts)) ∧
      ∀ lead members, Blanks lead → (∀ member ∈ members, Value member.item.value) →
        Unfit members → ∀ texts,
          readFront readTexts (before ++ (objectText lead members ++ after)) ≠ .ok texts ∧
            readWhole readTexts (before ++ (objectText lead members ++ after)) ≠ .ok texts := by
  refine ⟨?_, ?_⟩
  · intro texts v asks
    have read : readTexts (before ++ (v ++ after)) = .ok (texts, after) :=
      (readTexts_finds asks.value blank).mpr ⟨asks, rfl⟩
    exact ⟨readFront_eq_ok_iff.2 ⟨after, read⟩,
      fun blankAfter => readWhole_eq_ok_iff.2 ⟨after, blankAfter, read⟩⟩
  · intro lead members blankLead values unfit texts
    have nothing (rest : List UInt8) :
        readTexts (before ++ (objectText lead members ++ after)) ≠ .ok (texts, rest) := by
      intro read
      exact unfit.not_fits texts ((object_finds blankLead values blank).mp read).1
    refine ⟨fun read => ?_, fun read => ?_⟩
    · rcases readFront_eq_ok_iff.1 read with ⟨rest, read⟩
      exact nothing rest read
    · rcases readWhole_eq_ok_iff.1 read with ⟨rest, _, read⟩
      exact nothing rest read

/-- A request whose only field is spelled with an escape, between two members of one name, and an
object that has the field with this spelling and without it. -/
theorem readTexts_faithful_sample :
    let bytes (text : String) : List UInt8 := text.toUTF8.toList
    let v := bytes ("\x7b\"a\":[\x7b\"b\":null\x7d], " ++
      "\"inp\\u0075t\" :[\"\\u00e9\",\"\\ud83d\\ude00\\n\"], \"a\":\"\\ud800\"\x7d")
    let both := bytes "\x7b\"input\":[],\"inp\\u0075t\":[]\x7d"
    Asks ["é", "😀\n"] v ∧ readWhole readTexts (bytes " " ++ (v ++ bytes "\n")) = .ok ["é", "😀\n"] ∧
      ∀ texts, readFront readTexts (bytes " " ++ (both ++ bytes "\n")) ≠ .ok texts := by
  intro bytes v both
  have blank : Blanks (bytes " ") := by decide +kernel
  have asks : Asks ["é", "😀\n"] v := by decide +kernel
  have faithful := readTexts_faithful blank (bytes "\n")
  let member (key : List UInt8) (wellFormed : Body key) : Member :=
    ⟨[], key, [], ⟨[], bytes "[]", [], blanks_nil, blanks_nil⟩, blanks_nil, wellFormed, blanks_nil⟩
  let plain := member (bytes "input") (by decide +kernel)
  let escaped := member (bytes "inp\\u0075t") (by decide +kernel)
  have same : both = objectText [] [plain, escaped] := by decide +kernel
  have values : ∀ member ∈ [plain, escaped], Value member.item.value := by decide +kernel
  have unfit : Unfit [plain, escaped] :=
    .twice (List.Sublist.refl _) (by decide +kernel) (by decide +kernel)
  refine ⟨asks, (faithful.1 _ v asks).2 (by decide +kernel), fun texts => ?_⟩
  rw [same]
  exact (faithful.2 [] _ blanks_nil values unfit texts).1

end Payload

end TextVectors
