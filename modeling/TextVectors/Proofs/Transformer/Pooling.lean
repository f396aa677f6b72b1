import TextVectors.Proofs.Files.Tree
import TextVectors.Proofs.Json.Writing
import TextVectors.Proofs.Transformer.Layout

/-!
# Which pooling a model asks for

The file for the pooling is an object with a switch for each pooling. A pooling
is used iff its own switch is on and the other one is off or not given. Neither
switch may be given twice, or be set to anything but a truth value, and then the
order of the members does not matter.

Members that are no switches do not matter either. Among them are the switches of
poolings that are not supported: a model that asks for one of these alone is
refused, but a model that asks for one of them together with a supported one is
served with the latter, `other_mode_ignored`.
-/

namespace TextVectors

namespace Json

/-- The word of a truth value. -/
def truthWord : Bool → List UInt8
  | true => [0x74, 0x72, 0x75, 0x65]
  | false => [0x66, 0x61, 0x6C, 0x73, 0x65]

/-- A value is the word of a truth value, or begins with a letter of neither. -/
theorem Value.truth {v : List UInt8} (value : Value v) :
    (∃ on, v = truthWord on) ∨
      ∃ first others, v = first :: others ∧ first ≠ 0x74 ∧ first ≠ 0x66 := by
  cases value with
  | trueWord => exact .inl ⟨true, rfl⟩
  | falseWord => exact .inl ⟨false, rfl⟩
  | number unsigned =>
      rcases unsigned.exists_cons with ⟨first, others, rfl, digit⟩
      exact .inr ⟨first, others, rfl, digit.ne (by decide), digit.ne (by decide)⟩
  | _ => exact .inr ⟨_, _, rfl, by decide, by decide⟩

theorem truthWord_inj {one two : Bool} : truthWord one = truthWord two ↔ one = two := by
  cases one <;> cases two <;> simp [truthWord]

theorem boolean_finds {v : List UInt8} (value : Value v) :
    Finds boolean v fun on => v = truthWord on := by
  intro blanks blank rest rest' on
  rw [boolean, value.skipBlanks blank]
  rcases value.truth with ⟨given, rfl⟩ | ⟨first, others, rfl, noTrue, noFalse⟩
  · have taken (letters : List UInt8) :
        (literal letters (letters ++ rest)).map (given, ·) = .ok (on, rest') ↔
          given = on ∧ rest' = rest := by
      simp only [map_eq_ok_iff, literal_eq_ok_iff, List.append_cancel_left_eq, Prod.mk.injEq]
      constructor
      · rintro ⟨_, rfl, same, rfl⟩
        exact ⟨same, rfl⟩
      · rintro ⟨same, rfl⟩
        exact ⟨_, rfl, same, rfl⟩
    simp only [truthWord_inj]
    cases given with
    | true => exact taken trueRest
    | false => exact taken falseRest
  · have noWord : first :: others ≠ truthWord on := by
      cases on <;> simp [truthWord, noTrue, noFalse]
    simp [noTrue, noFalse, noWord, wrongKind_ne_ok]

end Json

namespace Pooling

open Json

/-! ## Switches -/

/-- The member that switches a pooling on or off. -/
def switch : Pooling → String
  | .first => "pooling_mode_cls_token"
  | .mean => "pooling_mode_mean_tokens"

/-- The other one of the two poolings. -/
def other : Pooling → Pooling
  | .first => .mean
  | .mean => .first

/-- What is held of the switch of a name behind some members. It is set once at most, and to a truth
value. -/
inductive Sets (name : String) : Option Bool → List Member → Option Bool → Prop where
  | done {held : Option Bool} : Sets name held [] held
  | pass {held found : Option Bool} {member : Member} {members : List Member}
      (other : ¬member.Named name) (later : Sets name held members found) :
      Sets name held (member :: members) found
  | set {found : Option Bool} {member : Member} {members : List Member} {on : Bool}
      (named : member.Named name) (word : member.item.value = truthWord on)
      (later : Sets name (some on) members found) : Sets name none (member :: members) found

/-- What some members make of the switch of a name: none of them has the name, or just one, which
gives a truth value. -/
def Gives (members : List Member) (name : String) : Option Bool → Prop
  | none => ∀ member ∈ members, ¬member.Named name
  | some on => ∃ member, members.filter (·.Named name) = [member] ∧
      member.item.value = truthWord on

theorem sets_some_iff {name : String} {on : Bool} {found : Option Bool} {members : List Member} :
    Sets name (some on) members found ↔
      (∀ member ∈ members, ¬member.Named name) ∧ found = some on := by
  induction members with
  | nil =>
      constructor
      · intro sets
        cases sets
        simp
      · rintro ⟨_, rfl⟩
        exact .done
  | cons member members ih =>
      constructor
      · intro sets
        cases sets with
        | pass other later =>
            rcases ih.mp later with ⟨others, same⟩
            exact ⟨List.forall_mem_cons.mpr ⟨other, others⟩, same⟩
      · rintro ⟨others, same⟩
        rw [List.forall_mem_cons] at others
        exact .pass others.1 (ih.mpr ⟨others.2, same⟩)

theorem gives_cons_of_named {name : String} {member : Member} (named : member.Named name)
    {members : List Member} {found : Option Bool} :
    Gives (member :: members) name found ↔
      ∃ on, member.item.value = truthWord on ∧ (∀ member ∈ members, ¬member.Named name) ∧
        found = some on := by
  have rest : (member :: members).filter (·.Named name) =
      member :: members.filter (·.Named name) := by
    simp [named]
  cases found with
  | none => simp [Gives, named]
  | some on =>
      simp only [Gives, rest, List.cons.injEq, List.filter_eq_nil_iff, decide_eq_true_eq,
        Option.some.injEq]
      constructor
      · rintro ⟨_, ⟨rfl, others⟩, word⟩
        exact ⟨on, word, others, rfl⟩
      · rintro ⟨_, word, others, rfl⟩
        exact ⟨member, ⟨rfl, others⟩, word⟩

theorem gives_cons_of_other {name : String} {member : Member} (other : ¬member.Named name)
    {members : List Member} {found : Option Bool} :
    Gives (member :: members) name found ↔ Gives members name found := by
  cases found <;> simp [Gives, other]

theorem sets_none_iff {name : String} {found : Option Bool} {members : List Member} :
    Sets name none members found ↔ Gives members name found := by
  induction members with
  | nil =>
      constructor
      · intro sets
        cases sets
        simp [Gives]
      · intro gives
        cases found with
        | none => exact .done
        | some on => simp [Gives] at gives
  | cons member members ih =>
      by_cases named : member.Named name
      · rw [gives_cons_of_named named]
        constructor
        · intro sets
          cases sets with
          | pass other _ => exact absurd named other
          | set _ word later => exact ⟨_, word, sets_some_iff.mp later⟩
        · rintro ⟨on, word, rest⟩
          exact .set named word (sets_some_iff.mpr rest)
      · rw [gives_cons_of_other named, ← ih]
        constructor
        · intro sets
          cases sets with
          | pass _ later => exact later
          | set again _ _ => exact absurd again named
        · exact .pass named

/-! ## Members -/

/-- What the fields of the file may find. -/
def allowed : Shape.Allowed (Option Bool × Option Bool) := fun field draft v next =>
  ∃ on, v = truthWord on ∧
    next = if field.name = switch .first then (some on, draft.2) else (draft.1, some on)

theorem switchesShape_finds : switchesShape.FindsFields allowed := by
  intro field mem draft v value
  simp only [switchesShape, List.mem_cons, List.not_mem_nil, or_false] at mem
  rcases mem with rfl | rfl
  · exact Json.Field.of_finds (Finds.within (boolean_finds value))
  · exact Json.Field.of_finds (Finds.within (boolean_finds value))

theorem find?_first {name : String} (first : name = switch .first) :
    ∃ field, switchesShape.fields.find? (·.name = name) = some field ∧
      field.name = switch .first ∧ ∀ draft, field.isFilled draft = draft.1.isSome := by
  subst first
  exact ⟨_, rfl, rfl, fun _ => rfl⟩

theorem find?_mean {name : String} (mean : name = switch .mean) :
    ∃ field, switchesShape.fields.find? (·.name = name) = some field ∧
      field.name = switch .mean ∧ ∀ draft, field.isFilled draft = draft.2.isSome := by
  subst mean
  exact ⟨_, rfl, rfl, fun _ => rfl⟩

theorem find?_other {name : String} (noFirst : name ≠ switch .first)
    (noMean : name ≠ switch .mean) : switchesShape.fields.find? (·.name = name) = none := by
  rw [List.find?_eq_none]
  intro field mem
  simp only [switchesShape, List.mem_cons, List.not_mem_nil, or_false] at mem
  rw [decide_eq_true_eq]
  rcases mem with rfl | rfl
  · exact noFirst.symm
  · exact noMean.symm

/-- A member sets one of the switches, or leaves both alone. -/
theorem shape_gives_iff {draft next : Option Bool × Option Bool} {member : Member} :
    switchesShape.Gives allowed draft member next ↔
      ((∃ name, member.Named name) ∧ ¬member.Named (switch .first) ∧
          ¬member.Named (switch .mean) ∧ next = draft) ∨
        (∃ on, member.Named (switch .first) ∧ draft.1 = none ∧
          member.item.value = truthWord on ∧ next = (some on, draft.2)) ∨
        ∃ on, member.Named (switch .mean) ∧ draft.2 = none ∧
          member.item.value = truthWord on ∧ next = (draft.1, some on) := by
  have different : switch .mean ≠ switch .first := by decide
  constructor
  · rintro ⟨name, named, gives⟩
    by_cases first : name = switch .first
    · rcases find?_first first with ⟨field, known, isFirst, isFilled⟩
      simp only [known, reduceCtorEq, false_and, false_or, Option.some.injEq, exists_eq_left',
        isFilled, Option.isSome_eq_false_iff, Option.isNone_iff_eq_none, allowed, isFirst,
        if_true] at gives
      rcases gives with ⟨unset, on, word, same⟩
      exact .inr (.inl ⟨on, first ▸ named, unset, word, same⟩)
    · by_cases mean : name = switch .mean
      · rcases find?_mean mean with ⟨field, known, isMean, isFilled⟩
        simp only [known, reduceCtorEq, false_and, false_or, Option.some.injEq, exists_eq_left',
          isFilled, Option.isSome_eq_false_iff, Option.isNone_iff_eq_none, allowed, isMean,
          different, if_false] at gives
        rcases gives with ⟨unset, on, word, same⟩
        exact .inr (.inr ⟨on, mean ▸ named, unset, word, same⟩)
      · simp only [find?_other first mean, true_and, reduceCtorEq, false_and, exists_false,
          or_false] at gives
        exact .inl ⟨⟨name, named⟩, fun other => first (named.unique other),
          fun other => mean (named.unique other), gives⟩
  · rintro (⟨⟨name, named⟩, noFirst, noMean, same⟩ | ⟨on, named, unset, word, same⟩ |
      ⟨on, named, unset, word, same⟩)
    · refine ⟨name, named, .inl ⟨find?_other ?_ ?_, same⟩⟩
      · rintro rfl
        exact noFirst named
      · rintro rfl
        exact noMean named
    · rcases find?_first rfl with ⟨field, known, isFirst, isFilled⟩
      refine ⟨_, named, .inr ⟨field, known, by rw [isFilled, unset]; rfl, on, word, ?_⟩⟩
      rw [if_pos isFirst, same]
    · rcases find?_mean rfl with ⟨field, known, isMean, isFilled⟩
      refine ⟨_, named, .inr ⟨field, known, by rw [isFilled, unset]; rfl, on, word, ?_⟩⟩
      rw [if_neg (isMean.trans_ne different), same]

/-- The members of an object set the switches one by one. -/
theorem fills_iff {draft filled : Option Bool × Option Bool} {members : List Member} :
    switchesShape.Fills allowed draft members filled ↔
      (∀ member ∈ members, ∃ name, member.Named name) ∧
        Sets (switch .first) draft.1 members filled.1 ∧
        Sets (switch .mean) draft.2 members filled.2 := by
  have different : switch .first ≠ switch .mean := by decide
  induction members generalizing draft with
  | nil =>
      constructor
      · intro fills
        cases fills
        exact ⟨by simp, .done, .done⟩
      · rintro ⟨_, first, mean⟩
        rcases draft with ⟨_, _⟩
        rcases filled with ⟨_, _⟩
        cases first
        cases mean
        exact .done
  | cons member members ih =>
      simp only [Shape.fills_cons_iff, shape_gives_iff, ih, List.forall_mem_cons]
      constructor
      · rintro ⟨next, ⟨named, noFirst, noMean, rfl⟩ | ⟨on, named, unset, word, rfl⟩ |
          ⟨on, named, unset, word, rfl⟩, others, first, mean⟩
        · exact ⟨⟨named, others⟩, .pass noFirst first, .pass noMean mean⟩
        · refine ⟨⟨⟨_, named⟩, others⟩, ?_, .pass (fun other => ?_) mean⟩
          · rw [unset]
            exact .set named word first
          · exact different (named.unique other)
        · refine ⟨⟨⟨_, named⟩, others⟩, .pass (fun other => ?_) first, ?_⟩
          · exact different (other.unique named)
          · rw [unset]
            exact .set named word mean
      · rintro ⟨⟨named, others⟩, first, mean⟩
        rcases draft with ⟨heldFirst, heldMean⟩
        dsimp only at first mean
        cases first with
        | pass noFirst first =>
            cases mean with
            | pass noMean mean =>
                exact ⟨_, .inl ⟨named, noFirst, noMean, rfl⟩, others, first, mean⟩
            | set isMean word mean =>
                exact ⟨_, .inr (.inr ⟨_, isMean, rfl, word, rfl⟩), others, first, mean⟩
        | set isFirst word first =>
            cases mean with
            | pass noMean mean =>
                exact ⟨_, .inr (.inl ⟨_, isFirst, rfl, word, rfl⟩), others, first, mean⟩
            | set isMean _ _ => exact absurd (isFirst.unique isMean) different

theorem fillAbsent_eq (filled : Option Bool × Option Bool) :
    Shape.fillAbsent switchesShape.fields filled =
      .ok (some (filled.1.getD false), some (filled.2.getD false)) := by
  rcases filled with ⟨_ | first, _ | mean⟩ <;> rfl

/-- Some members set the switches. One that is not given is off. -/
def Switched (members : List Member) (switches : Switches) : Prop :=
  (∀ member ∈ members, ∃ name, member.Named name) ∧
    ∃ first mean, Gives members (switch .first) first ∧ Gives members (switch .mean) mean ∧
      switches = ⟨first.getD false, mean.getD false⟩

theorem readSwitches_finds {lead : List UInt8} {members : List Member} (blank : Blanks lead)
    (values : ∀ member ∈ members, Value member.item.value) :
    Finds readSwitches (objectText lead members) (Switched members) := by
  intro blanks blankBefore rest rest' switches
  have finds : ∀ member ∈ members, switchesShape.FindsMember allowed member :=
    fun member mem => switchesShape_finds.member (values member mem)
  have nothing : switchesShape.empty = (none, none) := rfl
  simp only [readSwitches, bind_eq_ok_iff, pure, Except.pure, Except.ok.injEq, Prod.exists,
    Prod.mk.injEq, Shape.object_finds finds blank values blankBefore, fills_iff, fillAbsent_eq,
    nothing, sets_none_iff, Switched]
  constructor
  · rintro ⟨_, _, _, ⟨⟨first, mean, ⟨named, isFirst, isMean⟩, rfl, rfl⟩, same⟩, rfl, rfl⟩
    exact ⟨⟨named, first, mean, isFirst, isMean, rfl⟩, same⟩
  · rintro ⟨⟨named, first, mean, isFirst, isMean, rfl⟩, same⟩
    exact ⟨_, _, _, ⟨⟨first, mean, ⟨named, isFirst, isMean⟩, rfl, rfl⟩, same⟩, rfl, rfl⟩

/-! ## Objects that ask for a pooling -/

/-- The members of an object that asks for a pooling: its switch is on, and the other one is off or
not given. -/
structure Asks (members : List Member) (pooling : Pooling) : Prop where
  named : ∀ member ∈ members, ∃ name, member.Named name
  on : Gives members pooling.switch (some true)
  off : Gives members pooling.other.switch none ∨ Gives members pooling.other.switch (some false)

theorem ofSwitches_eq_ok_iff {path : String} {switches : Switches} {pooling : Pooling} :
    ofSwitches path switches = .ok pooling ↔
      switches.first = decide (pooling = .first) ∧ switches.mean = decide (pooling = .mean) := by
  rcases switches with ⟨_ | _, _ | _⟩ <;> cases pooling <;> simp [ofSwitches]

theorem gives_off_iff {members : List Member} {name : String} :
    (∃ found, Gives members name found ∧ found.getD false = false) ↔
      Gives members name none ∨ Gives members name (some false) := by
  constructor
  · rintro ⟨_ | on, gives, off⟩
    · exact .inl gives
    · cases off
      exact .inr gives
  · rintro (gives | gives)
    · exact ⟨none, gives, rfl⟩
    · exact ⟨some false, gives, rfl⟩

theorem gives_on_iff {members : List Member} {name : String} :
    (∃ found, Gives members name found ∧ found.getD false = true) ↔
      Gives members name (some true) := by
  constructor
  · rintro ⟨_ | on, gives, on⟩
    · cases on
    · cases on
      exact gives
  · intro gives
    exact ⟨some true, gives, rfl⟩

theorem asks_iff (path : String) {members : List Member} {pooling : Pooling} :
    Asks members pooling ↔
      ∃ switches, Switched members switches ∧ ofSwitches path switches = .ok pooling := by
  simp only [ofSwitches_eq_ok_iff]
  constructor
  · rintro ⟨named, on, off⟩
    cases pooling with
    | first =>
        rcases gives_off_iff.mpr off with ⟨mean, isMean, off⟩
        exact ⟨_, ⟨named, _, _, on, isMean, rfl⟩, rfl, off⟩
    | mean =>
        rcases gives_off_iff.mpr off with ⟨first, isFirst, off⟩
        exact ⟨_, ⟨named, _, _, isFirst, on, rfl⟩, off, rfl⟩
  · rintro ⟨_, ⟨named, first, mean, isFirst, isMean, rfl⟩, ofFirst, ofMean⟩
    cases pooling with
    | first =>
        exact ⟨named, gives_on_iff.mp ⟨_, isFirst, ofFirst⟩, gives_off_iff.mp ⟨_, isMean, ofMean⟩⟩
    | mean =>
        exact ⟨named, gives_on_iff.mp ⟨_, isMean, ofMean⟩, gives_off_iff.mp ⟨_, isFirst, ofFirst⟩⟩

/-- A member that bears the name of a switch. -/
def IsSwitch (member : Member) : Prop :=
  member.Named (switch .first) ∨ member.Named (switch .mean)

instance (member : Member) : Decidable (IsSwitch member) :=
  inferInstanceAs (Decidable (_ ∨ _))

theorem isSwitch_of_named {member : Member} {pooling : Pooling}
    (named : member.Named pooling.switch) : IsSwitch member := by
  cases pooling with
  | first => exact .inl named
  | mean => exact .inr named

section
variable {members others : List Member} {pooling : Pooling}
  (same : (members.filter IsSwitch).Perm (others.filter IsSwitch))
include same

theorem Gives.of_perm {found : Option Bool} (gives : Gives members pooling.switch found) :
    Gives others pooling.switch found := by
  have whole (members : List Member) :
      (members.filter IsSwitch).filter (·.Named pooling.switch) =
        members.filter (·.Named pooling.switch) := by
    rw [List.filter_filter]
    apply List.filter_congr
    intro member _
    simpa using isSwitch_of_named
  have named := same.filter (·.Named pooling.switch)
  rw [whole, whole] at named
  cases found with
  | none =>
      have none_named : members.filter (·.Named pooling.switch) = [] := by
        simpa [List.filter_eq_nil_iff, Gives] using gives
      rw [none_named] at named
      simpa [List.filter_eq_nil_iff, Gives] using named.symm.eq_nil
  | some on =>
      rcases gives with ⟨member, only, word⟩
      rw [only] at named
      exact ⟨member, (List.singleton_perm.mp named).symm, word⟩

/-- Neither the order of the members nor those that are no switches matter. -/
theorem Asks.of_perm (asks : Asks members pooling)
    (named : ∀ member ∈ others, ∃ name, member.Named name) : Asks others pooling where
  named := named
  on := asks.on.of_perm same
  off := asks.off.imp (·.of_perm same) (·.of_perm same)

end

theorem Gives.mem {members : List Member} {name : String} {on : Bool}
    (gives : Gives members name (some on)) :
    ∃ member ∈ members, member.Named name ∧ member.item.value = truthWord on := by
  rcases gives with ⟨member, only, word⟩
  have inside : member ∈ members.filter (·.Named name) := by
    rw [only]
    exact List.mem_singleton_self member
  rw [List.mem_filter, decide_eq_true_eq] at inside
  exact ⟨member, inside.1, inside.2, word⟩

theorem Gives.eq {members : List Member} {name : String} {on : Bool}
    (gives : Gives members name (some on)) {one two : Member} (mem : one ∈ members)
    (named : one.Named name) (also : two ∈ members) (again : two.Named name) : one = two := by
  rcases gives with ⟨member, only, _⟩
  have only_one {other : Member} (mem : other ∈ members) (named : other.Named name) :
      other = member := by
    rw [← List.mem_singleton, ← only, List.mem_filter, decide_eq_true_eq]
    exact ⟨mem, named⟩
  rw [only_one mem named, only_one also again]

theorem Gives.not_on {members : List Member} {name : String}
    (gives : Gives members name none ∨ Gives members name (some false)) {member : Member}
    (mem : member ∈ members) (named : member.Named name) :
    member.item.value ≠ truthWord true := by
  rcases gives with absent | off
  · exact absurd named (absent member mem)
  · rcases off.mem with ⟨other, inside, again, word⟩
    rw [off.eq mem named inside again, word]
    decide

/-- Of the two switches just one is on. -/
theorem Asks.only_on {members : List Member} {pooling : Pooling} (asks : Asks members pooling) :
    ∃ on ∈ members, on.Named pooling.switch ∧ on.item.value = truthWord true ∧
      ∀ member ∈ members, IsSwitch member → member.item.value = truthWord true → member = on := by
  rcases asks.on.mem with ⟨on, inside, named, word⟩
  refine ⟨on, inside, named, word, ?_⟩
  intro member mem isSwitch bright
  have cases : member.Named pooling.switch ∨ member.Named pooling.other.switch := by
    cases pooling with
    | first => exact isSwitch
    | mean => exact isSwitch.symm
  rcases cases with again | other
  · exact asks.on.eq mem again inside named
  · exact absurd bright (Gives.not_on asks.off mem other)

/-! ## Files -/

/-- A text that is an object with some members, and nothing else but blanks. -/
def Object (bytes : List UInt8) (members : List Member) : Prop :=
  ∃ before lead after, Blanks before ∧ Blanks lead ∧ Blanks after ∧
    (∀ member ∈ members, Value member.item.value) ∧
      bytes = before ++ (objectText lead members ++ after)

theorem readWhole_eq_ok_iff_of_object {bytes : List UInt8} {members : List Member}
    (object : Object bytes members) {switches : Switches} :
    readWhole readSwitches bytes = .ok switches ↔ Switched members switches := by
  rcases object with ⟨before, lead, after, blank, blankLead, blankAfter, values, rfl⟩
  simp only [readWhole_eq_ok_iff, readSwitches_finds blankLead values blank]
  constructor
  · rintro ⟨_, _, given, _⟩
    exact given
  · intro given
    exact ⟨after, blankAfter, given, rfl⟩

theorem ofText_eq_ok_iff {path : String} {bytes : List UInt8} {members : List Member}
    (object : Object bytes members) {pooling : Pooling} :
    ofText path bytes = .ok pooling ↔ Asks members pooling := by
  simp only [asks_iff path, ← readWhole_eq_ok_iff_of_object object, ofText]
  cases readWhole readSwitches bytes <;> simp

/-- An object that switches on both poolings or none is refused. -/
theorem ofText_of_switched {path : String} {bytes : List UInt8} {members : List Member}
    (object : Object bytes members) {switches : Switches} (switched : Switched members switches)
    (alike : switches.first = switches.mean) :
    ofText path bytes = .error (.unsupported path switches) := by
  rw [ofText, (readWhole_eq_ok_iff_of_object object).mpr switched]
  rcases switches with ⟨_ | _, _ | _⟩
  · rfl
  · cases alike
  · cases alike
  · rfl

theorem ofModel_of_read {files : Files} {directory text : String}
    (read : files.read (Path.join directory Model.poolingFile) = .ok (utf8 text)) :
    ofModel files directory = ofText (Path.join directory Model.poolingFile) (utf8 text) := by
  have standing : files.isFile (Path.join directory Model.poolingFile) = true := by
    rcases Files.read_eq_ok_iff.mp read with ⟨place, located, found⟩
    exact Files.isFile_iff.mpr ⟨place, _, located, found⟩
  simp only [ofModel, standing, Files.readText_of_read read, Bool.not_true, Bool.false_eq_true,
    if_false]
  rfl

theorem ofModel_of_readConfig {files : Files} {directory : String} {expected : Option Nat}
    {config : Transformer.Config} {pooling : Pooling}
    (read : Transformer.readConfig files directory expected = .ok (config, pooling)) :
    ofModel files directory = .ok pooling := by
  simp only [Transformer.readConfig, bind_eq_ok_iff, mapError_eq_ok_iff] at read
  rcases read with ⟨_, _, sizes, _, checked⟩
  have last (made : ∃ found, ofModel files directory = .ok found ∧
      (pure (sizes, found) : Except Transformer.LoadError _) = .ok (config, pooling)) :
      ofModel files directory = .ok pooling := by
    rcases made with ⟨_, chosen, same⟩
    cases same
    exact chosen
  cases expected with
  | none =>
      simp only [bind_eq_ok_iff, mapError_eq_ok_iff] at checked
      exact last checked
  | some dimension =>
      by_cases same : dimension = sizes.width
      · simp only [same, ne_eq, not_true_eq_false, if_false, bind_eq_ok_iff,
          mapError_eq_ok_iff] at checked
        exact last checked
      · simp [same, bind_eq_ok_iff, throw, throwThe, MonadExceptOf.throw] at checked

/-- A model that is loaded pools as its file says. -/
theorem ofModel_of_load {files : Files} {resolved : Model.Resolved} {maxTokens : Nat}
    {expected : Option Nat} {sentences : SentenceEncoder Number.Single}
    (loaded : (Transformer.load files resolved maxTokens expected).outcome = .ok sentences) :
    ofModel files resolved.dir = .ok sentences.pooling := by
  rcases Transformer.load_eq_ok_iff.mp loaded with ⟨config, pooling, read, assembled⟩
  rcases Transformer.assemble_eq_ok_iff.mp assembled with ⟨_, _, _, _, _, _, _, _, rfl⟩
  exact ofModel_of_readConfig read

/-- A member that bears the name of a pooling, supported or not. -/
def IsMode (member : Member) : Prop :=
  ∃ mode, member.Named ("pooling_mode_" ++ mode)

/-- A member that switches something on. -/
def IsOn (member : Member) : Prop :=
  member.item.value = truthWord true

/-- The files of a model that has only the file for the pooling. -/
def modelWith (text : String) : Files where
  nodes := [(["m"], .directory), (["m", "1_Pooling"], .directory),
    (["m", "1_Pooling", "config.json"], .file (utf8 text))]
  current := []

/-- A member without blanks, whose value is a truth value. -/
def memberFor (name : String) (on : Bool) : Member :=
  memberOf name ⟨[], truthWord on, [], blanks_nil, blanks_nil⟩

/-- The pooling of a model is the one that the object in its file asks for, which is the only
pooling of the object that is on, if none is on that is not supported. Without a supported pooling
that is on, or with both, the model is refused. Neither the order of the members nor those that are
no switches matter. -/
theorem pooling_as_switched {files : Files} {directory text : String} {members : List Member}
    (read : files.read (Path.join directory Model.poolingFile) = .ok (utf8 text))
    (object : Object (utf8 text) members) :
    (∀ pooling, ofModel files directory = .ok pooling ↔ Asks members pooling) ∧
    (∀ pooling, ofModel files directory = .ok pooling →
      (∀ member ∈ members, IsMode member → IsOn member → IsSwitch member) →
      ∃ on ∈ members, on.Named pooling.switch ∧
        ∀ member ∈ members, IsMode member → (IsOn member ↔ member = on)) ∧
    ((∀ member ∈ members, IsOn member → ¬IsSwitch member) →
      ∃ error, ofModel files directory = .error error) ∧
    (∀ switches, Switched members switches → switches.first = switches.mean →
      ofModel files directory =
        .error (.unsupported (Path.join directory Model.poolingFile) switches)) ∧
    (∀ {files' : Files} {directory' text' : String} {others : List Member},
      files'.read (Path.join directory' Model.poolingFile) = .ok (utf8 text') →
      Object (utf8 text') others →
      (∀ member ∈ members, ∃ name, member.Named name) →
      (∀ member ∈ others, ∃ name, member.Named name) →
      (members.filter IsSwitch).Perm (others.filter IsSwitch) →
      ∀ pooling, ofModel files directory = .ok pooling ↔ ofModel files' directory' = .ok pooling) ∧
    ∀ {resolved maxTokens expected sentences}, resolved.dir = directory →
      (Transformer.load files resolved maxTokens expected).outcome = .ok sentences →
      Asks members sentences.pooling := by
  have chosen (pooling : Pooling) :
      ofModel files directory = .ok pooling ↔ Asks members pooling := by
    rw [ofModel_of_read read, ofText_eq_ok_iff object]
  refine ⟨chosen, ?only, ?none, ?both, ?alike, ?loaded⟩
  case only =>
    intro pooling made supported
    rcases ((chosen pooling).mp made).only_on with ⟨on, inside, named, bright, only⟩
    refine ⟨on, inside, named, fun member mem mode => ⟨fun isOn => ?_, ?_⟩⟩
    · exact only member mem (supported member mem mode isOn) isOn
    · rintro rfl
      exact bright
  case none =>
    intro dark
    cases made : ofModel files directory with
    | error error => exact ⟨error, rfl⟩
    | ok pooling =>
        rcases ((chosen pooling).mp made).only_on with ⟨on, inside, named, bright, _⟩
        exact absurd (isSwitch_of_named named) (dark on inside bright)
  case both =>
    intro switches switched alike
    rw [ofModel_of_read read, ofText_of_switched object switched alike]
  case alike =>
    intro files' directory' text' others read' object' named named' same pooling
    rw [chosen, ofModel_of_read read', ofText_eq_ok_iff object']
    exact ⟨(·.of_perm same named'), (·.of_perm same.symm named)⟩
  case loaded =>
    rintro resolved _ _ sentences rfl loaded
    exact (chosen _).mp (ofModel_of_load loaded)

/-- A model that asks for the mean, with a switch that is off before. -/
theorem pooling_as_switched_mean :
    let text := "\x7b\"pooling_mode_max_tokens\":false,\"pooling_mode_mean_tokens\":true\x7d"
    let members := [memberFor "pooling_mode_max_tokens" false, memberFor (switch .mean) true]
    (modelWith text).read (Path.join "m" Model.poolingFile) = .ok (utf8 text) ∧
      Object (utf8 text) members ∧ Asks members .mean ∧
      ofModel (modelWith text) "m" = .ok .mean := by
  intro text members
  have read : (modelWith text).read (Path.join "m" Model.poolingFile) = .ok (utf8 text) := by
    decide +kernel
  have object : Object (utf8 text) members :=
    ⟨[], [], [], blanks_nil, blanks_nil, blanks_nil, by decide +kernel, by decide +kernel⟩
  have made : ofModel (modelWith text) "m" = .ok .mean := by decide +kernel
  exact ⟨read, object, ((pooling_as_switched read object).1 .mean).mp made, made⟩

/-- A model that asks for two poolings is served with the supported one. -/
theorem other_mode_ignored :
    let text := "\x7b\"pooling_mode_cls_token\":true,\"pooling_mode_max_tokens\":true\x7d"
    let members := [memberFor (switch .first) true, memberFor "pooling_mode_max_tokens" true]
    Object (utf8 text) members ∧ ofModel (modelWith text) "m" = .ok .first ∧
      (∀ member ∈ members, IsMode member ∧ IsOn member) ∧
      ¬∃ on ∈ members, ∀ member ∈ members, IsMode member → (IsOn member ↔ member = on) := by
  intro text members
  have object : Object (utf8 text) members :=
    ⟨[], [], [], blanks_nil, blanks_nil, blanks_nil, by decide +kernel, by decide +kernel⟩
  have modes : ∀ member ∈ members, IsMode member ∧ IsOn member := by
    intro member mem
    rcases List.mem_pair.mp mem with rfl | rfl
    · exact ⟨⟨"cls_token", named_memberOf _ _⟩, rfl⟩
    · exact ⟨⟨"max_tokens", named_memberOf _ _⟩, rfl⟩
  have different : memberFor (switch .first) true ≠ memberFor "pooling_mode_max_tokens" true := by
    intro same
    have first := named_memberOf (switch .first) ⟨[], truthWord true, [], blanks_nil, blanks_nil⟩
    have again : (memberFor "pooling_mode_max_tokens" true).Named (switch .first) := same ▸ first
    exact absurd (again.unique (named_memberOf _ _)) (by decide)
  refine ⟨object, by decide +kernel, modes, ?_⟩
  rintro ⟨on, _, only⟩
  have alone {member : Member} (mem : member ∈ members) : member = on :=
    (only member mem (modes member mem).1).mp (modes member mem).2
  apply different
  rw [alone (List.mem_cons_self), alone (List.mem_pair.mpr (.inr rfl))]

end Pooling

end TextVectors
