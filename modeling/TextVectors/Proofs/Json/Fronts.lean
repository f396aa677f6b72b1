import TextVectors.Proofs.Json.Faults
import TextVectors.Proofs.Json.Reading

/-!
# What a front of a text decides

A reader looks at a text from the front and stops as soon as it can. What it has
taken by then is a value, so a defect inside a value is never overlooked: it
`Takes` values only.

The answer is `Settled` by the bytes that have been read if no bytes behind them
can change it. What was taken is taken again with more bytes behind it. A defect
of the shape stays one; it does not turn into a value when the text goes on. Only
a text that is not JSON so far may still become the front of one that is.
-/

namespace TextVectors

namespace Json

variable {α σ : Type}

/-- What the reader takes is a value. -/
def Takes (read : Reader α) : Prop :=
  ∀ {bytes rest : List UInt8} {found : α}, read bytes = .ok (found, rest) →
    ∃ blanks v, Blanks blanks ∧ Value v ∧ bytes = blanks ++ (v ++ rest)

/-- No bytes behind the text can change what was read of it, nor turn a defect of its shape into a
value. -/
structure Settled (read : Reader α) : Prop where
  taken : ∀ {bytes rest : List UInt8} {found : α}, read bytes = .ok (found, rest) →
    ∀ tail, read (bytes ++ tail) = .ok (found, rest ++ tail)
  refused : ∀ {bytes : List UInt8} {defect : Defect}, read bytes = .error defect →
    defect.fault.isMisshapen = true → ∀ tail found, read (bytes ++ tail) ≠ .ok found

/-- Nothing that is taken depends on what stands behind it. -/
theorem Takes.append {read : Reader α} (takes : Takes read) {allowed : List UInt8 → α → Prop}
    (finds : ∀ {v}, Value v → Finds read v (allowed v)) {bytes rest : List UInt8} {found : α}
    (taken : read bytes = .ok (found, rest)) (tail : List UInt8) :
    read (bytes ++ tail) = .ok (found, rest ++ tail) := by
  rcases takes taken with ⟨blanks, v, blank, value, rfl⟩
  have holds := ((finds value blank).mp taken).1
  rw [List.append_assoc, List.append_assoc]
  exact (finds value blank).mpr ⟨holds, rfl⟩

theorem Syntactic.not_misshapen {result : Except Defect α} (syntactic : Syntactic result)
    {defect : Defect} (stopped : result = .error defect) : ¬defect.fault.isMisshapen = true := by
  rw [syntactic defect stopped]
  decide

/-! ## Between pieces -/

theorem skipBlanks_append_of_cons {bytes rest : List UInt8} {byte : UInt8}
    (atByte : skipBlanks bytes = byte :: rest) (tail : List UInt8) :
    skipBlanks (bytes ++ tail) = byte :: (rest ++ tail) := by
  unfold skipBlanks at *
  simp [List.dropWhile_append, atByte]

theorem nextItem_append {first more : Bool} {bytes behind : List UInt8}
    (next : nextItem first bytes = .ok (more, behind)) (tail : List UInt8) :
    nextItem first (bytes ++ tail) = .ok (more, behind ++ tail) := by
  unfold nextItem at *
  cases atByte : skipBlanks bytes with
  | nil => simp [atByte, Defect.before] at next
  | cons byte rest =>
      simp only [atByte, skipBlanks_append_of_cons atByte] at *
      split_ifs at next ⊢ with closing isFirst comma
      · cases next
        rfl
      · cases next
        rfl
      · cases atItem : skipBlanks rest with
        | nil => simp [atItem, Defect.before] at next
        | cons byte rest =>
            simp only [atItem, skipBlanks_append_of_cons atItem] at *
            split_ifs at next ⊢
            · cases next
            · cases next
              rfl
      · cases next

theorem nextItem_sound {first more : Bool} {bytes behind : List UInt8}
    (next : nextItem first bytes = .ok (more, behind)) :
    (more = false ∧
        ∃ lead rest, Blanks lead ∧ behind = 0x5D :: rest ∧ bytes = lead ++ 0x5D :: rest) ∨
      (more = true ∧ ∃ lead front, Blanks lead ∧ Blanks front ∧
        bytes = lead ++ ((bif first then [] else [0x2C]) ++ (front ++ behind))) := by
  unfold nextItem at next
  rcases exists_blanks bytes with ⟨lead, blank, same⟩
  cases atByte : skipBlanks bytes with
  | nil => simp [atByte, Defect.before] at next
  | cons byte rest =>
      simp only [atByte] at *
      split_ifs at next with closing isFirst comma
      · cases next
        subst closing
        exact .inl ⟨rfl, lead, rest, blank, rfl, same⟩
      · cases next
        subst isFirst
        exact .inr ⟨rfl, lead, [], blank, blanks_nil, same⟩
      · rcases exists_blanks rest with ⟨front, blankFront, sameRest⟩
        cases atItem : skipBlanks rest with
        | nil => simp [atItem, Defect.before] at next
        | cons byte' rest' =>
            simp only [atItem] at *
            split_ifs at next
            · cases next
            · cases next
              refine .inr ⟨rfl, lead, front, blank, blankFront, ?_⟩
              rw [same, comma, sameRest]
              simp [isFirst]
      · cases next

theorem nextKey_append {first more : Bool} {bytes behind : List UInt8}
    (next : nextKey first bytes = .ok (more, behind)) (tail : List UInt8) :
    nextKey first (bytes ++ tail) = .ok (more, behind ++ tail) := by
  unfold nextKey at *
  cases atByte : skipBlanks bytes with
  | nil => simp [atByte, Defect.before] at next
  | cons byte rest =>
      simp only [atByte, skipBlanks_append_of_cons atByte] at *
      split_ifs at next ⊢ with closing isFirst quote comma
      · cases next
        rfl
      · cases next
        rfl
      · cases next
      · cases atKey : skipBlanks rest with
        | nil => simp [atKey, Defect.before] at next
        | cons byte rest =>
            simp only [atKey, skipBlanks_append_of_cons atKey] at *
            split_ifs at next ⊢
            · cases next
              rfl
            · cases next
            · cases next
      · cases next

theorem nextKey_sound {first more : Bool} {bytes behind : List UInt8}
    (next : nextKey first bytes = .ok (more, behind)) :
    (more = false ∧
        ∃ lead rest, Blanks lead ∧ behind = 0x7D :: rest ∧ bytes = lead ++ 0x7D :: rest) ∨
      (more = true ∧ ∃ lead front, Blanks lead ∧ Blanks front ∧
        bytes = lead ++ ((bif first then [] else [0x2C]) ++ (front ++ 0x22 :: behind))) := by
  unfold nextKey at next
  rcases exists_blanks bytes with ⟨lead, blank, same⟩
  cases atByte : skipBlanks bytes with
  | nil => simp [atByte, Defect.before] at next
  | cons byte rest =>
      simp only [atByte] at *
      split_ifs at next with closing isFirst quote comma
      · cases next
        subst closing
        exact .inl ⟨rfl, lead, rest, blank, rfl, same⟩
      · cases next
        subst isFirst quote
        exact .inr ⟨rfl, lead, [], blank, blanks_nil, same⟩
      · cases next
      · rcases exists_blanks rest with ⟨front, blankFront, sameRest⟩
        cases atKey : skipBlanks rest with
        | nil => simp [atKey, Defect.before] at next
        | cons byte' rest' =>
            simp only [atKey] at *
            split_ifs at next with quote
            · cases next
              refine .inr ⟨rfl, lead, front, blank, blankFront, ?_⟩
              rw [same, comma, sameRest, quote]
              simp [isFirst]
            · cases next
            · cases next
      · cases next

theorem colon_append {bytes rest : List UInt8} (passed : colon bytes = .ok rest)
    (tail : List UInt8) : colon (bytes ++ tail) = .ok (rest ++ tail) := by
  unfold colon at *
  cases atByte : skipBlanks bytes with
  | nil => simp [atByte, Defect.before] at passed
  | cons byte others =>
      simp only [atByte, skipBlanks_append_of_cons atByte] at *
      split_ifs at passed ⊢
      · cases passed
        rfl
      · cases passed

theorem colon_sound {bytes rest : List UInt8} (passed : colon bytes = .ok rest) :
    ∃ between, Blanks between ∧ bytes = between ++ 0x3A :: rest := by
  unfold colon at passed
  cases atByte : skipBlanks bytes with
  | nil => simp [atByte, Defect.before] at passed
  | cons byte others =>
      simp only [atByte] at passed
      split_ifs at passed with isColon
      · cases passed
        subst isColon
        exact exists_blanks_of_skipBlanks atByte
      · cases passed

theorem skipValue_append {bytes rest tail : List UInt8} (skipped : skipValue bytes = .ok rest)
    (ends : EndsNumber (rest ++ tail)) : skipValue (bytes ++ tail) = .ok (rest ++ tail) := by
  rcases skipValue_sound skipped with ⟨blanks, v, blank, value, rfl⟩
  rw [List.append_assoc, List.append_assoc]
  exact skipValue_complete blank value ends

theorem stringRest_append {bytes rest : List UInt8} {text : String}
    (read : stringRest bytes = .ok (text, rest)) (tail : List UInt8) :
    stringRest (bytes ++ tail) = .ok (text, rest ++ tail) := by
  rcases stringRest_eq_ok_iff.1 read with ⟨body, denotes, rfl⟩
  exact stringRest_eq_ok_iff.2 ⟨body, denotes, by simp⟩

/-- No number can go on where an object does. -/
theorem endsNumber_of_nextKey {more : Bool} {bytes behind : List UInt8}
    (next : nextKey false bytes = .ok (more, behind)) : EndsNumber bytes := by
  rcases nextKey_sound next with ⟨_, lead, rest, blank, _, rfl⟩ | ⟨_, lead, front, blank, _, rfl⟩
  · exact endsNumber_append blank (endsNumber_cons (by decide))
  · exact endsNumber_append blank (endsNumber_cons (by decide))

/-! ## Strings and lists -/

theorem string_takes : Takes string := by
  intro bytes rest text read
  unfold string at read
  split at read
  · rename_i atQuote
    rcases stringRest_eq_ok_iff.1 read with ⟨body, denotes, rfl⟩
    rcases exists_blanks_of_skipBlanks atQuote with ⟨blanks, blank, rfl⟩
    exact ⟨blanks, quoted body, blank, .string denotes.body, by simp [quoted]⟩
  · exact absurd read (wrongKind_ne_ok _ _ _)

theorem string_settled : Settled string where
  taken := string_takes.append string_finds
  refused := by
    intro bytes defect stopped misshapen tail text read
    unfold string at stopped read
    cases atByte : skipBlanks bytes with
    | nil =>
        simp only [atByte] at stopped
        exact wrongKind_nil_syntactic.not_misshapen stopped misshapen
    | cons byte others =>
        rw [skipBlanks_append_of_cons atByte] at read
        split at read
        · rename_i quote
          cases quote
          simp only [atByte] at stopped
          exact (stringRest_syntactic others).not_misshapen stopped misshapen
        · exact wrongKind_ne_ok _ _ _ read

theorem items_takes {read : Reader α} (takes : Takes read) {fuel index : Nat} {first : Bool}
    {bytes rest : List UInt8} {xs : List α}
    (taken : items read fuel index first bytes = .ok (xs, rest)) :
    ∃ (lead : List UInt8) (list : List Item), Blanks lead ∧ (∀ item ∈ list, Value item.value) ∧
      bytes = lead ++ (strung first (list.map Item.text) ++ 0x5D :: rest) := by
  induction fuel generalizing index first bytes xs with
  | zero => cases taken
  | succ fuel ih =>
      cases next : nextItem first bytes with
      | error defect => simp [items, next, bind, Except.bind] at taken
      | ok found =>
          rcases found with ⟨more, behind⟩
          rcases nextItem_sound next with ⟨rfl, lead, after, blank, rfl, rfl⟩ |
            ⟨rfl, lead, front, blank, blankFront, rfl⟩
          · simp only [items, next, bind, Except.bind, pure, Except.pure, Bool.false_eq_true,
              if_false, List.drop_succ_cons, List.drop_zero, Except.ok.injEq,
              Prod.mk.injEq] at taken
            exact ⟨lead, [], blank, by simp, by simp [strung_nil, taken.2]⟩
          · rcases (items_succ_eq_ok_iff next).mp taken with ⟨x, later, others, here, there, rfl⟩
            rcases takes here with ⟨blanks, v, blankBefore, value, rfl⟩
            rcases ih there with ⟨after, list, blankAfter, values, rfl⟩
            let item : Item :=
              ⟨front ++ blanks, v, after, blankFront.append blankBefore, blankAfter⟩
            refine ⟨lead, item :: list, blank, List.forall_mem_cons.mpr ⟨value, values⟩, ?_⟩
            simp [strung_cons, Item.text, item]

theorem list_takes {read : Reader α} (takes : Takes read) : Takes (Json.list read) := by
  intro bytes rest xs taken
  unfold Json.list at taken
  split at taken
  · rename_i inside atBracket
    rcases items_takes takes taken with ⟨lead, list, blank, values, rfl⟩
    rcases exists_blanks_of_skipBlanks atBracket with ⟨blanks, blankBefore, rfl⟩
    exact ⟨blanks, listText lead list, blankBefore, .list blank values,
      by simp [listText, enclosed, strung]⟩
  · exact absurd taken (wrongKind_ne_ok _ _ _)

theorem items_succ_eq_error_iff {read : Reader α} {fuel index : Nat} {first : Bool}
    {bytes behind : List UInt8} (more : nextItem first bytes = .ok (true, behind))
    {defect : Defect} :
    items read (fuel + 1) index first bytes = .error defect ↔
      (∃ inner, read behind = .error inner ∧ inner.within (.item index) = defect) ∨
        ∃ x later, read behind = .ok (x, later) ∧
          items read fuel (index + 1) false later = .error defect := by
  simp [items, more, bind_eq_error_iff, mapError_eq_error_iff, mapError_eq_ok_iff, pure,
    Except.pure]

theorem items_refused {read : Reader α} (settled : Settled read) {fuel index : Nat} {first : Bool}
    {bytes : List UInt8} {defect : Defect}
    (stopped : items read fuel index first bytes = .error defect)
    (misshapen : defect.fault.isMisshapen = true) (tail : List UInt8) {fuel' index' : Nat}
    {out : List α × List UInt8} : items read fuel' index' first (bytes ++ tail) ≠ .ok out := by
  intro taken
  induction fuel generalizing index first bytes fuel' index' out with
  | zero =>
      cases stopped
      cases misshapen
  | succ fuel ih =>
      cases fuel' with
      | zero => cases taken
      | succ fuel' =>
          cases next : nextItem first bytes with
          | error other =>
              simp only [items, next, bind, Except.bind, Except.error.injEq] at stopped
              subst stopped
              exact (nextItem_syntactic first bytes).not_misshapen next misshapen
          | ok found =>
              rcases found with ⟨_ | _, behind⟩
              · simp [items, next, bind, Except.bind, pure, Except.pure] at stopped
              · rcases (items_succ_eq_ok_iff (nextItem_append next tail)).mp taken with
                  ⟨x, later, others, here, there, _⟩
                rcases (items_succ_eq_error_iff next).mp stopped with
                  ⟨inner, inside, rfl⟩ | ⟨y, behindItem, given, stopped⟩
                · exact settled.refused inside misshapen tail _ here
                · rw [settled.taken given tail] at here
                  cases here
                  exact ih stopped there

theorem list_refused {read : Reader α} (settled : Settled read) {bytes : List UInt8}
    {defect : Defect} (stopped : Json.list read bytes = .error defect)
    (misshapen : defect.fault.isMisshapen = true) (tail : List UInt8) (out : List α × List UInt8) :
    Json.list read (bytes ++ tail) ≠ .ok out := by
  intro taken
  unfold Json.list at stopped taken
  cases atByte : skipBlanks bytes with
  | nil =>
      simp only [atByte] at stopped
      exact wrongKind_nil_syntactic.not_misshapen stopped misshapen
  | cons byte others =>
      rw [skipBlanks_append_of_cons atByte] at taken
      split at taken
      · rename_i bracket
        cases bracket
        simp only [atByte] at stopped
        exact items_refused settled stopped misshapen tail taken
      · exact wrongKind_ne_ok _ _ _ taken

/-! ## Records -/

section
variable {name : String} {get : σ → Option α} {set : σ → α → σ} {read : Reader α}
  {absence : Absence σ} (draft : σ)

theorem Field.of_takes (takes : Takes read) :
    Takes ((Field.of name get set read absence).read draft) := by
  intro bytes rest next taken
  rcases map_eq_ok_iff.1 taken with ⟨⟨found, rest⟩, taken, same⟩
  cases same
  exact takes taken

theorem Field.of_settled (settled : Settled read) :
    Settled ((Field.of name get set read absence).read draft) where
  taken := by
    intro bytes rest next taken tail
    rcases map_eq_ok_iff.1 taken with ⟨⟨found, rest⟩, taken, same⟩
    cases same
    exact map_eq_ok_iff.2 ⟨_, settled.taken taken tail, rfl⟩
  refused := by
    intro bytes defect stopped misshapen tail next taken
    rcases map_eq_ok_iff.1 taken with ⟨found, taken, _⟩
    cases read' : read bytes with
    | error other =>
        simp only [Field.of, read', Except.map, Except.error.injEq] at stopped
        subst stopped
        exact settled.refused read' misshapen tail found taken
    | ok found => simp [Field.of, read', Except.map] at stopped

end

namespace Shape

variable {shape : Shape σ}

theorem member_takes (takes : ∀ field ∈ shape.fields, ∀ draft, Takes (field.read draft))
    {draft next : σ} {bytes later : List UInt8}
    (taken : shape.member draft bytes = .ok (next, later)) :
    ∃ key between blanks v, Body key ∧ Blanks between ∧ Blanks blanks ∧ Value v ∧
      bytes = key ++ 0x22 :: (between ++ 0x3A :: (blanks ++ (v ++ later))) := by
  rcases member_eq_ok_iff.1 taken with ⟨name, rest, content, isKey, atColon, known⟩
  rcases stringRest_eq_ok_iff.1 isKey with ⟨key, denotes, rfl⟩
  rcases colon_sound atColon with ⟨between, blankBetween, rfl⟩
  have whole : ∃ blanks v, Blanks blanks ∧ Value v ∧ content = blanks ++ (v ++ later) := by
    rcases known with ⟨_, skipped, _⟩ | ⟨field, known, _, here⟩
    · exact skipValue_sound skipped
    · exact takes field (List.mem_of_find?_eq_some known) draft here
  rcases whole with ⟨blanks, v, blank, value, rfl⟩
  exact ⟨key, between, blanks, v, denotes.body, blankBetween, blank, value, rfl⟩

theorem members_takes (takes : ∀ field ∈ shape.fields, ∀ draft, Takes (field.read draft))
    {fuel : Nat} {first : Bool} {draft out : σ} {bytes rest : List UInt8}
    (taken : shape.members fuel first draft bytes = .ok (out, rest)) :
    ∃ (lead : List UInt8) (members : List Member), Blanks lead ∧
      (∀ member ∈ members, Value member.item.value) ∧
        bytes = lead ++ (strung first (members.map Member.text) ++ 0x7D :: rest) := by
  induction fuel generalizing first draft bytes with
  | zero => cases taken
  | succ fuel ih =>
      cases next : nextKey first bytes with
      | error defect => simp [members, next, bind, Except.bind] at taken
      | ok found =>
          rcases found with ⟨more, behind⟩
          rcases nextKey_sound next with ⟨rfl, lead, after, blank, rfl, rfl⟩ |
            ⟨rfl, lead, front, blank, blankFront, rfl⟩
          · rcases (members_closing next).mp taken with ⟨filled, _, same⟩
            cases same
            exact ⟨lead, [], blank, by simp, by simp [strung_nil]⟩
          · rw [members_succ next, bind_eq_ok_iff] at taken
            rcases taken with ⟨⟨draft', later⟩, here, there⟩
            rcases member_takes takes here with
              ⟨key, between, blanks, v, body, blankBetween, blankBefore, value, rfl⟩
            rcases ih there with ⟨after, members, blankAfter, values, rfl⟩
            let member : Member :=
              ⟨front, key, between, ⟨blanks, v, after, blankBefore, blankAfter⟩, blankFront, body,
                blankBetween⟩
            refine ⟨lead, member :: members, blank, List.forall_mem_cons.mpr ⟨value, values⟩, ?_⟩
            simp [strung_cons, Member.text, Item.text, quoted, member]

theorem listed_closing {fields : List (Field σ)} {index : Nat} {draft out : σ}
    {bytes behind : List UInt8}
    (taken : shape.listed fields index draft (0x5D :: bytes) = .ok (out, behind)) :
    behind = 0x5D :: bytes := by
  induction fields generalizing index draft with
  | nil =>
      cases taken
      rfl
  | cons field fields ih =>
      have closing := nextItem_closing blanks_nil (index = 0) bytes
      rw [strung_nil, List.nil_append, List.nil_append] at closing
      rcases (listed_cons_closing closing).mp taken with ⟨fill, _, there⟩
      exact ih there

theorem listed_takes {fields : List (Field σ)}
    (takes : ∀ field ∈ fields, ∀ draft, Takes (field.read draft)) {index : Nat} {draft out : σ}
    {bytes behind rest : List UInt8}
    (taken : shape.listed fields index draft bytes = .ok (out, behind))
    (closed : closeList behind = .ok rest) :
    ∃ (lead : List UInt8) (list : List Item), Blanks lead ∧ (∀ item ∈ list, Value item.value) ∧
      bytes = lead ++ (strung (index = 0) (list.map Item.text) ++ 0x5D :: rest) := by
  induction fields generalizing index draft bytes with
  | nil =>
      cases taken
      rcases exists_blanks_of_skipBlanks (closeList_eq_ok_iff.1 closed) with ⟨lead, blank, rfl⟩
      exact ⟨lead, [], blank, by simp, by simp [strung_nil]⟩
  | cons field fields ih =>
      cases next : nextItem (index = 0) bytes with
      | error defect => simp [listed, next, bind, Except.bind] at taken
      | ok found =>
          rcases found with ⟨more, inside⟩
          rcases nextItem_sound next with ⟨rfl, lead, after, blank, rfl, rfl⟩ |
            ⟨rfl, lead, front, blank, blankFront, rfl⟩
          · rcases (listed_cons_closing next).mp taken with ⟨fill, _, there⟩
            rw [listed_closing there, closeList_eq_ok_iff, skipBlanks_cons rfl] at closed
            cases closed
            exact ⟨lead, [], blank, by simp, by simp [strung_nil]⟩
          · rcases (listed_cons_eq_ok_iff next).mp taken with ⟨draft', later, here, there⟩
            rcases takes field (by simp) draft here with ⟨blanks, v, blankBefore, value, rfl⟩
            rcases ih (fun field mem => takes field (by simp [mem])) there with
              ⟨after, list, blankAfter, values, rfl⟩
            let item : Item :=
              ⟨front ++ blanks, v, after, blankFront.append blankBefore, blankAfter⟩
            refine ⟨lead, item :: list, blank, List.forall_mem_cons.mpr ⟨value, values⟩, ?_⟩
            simp [strung_cons, Item.text, item]

theorem read_takes (takes : ∀ field ∈ shape.fields, ∀ draft, Takes (field.read draft)) :
    Takes shape.read := by
  intro bytes rest out taken
  unfold read at taken
  split at taken
  · rename_i atBracket
    rcases bind_eq_ok_iff.1 taken with ⟨⟨filled, behind⟩, listed, atEnd⟩
    rcases bind_eq_ok_iff.1 atEnd with ⟨_, closed, same⟩
    cases same
    rcases listed_takes takes listed closed with ⟨lead, list, blank, values, rfl⟩
    rcases exists_blanks_of_skipBlanks atBracket with ⟨blanks, blankBefore, rfl⟩
    exact ⟨blanks, listText lead list, blankBefore, .list blank values,
      by simp [listText, enclosed, strung]⟩
  · rename_i atBrace
    rcases members_takes takes taken with ⟨lead, members, blank, values, rfl⟩
    rcases exists_blanks_of_skipBlanks atBrace with ⟨blanks, blankBefore, rfl⟩
    exact ⟨blanks, objectText lead members, blankBefore, .object blank values,
      by simp [objectText, enclosed, strung]⟩
  · exact absurd taken (wrongKind_ne_ok _ _ _)

theorem member_append (settled : ∀ field ∈ shape.fields, ∀ draft, Settled (field.read draft))
    {draft next : σ} {bytes later tail : List UInt8}
    (taken : shape.member draft bytes = .ok (next, later)) (ends : EndsNumber (later ++ tail)) :
    shape.member draft (bytes ++ tail) = .ok (next, later ++ tail) := by
  rcases member_eq_ok_iff.1 taken with ⟨name, rest, content, isKey, atColon, known⟩
  refine member_eq_ok_iff.2 ⟨name, rest ++ tail, content ++ tail, stringRest_append isKey tail,
    colon_append atColon tail, ?_⟩
  rcases known with ⟨unknown, skipped, same⟩ | ⟨field, known, unfilled, here⟩
  · exact .inl ⟨unknown, skipValue_append skipped ends, same⟩
  · have settledField := settled field (List.mem_of_find?_eq_some known) draft
    exact .inr ⟨field, known, unfilled, settledField.taken here tail⟩

theorem member_refused (settled : ∀ field ∈ shape.fields, ∀ draft, Settled (field.read draft))
    {draft : σ} {bytes : List UInt8} {defect : Defect}
    (stopped : shape.member draft bytes = .error defect)
    (misshapen : defect.fault.isMisshapen = true) (tail : List UInt8) (out : σ × List UInt8) :
    shape.member draft (bytes ++ tail) ≠ .ok out := by
  intro taken
  rcases member_eq_ok_iff.1 taken with ⟨name, rest, content, isKey, atColon, known⟩
  rw [member, bind_eq_error_iff] at stopped
  rcases stopped with isText | ⟨⟨name', rest'⟩, isKey', stopped⟩
  · exact (stringRest_syntactic bytes).not_misshapen isText misshapen
  rw [stringRest_append isKey' tail] at isKey
  cases isKey
  rcases known with ⟨unknown, _⟩ | ⟨field, known, unfilled, here⟩
  · simp only [unknown] at stopped
    have passed := (colon_syntactic rest').bind fun content =>
      ((skipValue_syntactic content).within (.field name)).bind fun later =>
        syntactic_ok (draft, later)
    exact passed.not_misshapen stopped misshapen
  · simp only [known, unfilled, Bool.false_eq_true, if_false, bind_eq_error_iff,
      mapError_eq_error_iff] at stopped
    rcases stopped with atColon' | ⟨content', atColon', inner, inside, rfl⟩
    · exact (colon_syntactic rest').not_misshapen atColon' misshapen
    · rw [colon_append atColon' tail] at atColon
      cases atColon
      have settledField := settled field (List.mem_of_find?_eq_some known) draft
      exact settledField.refused inside misshapen tail _ here

theorem nextKey_of_misshapen {fuel : Nat} {first : Bool} {draft : σ} {bytes : List UInt8}
    {defect : Defect} (stopped : shape.members fuel first draft bytes = .error defect)
    (misshapen : defect.fault.isMisshapen = true) :
    ∃ more behind, nextKey first bytes = .ok (more, behind) := by
  cases fuel with
  | zero =>
      cases stopped
      cases misshapen
  | succ fuel =>
      cases next : nextKey first bytes with
      | error other =>
          simp only [members, next, bind, Except.bind, Except.error.injEq] at stopped
          subst stopped
          exact absurd misshapen ((nextKey_syntactic first bytes).not_misshapen next)
      | ok found => exact ⟨found.1, found.2, rfl⟩

theorem members_refused (settled : ∀ field ∈ shape.fields, ∀ draft, Settled (field.read draft))
    {fuel : Nat} {first : Bool} {draft : σ} {bytes : List UInt8} {defect : Defect}
    (stopped : shape.members fuel first draft bytes = .error defect)
    (misshapen : defect.fault.isMisshapen = true) (tail : List UInt8) {fuel' : Nat}
    {out : σ × List UInt8} : shape.members fuel' first draft (bytes ++ tail) ≠ .ok out := by
  intro taken
  induction fuel generalizing first draft bytes fuel' out with
  | zero =>
      cases stopped
      cases misshapen
  | succ fuel ih =>
      cases fuel' with
      | zero => cases taken
      | succ fuel' =>
          rcases nextKey_of_misshapen stopped misshapen with ⟨more, behind, next⟩
          have next' := nextKey_append next tail
          rcases nextKey_sound next with ⟨rfl, lead, after, _, rfl, rfl⟩ | ⟨rfl, _⟩
          · rcases (members_closing next').mp taken with ⟨filled, absent, _⟩
            have good : shape.members (fuel + 1) first draft (lead ++ 0x7D :: after) =
                .ok (filled, after) := (members_closing next).mpr ⟨filled, absent, rfl⟩
            rw [stopped] at good
            cases good
          · rw [members_succ next', bind_eq_ok_iff] at taken
            rw [members_succ next, bind_eq_error_iff] at stopped
            rcases taken with ⟨found, here, there⟩
            rcases stopped with stopped | ⟨⟨draft', later⟩, here', stopped⟩
            · exact member_refused settled stopped misshapen tail found here
            · -- A number that ends where the object goes on ends there in the longer text too.
              rcases nextKey_of_misshapen stopped misshapen with ⟨_, _, goesOn⟩
              have ends := endsNumber_of_nextKey (nextKey_append goesOn tail)
              rw [member_append settled here' ends] at here
              cases here
              exact ih stopped there

theorem listed_refused {fields : List (Field σ)}
    (settled : ∀ field ∈ fields, ∀ draft, Settled (field.read draft)) {index : Nat} {draft : σ}
    {bytes : List UInt8} {defect : Defect}
    (stopped : shape.listed fields index draft bytes = .error defect)
    (misshapen : defect.fault.isMisshapen = true) (tail : List UInt8) {out : σ × List UInt8} :
    shape.listed fields index draft (bytes ++ tail) ≠ .ok out := by
  intro taken
  induction fields generalizing index draft bytes out with
  | nil => cases stopped
  | cons field fields ih =>
      cases next : nextItem (index = 0) bytes with
      | error other =>
          simp only [listed, next, bind, Except.bind, Except.error.injEq] at stopped
          subst stopped
          exact (nextItem_syntactic _ bytes).not_misshapen next misshapen
      | ok found =>
          rcases found with ⟨more, behind⟩
          have next' := nextItem_append next tail
          have settledLater : ∀ field ∈ fields, ∀ draft, Settled (field.read draft) :=
            fun field mem => settled field (by simp [mem])
          cases more with
          | false =>
              rcases (listed_cons_closing next').mp taken with ⟨fill, standard, there⟩
              simp only [listed, next, bind, Except.bind, Bool.false_eq_true, if_false,
                standard] at stopped
              exact ih settledLater stopped there
          | true =>
              rcases (listed_cons_eq_ok_iff next').mp taken with ⟨draft', rest, here, there⟩
              simp only [listed, next, bind_eq_error_iff, mapError_eq_ok_iff, mapError_eq_error_iff,
                reduceCtorEq, false_or, Except.ok.injEq, exists_eq_left', if_true,
                Prod.exists] at stopped
              have settledField := settled field (by simp) draft
              rcases stopped with ⟨inner, inside, rfl⟩ | ⟨draft'', rest', here', stopped⟩
              · exact settledField.refused inside misshapen tail _ here
              · rw [settledField.taken here' tail] at here
                cases here
                exact ih settledLater stopped there

theorem read_refused (settled : ∀ field ∈ shape.fields, ∀ draft, Settled (field.read draft))
    {bytes : List UInt8} {defect : Defect} (stopped : shape.read bytes = .error defect)
    (misshapen : defect.fault.isMisshapen = true) (tail : List UInt8) (out : σ × List UInt8) :
    shape.read (bytes ++ tail) ≠ .ok out := by
  intro taken
  unfold read at stopped taken
  cases atByte : skipBlanks bytes with
  | nil =>
      simp only [atByte] at stopped
      exact wrongKind_nil_syntactic.not_misshapen stopped misshapen
  | cons byte others =>
      rw [skipBlanks_append_of_cons atByte] at taken
      split at taken
      · rename_i bracket
        cases bracket
        simp only [atByte, bind_eq_error_iff] at stopped
        rcases bind_eq_ok_iff.1 taken with ⟨filled, listed, _⟩
        rcases stopped with stopped | ⟨filled', listed', stopped | ⟨_, _, stopped⟩⟩
        · exact listed_refused settled stopped misshapen tail listed
        · exact (closeList_syntactic _).not_misshapen stopped misshapen
        · cases stopped
      · rename_i brace
        cases brace
        simp only [atByte] at stopped
        exact members_refused settled stopped misshapen tail taken
      · exact wrongKind_ne_ok _ _ _ taken

end Shape

end Json

end TextVectors
