import TextVectors.Proofs.Settings.Reading
import TextVectors.Proofs.Text.Trimming

/-!
# Pins as they are given

An operator gives a digest for a file in one of the pieces of a list of pins. The
pins that are read from the list hold just these digests, in lower case,
`digest?_eq_some_iff`. So a file has at most one, whichever letter case it is
written in. Settings have pins only if the operator has given some.
-/

namespace TextVectors

namespace Pins

/-- A digest in lower case. -/
def lower (digest : String) : String :=
  String.ofList (digest.toList.map Char.toLower)

/-- A piece of a list of pins gives a digest for a file. -/
def Tells (piece : List Char) (file digest : String) : Prop :=
  ∃ left right, Text.cut '=' piece = some (left, right) ∧
    String.ofList (Text.trimList left) = file ∧ String.ofList (Text.trimList right) = digest

/-- A list of pins gives a digest for a file. -/
def Given (text file digest : String) : Prop :=
  ∃ piece ∈ Text.pieces ',' text.toList, Tells (Text.trimList piece) file digest

variable {pins later : Pins} {file digest : String}

theorem digest?_insert (unpinned : pins.digest? file = none) (digest other : String) :
    (pins.insert file digest).digest? other =
      if other = file then some digest else pins.digest? other := by
  unfold digest? at unpinned ⊢
  induction pins with
  | nil =>
      by_cases same : other = file
      · simp [insert, same]
      · simp [insert, same]
  | cons pin rest ih =>
      rw [List.lookup_cons] at unpinned
      have ne : file ≠ pin.1 := by
        intro same
        rw [same, beq_self_eq_true] at unpinned
        cases unpinned
      rw [beq_eq_false_iff_ne.mpr ne] at unpinned
      rw [insert]
      split
      · rw [List.lookup_cons]
        by_cases same : other = file
        · rw [if_pos same, beq_iff_eq.mpr same]
        · rw [if_neg same, beq_eq_false_iff_ne.mpr same]
      · rw [List.lookup_cons, List.lookup_cons, ih unpinned]
        by_cases first : other = pin.1
        · have other_ne : other ≠ file := fun same => ne (same.symm.trans first)
          rw [beq_iff_eq.mpr first, if_neg other_ne, if_neg other_ne]
        · rw [beq_eq_false_iff_ne.mpr first]

theorem Tells.unique {piece : List Char} {other written : String}
    (tells : Tells piece file digest) (also : Tells piece other written) :
    file = other ∧ digest = written := by
  rcases tells with ⟨left, right, cut, rfl, rfl⟩
  rcases also with ⟨front, back, cut_again, rfl, rfl⟩
  cases cut.symm.trans cut_again
  exact ⟨rfl, rfl⟩

/-- A piece is taken iff it gives the digest of a recognized file that has none yet. -/
theorem readPiece_eq_ok_iff {piece : List Char} : readPiece pins piece = .ok later ↔
    ∃ file written, Tells piece file written ∧ file ∈ Model.weightFiles ∧
      isDigest (lower written).toList ∧ pins.digest? file = none ∧
      later = pins.insert file (lower written) := by
  have wording (left right : List Char) (cut : Text.cut '=' piece = some (left, right)) :
      Tells piece (String.ofList (Text.trimList left)) (String.ofList (Text.trimList right)) :=
    ⟨left, right, cut, rfl, rfl⟩
  constructor
  · intro read
    unfold readPiece at read
    split at read
    · cases read
    · next left right cut =>
      dsimp only at read
      split_ifs at read with unknown bad twice
      cases read
      refine ⟨_, _, wording left right cut, ?_, ?_, ?_, ?_⟩
      · simpa using unknown
      · simpa [lower] using bad
      · simpa using twice
      · simp [lower]
  · rintro ⟨file, written, ⟨left, right, cut, rfl, rfl⟩, known, good, fresh, rfl⟩
    simp only [lower, String.toList_ofList] at good
    simp [readPiece, cut, known, good, fresh, lower]

/-- A piece adds the digest that it gives, for a file that has none yet. -/
theorem readPiece_eq_ok {piece : List Char} (read : readPiece pins piece = .ok later)
    (file digest : String) : later.digest? file = some digest ↔
      pins.digest? file = some digest ∨
        ∃ written, Tells piece file written ∧ lower written = digest := by
  rcases readPiece_eq_ok_iff.mp read with ⟨named, written, tells, _, _, unpinned, rfl⟩
  rw [digest?_insert unpinned]
  by_cases same : file = named
  · subst same
    rw [if_pos rfl, unpinned]
    constructor
    · intro lowered
      exact .inr ⟨written, tells, Option.some.inj lowered⟩
    · rintro (pinned | ⟨again, tells_again, rfl⟩)
      · cases pinned
      · rw [(tells.unique tells_again).2]
  · rw [if_neg same]
    constructor
    · exact .inl
    · rintro (pinned | ⟨again, tells_again, _⟩)
      · exact pinned
      · exact absurd (tells.unique tells_again).1.symm same

theorem foldlM_readPiece_eq_ok {texts : List (List Char)}
    (read : texts.foldlM readPiece pins = .ok later) (file digest : String) :
    later.digest? file = some digest ↔ pins.digest? file = some digest ∨
      ∃ text ∈ texts, ∃ written, Tells text file written ∧ lower written = digest := by
  induction texts generalizing pins with
  | nil =>
      cases read
      simp
  | cons text texts ih =>
      rw [List.foldlM_cons, bind_eq_ok_iff] at read
      rcases read with ⟨next, first, rest⟩
      rw [ih rest, readPiece_eq_ok first, or_assoc]
      simp

/-- The pins that are read from a list hold the digests that it gives, in lower case. -/
theorem digest?_eq_some_iff {text : String} (read : ofString text = .ok pins) :
    pins.digest? file = some digest ↔
      ∃ written, Given text file written ∧ lower written = digest := by
  have blank : ∀ written, ¬Tells [] file written := by
    rintro written ⟨left, right, cut, _⟩
    cases cut
  rw [foldlM_readPiece_eq_ok read]
  constructor
  · rintro (pinned | ⟨piece, mem, written, tells, lowered⟩)
    · cases pinned
    · rw [List.mem_filter, List.mem_map] at mem
      rcases mem with ⟨⟨whole, wholeMem, rfl⟩, _⟩
      exact ⟨written, ⟨whole, wholeMem, tells⟩, lowered⟩
  · rintro ⟨written, ⟨whole, wholeMem, tells⟩, lowered⟩
    right
    refine ⟨Text.trimList whole, ?_, written, tells, lowered⟩
    rw [List.mem_filter]
    refine ⟨List.mem_map_of_mem wholeMem, ?_⟩
    cases trimmed : Text.trimList whole with
    | nil =>
        rw [trimmed] at tells
        exact absurd tells (blank written)
    | cons c rest => rfl

/-! ## Recognized files -/

theorem mem_insert {pin : String × String} :
    pin ∈ pins.insert file digest ↔ pin = (file, digest) ∨ pin ∈ pins := by
  induction pins with
  | nil => simp [insert]
  | cons first rest ih =>
      rw [insert]
      split
      · rw [List.mem_cons]
      · rw [List.mem_cons, ih, List.mem_cons]
        tauto

theorem length_insert : (pins.insert file digest).length = pins.length + 1 := by
  induction pins with
  | nil => rfl
  | cons first rest ih =>
      rw [insert]
      split
      · rfl
      · simp [ih]

/-- Every pin is one of a recognized file, and has a digest. -/
def Recognized (pins : Pins) : Prop :=
  ∀ pin ∈ pins, pin.1 ∈ Model.weightFiles ∧ isDigest pin.2.toList

theorem Recognized.readPiece {piece : List Char} (recognized : Recognized pins)
    (read : readPiece pins piece = .ok later) : Recognized later := by
  rcases readPiece_eq_ok_iff.mp read with ⟨named, written, _, known, good, _, rfl⟩
  intro pin mem
  rcases mem_insert.mp mem with rfl | earlier
  · exact ⟨known, good⟩
  · exact recognized pin earlier

theorem Recognized.foldlM {texts : List (List Char)} (recognized : Recognized pins)
    (read : texts.foldlM Pins.readPiece pins = .ok later) : Recognized later := by
  induction texts generalizing pins with
  | nil =>
      cases read
      exact recognized
  | cons text texts ih =>
      rw [List.foldlM_cons, bind_eq_ok_iff] at read
      rcases read with ⟨next, first, rest⟩
      exact ih (recognized.readPiece first) rest

theorem Recognized.ofString {text : String} (read : Pins.ofString text = .ok pins) :
    Recognized pins := by
  refine Recognized.foldlM ?_ read
  intro pin mem
  cases mem

/-- Every piece adds one pin. -/
theorem length_foldlM {texts : List (List Char)}
    (read : texts.foldlM Pins.readPiece pins = .ok later) :
    later.length = pins.length + texts.length := by
  induction texts generalizing pins with
  | nil =>
      cases read
      rfl
  | cons text texts ih =>
      rw [List.foldlM_cons, bind_eq_ok_iff] at read
      rcases read with ⟨next, first, rest⟩
      rcases readPiece_eq_ok_iff.mp first with ⟨_, _, _, _, _, _, rfl⟩
      rw [ih rest, length_insert, List.length_cons]
      omega

/-- Nothing is pinned only by a list without any text but commas and blanks. -/
theorem eq_nil_iff {text : String} (read : ofString text = .ok pins) :
    pins = [] ↔ ∀ c ∈ text.toList, c = ',' ∨ Text.isBlank c := by
  have count := length_foldlM read
  rw [List.length_nil, Nat.zero_add] at count
  rw [← List.length_eq_zero_iff, count, List.length_eq_zero_iff, List.filter_eq_nil_iff]
  simp only [List.forall_mem_map, Bool.not_eq_true', Bool.not_eq_false, List.isEmpty_iff,
    Text.trimList_eq_nil_iff]
  constructor
  · intro blank c mem
    by_cases comma : c = ','
    · exact .inl comma
    · rcases Text.exists_mem_pieces_iff.mpr ⟨mem, comma⟩ with ⟨piece, among, inside⟩
      exact .inr (blank piece among c inside)
  · intro empty piece among c inside
    rcases Text.exists_mem_pieces_iff.mp ⟨piece, among, inside⟩ with ⟨mem, other⟩
    exact (empty c mem).resolve_left other

end Pins

namespace Settings

/-- The pins of settings are read from the variable of the operator. -/
theorem readPins_of_ofEnvironment {environment : Environment} {settings : Settings}
    (read : ofEnvironment environment = .ok settings) :
    readPins environment = .ok settings.pins :=
  (ofEnvironment_eq_ok_iff.mp read).1.pins

/-- Settings have pins only if the operator has given some. -/
theorem exists_of_pins {environment : Environment} {settings : Settings}
    (read : ofEnvironment environment = .ok settings) (pinned : settings.pins ≠ []) :
    ∃ raw, get? environment "EMBED_WEIGHTS_SHA256" = some raw ∧
      Pins.ofString raw = .ok settings.pins := by
  have pins := readPins_of_ofEnvironment read
  unfold readPins at pins
  split at pins
  · rw [Except.ok.injEq] at pins
    exact absurd pins.symm pinned
  · next raw given => exact ⟨raw, given, mapError_eq_ok_iff.mp pins⟩

end Settings

end TextVectors
