import Mathlib.Logic.Relation
import TextVectors.Proofs.Settings.Pins

/-!
# Lists of pins

A list of pins is read iff every piece is blank or says a digest of a recognized file and no
two pieces speak of the same file. What is read holds just the digests that the pieces say,
`ofString_eq_ok_iff`, and this determines it, since pins are kept in order. So it counts only
what each piece says, and how often: the order of the pieces, blank ones among them, blanks at
either end of a piece, a name or a digest, and the letter case of a digest are a mere disguise.
Every map from recognized files to digests in lower case can be written down and is found again.
-/

namespace TextVectors

/-! ## Digits -/

namespace Number

theorem isHexDigit_iff {c : Char} : isHexDigit c ↔ 48 ≤ c.toNat ∧ c.toNat ≤ 57 ∨
    97 ≤ c.toNat ∧ c.toNat ≤ 102 ∨ 65 ≤ c.toNat ∧ c.toNat ≤ 70 := by
  have between (low high : Char) :
      low ≤ c ∧ c ≤ high ↔ low.toNat ≤ c.toNat ∧ c.toNat ≤ high.toNat := by
    rw [Char.le_def, Char.le_def, UInt32.le_iff_toNat_le, UInt32.le_iff_toNat_le]
    rfl
  unfold isHexDigit hexValue?
  simp only [between]
  split_ifs <;> simp_all

theorem isHexDigit_toLower (c : Char) : isHexDigit c.toLower = isHexDigit c := by
  rcases Text.toLower_cases c with same | ⟨first, last, lowered⟩
  · rw [same]
  · rw [Bool.eq_iff_iff, isHexDigit_iff, isHexDigit_iff, lowered]
    omega

end Number

namespace Pins

variable {pins later : Pins} {piece other : List Char} {file digest : String}

theorem isDigest_lower (written : String) :
    isDigest (lower written).toList = isDigest written.toList := by
  simp [isDigest, lower, Function.comp_def, Number.isHexDigit_toLower]

/-! ## Pieces -/

/-- A piece says the digest of a recognized file: without the blanks around it, it is a name and a
digest of either case with the first equality sign between them. -/
def Assigns (piece : List Char) (file digest : String) : Prop :=
  ∃ written, Tells (Text.trimList piece) file written ∧ file ∈ Model.weightFiles ∧
    isDigest written.toList ∧ lower written = digest

/-- No two pieces speak of the same file. -/
def Apart (pieces : List (List Char)) : Prop :=
  pieces.Pairwise fun piece other =>
    ∀ file digest again, Assigns piece file digest → ¬Assigns other file again

/-- Every piece is blank or assigns a digest, and no two speak of the same file. -/
structure WellFormed (pieces : List (List Char)) : Prop where
  each : ∀ piece ∈ pieces,
    (∀ c ∈ piece, Text.isBlank c) ∨ ∃ file digest, Assigns piece file digest
  apart : Apart pieces

theorem tells_iff : Tells piece file digest ↔ ∃ left right, piece = left ++ '=' :: right ∧
    '=' ∉ left ∧ String.ofList (Text.trimList left) = file ∧
      String.ofList (Text.trimList right) = digest := by
  unfold Tells
  simp only [Text.cut_eq_some_iff, and_assoc]

theorem not_mem_of_blank {cs : List Char} (blank : ∀ c ∈ cs, Text.isBlank c) : '=' ∉ cs := by
  intro mem
  have impossible := blank '=' mem
  revert impossible
  decide

/-- Blanks around a piece are blanks around its name and its digest. -/
theorem Tells.of_trimList (tells : Tells (Text.trimList piece) file digest) :
    Tells piece file digest := by
  rcases tells_iff.mp tells with ⟨left, right, shape, absent, named, written⟩
  rcases Text.exists_blanks_around piece with ⟨front, back, blankFront, blankBack, whole⟩
  apply tells_iff.mpr
  refine ⟨front ++ left, right ++ back, ?_, ?_, ?_, ?_⟩
  · rw [whole, shape]
    simp
  · rw [List.mem_append, not_or]
    exact ⟨not_mem_of_blank blankFront, absent⟩
  · rw [Text.trimList_append_left blankFront, named]
  · rw [Text.trimList_append_right blankBack, written]

theorem tells_trimList_iff :
    Tells (Text.trimList piece) file digest ↔ Tells piece file digest := by
  constructor
  · exact Tells.of_trimList
  · intro tells
    rcases tells_iff.mp tells with ⟨left, right, shape, _, _, _⟩
    -- Trimming takes no equality sign away, so something is told, and it must be the same.
    have sign : '=' ∈ Text.trimList piece := by
      rcases Text.exists_blanks_around piece with ⟨front, back, blankFront, blankBack, whole⟩
      have mem : '=' ∈ front ++ (Text.trimList piece ++ back) := by
        rw [← whole, shape]
        simp
      simpa [not_mem_of_blank blankFront, not_mem_of_blank blankBack] using mem
    rcases List.eq_append_cons_of_mem sign with ⟨before, after, trimmed, absent⟩
    have told : Tells (Text.trimList piece) (String.ofList (Text.trimList before))
        (String.ofList (Text.trimList after)) :=
      tells_iff.mpr ⟨before, after, trimmed, absent, rfl, rfl⟩
    rcases told.of_trimList.unique tells with ⟨rfl, rfl⟩
    exact told

theorem assigns_iff : Assigns piece file digest ↔ ∃ written, Tells piece file written ∧
    file ∈ Model.weightFiles ∧ isDigest digest.toList ∧ lower written = digest := by
  unfold Assigns
  simp only [tells_trimList_iff]
  constructor
  · rintro ⟨written, tells, known, good, rfl⟩
    exact ⟨written, tells, known, by rwa [isDigest_lower], rfl⟩
  · rintro ⟨written, tells, known, good, rfl⟩
    exact ⟨written, tells, known, by rwa [isDigest_lower] at good, rfl⟩

theorem Assigns.unique {named again : String} (assigns : Assigns piece file digest)
    (also : Assigns piece named again) : file = named ∧ digest = again := by
  rcases assigns with ⟨written, tells, _, _, rfl⟩
  rcases also with ⟨_, tells_again, _, _, rfl⟩
  rcases tells.unique tells_again with ⟨rfl, rfl⟩
  exact ⟨rfl, rfl⟩

/-- A piece that is taken says a digest of a file that has none yet. -/
theorem readPiece_trimList_eq_ok_iff :
    readPiece pins (Text.trimList piece) = .ok later ↔ ∃ file digest, Assigns piece file digest ∧
      pins.digest? file = none ∧ later = pins.insert file digest := by
  rw [readPiece_eq_ok_iff]
  constructor
  · rintro ⟨file, written, tells, known, good, unpinned, rfl⟩
    rw [isDigest_lower] at good
    exact ⟨file, _, ⟨written, tells, known, good, rfl⟩, unpinned, rfl⟩
  · rintro ⟨file, _, ⟨written, tells, known, good, rfl⟩, unpinned, rfl⟩
    rw [← isDigest_lower] at good
    exact ⟨file, written, tells, known, good, unpinned, rfl⟩

/-! ## Pins in order -/

/-- Pins stand in the order of their files, each of which has one. -/
def Ordered (pins : Pins) : Prop :=
  pins.Pairwise fun pin later => pin.1 < later.1

theorem digest?_eq_none_iff : pins.digest? file = none ↔ ∀ pin ∈ pins, pin.1 ≠ file := by
  simp [digest?, List.lookup_eq_none_iff, ne_comm]

theorem Ordered.insert (ordered : Ordered pins) (unpinned : pins.digest? file = none) :
    Ordered (pins.insert file digest) := by
  rw [digest?_eq_none_iff] at unpinned
  induction pins with
  | nil => exact List.pairwise_singleton _ _
  | cons pin rest ih =>
      rcases List.pairwise_cons.mp ordered with ⟨first, others⟩
      rw [Pins.insert]
      split
      · next before =>
        apply List.pairwise_cons.mpr
        refine ⟨?_, ordered⟩
        intro other mem
        rcases List.mem_cons.mp mem with rfl | mem
        · exact before
        · exact String.lt_trans before (first other mem)
      · next behind =>
        have after : pin.1 < file :=
          Std.lt_of_le_of_ne (String.not_lt.mp behind) (unpinned pin List.mem_cons_self)
        apply List.pairwise_cons.mpr
        refine ⟨?_, ih others fun other mem => unpinned other (List.mem_cons_of_mem _ mem)⟩
        intro other mem
        rcases mem_insert.mp mem with rfl | mem
        · exact after
        · exact first other mem

theorem Ordered.mem_iff (ordered : Ordered pins) :
    (file, digest) ∈ pins ↔ pins.digest? file = some digest := by
  rw [digest?, List.lookup_eq_some_iff]
  constructor
  · intro mem
    rcases List.append_of_mem mem with ⟨earlier, others, rfl⟩
    refine ⟨earlier, others, rfl, ?_⟩
    intro pin before
    have less := (List.pairwise_append.mp ordered).2.2 pin before _ List.mem_cons_self
    rw [bne_iff_ne]
    intro same
    exact String.lt_irrefl file (same ▸ less)
  · rintro ⟨earlier, others, rfl, _⟩
    simp

theorem Ordered.nodup (ordered : Ordered pins) : pins.Nodup := by
  apply List.Pairwise.imp _ ordered
  rintro pin other less rfl
  exact String.lt_irrefl pin.1 less

/-- Pins in order are known by the digests that they hold. -/
theorem Ordered.eq_of_digest?_iff {others : Pins} (ordered : Ordered pins)
    (also : Ordered others) (same : ∀ file digest,
      pins.digest? file = some digest ↔ others.digest? file = some digest) : pins = others := by
  have perm : pins.Perm others := by
    apply (List.perm_ext_iff_of_nodup ordered.nodup also.nodup).mpr
    rintro ⟨file, digest⟩
    rw [ordered.mem_iff, also.mem_iff, same]
  apply perm.eq_of_pairwise _ ordered also
  intro pin other _ _ less more
  exact absurd (String.lt_trans less more) (String.lt_irrefl pin.1)

/-! ## Reading -/

theorem insert_digest?_eq_none_iff {named : String} (unpinned : pins.digest? file = none) :
    (pins.insert file digest).digest? named = none ↔ named ≠ file ∧ pins.digest? named = none := by
  rw [digest?_insert unpinned]
  by_cases same : named = file <;> simp [same]

theorem Ordered.foldlM_readPiece {pieces : List (List Char)} (ordered : Ordered pins)
    (read : (pieces.map Text.trimList).foldlM readPiece pins = .ok later) : Ordered later := by
  induction pieces generalizing pins with
  | nil =>
      cases read
      exact ordered
  | cons piece pieces ih =>
      rw [List.map_cons, List.foldlM_cons, bind_eq_ok_iff] at read
      rcases read with ⟨next, first, rest⟩
      rcases readPiece_trimList_eq_ok_iff.mp first with ⟨file, digest, _, unpinned, rfl⟩
      exact ih (ordered.insert unpinned) rest

/-- Pieces are taken one after another iff each speaks of a file that none before it, and no
earlier pin, is about. -/
theorem exists_foldlM_readPiece_iff {pieces : List (List Char)} :
    (∃ later, (pieces.map Text.trimList).foldlM readPiece pins = .ok later) ↔
      (∀ piece ∈ pieces, ∃ file digest, Assigns piece file digest ∧ pins.digest? file = none) ∧
        Apart pieces := by
  -- on the pieces, for any earlier pins: the pin of a piece is one of those of the next piece
  induction pieces generalizing pins with
  | nil => simp [pure, Except.pure, Apart]
  | cons piece pieces ih =>
      simp only [List.map_cons, List.foldlM_cons, bind_eq_ok_iff]
      constructor
      · rintro ⟨later, next, first, rest⟩
        rcases readPiece_trimList_eq_ok_iff.mp first with ⟨file, digest, assigns, unpinned, rfl⟩
        rcases ih.mp ⟨later, rest⟩ with ⟨each, apart⟩
        constructor
        · intro other mem
          rcases List.mem_cons.mp mem with rfl | mem
          · exact ⟨file, digest, assigns, unpinned⟩
          · rcases each other mem with ⟨named, again, also, free⟩
            exact ⟨named, again, also, ((insert_digest?_eq_none_iff unpinned).mp free).2⟩
        · apply List.pairwise_cons.mpr
          refine ⟨?_, apart⟩
          intro other mem named given again one two
          rcases each other mem with ⟨_, _, also, free⟩
          have different := ((insert_digest?_eq_none_iff unpinned).mp free).1
          rw [(also.unique two).1, (one.unique assigns).1] at different
          exact different rfl
      · rintro ⟨each, apart⟩
        rcases List.pairwise_cons.mp apart with ⟨first, apart⟩
        rcases each piece List.mem_cons_self with ⟨file, digest, assigns, unpinned⟩
        have taken := readPiece_trimList_eq_ok_iff.mpr ⟨file, digest, assigns, unpinned, rfl⟩
        have rest : ∃ later, (pieces.map Text.trimList).foldlM readPiece
            (pins.insert file digest) = .ok later := by
          apply ih.mpr
          refine ⟨?_, apart⟩
          intro other mem
          rcases each other (List.mem_cons_of_mem _ mem) with ⟨named, again, also, free⟩
          refine ⟨named, again, also, (insert_digest?_eq_none_iff unpinned).mpr ⟨?_, free⟩⟩
          rintro rfl
          exact first other mem named digest again assigns also
        rcases rest with ⟨later, rest⟩
        exact ⟨later, _, taken, rest⟩

/-- Some pins hold just the digests that pieces assign. -/
structure ReadFrom (pieces : List (List Char)) (pins : Pins) : Prop where
  wellFormed : WellFormed pieces
  ordered : Ordered pins
  digest?_iff : ∀ file digest,
    pins.digest? file = some digest ↔ ∃ piece ∈ pieces, Assigns piece file digest

theorem Assigns.not_blank (assigns : Assigns piece file digest) :
    ¬∀ c ∈ piece, Text.isBlank c := by
  intro blank
  rcases assigns_iff.mp assigns with ⟨written, tells, _, _, _⟩
  rcases tells_iff.mp tells with ⟨left, right, rfl, _⟩
  apply not_mem_of_blank blank
  simp

theorem exists_ofString_iff {text : String} :
    (∃ pins, ofString text = .ok pins) ↔ WellFormed (Text.pieces ',' text.toList) := by
  have spoken (piece : List Char) :
      (!(Text.trimList piece).isEmpty) = true ↔ ¬∀ c ∈ piece, Text.isBlank c := by
    rw [Bool.not_eq_true', ← Bool.not_eq_true, List.isEmpty_iff, Text.trimList_eq_nil_iff]
  have apart_iff (pieces : List (List Char)) :
      Apart (pieces.filter fun piece => !(Text.trimList piece).isEmpty) ↔ Apart pieces := by
    unfold Apart
    rw [List.pairwise_filter]
    apply iff_of_eq
    congr 1
    funext piece other
    apply propext
    constructor
    · intro apart file digest again one two
      exact apart ((spoken piece).mpr one.not_blank) ((spoken other).mpr two.not_blank) _ _ _ one
        two
    · exact fun apart _ _ => apart
  rw [ofString, List.filter_map, exists_foldlM_readPiece_iff]
  simp only [Function.comp_def, apart_iff, List.mem_filter, spoken]
  constructor
  · rintro ⟨each, apart⟩
    refine ⟨?_, apart⟩
    intro piece mem
    by_cases blank : ∀ c ∈ piece, Text.isBlank c
    · exact .inl blank
    · rcases each piece ⟨mem, blank⟩ with ⟨file, digest, assigns, _⟩
      exact .inr ⟨file, digest, assigns⟩
  · rintro ⟨each, apart⟩
    refine ⟨?_, apart⟩
    rintro piece ⟨mem, spoken⟩
    rcases (each piece mem).resolve_left spoken with ⟨file, digest, assigns⟩
    exact ⟨file, digest, assigns, rfl⟩

theorem ReadFrom.of_ofString {text : String} (read : ofString text = .ok pins) :
    ReadFrom (Text.pieces ',' text.toList) pins := by
  have wellFormed := exists_ofString_iff.mp ⟨pins, read⟩
  refine ⟨wellFormed, ?_, ?_⟩
  · rw [ofString, List.filter_map] at read
    exact Ordered.foldlM_readPiece List.Pairwise.nil read
  · intro file digest
    rw [digest?_eq_some_iff read]
    constructor
    · rintro ⟨written, ⟨piece, mem, tells⟩, rfl⟩
      rcases wellFormed.each piece mem with blank | ⟨named, digest, assigns⟩
      · rw [Text.trimList_eq_nil_iff.mpr blank] at tells
        rcases tells with ⟨_, _, cut, _⟩
        cases cut
      · rcases assigns with ⟨again, also, known, good, rfl⟩
        rcases also.unique tells with ⟨rfl, rfl⟩
        exact ⟨piece, mem, again, also, known, good, rfl⟩
    · rintro ⟨piece, mem, written, tells, _, _, lowered⟩
      exact ⟨written, ⟨piece, mem, tells⟩, lowered⟩

theorem ReadFrom.unique {pieces : List (List Char)} (read : ReadFrom pieces pins)
    (also : ReadFrom pieces later) : pins = later := by
  apply read.ordered.eq_of_digest?_iff also.ordered
  intro file digest
  rw [read.digest?_iff, also.digest?_iff]

/-- A list of pins is read iff it is well formed, and what is read holds just the digests that its
pieces assign. -/
theorem ofString_eq_ok_iff {text : String} :
    ofString text = .ok pins ↔ ReadFrom (Text.pieces ',' text.toList) pins := by
  constructor
  · exact ReadFrom.of_ofString
  · intro read
    rcases exists_ofString_iff.mpr read.wellFormed with ⟨found, given⟩
    rw [given, read.unique (.of_ofString given)]

/-! ## Disguises -/

/-- Another way to write one piece. -/
inductive Restyled : List Char → List Char → Prop where
  | around {piece front back : List Char} (blankFront : ∀ c ∈ front, Text.isBlank c)
      (blankBack : ∀ c ∈ back, Text.isBlank c) : Restyled piece (front ++ piece ++ back)
  | name {left right front back : List Char} (absent : '=' ∉ left)
      (blankFront : ∀ c ∈ front, Text.isBlank c) (blankBack : ∀ c ∈ back, Text.isBlank c) :
      Restyled (left ++ '=' :: right) (front ++ left ++ back ++ '=' :: right)
  | digest {left right front back : List Char} (absent : '=' ∉ left)
      (blankFront : ∀ c ∈ front, Text.isBlank c) (blankBack : ∀ c ∈ back, Text.isBlank c) :
      Restyled (left ++ '=' :: right) (left ++ '=' :: (front ++ right ++ back))
  | letters {left right other : List Char} (absent : '=' ∉ left)
      (same : right.map Char.toLower = other.map Char.toLower) :
      Restyled (left ++ '=' :: right) (left ++ '=' :: other)

/-- One change of a list of pieces. -/
inductive Disguise : List (List Char) → List (List Char) → Prop where
  | order {pieces others : List (List Char)} (perm : pieces.Perm others) : Disguise pieces others
  | blank {pieces : List (List Char)} {piece : List Char} (blank : ∀ c ∈ piece, Text.isBlank c) :
      Disguise pieces (piece :: pieces)
  | piece {pieces : List (List Char)} {piece other : List Char} (restyled : Restyled piece other) :
      Disguise (piece :: pieces) (other :: pieces)

/-- The pieces of two lists of pins differ by changes of either list. -/
def Disguised (text other : String) : Prop :=
  Relation.EqvGen Disguise (Text.pieces ',' text.toList) (Text.pieces ',' other.toList)

theorem assigns_append_cons_iff {left right : List Char} (absent : '=' ∉ left) :
    Assigns (left ++ '=' :: right) file digest ↔ String.ofList (Text.trimList left) = file ∧
      file ∈ Model.weightFiles ∧ isDigest digest.toList ∧
        String.ofList (Text.trimList (right.map Char.toLower)) = digest := by
  rw [assigns_iff, Text.trimList_map Text.isBlank_toLower]
  simp only [Tells, Text.cut_append_cons absent, Option.some.injEq, Prod.mk.injEq]
  constructor
  · rintro ⟨_, ⟨_, _, ⟨rfl, rfl⟩, named, rfl⟩, known, good, lowered⟩
    exact ⟨named, known, good, by simpa [lower] using lowered⟩
  · rintro ⟨named, known, good, lowered⟩
    exact ⟨_, ⟨left, right, ⟨rfl, rfl⟩, named, rfl⟩, known, good, by simpa [lower] using lowered⟩

theorem Restyled.assigns_iff (restyled : Restyled piece other) :
    Assigns piece file digest ↔ Assigns other file digest := by
  cases restyled with
  | around blankFront blankBack =>
      unfold Assigns
      rw [Text.trimList_between blankFront blankBack]
  | name absent blankFront blankBack =>
      have free : '=' ∉ _ ++ _ ++ _ :=
        List.not_mem_append (List.not_mem_append (not_mem_of_blank blankFront) absent)
          (not_mem_of_blank blankBack)
      rw [assigns_append_cons_iff absent, assigns_append_cons_iff free,
        Text.trimList_between blankFront blankBack]
  | digest absent blankFront blankBack =>
      have lowered {cs : List Char} (blank : ∀ c ∈ cs, Text.isBlank c) :
          ∀ c ∈ cs.map Char.toLower, Text.isBlank c := by
        simpa [Text.isBlank_toLower] using blank
      rw [assigns_append_cons_iff absent, assigns_append_cons_iff absent, List.map_append,
        List.map_append, Text.trimList_between (lowered blankFront) (lowered blankBack)]
  | letters absent same =>
      rw [assigns_append_cons_iff absent, assigns_append_cons_iff absent, same]

theorem Restyled.blank_iff (restyled : Restyled piece other) :
    (∀ c ∈ piece, Text.isBlank c) ↔ ∀ c ∈ other, Text.isBlank c := by
  have signed {cs : List Char} (sign : '=' ∈ cs) : ¬∀ c ∈ cs, Text.isBlank c :=
    fun blank => not_mem_of_blank blank sign
  cases restyled with
  | around blankFront blankBack =>
      simp only [List.forall_mem_append]
      exact ⟨fun blank => ⟨⟨blankFront, blank⟩, blankBack⟩, fun blank => blank.1.2⟩
  | name => exact iff_of_false (signed (by simp)) (signed (by simp))
  | digest => exact iff_of_false (signed (by simp)) (signed (by simp))
  | letters => exact iff_of_false (signed (by simp)) (signed (by simp))

theorem wellFormed_cons_iff {pieces : List (List Char)} : WellFormed (piece :: pieces) ↔
    ((∀ c ∈ piece, Text.isBlank c) ∨ ∃ file digest, Assigns piece file digest) ∧
      (∀ other ∈ pieces, ∀ file digest again,
        Assigns piece file digest → ¬Assigns other file again) ∧ WellFormed pieces := by
  constructor
  · rintro ⟨each, apart⟩
    rcases List.pairwise_cons.mp apart with ⟨first, apart⟩
    exact ⟨each piece List.mem_cons_self, first,
      fun other mem => each other (List.mem_cons_of_mem _ mem), apart⟩
  · rintro ⟨own, first, each, apart⟩
    exact ⟨List.forall_mem_cons.mpr ⟨own, each⟩, List.pairwise_cons.mpr ⟨first, apart⟩⟩

theorem WellFormed.of_perm {pieces others : List (List Char)} (wellFormed : WellFormed pieces)
    (perm : pieces.Perm others) : WellFormed others := by
  constructor
  · intro piece mem
    exact wellFormed.each piece (perm.mem_iff.mpr mem)
  · apply (perm.pairwise_iff _).mp wellFormed.apart
    intro piece other apart file digest again one two
    exact apart file again digest two one

/-- A disguise is as good as what it hides, and assigns the same. -/
theorem Disguise.wellFormed_iff {pieces others : List (List Char)}
    (disguise : Disguise pieces others) : WellFormed pieces ↔ WellFormed others := by
  cases disguise with
  | order perm => exact ⟨fun good => good.of_perm perm, fun good => good.of_perm perm.symm⟩
  | blank blank =>
      rw [wellFormed_cons_iff]
      constructor
      · intro good
        exact ⟨.inl blank, fun _ _ _ _ _ assigns => absurd blank assigns.not_blank, good⟩
      · exact fun good => good.2.2
  | piece restyled =>
      simp only [wellFormed_cons_iff, restyled.blank_iff, restyled.assigns_iff]

theorem Disguise.assigns_iff {pieces others : List (List Char)}
    (disguise : Disguise pieces others) : (∃ piece ∈ pieces, Assigns piece file digest) ↔
      ∃ piece ∈ others, Assigns piece file digest := by
  cases disguise with
  | order perm => simp only [perm.mem_iff]
  | blank blank =>
      rw [List.exists_mem_cons_iff]
      exact (or_iff_right fun assigns => assigns.not_blank blank).symm
  | piece restyled => simp only [List.exists_mem_cons_iff, restyled.assigns_iff]

/-- What is read of some pieces is read of every disguise of them. -/
theorem readFrom_iff_of_disguise {pieces others : List (List Char)}
    (changed : Relation.EqvGen Disguise pieces others) :
    ReadFrom pieces pins ↔ ReadFrom others pins := by
  induction changed with
  | rel pieces others disguise =>
      constructor
      · rintro ⟨good, ordered, digests⟩
        exact ⟨disguise.wellFormed_iff.mp good, ordered,
          fun file digest => (digests file digest).trans disguise.assigns_iff⟩
      · rintro ⟨good, ordered, digests⟩
        exact ⟨disguise.wellFormed_iff.mpr good, ordered,
          fun file digest => (digests file digest).trans disguise.assigns_iff.symm⟩
  | refl pieces => rfl
  | symm pieces others _ ih => exact ih.symm
  | trans pieces between others _ _ first second => exact first.trans second

/-! ## Writing -/

/-- Pins that hold digests in lower case for recognized files. -/
structure Canonical (pins : Pins) : Prop where
  ordered : Ordered pins
  known : ∀ pin ∈ pins, pin.1 ∈ Model.weightFiles
  digests : ∀ pin ∈ pins, isDigest pin.2.toList ∧ lower pin.2 = pin.2

/-- A pin as a piece. -/
def written (pin : String × String) : List Char :=
  pin.1.toList ++ '=' :: pin.2.toList

/-- Pins as a list of pins. -/
def render (pins : List (String × String)) : String :=
  String.ofList ([','].intercalate (pins.map written))

theorem lower_lower (written : String) : lower (lower written) = lower written := by
  simp only [lower, String.toList_ofList, List.map_map, Function.comp_def, Text.toLower_toLower]

theorem Canonical.of_readFrom {pieces : List (List Char)} (read : ReadFrom pieces pins) :
    Canonical pins := by
  have assigned (pin : String × String) (mem : pin ∈ pins) :
      ∃ piece ∈ pieces, Assigns piece pin.1 pin.2 :=
    (read.digest?_iff pin.1 pin.2).mp (read.ordered.mem_iff.mp mem)
  refine ⟨read.ordered, ?_, ?_⟩
  · intro pin mem
    rcases assigned pin mem with ⟨_, _, _, _, known, _⟩
    exact known
  · intro pin mem
    rcases assigned pin mem with ⟨_, _, written, _, _, good, lowered⟩
    rw [← lowered, isDigest_lower, lower_lower]
    exact ⟨good, rfl⟩

/-- A digest has no blank, no comma and no equality sign. -/
theorem plain_of_isDigest {cs : List Char} (good : isDigest cs) {c : Char} (mem : c ∈ cs) :
    ¬Text.isBlank c ∧ c ≠ ',' ∧ c ≠ '=' := by
  have digit : Number.isHexDigit c := by
    simp only [isDigest, Bool.and_eq_true, List.all_eq_true] at good
    exact good.2 c mem
  have range := Number.isHexDigit_iff.mp digit
  refine ⟨?_, ?_, ?_⟩
  · simp only [Text.isBlank, Bool.or_eq_true, Bool.and_eq_true, decide_eq_true_eq, beq_iff_eq]
    omega
  · rintro rfl
    revert digit
    decide
  · rintro rfl
    revert digit
    decide

theorem plain_of_known (known : file ∈ Model.weightFiles) :
    Text.trimList file.toList = file.toList ∧ ',' ∉ file.toList ∧ '=' ∉ file.toList := by
  revert file
  decide

section
variable {order : List (String × String)} (canonical : Canonical pins) (perm : order.Perm pins)
include canonical perm

theorem Canonical.assigns_written_iff {pin : String × String} (mem : pin ∈ order) :
    Assigns (written pin) file digest ↔ pin = (file, digest) := by
  have inside := perm.mem_iff.mp mem
  have name := plain_of_known (canonical.known pin inside)
  have good := canonical.digests pin inside
  have lowered : pin.2.toList.map Char.toLower = pin.2.toList := by
    simpa [lower] using congrArg String.toList good.2
  rw [written, assigns_append_cons_iff name.2.2, name.1, lowered,
    Text.trimList_of_plain fun c mem => (plain_of_isDigest good.1 mem).1, String.ofList_toList,
    String.ofList_toList]
  constructor
  · rintro ⟨rfl, _, _, rfl⟩
    rfl
  · rintro rfl
    exact ⟨rfl, canonical.known _ inside, good.1, rfl⟩

theorem Canonical.readFrom_written : ReadFrom (order.map written) pins := by
  refine ⟨⟨?_, ?_⟩, canonical.ordered, ?_⟩
  · intro piece mem
    rcases List.mem_map.mp mem with ⟨pin, inside, rfl⟩
    exact .inr ⟨pin.1, pin.2, (canonical.assigns_written_iff perm inside).mpr rfl⟩
  · have different : order.Pairwise fun pin other => pin.1 ≠ other.1 := by
      apply (perm.pairwise_iff fun ne => ne.symm).mpr
      apply List.Pairwise.imp _ canonical.ordered
      intro pin other less same
      exact String.lt_irrefl other.1 (same ▸ less)
    unfold Apart
    rw [List.pairwise_map]
    apply List.Pairwise.imp_of_mem _ different
    intro pin other mem mem' ne file digest again one two
    rw [canonical.assigns_written_iff perm mem] at one
    rw [canonical.assigns_written_iff perm mem'] at two
    rw [one, two] at ne
    exact ne rfl
  · intro file digest
    rw [← canonical.ordered.mem_iff, ← perm.mem_iff]
    constructor
    · intro mem
      exact ⟨_, List.mem_map_of_mem mem, (canonical.assigns_written_iff perm mem).mpr rfl⟩
    · rintro ⟨piece, mem, assigns⟩
      rcases List.mem_map.mp mem with ⟨pin, inside, rfl⟩
      rw [canonical.assigns_written_iff perm inside] at assigns
      exact assigns ▸ inside

/-- The pieces of a rendered list are those that it was made of, and one that is blank if it was
made of none. -/
theorem Canonical.readFrom_render : ReadFrom (Text.pieces ',' (render order).toList) pins := by
  have read := canonical.readFrom_written perm
  rw [render, String.toList_ofList]
  cases order with
  | nil =>
      apply (readFrom_iff_of_disguise _).mp read
      exact .rel _ _ (.blank (by simp))
  | cons pin others =>
      rwa [Text.pieces_intercalate (List.map_cons ▸ List.cons_ne_nil _ _)]
      intro piece mem
      rcases List.mem_map.mp mem with ⟨pin, listed, rfl⟩
      have inside := perm.mem_iff.mp listed
      have name := plain_of_known (canonical.known pin inside)
      rw [written, List.mem_append, List.mem_cons, not_or, not_or]
      refine ⟨name.2.1, by decide, ?_⟩
      intro comma
      exact (plain_of_isDigest (canonical.digests pin inside).1 comma).2.1 rfl

end

/-! ## Main result -/

/-- Lists of pins are read by what their pieces assign. A list is read iff each piece is blank or
assigns a digest and no file is spoken of twice, and its pins are just what is assigned. A disguise
of a list is read as the list is. Pins in lower case for recognized files are read from every list
that they are rendered to, in any order and disguise. -/
theorem ofString_in_any_disguise :
    (∀ text, (∃ pins, ofString text = .ok pins) ↔ WellFormed (Text.pieces ',' text.toList)) ∧
    (∀ text pins, ofString text = .ok pins → Canonical pins ∧ ∀ file digest,
      pins.digest? file = some digest ↔
        ∃ piece ∈ Text.pieces ',' text.toList, Assigns piece file digest) ∧
    (∀ text other, Disguised text other →
      ∀ pins, ofString text = .ok pins ↔ ofString other = .ok pins) ∧
    ∀ pins order, Canonical pins → order.Perm pins →
      ∀ text, Disguised (render order) text → ofString text = .ok pins := by
  refine ⟨fun text => exists_ofString_iff, ?_, ?_, ?_⟩
  · intro text pins read
    have readFrom := ofString_eq_ok_iff.mp read
    exact ⟨.of_readFrom readFrom, readFrom.digest?_iff⟩
  · intro text other disguised pins
    rw [ofString_eq_ok_iff, ofString_eq_ok_iff]
    exact readFrom_iff_of_disguise disguised
  · intro pins order canonical perm text disguised
    rw [ofString_eq_ok_iff]
    exact (readFrom_iff_of_disguise disguised).mp (canonical.readFrom_render perm)

/-- Two pins in the other order, one of them with blanks and capitals, behind a blank piece. -/
theorem ofString_in_any_disguise_sample :
    let digest (c : Char) := List.replicate 64 c
    let file := "pytorch_model.bin".toList
    let first := ("model.safetensors", String.ofList (digest 'a'))
    let second := (String.ofList file, String.ofList (digest 'b'))
    let text := String.ofList ([','].intercalate
      [[' '], '\t' :: file ++ " = ".toList ++ digest 'B', written first])
    Canonical [first, second] ∧ Disguised (render [second, first]) text ∧
      ofString text = .ok [first, second] := by
  intro digest file first second text
  have canonical : Canonical [first, second] := by
    have good (c : Char) (hex : isDigest (digest c))
        (small : (digest c).map Char.toLower = digest c) :
        isDigest (String.ofList (digest c)).toList ∧
          lower (String.ofList (digest c)) = String.ofList (digest c) := by
      rw [lower, String.toList_ofList, small]
      exact ⟨hex, rfl⟩
    refine ⟨by unfold Ordered; decide +kernel, by decide +kernel, ?_⟩
    simp only [List.forall_mem_cons, List.not_mem_nil, false_implies, implies_true, and_true]
    exact ⟨good 'a' (by decide) (by decide), good 'b' (by decide) (by decide)⟩
  have disguised : Disguised (render [second, first]) text := by
    have written_eq (name digest : List Char) :
        written (String.ofList name, String.ofList digest) = name ++ '=' :: digest := by
      simp [written]
    have plain : ',' ∉ written first := by
      rw [written, String.toList_ofList]
      decide
    have rendered : Text.pieces ',' (render [second, first]).toList =
        [file ++ '=' :: digest 'b', written first] := by
      rw [render, String.toList_ofList, Text.pieces_intercalate (by simp), List.map_cons,
        written_eq, List.map_singleton]
      simp only [List.map_cons, List.map_nil, List.forall_mem_cons, second, written_eq]
      exact ⟨by decide, plain, by simp⟩
    have given : Text.pieces ',' text.toList =
        [[' '], ['\t'] ++ ([] ++ file ++ [' '] ++ '=' :: ([' '] ++ digest 'B' ++ [])) ++ [],
          written first] := by
      rw [String.toList_ofList, Text.pieces_intercalate (by simp)]
      · rfl
      · simp only [List.forall_mem_cons]
        exact ⟨by decide, by decide, plain, by simp⟩
    have absent : '=' ∉ file := by decide
    have spaced : '=' ∉ [] ++ file ++ [' '] := by decide
    unfold Disguised
    rw [rendered, given]
    have space : ∀ c ∈ [' '], Text.isBlank c := List.forall_mem_singleton.mpr (by decide)
    have tab : ∀ c ∈ ['\t'], Text.isBlank c := List.forall_mem_singleton.mpr (by decide)
    have nothing : ∀ c ∈ [], Text.isBlank c := List.forall_mem_nil _
    apply Relation.EqvGen.trans _ _ _ _ (.rel _ _ (.blank space))
    apply Relation.EqvGen.trans _ _ _ _ (.rel _ _ (.piece (.around tab nothing)))
    apply Relation.EqvGen.trans _ _ _ _ (.rel _ _ (.piece (.digest spaced space nothing)))
    apply Relation.EqvGen.trans _ _ _ _
      (.rel _ _ (.piece (.letters spaced (by decide : (digest 'b').map Char.toLower = _))))
    exact .rel _ _ (.piece (.name absent nothing space))
  exact ⟨canonical, disguised, ofString_in_any_disguise.2.2.2 _ _ canonical (.swap _ _ _) text
    disguised⟩

end Pins

end TextVectors
