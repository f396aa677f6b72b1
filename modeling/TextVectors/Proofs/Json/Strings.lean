import TextVectors.Proofs.Json.Words

/-!
# Strings

A string is read in two ways. Where its text is needed, reading it gives the
characters that its body denotes, and fails on a body that denotes none; where
it is passed over, a well-formed body is enough. Both stop at the same quote,
since the body of a string cannot be continued by a quote.
-/

namespace TextVectors

namespace Json

/-! ## Plain bytes -/

theorem isPlain_iff {byte : UInt8} :
    isPlain byte = true ↔ byte ≠ 0x22 ∧ byte ≠ 0x5C ∧ 0x20 ≤ byte := by
  simp [isPlain, and_assoc]

theorem isPlain_of_high {byte : UInt8} (high : 0x80 ≤ byte.toNat) : isPlain byte = true := by
  refine isPlain_iff.2 ⟨?_, ?_, ?_⟩
  · rintro rfl
    simp at high
  · rintro rfl
    simp at high
  · rw [UInt8.le_iff_toNat_le]
    exact Nat.le_trans (by decide) high

/-- A character beyond ASCII is encoded by high bytes, and any other one by itself. -/
theorem utf8EncodeChar_cases (c : Char) :
    (0x80 ≤ c.toNat ∧ ∀ byte ∈ String.utf8EncodeChar c, 0x80 ≤ byte.toNat) ∨
      (c.toNat < 0x80 ∧ String.utf8EncodeChar c = [UInt8.ofNat c.toNat]) := by
  have same : c.val.toNat = c.toNat := rfl
  by_cases ascii : c.toNat ≤ 127
  · refine .inr ⟨by omega, ?_⟩
    simp [String.utf8EncodeChar, same, ascii]
  · refine .inl ⟨by omega, ?_⟩
    intro byte mem
    simp only [String.utf8EncodeChar, same, ascii, if_false] at mem
    split at mem
    · simp only [List.mem_cons, List.not_mem_nil, or_false] at mem
      rcases mem with rfl | rfl <;> simp only [UInt8.toNat_ofNat'] <;> omega
    · split at mem
      · simp only [List.mem_cons, List.not_mem_nil, or_false] at mem
        rcases mem with rfl | rfl | rfl <;> simp only [UInt8.toNat_ofNat'] <;> omega
      · simp only [List.mem_cons, List.not_mem_nil, or_false] at mem
        rcases mem with rfl | rfl | rfl | rfl <;> simp only [UInt8.toNat_ofNat'] <;> omega

/-- A character stands for itself iff its bytes do. -/
theorem isPlain_utf8EncodeChar_iff {c : Char} :
    (∀ byte ∈ String.utf8EncodeChar c, isPlain byte = true) ↔
      0x20 ≤ c.toNat ∧ c ≠ '"' ∧ c ≠ '\\' := by
  rcases utf8EncodeChar_cases c with ⟨beyond, high⟩ | ⟨ascii, encoded⟩
  · refine iff_of_true (fun byte mem => isPlain_of_high (high byte mem)) ⟨by omega, ?_, ?_⟩
    · rintro rfl
      simp at beyond
    · rintro rfl
      simp at beyond
  · have isChar (known : Char) : c = known ↔ c.toNat = known.toNat :=
      ⟨congrArg Char.toNat, Char.toNat_inj.mp⟩
    have isByte (n : Nat) (fits : n < 256) : UInt8.ofNat c.toNat = UInt8.ofNat n ↔ c.toNat = n := by
      rw [← UInt8.toNat_inj, UInt8.toNat_ofNat', UInt8.toNat_ofNat']
      omega
    rw [encoded, List.forall_mem_singleton, isPlain_iff, UInt8.le_iff_toNat_le, UInt8.toNat_ofNat']
    have quote := (isByte 0x22 (by decide)).trans (isChar '"').symm
    have backslash := (isByte 0x5C (by decide)).trans (isChar '\\').symm
    have value : c.toNat % 2 ^ 8 = c.toNat := by omega
    rw [value]
    constructor
    · rintro ⟨notQuote, notBackslash, visible⟩
      exact ⟨visible, fun same => notQuote (quote.mpr same),
        fun same => notBackslash (backslash.mpr same)⟩
    · rintro ⟨visible, notQuote, notBackslash⟩
      exact ⟨fun same => notQuote (quote.mp same),
        fun same => notBackslash (backslash.mp same), visible⟩

theorem Body.plains {plain body : List UInt8} (all : ∀ byte ∈ plain, isPlain byte = true)
    (later : Body body) : Body (plain ++ body) := by
  induction plain with
  | nil => exact later
  | cons byte plain ih =>
      rcases isPlain_iff.1 (all byte (by simp)) with ⟨notQuote, notBackslash, visible⟩
      exact .plain visible notQuote notBackslash (ih fun next mem => all next (by simp [mem]))

theorem Denotes.plains {chars text : List Char} {body : List UInt8}
    (all : ∀ c ∈ chars, ∀ byte ∈ String.utf8EncodeChar c, isPlain byte = true)
    (later : Denotes body text) :
    Denotes (chars.flatMap String.utf8EncodeChar ++ body) (chars ++ text) := by
  induction chars with
  | nil => exact later
  | cons c chars ih =>
      rcases isPlain_utf8EncodeChar_iff.1 (all c (by simp)) with ⟨visible, notQuote, notBackslash⟩
      rw [List.flatMap_cons, List.append_assoc, List.cons_append]
      exact .plain visible notQuote notBackslash (ih fun next mem => all next (by simp [mem]))

theorem Denotes.body {body : List UInt8} {text : List Char} (denotes : Denotes body text) :
    Body body := by
  induction denotes with
  | nil => exact .nil
  | plain visible notQuote notBackslash _ ih =>
      exact ih.plains (isPlain_utf8EncodeChar_iff.2 ⟨visible, notQuote, notBackslash⟩)
  | short escape _ ih => exact .short escape ih
  | unit escape _ ih => exact .unit escape ih
  | pair first second _ _ _ _ ih => exact .unit first (.unit second ih)

theorem fromUTF8?_eq_some_iff {bytes : ByteArray} {text : String} :
    String.fromUTF8? bytes = some text ↔ bytes = text.toByteArray := by
  unfold String.fromUTF8?
  constructor
  · intro decoded
    split at decoded
    · cases decoded
      rfl
    · cases decoded
  · rintro rfl
    rw [dif_pos text.isValidUTF8]
    rfl

/-- The text of plain bytes is the one whose characters they encode. -/
theorem plainText_eq_ok_iff {plain after : List UInt8} {text : String} :
    plainText plain after = .ok text ↔ plain = text.toList.flatMap String.utf8EncodeChar := by
  have encoded : plain.toByteArray = text.toByteArray ↔
      plain = text.toList.flatMap String.utf8EncodeChar := by
    rw [← String.utf8Encode_toList, List.utf8Encode]
    constructor
    · intro same
      have data := congrArg ByteArray.data same
      rw [List.data_toByteArray, List.data_toByteArray] at data
      exact List.toArray_inj data
    · intro same
      rw [same]
  rw [← encoded, ← fromUTF8?_eq_some_iff]
  cases decoded : String.fromUTF8? plain.toByteArray with
  | none => simp [plainText, decoded, Defect.before]
  | some found => simp [plainText, decoded]

/-! ## Escapes -/

theorem toNat_ofNat_of_isValidChar {code : Nat} (valid : code.isValidChar) :
    (Char.ofNat code).toNat = code := by
  rw [Char.ofNat, dif_pos valid]
  rfl

theorem digit_iff {byte : UInt8} : Digit byte ↔ 48 ≤ byte.toNat ∧ byte.toNat ≤ 57 := by
  rw [Digit, UInt8.le_iff_toNat_le, UInt8.le_iff_toNat_le]
  rfl

theorem hexValue?_ofNat (byte : UInt8) :
    Number.hexValue? (Char.ofNat byte.toNat) =
      if 48 ≤ byte.toNat ∧ byte.toNat ≤ 57 then some (byte.toNat - 48)
      else if 97 ≤ byte.toNat ∧ byte.toNat ≤ 102 then some (byte.toNat - 97 + 10)
      else if 65 ≤ byte.toNat ∧ byte.toNat ≤ 70 then some (byte.toNat - 65 + 10)
      else none := by
  have code : (Char.ofNat byte.toNat).toNat = byte.toNat :=
    toNat_ofNat_of_isValidChar (.inl (Nat.lt_trans byte.toNat_lt (by decide)))
  have order (c d : Char) : c ≤ d ↔ c.toNat ≤ d.toNat := UInt32.le_iff_toNat_le
  simp only [Number.hexValue?, order, code]
  rfl

theorem hexValue?_eq_some_iff {byte : UInt8} {value : Nat} :
    Number.hexValue? (Char.ofNat byte.toNat) = some value ↔ HexDigit byte value := by
  have least (low : UInt8) : low ≤ byte ↔ low.toNat ≤ byte.toNat := UInt8.le_iff_toNat_le
  have most (high : UInt8) : byte ≤ high ↔ byte.toNat ≤ high.toNat := UInt8.le_iff_toNat_le
  rw [hexValue?_ofNat]
  constructor
  · intro found
    split at found
    · rename_i digit
      cases found
      exact .decimal (digit_iff.2 digit)
    · split at found
      · rename_i letter
        cases found
        exact .lower ((least 0x61).mpr letter.1) ((most 0x66).mpr letter.2)
      · split at found
        · rename_i letter
          cases found
          exact .upper ((least 0x41).mpr letter.1) ((most 0x46).mpr letter.2)
        · cases found
  · intro digit
    cases digit with
    | decimal digit => rw [if_pos (digit_iff.1 digit)]
    | lower low high =>
        have low : 97 ≤ byte.toNat := (least 0x61).mp low
        have high : byte.toNat ≤ 102 := (most 0x66).mp high
        rw [if_neg (by omega), if_pos ⟨low, high⟩]
    | upper low high =>
        have low : 65 ≤ byte.toNat := (least 0x41).mp low
        have high : byte.toNat ≤ 70 := (most 0x46).mp high
        rw [if_neg (by omega), if_neg (by omega), if_pos ⟨low, high⟩]

theorem hexUnit_eq_ok_iff {bytes rest : List UInt8} {value : Nat} :
    hexUnit bytes = .ok (value, rest) ↔
      ∃ digits, CodeUnit digits value ∧ bytes = digits ++ rest := by
  constructor
  · intro read
    unfold hexUnit at read
    split at read
    · rename_i a b c d rest'
      split at read
      · rename_i found
        cases read
        simp only [Number.readHex?, List.map_cons, List.map_nil, Option.map_eq_some_iff] at found
        rcases found with ⟨values, digits, rfl⟩
        simp only [List.mapM_cons, List.mapM_nil, Option.bind_eq_bind, Option.bind_eq_some_iff,
          Option.pure_def, Option.some.injEq, hexValue?_eq_some_iff] at digits
        rcases digits with ⟨i, first, _, ⟨j, second, _, ⟨k, third, _, ⟨l, fourth, _, rfl, rfl⟩,
          rfl⟩, rfl⟩, rfl⟩
        refine ⟨[a, b, c, d], ?_, rfl⟩
        simpa using CodeUnit.mk first second third fourth
      · cases read
    · cases read
  · rintro ⟨_, ⟨first, second, third, fourth⟩, rfl⟩
    simp only [hexUnit, List.cons_append, List.nil_append, Number.readHex?, List.map_cons,
      List.map_nil, List.mapM_cons, List.mapM_nil, hexValue?_eq_some_iff.2 first,
      hexValue?_eq_some_iff.2 second, hexValue?_eq_some_iff.2 third,
      hexValue?_eq_some_iff.2 fourth]
    simp

theorem HexDigit.lt {byte : UInt8} {value : Nat} (digit : HexDigit byte value) : value < 16 := by
  have most {high : UInt8} : byte ≤ high → byte.toNat ≤ high.toNat := UInt8.le_iff_toNat_le.mp
  cases digit with
  | decimal digit =>
      have bounds := digit_iff.1 digit
      omega
  | lower _ high =>
      have bound : byte.toNat ≤ 102 := most high
      omega
  | upper _ high =>
      have bound : byte.toNat ≤ 70 := most high
      omega

theorem CodeUnit.lt {digits : List UInt8} {value : Nat} (unit : CodeUnit digits value) :
    value < 0x10000 := by
  cases unit with
  | mk first second third fourth =>
      have bounds := And.intro (And.intro first.lt second.lt) (And.intro third.lt fourth.lt)
      omega

theorem CodeUnit.read {digits : List UInt8} {value : Nat} (unit : CodeUnit digits value)
    (rest : List UInt8) : hexUnit (digits ++ rest) = .ok (value, rest) :=
  hexUnit_eq_ok_iff.2 ⟨digits, unit, rfl⟩

theorem shortEscape?_eq_some_iff {byte : UInt8} {c : Char} :
    shortEscape? byte = some c ↔ (byte, c) ∈ shortEscapes := by
  simp only [shortEscapes, List.mem_cons, List.not_mem_nil, or_false, Prod.mk.injEq]
  unfold shortEscape?
  split_ifs <;> simp_all [eq_comm]

theorem ne_of_mem_shortEscapes {byte : UInt8} {c : Char} (escape : (byte, c) ∈ shortEscapes) :
    byte ≠ 0x75 := by
  rintro rfl
  rw [← shortEscape?_eq_some_iff] at escape
  cases escape

theorem isTrailing_iff {unit : Nat} : isTrailing unit = true ↔ 0xDC00 ≤ unit ∧ unit ≤ 0xDFFF := by
  simp [isTrailing]

theorem isLeading_iff {unit : Nat} : isLeading unit = true ↔ 0xD800 ≤ unit ∧ unit ≤ 0xDBFF := by
  simp [isLeading]

theorem toNat_ofNat_pairValue {high low : Nat} (isHigh : 0xD800 ≤ high ∧ high ≤ 0xDBFF)
    (isLow : 0xDC00 ≤ low ∧ low ≤ 0xDFFF) :
    (Char.ofNat (pairValue high low)).toNat =
      0x10000 + (high - 0xD800) * 0x400 + (low - 0xDC00) := by
  have value : pairValue high low = 0x10000 + (high - 0xD800) * 0x400 + (low - 0xDC00) := by
    unfold pairValue
    omega
  rw [value]
  refine toNat_ofNat_of_isValidChar (.inr ?_)
  omega

theorem trailingUnit_eq_ok_iff {bytes rest : List UInt8} {low : Nat} :
    trailingUnit bytes = .ok (low, rest) ↔
      ∃ digits, CodeUnit digits low ∧ (0xDC00 ≤ low ∧ low ≤ 0xDFFF) ∧
        bytes = 0x5C :: 0x75 :: (digits ++ rest) := by
  constructor
  · intro read
    unfold trailingUnit at read
    split at read
    · rcases bind_eq_ok_iff.1 read with ⟨⟨unit, after⟩, found, checked⟩
      rcases hexUnit_eq_ok_iff.1 found with ⟨digits, isUnit, rfl⟩
      by_cases trailing : isTrailing unit
      · simp only [trailing, if_true, pure, Except.pure, Except.ok.injEq, Prod.mk.injEq] at checked
        rcases checked with ⟨rfl, rfl⟩
        exact ⟨digits, isUnit, isTrailing_iff.1 trailing, rfl⟩
      · simp [trailing, Defect.before] at checked
    all_goals cases read
  · rintro ⟨digits, isUnit, isLow, rfl⟩
    simp [trailingUnit, isUnit.read, isTrailing_iff.2 isLow, bind, Except.bind, pure, Except.pure]

theorem escape_of_short {byte : UInt8} {c : Char} (short : (byte, c) ∈ shortEscapes)
    (rest : List UInt8) : escape (byte :: rest) = .ok (c, rest) := by
  simp [escape, ne_of_mem_shortEscapes short, shortEscape?_eq_some_iff.2 short]

theorem escape_of_unit {digits : List UInt8} {c : Char} (unit : CodeUnit digits c.toNat)
    (rest : List UInt8) : escape (0x75 :: (digits ++ rest)) = .ok (c, rest) := by
  have valid : c.toNat.isValidChar := c.valid
  have notTrailing : ¬isTrailing c.toNat = true := by
    rw [isTrailing_iff]
    omega
  have notLeading : ¬isLeading c.toNat = true := by
    rw [isLeading_iff]
    omega
  simp [escape, unicodeEscape, unit.read, notTrailing, notLeading, bind, Except.bind, pure,
    Except.pure]

theorem escape_of_pair {leading trailing : List UInt8} {high low : Nat} {c : Char}
    (first : CodeUnit leading high) (second : CodeUnit trailing low)
    (isHigh : 0xD800 ≤ high ∧ high ≤ 0xDBFF) (isLow : 0xDC00 ≤ low ∧ low ≤ 0xDFFF)
    (together : c.toNat = 0x10000 + (high - 0xD800) * 0x400 + (low - 0xDC00))
    (rest : List UInt8) :
    escape (0x75 :: (leading ++ 0x5C :: 0x75 :: (trailing ++ rest))) = .ok (c, rest) := by
  have readSecond : trailingUnit (0x5C :: 0x75 :: (trailing ++ rest)) = .ok (low, rest) :=
    trailingUnit_eq_ok_iff.2 ⟨trailing, second, isLow, rfl⟩
  have notTrailing : ¬isTrailing high = true := by
    rw [isTrailing_iff]
    omega
  have same : Char.ofNat (pairValue high low) = c :=
    Char.toNat_inj.mp ((toNat_ofNat_pairValue isHigh isLow).trans together.symm)
  simp [escape, unicodeEscape, first.read, readSecond, notTrailing, isLeading_iff.2 isHigh, same,
    bind, Except.bind, pure, Except.pure]

/-- What an escape is read from stands for its character wherever it stands. -/
theorem escape_sound {bytes rest : List UInt8} {c : Char} (read : escape bytes = .ok (c, rest)) :
    ∃ piece, bytes = piece ++ rest ∧
      ∀ {body text}, Denotes body text → Denotes (0x5C :: (piece ++ body)) (c :: text) := by
  cases bytes with
  | nil => cases read
  | cons byte bytes =>
      by_cases unicode : byte = 0x75
      · simp only [escape, unicode, if_true, unicodeEscape, bind_eq_ok_iff] at read
        rcases read with ⟨⟨unit, after⟩, found, read⟩
        rcases hexUnit_eq_ok_iff.1 found with ⟨digits, isUnit, rfl⟩
        by_cases trailing : isTrailing unit
        · simp [trailing, Defect.before] at read
        · by_cases leading : isLeading unit
          · simp only [trailing, leading, if_true, Bool.false_eq_true, if_false,
              bind_eq_ok_iff, pure, Except.pure, Except.ok.injEq, Prod.mk.injEq] at read
            rcases read with ⟨⟨low, later⟩, second, rfl, rfl⟩
            rcases trailingUnit_eq_ok_iff.1 second with ⟨others, isOther, isLow, rfl⟩
            have isHigh := isLeading_iff.1 leading
            -- Half of a pair: the escape behind it belongs to the same character.
            refine ⟨0x75 :: (digits ++ 0x5C :: 0x75 :: others), by simp [unicode], ?_⟩
            intro body text later
            have pair := Denotes.pair isUnit isOther isHigh isLow
              (toNat_ofNat_pairValue isHigh isLow) later
            simpa using pair
          · simp only [trailing, leading, Bool.false_eq_true, if_false, pure, Except.pure,
              Except.ok.injEq, Prod.mk.injEq] at read
            rcases read with ⟨rfl, rfl⟩
            -- The units that are no code of a character are those of pairs, and this is none.
            have code : (Char.ofNat unit).toNat = unit := by
              refine toNat_ofNat_of_isValidChar ?_
              rw [isTrailing_iff] at trailing
              rw [isLeading_iff] at leading
              have bound := isUnit.lt
              unfold Nat.isValidChar
              omega
            refine ⟨0x75 :: digits, by simp [unicode], fun later => ?_⟩
            exact .unit (code.symm ▸ isUnit) later
      · simp only [escape, unicode, if_false] at read
        split at read
        · rename_i short
          cases read
          exact ⟨[byte], rfl, .short (shortEscape?_eq_some_iff.1 short)⟩
        · cases read

/-! ## Strings whose text is read -/

theorem takeWhile_isPlain {plain : List UInt8} {byte : UInt8}
    (all : ∀ byte ∈ plain, isPlain byte = true) (other : isPlain byte = false)
    (after : List UInt8) :
    (plain ++ byte :: after).takeWhile isPlain = plain ∧
      (plain ++ byte :: after).dropWhile isPlain = byte :: after := by
  rw [List.takeWhile_append_of_pos all, List.dropWhile_append_of_pos all]
  simp [other]

/-- Plain bytes that encode characters, and behind them the closing quote or an escape. -/
theorem contents_eq_ok_iff {fuel : Nat} {bytes rest : List UInt8} {text : List Char} :
    contents (fuel + 1) bytes = .ok (String.ofList text, rest) ↔
      ∃ start : List Char, (∀ c ∈ start, ∀ byte ∈ String.utf8EncodeChar c, isPlain byte = true) ∧
        ((bytes = start.flatMap String.utf8EncodeChar ++ 0x22 :: rest ∧ text = start) ∨
          ∃ after c behind more, bytes = start.flatMap String.utf8EncodeChar ++ 0x5C :: after ∧
            escape after = .ok (c, behind) ∧
            contents fuel behind = .ok (String.ofList more, rest) ∧ text = start ++ c :: more) := by
  have together (start more : String) (c : Char) :
      start ++ c.toString ++ more = String.ofList text ↔
        text = start.toList ++ c :: more.toList := by
    rw [← String.toList_inj]
    simp [eq_comm]
  constructor
  · intro read
    unfold contents at read
    cases dropped : bytes.dropWhile isPlain with
    | nil => simp [dropped, Defect.before] at read
    | cons byte after =>
        have split := (eq_takeWhile_append dropped).2
        have visible {start : String}
            (decoded : plainText (bytes.takeWhile isPlain) (byte :: after) = .ok start) :
            bytes = start.toList.flatMap String.utf8EncodeChar ++ byte :: after ∧
              ∀ c ∈ start.toList, ∀ byte ∈ String.utf8EncodeChar c, isPlain byte = true := by
          have encoded := plainText_eq_ok_iff.1 decoded
          rw [← encoded]
          refine ⟨split, fun c mem byte inside => ?_⟩
          have within : byte ∈ bytes.takeWhile isPlain := by
            rw [encoded]
            exact List.mem_flatMap.mpr ⟨c, mem, inside⟩
          exact List.mem_takeWhile_imp within
        simp only [dropped] at read
        split_ifs at read with quote backslash
        · simp only [bind_eq_ok_iff, pure, Except.pure, Except.ok.injEq, Prod.mk.injEq] at read
          rcases read with ⟨start, decoded, same, rfl⟩
          rcases visible decoded with ⟨encoded, all⟩
          refine ⟨start.toList, all, .inl ⟨quote ▸ encoded, ?_⟩⟩
          rw [same, String.toList_ofList]
        · simp only [bind_eq_ok_iff, pure, Except.pure, Except.ok.injEq, Prod.mk.injEq] at read
          rcases read with ⟨start, decoded, ⟨c, behind⟩, escaped, ⟨more, last⟩, later, same, rfl⟩
          rcases visible decoded with ⟨encoded, all⟩
          refine ⟨start.toList, all, .inr ⟨after, c, behind, more.toList, backslash ▸ encoded,
            escaped, ?_, (together start more c).mp same⟩⟩
          rwa [String.ofList_toList]
        · cases read
  · rintro ⟨start, all, ends⟩
    have plain : ∀ byte ∈ start.flatMap String.utf8EncodeChar, isPlain byte = true := by
      intro byte mem
      rcases List.mem_flatMap.mp mem with ⟨c, inside, found⟩
      exact all c inside byte found
    have decoded (after : List UInt8) :
        plainText (start.flatMap String.utf8EncodeChar) after = .ok (String.ofList start) :=
      plainText_eq_ok_iff.2 (by rw [String.toList_ofList])
    rcases ends with ⟨rfl, same⟩ | ⟨after, c, behind, more, rfl, escaped, later, same⟩
    · have cut := takeWhile_isPlain plain (show isPlain 0x22 = false from rfl) rest
      simp [contents, cut, decoded, same, bind, Except.bind, pure, Except.pure]
    · have cut := takeWhile_isPlain plain (show isPlain 0x5C = false from rfl) after
      have whole := (together (String.ofList start) (String.ofList more) c).mpr (by simp [same])
      simp only [contents, cut, decoded, escaped, later, whole, bind, Except.bind, pure,
        Except.pure, if_true]
      rfl

theorem contents_plain {fuel : Nat} {bytes rest : List UInt8} {c : Char} {text : List Char}
    (plain : ∀ byte ∈ String.utf8EncodeChar c, isPlain byte = true)
    (later : contents fuel bytes = .ok (String.ofList text, rest)) :
    contents fuel (String.utf8EncodeChar c ++ bytes) = .ok (String.ofList (c :: text), rest) := by
  cases fuel with
  | zero => cases later
  | succ fuel =>
      rcases contents_eq_ok_iff.1 later with ⟨start, all, ends⟩
      refine contents_eq_ok_iff.2 ⟨c :: start, by simpa using ⟨plain, all⟩, ?_⟩
      rcases ends with ⟨rfl, rfl⟩ | ⟨after, d, behind, more, rfl, escaped, found, rfl⟩
      · exact .inl ⟨by simp, rfl⟩
      · exact .inr ⟨after, d, behind, more, by simp, escaped, found, rfl⟩

theorem contents_escape {fuel : Nat} {bytes after rest : List UInt8} {c : Char} {text : List Char}
    (first : escape bytes = .ok (c, after))
    (later : contents fuel after = .ok (String.ofList text, rest)) :
    contents (fuel + 1) (0x5C :: bytes) = .ok (String.ofList (c :: text), rest) :=
  contents_eq_ok_iff.2
    ⟨[], by simp, .inr ⟨bytes, c, after, text, rfl, first, later, rfl⟩⟩

/-- A string is read as the text that its body denotes. -/
theorem contents_complete {body : List UInt8} {text : List Char} (denotes : Denotes body text)
    {fuel : Nat} (enough : body.length < fuel) (rest : List UInt8) :
    contents fuel (body ++ 0x22 :: rest) = .ok (String.ofList text, rest) := by
  induction denotes generalizing fuel with
  | nil =>
      cases fuel with
      | zero => cases enough
      | succ fuel => exact contents_eq_ok_iff.2 ⟨[], by simp, .inl ⟨rfl, rfl⟩⟩
  | plain visible notQuote notBackslash _ ih =>
      rw [List.length_append] at enough
      rw [List.append_assoc]
      exact contents_plain (isPlain_utf8EncodeChar_iff.2 ⟨visible, notQuote, notBackslash⟩)
        (ih (by omega))
  | short short _ ih =>
      cases fuel with
      | zero => cases enough
      | succ fuel =>
          simp only [List.length_cons] at enough
          exact contents_escape (escape_of_short short _) (ih (by omega))
  | unit unit _ ih =>
      cases fuel with
      | zero => cases enough
      | succ fuel =>
          simp only [List.length_cons, List.length_append] at enough
          simp only [List.cons_append, List.append_assoc]
          exact contents_escape (escape_of_unit unit _) (ih (by omega))
  | pair first second isHigh isLow together _ ih =>
      cases fuel with
      | zero => cases enough
      | succ fuel =>
          simp only [List.length_cons, List.length_append] at enough
          simp only [List.cons_append, List.append_assoc]
          exact contents_escape (escape_of_pair first second isHigh isLow together _)
            (ih (by omega))

theorem contents_sound {fuel : Nat} {bytes rest : List UInt8} {text : List Char}
    (read : contents fuel bytes = .ok (String.ofList text, rest)) :
    ∃ body, Denotes body text ∧ bytes = body ++ 0x22 :: rest := by
  induction fuel generalizing bytes text with
  | zero => cases read
  | succ fuel ih =>
      rcases contents_eq_ok_iff.1 read with
        ⟨start, all, ⟨rfl, rfl⟩ | ⟨after, c, behind, more, rfl, escaped, later, rfl⟩⟩
      · have denotes := Denotes.plains all .nil
        rw [List.append_nil, List.append_nil] at denotes
        exact ⟨_, denotes, rfl⟩
      · rcases ih later with ⟨body, denotes, rfl⟩
        rcases escape_sound escaped with ⟨piece, rfl, grows⟩
        refine ⟨_, Denotes.plains all (grows denotes), ?_⟩
        simp

/-- The text of a string is the one that its body denotes, whatever follows its closing quote. -/
theorem stringRest_eq_ok_iff {bytes rest : List UInt8} {text : String} :
    stringRest bytes = .ok (text, rest) ↔
      ∃ body, Denotes body text.toList ∧ bytes = body ++ 0x22 :: rest := by
  unfold stringRest
  constructor
  · intro read
    exact contents_sound (by rwa [String.ofList_toList])
  · rintro ⟨body, denotes, rfl⟩
    have enough : body.length < (body ++ 0x22 :: rest).length + 1 := by
      rw [List.length_append]
      omega
    have read := contents_complete denotes enough rest
    rwa [String.ofList_toList] at read

/-! ## Strings that are passed over -/

theorem skipEscape_sound {bytes rest : List UInt8} (skipped : skipEscape bytes = .ok rest) :
    ∃ piece, bytes = piece ++ rest ∧ ∀ {body}, Body body → Body (0x5C :: (piece ++ body)) := by
  cases bytes with
  | nil => cases skipped
  | cons byte bytes =>
      by_cases unicode : byte = 0x75
      · simp only [skipEscape, unicode, if_true, map_eq_ok_iff] at skipped
        rcases skipped with ⟨⟨unit, after⟩, found, rfl⟩
        rcases hexUnit_eq_ok_iff.1 found with ⟨digits, isUnit, rfl⟩
        exact ⟨0x75 :: digits, by simp [unicode], .unit isUnit⟩
      · simp only [skipEscape, unicode, if_false] at skipped
        cases found : shortEscape? byte with
        | none => simp [found, Defect.before] at skipped
        | some c =>
            simp only [found, Option.isSome_some, if_true, Except.ok.injEq] at skipped
            exact ⟨[byte], by simp [skipped], .short (shortEscape?_eq_some_iff.1 found)⟩

theorem skipEscape_of_short {byte : UInt8} {c : Char} (short : (byte, c) ∈ shortEscapes)
    (rest : List UInt8) : skipEscape (byte :: rest) = .ok rest := by
  simp [skipEscape, ne_of_mem_shortEscapes short, shortEscape?_eq_some_iff.2 short]

theorem skipEscape_of_unit {digits : List UInt8} {value : Nat} (unit : CodeUnit digits value)
    (rest : List UInt8) : skipEscape (0x75 :: (digits ++ rest)) = .ok rest := by
  simp [skipEscape, unit.read, Except.map]

/-- Plain bytes, and behind them the closing quote or an escape. -/
theorem skipString_eq_ok_iff {fuel : Nat} {bytes rest : List UInt8} :
    skipString (fuel + 1) bytes = .ok rest ↔
      ∃ plain, (∀ byte ∈ plain, isPlain byte = true) ∧
        (bytes = plain ++ 0x22 :: rest ∨
          ∃ after behind, bytes = plain ++ 0x5C :: after ∧ skipEscape after = .ok behind ∧
            skipString fuel behind = .ok rest) := by
  constructor
  · intro skipped
    unfold skipString at skipped
    cases dropped : bytes.dropWhile isPlain with
    | nil => simp [dropped, Defect.before] at skipped
    | cons byte after =>
        refine ⟨bytes.takeWhile isPlain, fun _ => List.mem_takeWhile_imp, ?_⟩
        have split := (eq_takeWhile_append dropped).2
        simp only [dropped] at skipped
        split_ifs at skipped with quote backslash
        · cases skipped
          exact .inl (quote ▸ split)
        · rcases bind_eq_ok_iff.1 skipped with ⟨behind, escaped, later⟩
          exact .inr ⟨after, behind, backslash ▸ split, escaped, later⟩
        · cases skipped
  · rintro ⟨plain, all, rfl | ⟨after, behind, rfl, escaped, later⟩⟩
    · have cut := takeWhile_isPlain all (show isPlain 0x22 = false from rfl) rest
      simp [skipString, cut]
    · have cut := takeWhile_isPlain all (show isPlain 0x5C = false from rfl) after
      simp [skipString, cut, escaped, later, bind, Except.bind]

theorem skipString_sound {fuel : Nat} {bytes rest : List UInt8}
    (skipped : skipString fuel bytes = .ok rest) :
    ∃ body, Body body ∧ bytes = body ++ 0x22 :: rest := by
  induction fuel generalizing bytes with
  | zero => cases skipped
  | succ fuel ih =>
      rcases skipString_eq_ok_iff.1 skipped with
        ⟨plain, all, rfl | ⟨after, behind, rfl, escaped, later⟩⟩
      · exact ⟨plain, by simpa using Body.plains all .nil, rfl⟩
      · rcases ih later with ⟨body, wellFormed, rfl⟩
        rcases skipEscape_sound escaped with ⟨piece, rfl, grows⟩
        exact ⟨_, Body.plains all (grows wellFormed), by simp⟩

theorem skipString_plain {fuel : Nat} {byte : UInt8} {bytes rest : List UInt8}
    (plain : isPlain byte = true) (skipped : skipString fuel bytes = .ok rest) :
    skipString fuel (byte :: bytes) = .ok rest := by
  cases fuel with
  | zero => cases skipped
  | succ fuel =>
      rcases skipString_eq_ok_iff.1 skipped with ⟨start, all, ends⟩
      refine skipString_eq_ok_iff.2 ⟨byte :: start, by simpa using ⟨plain, all⟩, ?_⟩
      rcases ends with rfl | ⟨after, behind, rfl, escaped, later⟩
      · exact .inl rfl
      · exact .inr ⟨after, behind, rfl, escaped, later⟩

theorem skipString_escape {fuel : Nat} {bytes after rest : List UInt8}
    (first : skipEscape bytes = .ok after) (later : skipString fuel after = .ok rest) :
    skipString (fuel + 1) (0x5C :: bytes) = .ok rest :=
  skipString_eq_ok_iff.2 ⟨[], by simp, .inr ⟨bytes, after, rfl, first, later⟩⟩

/-- A well-formed body is passed over to its closing quote. -/
theorem skipString_complete {body : List UInt8} (wellFormed : Body body) {fuel : Nat}
    (enough : body.length < fuel) (rest : List UInt8) :
    skipString fuel (body ++ 0x22 :: rest) = .ok rest := by
  induction wellFormed generalizing fuel with
  | nil =>
      cases fuel with
      | zero => cases enough
      | succ fuel => exact skipString_eq_ok_iff.2 ⟨[], by simp, .inl rfl⟩
  | plain visible notQuote notBackslash _ ih =>
      rw [List.length_cons] at enough
      exact skipString_plain (isPlain_iff.2 ⟨notQuote, notBackslash, visible⟩) (ih (by omega))
  | short short _ ih =>
      cases fuel with
      | zero => cases enough
      | succ fuel =>
          simp only [List.length_cons] at enough
          exact skipString_escape (skipEscape_of_short short _) (ih (by omega))
  | unit unit _ ih =>
      cases fuel with
      | zero => cases enough
      | succ fuel =>
          simp only [List.length_cons, List.length_append] at enough
          simp only [List.cons_append, List.append_assoc]
          exact skipString_escape (skipEscape_of_unit unit _) (ih (by omega))

theorem skipString_length {body : List UInt8} (wellFormed : Body body) (rest : List UInt8) :
    skipString ((body ++ 0x22 :: rest).length + 1) (body ++ 0x22 :: rest) = .ok rest := by
  refine skipString_complete wellFormed ?_ rest
  rw [List.length_append]
  omega

/-- The body of a string ends in one place only. -/
theorem Body.unique {body other rest rest' : List UInt8} (first : Body body) (second : Body other)
    (same : body ++ 0x22 :: rest = other ++ 0x22 :: rest') : body = other ∧ rest = rest' := by
  have enough : body.length < body.length + other.length + 1 := by omega
  have enough' : other.length < body.length + other.length + 1 := by omega
  have left := skipString_complete first enough rest
  rw [same, skipString_complete second enough' rest', Except.ok.injEq] at left
  subst left
  exact ⟨List.append_cancel_right same, rfl⟩

/-- On a well-formed string, just the denoted text is read. -/
theorem stringRest_append_eq_ok_iff {body rest rest' : List UInt8} (wellFormed : Body body)
    {text : String} :
    stringRest (body ++ 0x22 :: rest) = .ok (text, rest') ↔
      rest' = rest ∧ Denotes body text.toList := by
  rw [stringRest_eq_ok_iff]
  constructor
  · rintro ⟨other, denotes, same⟩
    rcases wellFormed.unique denotes.body same with ⟨rfl, rfl⟩
    exact ⟨rfl, denotes⟩
  · rintro ⟨rfl, denotes⟩
    exact ⟨body, denotes, rfl⟩

/-! ## Strings can be checked -/

theorem body_iff {body : List UInt8} :
    Body body ↔ skipString ((body ++ [0x22]).length + 1) (body ++ [0x22]) = .ok [] := by
  constructor
  · intro wellFormed
    exact skipString_length wellFormed []
  · intro skipped
    rcases skipString_sound skipped with ⟨other, wellFormed, same⟩
    rwa [List.append_cancel_right same]

instance (body : List UInt8) : Decidable (Body body) :=
  decidable_of_iff _ body_iff.symm

theorem denotes_iff {body : List UInt8} {text : String} :
    Denotes body text.toList ↔ stringRest (body ++ [0x22]) = .ok (text, []) := by
  rw [stringRest_eq_ok_iff]
  constructor
  · intro denotes
    exact ⟨body, denotes, rfl⟩
  · rintro ⟨other, denotes, same⟩
    rwa [List.append_cancel_right same]

instance (body : List UInt8) (text : String) : Decidable (Denotes body text.toList) :=
  decidable_of_iff _ denotes_iff.symm

/-- A body denotes one text at most. -/
theorem Denotes.unique {body : List UInt8} {text other : String}
    (first : Denotes body text.toList) (second : Denotes body other.toList) : text = other := by
  rw [denotes_iff] at first second
  rw [first] at second
  cases second
  rfl

end Json

end TextVectors
