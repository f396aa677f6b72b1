import TextVectors.Proofs.Settings.Numbers
import TextVectors.Proofs.Settings.Pins
import TextVectors.Proofs.Text.Trimming

/-!
# The first fault of an environment

The settings of an environment are accepted iff nothing that is checked fails, and
otherwise the error is that of the first check that does. `Fails` says of every check
when it fails, from the values alone, and `checks` lists them in their order: what is
read comes before what must not be zero. `settings_decided` puts this together with
what holds of all accepted settings.

Each stage of reading is one check or none, so `bind_eq_error_iff_firstOf` takes the
checks off the list one by one.
-/

namespace TextVectors

namespace Settings

variable {environment : Environment} {settings : Settings} {key : String}
  {bound default value : Nat} {error : Error}

/-! ## Values -/

/-- The value of a variable without the blanks around it; that of an unset one is empty. -/
def plain (environment : Environment) (key : String) : String :=
  ((environment key).map Text.trim).getD ""

theorem get?_eq (environment : Environment) (key : String) :
    get? environment key =
      if plain environment key = "" then none else some (plain environment key) := by
  unfold get? plain
  cases environment key with
  | none => rfl
  | some raw => by_cases blank : Text.trim raw = "" <;> simp [blank]

theorem get?_congr {other : Environment} (same : plain other key = plain environment key) :
    get? other key = get? environment key := by
  rw [get?_eq, get?_eq, same]

/-- Only the plain values of the variables count. -/
theorem ofEnvironment_congr {other : Environment}
    (same : ∀ key ∈ keys, plain other key = plain environment key) :
    ofEnvironment other = ofEnvironment environment := by
  have given : ∀ key ∈ keys, get? other key = get? environment key :=
    fun key mem => get?_congr (same key mem)
  simp only [keys, List.forall_mem_cons, List.not_mem_nil, false_implies, implies_true,
    and_true] at given
  simp only [ofEnvironment, read, readHost, readPins, readNumber, readNumber?, given]

/-! ## Checks -/

/-- What is checked of an environment. -/
inductive Check where
  | host
  | pins
  | number (key : String) (bound : Nat)
  | nonzero (key : String)

/-- A check fails of an environment, with an error. -/
@[mk_iff]
inductive Fails (environment : Environment) : Check → Error → Prop where
  | host {raw : String} (given : get? environment "EMBED_HOST" = some raw)
      (unread : Address.ofString? raw = none) : Fails environment .host (.badHost raw)
  | pins {raw : String} {error : Pins.Error}
      (given : get? environment "EMBED_WEIGHTS_SHA256" = some raw)
      (refused : Pins.ofString raw = .error error) : Fails environment .pins (.badPins error)
  | number {key raw : String} {bound : Nat} {reason : Number.NaturalError}
      (given : get? environment key = some raw)
      (unfit : ∀ value, Number.Spells raw value → bound ≤ value)
      (refused : Number.readNatural bound raw = .error reason) :
      Fails environment (.number key bound) (.badNumber key raw reason)
  | zero {key raw : String} (given : get? environment key = some raw)
      (spells : Number.Spells raw 0) : Fails environment (.nonzero key) (.zero key)

theorem fails_host_iff : Fails environment .host error ↔
    ∃ raw, get? environment "EMBED_HOST" = some raw ∧ Address.ofString? raw = none ∧
      error = .badHost raw := by
  simp [fails_iff]

theorem fails_pins_iff : Fails environment .pins error ↔
    ∃ raw reason, get? environment "EMBED_WEIGHTS_SHA256" = some raw ∧
      Pins.ofString raw = .error reason ∧ error = .badPins reason := by
  simp [fails_iff]

theorem fails_nonzero_iff : Fails environment (.nonzero key) error ↔
    ∃ raw, get? environment key = some raw ∧ Number.Spells raw 0 ∧ error = .zero key := by
  simp [fails_iff]

/-- A number that is read below its bound is none that is refused. -/
theorem fails_number_iff (positive : 0 < bound) : Fails environment (.number key bound) error ↔
    ∃ raw reason, get? environment key = some raw ∧
      Number.readNatural bound raw = .error reason ∧ error = .badNumber key raw reason := by
  constructor
  · intro fails
    cases fails with
    | number given _ refused => exact ⟨_, _, given, refused, rfl⟩
  · rintro ⟨raw, reason, given, refused, rfl⟩
    refine .number given ?_ refused
    intro value spells
    by_contra below
    have found := (Number.readNatural_eq_ok_iff positive).mpr ⟨spells, by omega⟩
    cases refused.symm.trans found

/-- The checks of what is read. -/
def readingChecks : List Check := [
  .host, .pins, .number "EMBED_MODEL_DIMENSION" countBound, .number "EMBED_PORT" portBound,
  .number "EMBED_BATCH_SIZE" countBound, .number "EMBED_MAX_TOKENS" countBound,
  .number "EMBED_MAX_CONCURRENCY" countBound, .number "EMBED_REQUEST_TIMEOUT_SECS" countBound,
  .number "EMBED_MAX_BODY_BYTES" countBound]

/-- The checks of what must not be zero. -/
def zeroChecks : List Check := [
  .nonzero "EMBED_BATCH_SIZE", .nonzero "EMBED_MAX_TOKENS", .nonzero "EMBED_MAX_CONCURRENCY",
  .nonzero "EMBED_REQUEST_TIMEOUT_SECS", .nonzero "EMBED_MODEL_DIMENSION"]

/-- All checks in their order. -/
def checks : List Check :=
  readingChecks ++ zeroChecks

/-- The first of some checks that fails does so with an error. -/
def FirstOf (environment : Environment) (checks : List Check) (error : Error) : Prop :=
  ∃ before check after, checks = before ++ check :: after ∧ Fails environment check error ∧
    ∀ earlier ∈ before, ∀ other, ¬Fails environment earlier other

variable {check : Check} {rest others : List Check}

theorem not_firstOf_nil : ¬FirstOf environment [] error := by
  rintro ⟨before, check, after, split, _⟩
  cases before <;> cases split

theorem firstOf_cons_iff : FirstOf environment (check :: rest) error ↔
    Fails environment check error ∨
      (∀ other, ¬Fails environment check other) ∧ FirstOf environment rest error := by
  constructor
  · rintro ⟨before, found, after, split, fails, passed⟩
    cases before with
    | nil =>
        cases split
        exact .inl fails
    | cons first before =>
        cases split
        exact .inr ⟨passed _ List.mem_cons_self, before, found, after, rfl, fails,
          fun earlier mem => passed earlier (List.mem_cons_of_mem _ mem)⟩
  · rintro (fails | ⟨passes, before, found, after, rfl, fails, passed⟩)
    · refine ⟨[], check, rest, rfl, fails, ?_⟩
      intro earlier mem
      cases mem
    · refine ⟨check :: before, found, after, rfl, fails, ?_⟩
      rw [List.forall_mem_cons]
      exact ⟨passes, passed⟩

/-- Of some checks one is the first to fail, unless all pass. -/
theorem exists_firstOf (mem : check ∈ rest) (fails : Fails environment check error) :
    ∃ first, FirstOf environment rest first := by
  induction rest with
  | nil => cases mem
  | cons next rest ih =>
      by_cases passes : ∀ other, ¬Fails environment next other
      · rcases List.mem_cons.mp mem with rfl | later
        · exact absurd fails (passes error)
        · rcases ih later with ⟨first, found⟩
          exact ⟨first, firstOf_cons_iff.mpr (.inr ⟨passes, found⟩)⟩
      · rw [not_forall_not] at passes
        rcases passes with ⟨first, found⟩
        exact ⟨first, firstOf_cons_iff.mpr (.inl found)⟩

theorem firstOf_append_iff : FirstOf environment (rest ++ others) error ↔
    FirstOf environment rest error ∨
      (∀ first, ¬FirstOf environment rest first) ∧ FirstOf environment others error := by
  induction rest with
  | nil => simp [not_firstOf_nil]
  | cons check rest ih =>
      simp only [List.cons_append, firstOf_cons_iff, ih]
      constructor
      · rintro (fails | ⟨passes, found | ⟨none_first, found⟩⟩)
        · exact .inl (.inl fails)
        · exact .inl (.inr ⟨passes, found⟩)
        · refine .inr ⟨?_, found⟩
          rintro first (fails | ⟨_, earlier⟩)
          · exact passes first fails
          · exact none_first first earlier
      · rintro ((fails | ⟨passes, found⟩) | ⟨none_first, found⟩)
        · exact .inl fails
        · exact .inr ⟨passes, .inl found⟩
        · have passes : ∀ other, ¬Fails environment check other :=
            fun other fails => none_first other (.inl fails)
          exact .inr ⟨passes, .inr ⟨fun first earlier => none_first first (.inr ⟨passes, earlier⟩),
            found⟩⟩

/-- A stage that fails just as a check does comes before the checks of what follows. -/
theorem bind_eq_error_iff_firstOf {α β : Type} {result : Except Error α} {next : α → Except Error β}
    (stage : ∀ error, result = .error error ↔ Fails environment check error)
    (later : ∀ found, result = .ok found →
      (next found = .error error ↔ FirstOf environment rest error)) :
    result >>= next = .error error ↔ FirstOf environment (check :: rest) error := by
  rw [bind_eq_error_iff, firstOf_cons_iff, stage]
  cases outcome : result with
  | error fault =>
      have fails := (stage fault).mp outcome
      constructor
      · rintro (same | ⟨found, read, _⟩)
        · exact .inl same
        · cases read
      · rintro (same | ⟨passes, _⟩)
        · exact .inl same
        · exact absurd fails (passes fault)
  | ok found =>
      have passes (other : Error) : ¬Fails environment check other := by
        rw [← stage, outcome]
        intro read
        cases read
      constructor
      · rintro (fails | ⟨again, read, failed⟩)
        · exact .inl fails
        · cases read
          exact .inr ⟨passes, (later found outcome).mp failed⟩
      · rintro (fails | ⟨_, first⟩)
        · exact .inl fails
        · exact .inr ⟨found, rfl, (later found outcome).mpr first⟩

/-! ## Reading -/

theorem readHost_eq_error_iff :
    readHost environment = .error error ↔ Fails environment .host error := by
  have anywhere : Address.ofString? "0.0.0.0" = some (.v4 [0, 0, 0, 0]) := by decide
  rw [fails_host_iff, readHost]
  cases get? environment "EMBED_HOST" with
  | none => simp [anywhere]
  | some raw => cases read : Address.ofString? raw <;> simp [read, eq_comm]

theorem readPins_eq_error_iff :
    readPins environment = .error error ↔ Fails environment .pins error := by
  rw [fails_pins_iff, readPins]
  cases get? environment "EMBED_WEIGHTS_SHA256" with
  | none => simp
  | some raw => simp [mapError_eq_error_iff, @eq_comm _ error]

theorem readNumber?_eq_error_iff (positive : 0 < bound) :
    readNumber? environment key bound = .error error ↔
      Fails environment (.number key bound) error := by
  rw [fails_number_iff positive, readNumber?]
  cases get? environment key with
  | none => simp
  | some raw => cases read : Number.readNatural bound raw <;> simp [read, eq_comm]

theorem readNumber_eq_error_iff (positive : 0 < bound) :
    readNumber environment key bound default = .error error ↔
      Fails environment (.number key bound) error := by
  rw [readNumber, map_eq_error_iff, readNumber?_eq_error_iff positive]

theorem read_eq_error_iff :
    read environment = .error error ↔ FirstOf environment readingChecks error := by
  have count : 0 < countBound := by decide
  have port : 0 < portBound := by decide
  refine bind_eq_error_iff_firstOf (fun _ => readHost_eq_error_iff) fun host _ => ?_
  refine bind_eq_error_iff_firstOf (fun _ => readPins_eq_error_iff) fun pins _ => ?_
  refine bind_eq_error_iff_firstOf (fun _ => readNumber?_eq_error_iff count) fun dimension _ => ?_
  refine bind_eq_error_iff_firstOf (fun _ => readNumber_eq_error_iff port) fun port _ => ?_
  refine bind_eq_error_iff_firstOf (fun _ => readNumber_eq_error_iff count) fun batch _ => ?_
  refine bind_eq_error_iff_firstOf (fun _ => readNumber_eq_error_iff count) fun tokens _ => ?_
  refine bind_eq_error_iff_firstOf (fun _ => readNumber_eq_error_iff count) fun concurrency _ => ?_
  refine bind_eq_error_iff_firstOf (fun _ => readNumber_eq_error_iff count) fun timeout _ => ?_
  refine bind_eq_error_iff_firstOf (fun _ => readNumber_eq_error_iff count) fun body _ => ?_
  refine iff_of_false ?_ not_firstOf_nil
  intro refused
  cases refused

/-! ## Zeros -/

theorem eq_zero_iff_fails (bounded : 0 < bound) (positive : default ≠ 0)
    (read : readNumber environment key bound default = .ok value) :
    value = 0 ↔ Fails environment (.nonzero key) (.zero key) := by
  constructor
  · rintro rfl
    rcases readNumber_eq_ok_iff.mp read with ⟨raw, given, found⟩ | ⟨_, same⟩
    · exact .zero given ((Number.readNatural_eq_ok_iff bounded).mp found).1
    · exact absurd same.symm positive
  · rw [fails_nonzero_iff]
    rintro ⟨raw, given, spells, _⟩
    have found := (Number.readNatural_eq_ok_iff bounded).mpr ⟨spells, bounded⟩
    rcases written_of_set given read with ⟨again, set, also⟩
    cases given.symm.trans set
    exact Except.ok.inj (also.symm.trans found)

theorem eq_some_zero_iff_fails {value : Option Nat} (bounded : 0 < bound)
    (read : readNumber? environment key bound = .ok value) :
    value = some 0 ↔ Fails environment (.nonzero key) (.zero key) := by
  constructor
  · rintro rfl
    rcases readNumber?_eq_ok_some_iff.mp read with ⟨raw, given, found⟩
    exact .zero given ((Number.readNatural_eq_ok_iff bounded).mp found).1
  · rw [fails_nonzero_iff]
    rintro ⟨raw, given, spells, _⟩
    have found := (Number.readNatural_eq_ok_iff bounded).mpr ⟨spells, bounded⟩
    have written := readNumber?_eq_ok_some_iff.mpr ⟨raw, given, found⟩
    exact Except.ok.inj (read.symm.trans written)

/-- A number that may not be zero is one check of the list. -/
theorem firstOf_nonzero_cons {zero : Prop} [Decidable zero] {later : Option String}
    {found : String} (this : zero ↔ Fails environment (.nonzero key) (.zero key))
    (rest_found : later = some found ↔ FirstOf environment rest (.zero found)) :
    (if zero then some key else later) = some found ↔
      FirstOf environment (.nonzero key :: rest) (.zero found) := by
  have only {other : Error} (fails : Fails environment (.nonzero key) other) :
      other = .zero key := by
    rcases fails_nonzero_iff.mp fails with ⟨_, _, _, same⟩
    exact same
  rw [firstOf_cons_iff]
  by_cases bad : zero
  · rw [if_pos bad, Option.some.injEq]
    constructor
    · rintro rfl
      exact .inl (this.mp bad)
    · rintro (fails | ⟨passes, _⟩)
      · cases only fails
        rfl
      · exact absurd (this.mp bad) (passes _)
  · rw [if_neg bad, rest_found]
    constructor
    · intro first
      refine .inr ⟨?_, first⟩
      intro other fails
      cases only fails
      exact bad (this.mpr fails)
    · rintro (fails | ⟨_, first⟩)
      · cases only fails
        exact absurd (this.mpr fails) bad
      · exact first

theorem zeroKey?_eq_some_iff (reads : Reads environment settings) {found : String} :
    settings.zeroKey? = some found ↔ FirstOf environment zeroChecks (.zero found) := by
  have count : 0 < countBound := by decide
  refine firstOf_nonzero_cons (eq_zero_iff_fails count (by decide) reads.batchSize) ?_
  refine firstOf_nonzero_cons (eq_zero_iff_fails count (by decide) reads.maxTokens) ?_
  refine firstOf_nonzero_cons (eq_zero_iff_fails count (by decide) reads.maxConcurrency) ?_
  refine firstOf_nonzero_cons (eq_zero_iff_fails count (by decide) reads.timeoutSeconds) ?_
  refine firstOf_nonzero_cons (eq_some_zero_iff_fails count reads.expectedDimension) ?_
  refine iff_of_false ?_ not_firstOf_nil
  intro impossible
  cases impossible

/-- What must not be zero fails with just that. -/
theorem exists_eq_zero (first : FirstOf environment zeroChecks error) :
    ∃ key, error = .zero key := by
  rcases first with ⟨before, check, after, split, fails, _⟩
  have mem : check ∈ zeroChecks := by
    rw [split]
    exact List.mem_append_right _ List.mem_cons_self
  have nonzero : ∀ check ∈ zeroChecks, ∃ key, check = .nonzero key := by
    simp [zeroChecks]
  rcases nonzero check mem with ⟨key, rfl⟩
  rcases fails_nonzero_iff.mp fails with ⟨_, _, _, same⟩
  exact ⟨key, same⟩

/-- Settings are refused with the error of the first check that fails. -/
theorem ofEnvironment_eq_error_iff :
    ofEnvironment environment = .error error ↔ FirstOf environment checks error := by
  rw [checks, firstOf_append_iff, ofEnvironment, bind_eq_error_iff, read_eq_error_iff]
  refine or_congr_right ?_
  constructor
  · rintro ⟨settings, found, refused⟩
    constructor
    · intro first earlier
      cases found.symm.trans (read_eq_error_iff.mpr earlier)
    · split at refused
      · next key zero =>
        cases refused
        exact (zeroKey?_eq_some_iff (read_eq_ok_iff.mp found)).mp zero
      · cases refused
  · rintro ⟨passed, first⟩
    cases found : read environment with
    | error fault => exact absurd (read_eq_error_iff.mp found) (passed fault)
    | ok settings =>
        rcases exists_eq_zero first with ⟨key, rfl⟩
        refine ⟨settings, rfl, ?_⟩
        rw [(zeroKey?_eq_some_iff (read_eq_ok_iff.mp found)).mpr first]
        rfl

/-! ## Acceptance -/

/-- Every value that is given can be read and is in its range. -/
structure Acceptable (environment : Environment) : Prop where
  host : ∀ raw, get? environment "EMBED_HOST" = some raw →
    ∃ address, Address.ofString? raw = some address
  pins : ∀ raw, get? environment "EMBED_WEIGHTS_SHA256" = some raw →
    ∃ pins, Pins.ofString raw = .ok pins
  number : ∀ key bound zero, (key, bound, zero) ∈ numberKeys →
    ∀ raw, get? environment key = some raw →
      ∃ value, Number.Spells raw value ∧ value < bound ∧ (zero = false → value ≠ 0)

theorem number_mem_checks_iff :
    .number key bound ∈ checks ↔ ∃ zero, (key, bound, zero) ∈ numberKeys := by
  simp [numberKeys, checks, readingChecks, zeroChecks, exists_or]

theorem nonzero_mem_checks_iff :
    .nonzero key ∈ checks ↔ ∃ bound, (key, bound, false) ∈ numberKeys := by
  simp only [checks, readingChecks, zeroChecks, List.cons_append, List.nil_append, List.mem_cons,
    reduceCtorEq, Check.nonzero.injEq, List.not_mem_nil, or_false, false_or, numberKeys,
    Prod.mk.injEq, and_true, Bool.false_eq_true, and_false, or_self, exists_or, ↓existsAndEq]
  tauto

theorem bound_pos {zero : Bool} (mem : (key, bound, zero) ∈ numberKeys) : 0 < bound := by
  have all : ∀ number ∈ numberKeys, 0 < number.2.1 := by
    decide
  exact all _ mem

theorem Acceptable.not_fails {check : Check} (acceptable : Acceptable environment)
    (mem : check ∈ checks) (error : Error) : ¬Fails environment check error := by
  intro fails
  cases fails with
  | host given unread =>
      rcases acceptable.host _ given with ⟨address, read⟩
      cases unread.symm.trans read
  | pins given refused =>
      rcases acceptable.pins _ given with ⟨pins, read⟩
      cases refused.symm.trans read
  | number given unfit _ =>
      rcases number_mem_checks_iff.mp mem with ⟨zero, known⟩
      rcases acceptable.number _ _ zero known _ given with ⟨value, spells, below, _⟩
      exact absurd (unfit value spells) (by omega)
  | zero given spells =>
      rcases nonzero_mem_checks_iff.mp mem with ⟨bound, known⟩
      rcases acceptable.number _ bound false known _ given with ⟨value, also, _, positive⟩
      exact positive rfl (also.unique spells)

theorem Acceptable.of_not_fails
    (passed : ∀ check ∈ checks, ∀ error, ¬Fails environment check error) :
    Acceptable environment := by
  constructor
  · intro raw given
    cases read : Address.ofString? raw with
    | none => exact absurd (.host given read) (passed .host (by simp [checks, readingChecks]) _)
    | some address => exact ⟨address, rfl⟩
  · intro raw given
    cases read : Pins.ofString raw with
    | error reason =>
        exact absurd (.pins given read) (passed .pins (by simp [checks, readingChecks]) _)
    | ok pins => exact ⟨pins, rfl⟩
  · intro key bound zero known raw given
    have positive := bound_pos known
    cases read : Number.readNatural bound raw with
    | error reason =>
        have fails := (fails_number_iff positive).mpr ⟨raw, reason, given, read, rfl⟩
        exact absurd fails (passed _ (number_mem_checks_iff.mpr ⟨zero, known⟩) _)
    | ok value =>
        rcases (Number.readNatural_eq_ok_iff positive).mp read with ⟨spells, below⟩
        refine ⟨value, spells, below, ?_⟩
        rintro rfl rfl
        exact absurd (.zero given spells)
          (passed _ (nonzero_mem_checks_iff.mpr ⟨bound, known⟩) _)

theorem exists_ofEnvironment_eq_ok_iff :
    (∃ settings, ofEnvironment environment = .ok settings) ↔ Acceptable environment := by
  constructor
  · rintro ⟨settings, accepted⟩
    refine .of_not_fails ?_
    intro check mem error fails
    rcases exists_firstOf mem fails with ⟨first, found⟩
    cases accepted.symm.trans (ofEnvironment_eq_error_iff.mpr found)
  · intro acceptable
    cases outcome : ofEnvironment environment with
    | ok settings => exact ⟨settings, rfl⟩
    | error fault =>
        rcases ofEnvironment_eq_error_iff.mp outcome with ⟨before, check, after, split, fails, _⟩
        refine absurd fails (acceptable.not_fails ?_ fault)
        rw [split]
        exact List.mem_append_right _ List.mem_cons_self

/-! ## Accepted settings -/

/-- What accepted settings have in common. -/
structure WellFormed (settings : Settings) : Prop where
  inRange : InRange settings
  recognized : Pins.Recognized settings.pins
  hubBase : settings.hubBase.toList.getLast? ≠ some '/'

theorem recognized_of_ofEnvironment (accepted : ofEnvironment environment = .ok settings) :
    Pins.Recognized settings.pins := by
  by_cases pinned : settings.pins = []
  · rw [pinned]
    intro pin mem
    cases mem
  · rcases exists_of_pins accepted pinned with ⟨raw, _, read⟩
    exact .ofString read

theorem WellFormed.of_ofEnvironment (accepted : ofEnvironment environment = .ok settings) :
    WellFormed settings := by
  refine ⟨.of_ofEnvironment accepted, recognized_of_ofEnvironment accepted, ?_⟩
  rw [(ofEnvironment_eq_ok_iff.mp accepted).1.hubBase]
  exact Text.getLast?_trimEnd '/' _

/-- Only the plain values of an environment count. Its settings are accepted iff every value that
is given is acceptable, and are well formed then; otherwise the first check that fails gives the
error. -/
theorem settings_decided (environment : Environment) :
    (∀ other, (∀ key ∈ keys, plain other key = plain environment key) →
      ofEnvironment other = ofEnvironment environment) ∧
    ((∃ settings, ofEnvironment environment = .ok settings) ↔ Acceptable environment) ∧
    (∀ settings, ofEnvironment environment = .ok settings → WellFormed settings) ∧
    ∀ error, ofEnvironment environment = .error error ↔ FirstOf environment checks error :=
  ⟨fun _ => ofEnvironment_congr, exists_ofEnvironment_eq_ok_iff,
    fun _ => WellFormed.of_ofEnvironment, fun _ => ofEnvironment_eq_error_iff⟩

example : ofEnvironment (fun key =>
    [("EMBED_BATCH_SIZE", "0"), ("EMBED_PORT", " 65536 "), ("HF_TOKEN", " ")].lookup key) =
      .error (.badNumber "EMBED_PORT" "65536" .tooLarge) := by
  decide +kernel

end Settings

end TextVectors
