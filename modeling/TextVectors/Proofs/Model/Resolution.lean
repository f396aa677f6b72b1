import TextVectors.Model.Source
import TextVectors.Proofs.Result

/-!
# Decisions of a resolution

A directory is searched for weights twice in the course of a resolution: when the
source of the model is chosen, and when its files should be in place. Both are the
same search, so a directory that was good enough to be chosen is good enough to be
used, as long as nothing has changed in between.

How often a fetcher is called is not to be seen in what it does to the world. So
the world is extended by a list of all calls, which a `recorded` fetcher keeps and
nothing else can see. A resolution calls it once or not at all,
`calls_resolveRecorded`. What holds of one resolution then holds of each in a
history of turns, in which the world may change between them in any way.
-/

namespace TextVectors

namespace Model

variable {ω : Type} {store : Store} {model : Descriptor} {directory path : String}
  {names : List String}

/-! ## The search for weights -/

/-- A path leads to the first of some names that is a file in a directory. -/
def Store.IsFirst (store : Store) (directory : String) (names : List String) (path : String) :
    Prop :=
  ∃ before name after, names = before ++ name :: after ∧ path = Path.join directory name ∧
    store.isFile path = true ∧
    ∀ earlier ∈ before, store.isFile (Path.join directory earlier) = false

theorem find?_map_join_eq_some_iff :
    (names.map (Path.join directory)).find? (fun path => store.isFile path) = some path ↔
      store.IsFirst directory names path := by
  rw [List.find?_eq_some_iff_append]
  constructor
  · rintro ⟨standing, earlier, later, whole, absent⟩
    rcases List.map_eq_append_iff.mp whole with ⟨before, behind, rfl, rfl, cut⟩
    rcases List.map_eq_cons_iff.mp cut with ⟨name, after, rfl, rfl, rfl⟩
    refine ⟨before, name, after, rfl, rfl, standing, ?_⟩
    intro other mem
    simpa using absent _ (List.mem_map_of_mem mem)
  · rintro ⟨before, name, after, rfl, rfl, standing, absent⟩
    refine ⟨standing, before.map (Path.join directory), after.map (Path.join directory), ?_, ?_⟩
    · rw [List.map_append, List.map_cons]
    · intro other mem
      rcases List.mem_map.mp mem with ⟨earlier, earlierMem, rfl⟩
      simp [absent earlier earlierMem]

theorem findWeights_eq_some_iff :
    store.findWeights directory names = some path ↔
      store.isDir directory = true ∧ store.IsFirst directory names path := by
  unfold Store.findWeights
  by_cases standing : store.isDir directory = true
  · simp only [standing, if_true, true_and]
    exact find?_map_join_eq_some_iff
  · simp [standing]

theorem isSome_findWeights_iff :
    (store.findWeights directory names).isSome ↔
      store.isDir directory = true ∧
        ∃ name ∈ names, store.isFile (Path.join directory name) = true := by
  unfold Store.findWeights
  by_cases standing : store.isDir directory = true
  · simp [standing]
  · simp [standing]

theorem findWeights_eq_none_iff :
    store.findWeights directory names = none ↔
      ∀ name ∈ names, ¬(store.isDir directory = true ∧
        store.isFile (Path.join directory name) = true) := by
  rw [← Option.not_isSome_iff_eq_none, isSome_findWeights_iff]
  constructor
  · rintro absent name mem ⟨standing, file⟩
    exact absent ⟨standing, name, mem, file⟩
  · rintro absent ⟨standing, name, mem, file⟩
    exact absent name mem ⟨standing, file⟩

/-! ## The choice of a source -/

theorem select_of_isSome (found : (store.findWeights model.localDir model.weightFiles).isSome) :
    (store.select model).1 = .local model.localDir := by
  have standing := (isSome_findWeights_iff.mp found).1
  rcases Option.isSome_iff_exists.mp found with ⟨weights, search⟩
  simp [Store.select, standing, search]

theorem select_of_eq_none (absent : store.findWeights model.localDir model.weightFiles = none) :
    (store.select model).1 = .remote model.modelId := by
  unfold Store.select
  by_cases standing : store.isDir model.localDir = true
  · simp [standing, absent]
  · simp [standing]

theorem select_eq_local_iff :
    (store.select model).1 = .local model.localDir ↔
      (store.findWeights model.localDir model.weightFiles).isSome := by
  constructor
  · intro chosen
    cases search : store.findWeights model.localDir model.weightFiles with
    | some weights => rfl
    | none =>
        rw [select_of_eq_none search] at chosen
        cases chosen
  · exact select_of_isSome

theorem select_eq_remote_iff :
    (store.select model).1 = .remote model.modelId ↔
      store.findWeights model.localDir model.weightFiles = none := by
  constructor
  · intro chosen
    cases search : store.findWeights model.localDir model.weightFiles with
    | none => rfl
    | some weights =>
        rw [select_of_isSome (by rw [search]; rfl)] at chosen
        cases chosen
  · exact select_of_eq_none

theorem select_cases (store : Store) (model : Descriptor) :
    (store.select model).1 = .local model.localDir ∨
      (store.select model).1 = .remote model.modelId := by
  rw [select_eq_local_iff, select_eq_remote_iff, ← Option.not_isSome_iff_eq_none]
  exact Classical.em _

/-! ## One resolution -/

section

variable (view : ω → Store) (fetch : Fetcher ω) {world : ω} {source : Source} {weights : String}

theorem locate_of_eq_some (search : store.findWeights directory model.weightFiles = some weights) :
    (locate model store source directory).1 = .ok ⟨source, directory, weights⟩ := by
  simp [locate, search]

theorem locate_of_eq_none (search : store.findWeights directory model.weightFiles = none) :
    (locate model store source directory).1 = .error (.noWeights directory model.weightFiles) := by
  simp [locate, search]

theorem resolve_of_local
    (search : (view world).findWeights model.localDir model.weightFiles = some weights) :
    (resolve model view fetch world).outcome =
        .ok ⟨.local model.localDir, model.localDir, weights⟩ ∧
      (resolve model view fetch world).world = world := by
  have chosen : ((view world).select model).1 = .local model.localDir :=
    select_of_isSome (by rw [search]; rfl)
  unfold resolve
  rcases selected : (view world).select model with ⟨source, selection⟩
  rw [selected] at chosen
  cases chosen
  exact ⟨locate_of_eq_some search, rfl⟩

/-- Without weights in the local directory, all is up to the fetch. -/
theorem resolve_of_remote
    (absent : (view world).findWeights model.localDir model.weightFiles = none) :
    let fetched := fetch model.modelId model.localDir world
    (resolve model view fetch world).outcome =
        (fetched.outcome.mapError (.fetch model.modelId)).bind (fun directory =>
          (locate model (view fetched.world) (.remote model.modelId) directory).1) ∧
      (resolve model view fetch world).world = fetched.world := by
  have chosen := select_of_eq_none absent
  unfold resolve
  rcases selected : (view world).select model with ⟨source, selection⟩
  rw [selected] at chosen
  cases chosen
  dsimp only
  cases (fetch model.modelId model.localDir world).outcome with
  | error cause => exact ⟨rfl, rfl⟩
  | ok directory => exact ⟨rfl, rfl⟩

theorem resolve_of_failed {cause : Failure}
    (absent : (view world).findWeights model.localDir model.weightFiles = none)
    (failed : (fetch model.modelId model.localDir world).outcome = .error cause) :
    (resolve model view fetch world).outcome = .error (.fetch model.modelId cause) ∧
      (resolve model view fetch world).world =
        (fetch model.modelId model.localDir world).world := by
  rcases resolve_of_remote view fetch absent with ⟨outcome, world_eq⟩
  rw [failed] at outcome
  exact ⟨outcome, world_eq⟩

theorem resolve_of_fetched
    (absent : (view world).findWeights model.localDir model.weightFiles = none)
    (fetched : (fetch model.modelId model.localDir world).outcome = .ok directory) :
    (resolve model view fetch world).outcome =
        (locate model (view (fetch model.modelId model.localDir world).world)
          (.remote model.modelId) directory).1 ∧
      (resolve model view fetch world).world =
        (fetch model.modelId model.localDir world).world := by
  rcases resolve_of_remote view fetch absent with ⟨outcome, world_eq⟩
  rw [fetched] at outcome
  exact ⟨outcome, world_eq⟩

theorem world_resolve_of_remote
    (absent : (view world).findWeights model.localDir model.weightFiles = none) :
    (resolve model view fetch world).world = (fetch model.modelId model.localDir world).world :=
  (resolve_of_remote view fetch absent).2

end

/-! ## Calls of a fetcher -/

/-- What a fetcher is asked for: the model of an identifier, in a directory. -/
structure FetchCall where
  modelId : String
  directory : String
  deriving DecidableEq, Repr

/-- A world with all calls of a fetcher so far. -/
structure Recorded (ω : Type) where
  world : ω
  calls : List FetchCall := []

/-- A fetcher that keeps record of its calls. -/
def Fetcher.recorded (fetch : Fetcher ω) : Fetcher (Recorded ω) :=
  fun modelId directory recorded =>
    let fetched := fetch modelId directory recorded.world
    { outcome := fetched.outcome
      world := ⟨fetched.world, recorded.calls ++ [⟨modelId, directory⟩]⟩
      entries := fetched.entries }

def resolveRecorded (model : Descriptor) (view : ω → Store) (fetch : Fetcher ω)
    (recorded : Recorded ω) : Resolution (Recorded ω) :=
  resolve model (fun recorded => view recorded.world) fetch.recorded recorded

/-- The calls that the choice of a source asks for. -/
def callsDue (model : Descriptor) (store : Store) : List FetchCall :=
  match (store.select model).1 with
  | .local _ => []
  | .remote modelId => [⟨modelId, model.localDir⟩]

theorem callsDue_of_isSome
    (found : (store.findWeights model.localDir model.weightFiles).isSome) :
    callsDue model store = [] := by
  simp [callsDue, select_of_isSome found]

theorem callsDue_of_eq_none
    (absent : store.findWeights model.localDir model.weightFiles = none) :
    callsDue model store = [⟨model.modelId, model.localDir⟩] := by
  simp [callsDue, select_of_eq_none absent]

section

variable (model : Descriptor) (view : ω → Store) (fetch : Fetcher ω) (recorded : Recorded ω)

/-- A resolution calls its fetcher once, or not at all if the directory is good enough. -/
theorem calls_resolveRecorded :
    (resolveRecorded model view fetch recorded).world.calls =
      recorded.calls ++ callsDue model (view recorded.world) := by
  unfold resolveRecorded
  cases search : (view recorded.world).findWeights model.localDir model.weightFiles with
  | some weights =>
      rw [(resolve_of_local (fun recorded : Recorded ω => view recorded.world) fetch.recorded
        search).2, callsDue_of_isSome (Option.isSome_of_eq_some search), List.append_nil]
  | none =>
      rw [world_resolve_of_remote (fun recorded : Recorded ω => view recorded.world)
        fetch.recorded search, callsDue_of_eq_none search]
      rfl

theorem resolveRecorded_unseen :
    (resolveRecorded model view fetch recorded).outcome =
        (resolve model view fetch recorded.world).outcome ∧
      (resolveRecorded model view fetch recorded).world.world =
        (resolve model view fetch recorded.world).world := by
  unfold resolveRecorded
  cases search : (view recorded.world).findWeights model.localDir model.weightFiles with
  | some weights =>
      rcases resolve_of_local view fetch search with ⟨outcome, world⟩
      rcases resolve_of_local (fun recorded : Recorded ω => view recorded.world) fetch.recorded
        search with ⟨outcome_recorded, world_recorded⟩
      rw [outcome, world, outcome_recorded, world_recorded]
      exact ⟨rfl, rfl⟩
  | none =>
      cases fetched : (fetch model.modelId model.localDir recorded.world).outcome with
      | error cause =>
          rcases resolve_of_failed view fetch search fetched with ⟨outcome, world⟩
          rcases resolve_of_failed (fun recorded : Recorded ω => view recorded.world)
            fetch.recorded search fetched with ⟨outcome_recorded, world_recorded⟩
          rw [outcome, world, outcome_recorded, world_recorded]
          exact ⟨rfl, rfl⟩
      | ok directory =>
          rcases resolve_of_fetched view fetch search fetched with ⟨outcome, world⟩
          rcases resolve_of_fetched (fun recorded : Recorded ω => view recorded.world)
            fetch.recorded search fetched with ⟨outcome_recorded, world_recorded⟩
          rw [outcome, world, outcome_recorded, world_recorded]
          exact ⟨rfl, rfl⟩

end

/-! ## Histories -/

/-- A turn in the history of a world: it changes, or a model is looked for in it. -/
inductive Turn (ω : Type) where
  | change (alter : ω → ω)
  | resolve (model : Descriptor)

def Turn.after (view : ω → Store) (fetch : Fetcher ω) (recorded : Recorded ω) :
    Turn ω → Recorded ω
  | .change alter => { recorded with world := alter recorded.world }
  | .resolve model => (resolveRecorded model view fetch recorded).world

/-- The looks for models in a history: which model it was, and the world that it was looked for
in. -/
def attempts (view : ω → Store) (fetch : Fetcher ω) :
    Recorded ω → List (Turn ω) → List (Descriptor × Recorded ω)
  | _, [] => []
  | recorded, .change alter :: rest =>
    attempts view fetch (Turn.after view fetch recorded (.change alter)) rest
  | recorded, .resolve model :: rest =>
    (model, recorded) :: attempts view fetch (Turn.after view fetch recorded (.resolve model)) rest

theorem calls_after (view : ω → Store) (fetch : Fetcher ω) (start : Recorded ω)
    (turns : List (Turn ω)) :
    (turns.foldl (Turn.after view fetch) start).calls =
      start.calls ++ (attempts view fetch start turns).flatMap fun (model, recorded) =>
        callsDue model (view recorded.world) := by
  induction turns generalizing start with
  | nil => exact (List.append_nil _).symm
  | cons turn rest ih =>
      rw [List.foldl_cons, ih]
      cases turn with
      | change alter => rfl
      | resolve model =>
          rw [attempts, List.flatMap_cons, ← List.append_assoc, Turn.after, calls_resolveRecorded]

/-- What a resolution decides and does. -/
structure Decided (view : ω → Store) (fetch : Fetcher ω) (model : Descriptor)
    (before : Recorded ω) : Prop where
  /-- The directory is chosen iff one of the names is a file in it. -/
  local_iff : ((view before.world).select model).1 = .local model.localDir ↔
    (view before.world).isDir model.localDir = true ∧
      ∃ name ∈ model.weightFiles,
        (view before.world).isFile (Path.join model.localDir name) = true
  found_iff : ((view before.world).select model).1 = .local model.localDir ↔
    ((view before.world).findWeights model.localDir model.weightFiles).isSome
  /-- Otherwise the model is taken from the hub. -/
  otherwise : ((view before.world).select model).1 ≠ .local model.localDir →
    ((view before.world).select model).1 = .remote model.modelId
  /-- A directory that is chosen is used, and the fetcher is not called. -/
  kept : ((view before.world).select model).1 = .local model.localDir →
    (resolveRecorded model view fetch before).world = before ∧
      ∃ weights, (resolve model view fetch before.world).outcome =
          .ok ⟨.local model.localDir, model.localDir, weights⟩ ∧
        (view before.world).IsFirst model.localDir model.weightFiles weights
  /-- A model from the hub is fetched once, and must then be where the fetcher says. -/
  fetched : ((view before.world).select model).1 = .remote model.modelId →
    let fetched := fetch model.modelId model.localDir before.world
    let resolution := resolve model view fetch before.world
    (resolveRecorded model view fetch before).world =
        ⟨fetched.world, before.calls ++ [⟨model.modelId, model.localDir⟩]⟩ ∧
      ((∃ resolved, resolution.outcome = .ok resolved) ↔
        ∃ directory, fetched.outcome = .ok directory ∧
          ((view fetched.world).findWeights directory model.weightFiles).isSome) ∧
      (∀ resolved, resolution.outcome = .ok resolved →
        resolved.source = .remote model.modelId ∧ fetched.outcome = .ok resolved.dir ∧
          (view fetched.world).IsFirst resolved.dir model.weightFiles resolved.weights) ∧
      (∀ cause, fetched.outcome = .error cause →
        resolution.outcome = .error (.fetch model.modelId cause)) ∧
      (∀ directory, fetched.outcome = .ok directory →
        (view fetched.world).findWeights directory model.weightFiles = none →
        resolution.outcome = .error (.noWeights directory model.weightFiles))
  /-- The record of the calls has no part in it. -/
  unseen : (resolveRecorded model view fetch before).outcome =
      (resolve model view fetch before.world).outcome ∧
    (resolveRecorded model view fetch before).world.world =
      (resolve model view fetch before.world).world

theorem resolve_eq_ok_iff_of_remote (view : ω → Store) (fetch : Fetcher ω) {world : ω}
    {resolved : Resolved}
    (absent : (view world).findWeights model.localDir model.weightFiles = none) :
    (resolve model view fetch world).outcome = .ok resolved ↔
      resolved.source = .remote model.modelId ∧
        (fetch model.modelId model.localDir world).outcome = .ok resolved.dir ∧
        (view (fetch model.modelId model.localDir world).world).findWeights resolved.dir
          model.weightFiles = some resolved.weights := by
  cases fetched : (fetch model.modelId model.localDir world).outcome with
  | error cause => simp [(resolve_of_failed view fetch absent fetched).1]
  | ok directory =>
      rw [(resolve_of_fetched view fetch absent fetched).1]
      cases search : (view (fetch model.modelId model.localDir world).world).findWeights directory
          model.weightFiles with
      | none =>
          rw [locate_of_eq_none search]
          constructor
          · intro impossible
            cases impossible
          · rintro ⟨_, same, found⟩
            cases same
            rw [search] at found
            cases found
      | some weights =>
          rw [locate_of_eq_some search]
          constructor
          · intro same
            cases same
            exact ⟨rfl, rfl, search⟩
          · rcases resolved with ⟨source, dir, path⟩
            rintro ⟨rfl, same, found⟩
            cases same
            rw [search, Option.some.injEq] at found
            rw [found]

/-- A model that has been found is where the next look for it begins, if its directory is where the
fetcher puts it. -/
theorem findWeights_of_resolve {view : ω → Store} {fetch : Fetcher ω} {world : ω}
    {resolved : Resolved}
    (home : ∀ directory, (fetch model.modelId model.localDir world).outcome = .ok directory →
      directory = model.localDir)
    (succeeded : (resolve model view fetch world).outcome = .ok resolved) :
    resolved.dir = model.localDir ∧
      (view (resolve model view fetch world).world).findWeights model.localDir model.weightFiles =
        some resolved.weights := by
  cases search : (view world).findWeights model.localDir model.weightFiles with
  | some weights =>
      rcases resolve_of_local view fetch search with ⟨outcome, world_eq⟩
      rw [outcome] at succeeded
      cases succeeded
      rw [world_eq]
      exact ⟨rfl, search⟩
  | none =>
      rcases (resolve_eq_ok_iff_of_remote view fetch search).mp succeeded with
        ⟨_, fetched, found⟩
      rw [home _ fetched] at found
      rw [world_resolve_of_remote view fetch search]
      exact ⟨home _ fetched, found⟩

theorem decided (view : ω → Store) (fetch : Fetcher ω) (model : Descriptor)
    (before : Recorded ω) : Decided view fetch model before := by
  have world_eq : (resolveRecorded model view fetch before).world =
      ⟨(resolve model view fetch before.world).world,
        before.calls ++ callsDue model (view before.world)⟩ := by
    rw [← calls_resolveRecorded, ← (resolveRecorded_unseen model view fetch before).2]
  refine ⟨select_eq_local_iff.trans isSome_findWeights_iff, select_eq_local_iff,
    (select_cases _ _).resolve_left, ?_, ?_, resolveRecorded_unseen model view fetch before⟩
  · intro chosen
    rcases Option.isSome_iff_exists.mp (select_eq_local_iff.mp chosen) with ⟨weights, search⟩
    rcases resolve_of_local view fetch search with ⟨outcome, world⟩
    refine ⟨?_, weights, outcome, (findWeights_eq_some_iff.mp search).2⟩
    rw [world_eq, world, callsDue_of_isSome (Option.isSome_of_eq_some search), List.append_nil]
  · intro chosen fetched resolution
    have absent := select_eq_remote_iff.mp chosen
    have ok_iff : ∀ resolved, resolution.outcome = .ok resolved ↔ _ :=
      fun resolved => resolve_eq_ok_iff_of_remote view fetch absent
    refine ⟨?_, ?_, ?_, ?_, ?_⟩
    · rw [world_eq, world_resolve_of_remote view fetch absent, callsDue_of_eq_none absent]
    · constructor
      · rintro ⟨resolved, succeeded⟩
        rcases (ok_iff resolved).mp succeeded with ⟨_, directory, search⟩
        exact ⟨resolved.dir, directory, Option.isSome_iff_exists.mpr ⟨_, search⟩⟩
      · rintro ⟨directory, succeeded, found⟩
        rcases Option.isSome_iff_exists.mp found with ⟨weights, search⟩
        exact ⟨⟨.remote model.modelId, directory, weights⟩,
          (ok_iff _).mpr ⟨rfl, succeeded, search⟩⟩
    · intro resolved succeeded
      rcases (ok_iff resolved).mp succeeded with ⟨source, directory, search⟩
      exact ⟨source, directory, (findWeights_eq_some_iff.mp search).2⟩
    · intro cause failed
      exact (resolve_of_failed view fetch absent failed).1
    · intro directory succeeded search
      rw [(resolve_of_fetched view fetch absent succeeded).1, locate_of_eq_none search]

/-- Every resolution in a history is decided by the files that it finds, whatever the fetcher does
to them, and its calls are all the calls that there are. -/
theorem history_decided (view : ω → Store) (fetch : Fetcher ω) (start : Recorded ω)
    (turns : List (Turn ω)) :
    (∀ attempt ∈ attempts view fetch start turns, Decided view fetch attempt.1 attempt.2) ∧
      (turns.foldl (Turn.after view fetch) start).calls =
        start.calls ++ (attempts view fetch start turns).flatMap fun (model, before) =>
          callsDue model (view before.world) := by
  constructor
  · intro attempt _
    exact decided view fetch attempt.1 attempt.2
  · exact calls_after view fetch start turns

end Model

end TextVectors
