import TextVectors.Proofs.Hub.Footprint
import TextVectors.Proofs.Model.Resolution
import TextVectors.Proofs.Result
import TextVectors.Sample.Hub
import TextVectors.Startup

/-!
# Starting without a network

A model that has once been found is in its directory, with its weights under the name
that is looked for first. So every later start finds it there, `lookUp_offline`:
it asks the hub for nothing and leaves the files as they are, whatever has become
of the hub.
-/

namespace TextVectors

namespace Startup

variable {settings : Settings} {hub : Hub} {machine : Hub.Machine} {resolved : Model.Resolved}

/-- Looks for the model of settings on a machine, and fetches it from a hub if it is not there. -/
def lookUp (settings : Settings) (hub : Hub) (machine : Hub.Machine) :
    Model.Resolution Hub.Machine :=
  Model.resolve (.ofSettings settings) (·.files.store) (Hub.fetcher hub (.ofSettings settings))
    machine

theorem home_of_fetcher {access : Hub.Access} {modelId home directory : String}
    (fetched : (Hub.fetcher hub access modelId home machine).outcome = .ok directory) :
    directory = home := by
  unfold Hub.fetcher at fetched
  rw [mapError_eq_ok_iff] at fetched
  exact (Hub.footprint_of_ok fetched).1

theorem findWeights_of_lookUp (found : (lookUp settings hub machine).outcome = .ok resolved) :
    resolved.dir = settings.modelDir ∧
      (lookUp settings hub machine).world.files.store.findWeights settings.modelDir
        Model.weightFiles = some resolved.weights := by
  apply Model.findWeights_of_resolve _ found
  intro directory fetched
  exact home_of_fetcher fetched

theorem lookUp_of_findWeights {weights : String} (hub : Hub)
    (search : machine.files.store.findWeights settings.modelDir Model.weightFiles = some weights) :
    (lookUp settings hub machine).outcome =
        .ok ⟨.local settings.modelDir, settings.modelDir, weights⟩ ∧
      (lookUp settings hub machine).world = machine := by
  unfold lookUp
  apply Model.resolve_of_local
  exact search

/-- A model that has been found once is found again in its directory: no request is made, and no
file changes. -/
theorem lookUp_offline (settings : Settings) (hub : Hub) (machine : Hub.Machine)
    (resolved : Model.Resolved) (found : (lookUp settings hub machine).outcome = .ok resolved)
    (other : Hub) (later : Hub.Machine)
    (same_files : later.files = (lookUp settings hub machine).world.files) :
    (lookUp settings other later).outcome =
        .ok ⟨.local settings.modelDir, resolved.dir, resolved.weights⟩ ∧
      (lookUp settings other later).world = later := by
  rcases findWeights_of_lookUp found with ⟨directory, search⟩
  rw [← same_files] at search
  rw [directory]
  exact lookUp_of_findWeights other search

/-- A model is fetched in its second form, and found again when the hub cannot be reached. -/
theorem lookUp_offline_sample :
    let settings := Sample.settings "m" []
    let hub := Sample.hub [("config.json", [1]), ("tokenizer.json", [2]),
      ("pytorch_model.bin", [3])]
    let silent : Hub := fun _ _ => .unreachable "Connection Failed" "Network is unreachable"
    let machine : Hub.Machine := { files := ⟨[(["home"], .directory)], ["home"]⟩ }
    ∃ resolved, (lookUp settings hub machine).outcome = .ok resolved ∧
      (lookUp settings silent (lookUp settings hub machine).world).outcome =
        .ok ⟨.local settings.modelDir, resolved.dir, resolved.weights⟩ ∧
      (lookUp settings silent (lookUp settings hub machine).world).world =
        (lookUp settings hub machine).world := by
  intro settings hub silent machine
  have succeeds : (lookUp settings hub machine).outcome.toOption.isSome := by decide +kernel
  rcases Option.isSome_iff_exists.mp succeeds with ⟨resolved, same⟩
  have found := eq_ok_of_toOption same
  exact ⟨resolved, found, lookUp_offline settings hub machine resolved found silent _ rfl⟩

end Startup

end TextVectors
