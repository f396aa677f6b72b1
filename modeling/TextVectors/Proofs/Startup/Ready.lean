import TextVectors.Proofs.Result
import TextVectors.Startup

/-!
# Services that are ready

A service is ready when every stage up to the loaded model has succeeded. Read
backwards, from the service to the stages: its encoder comes from a model that
was resolved and loaded, and it carries the identifier of the settings, whichever
source the model was resolved to.
-/

namespace TextVectors

namespace Startup

variable {settings : Settings} {course course' : Course}

theorem findModel_eq_ok {hub : Hub} {resolved : Model.Resolved}
    (found : findModel settings hub course = (course', .ok resolved)) :
    ∃ machine, (Model.resolve (.ofSettings settings) (·.files.store)
      (Hub.fetcher hub (.ofSettings settings)) machine).outcome = .ok resolved := by
  unfold findModel at found
  extract_lets announced resolution told at found
  generalize ends : resolution.outcome = ending at found
  cases ending with
  | error error => cases congrArg Prod.snd found
  | ok model =>
      cases congrArg Prod.snd found
      exact ⟨announced.machine, ends⟩

theorem loadModel_eq_ok {resolved : Model.Resolved} {encoder : Encoder Number.Single}
    (loaded : loadModel settings resolved course = (course', .ok encoder)) :
    ∃ sentences, (Transformer.load course.machine.files resolved settings.maxTokens
        settings.expectedDimension).outcome = .ok sentences ∧
      encoder = .ofModel (.ofSettings settings) settings.batchSize sentences := by
  unfold loadModel at loaded
  extract_lets model reached loading told at loaded
  generalize ends : loading.outcome = ending at loaded
  cases ending with
  | error fault => cases congrArg Prod.snd loaded
  | ok sentences =>
      exact ⟨sentences, ends, (Except.ok.inj (congrArg Prod.snd loaded)).symm⟩

theorem encoder_of_ofSettings {σ : Type} {encoder : Encoder σ} {service : Service σ}
    (made : Service.ofSettings settings encoder = .ok service) : service.encoder = encoder := by
  unfold Service.ofSettings at made
  split at made
  · cases made
    rfl
  · cases made

/-- The model and the encoder behind a service that is obtained. -/
theorem obtain_eq_ok {mode : Mode} {hub : Hub} {service : Service Number.Single}
    (obtained : obtain mode settings hub course = (course', .ok service)) :
    ∃ machine files resolved sentences,
      (Model.resolve (.ofSettings settings) (·.files.store)
          (Hub.fetcher hub (.ofSettings settings)) machine).outcome = .ok resolved ∧
        (Transformer.load files resolved settings.maxTokens
          settings.expectedDimension).outcome = .ok sentences ∧
        service.encoder = .ofModel (.ofSettings settings) settings.batchSize sentences := by
  unfold obtain at obtained
  split at obtained
  · cases obtained
  · rename_i found
    split at obtained
    · cases obtained
    · split at obtained
      · cases obtained
      · rename_i loaded
        rcases findModel_eq_ok found with ⟨machine, resolves⟩
        rcases loadModel_eq_ok loaded with ⟨sentences, loads, rfl⟩
        have made := congrArg Prod.snd obtained
        rw [mapError_eq_ok_iff] at made
        exact ⟨machine, _, _, sentences, resolves, loads, encoder_of_ofSettings made⟩

theorem prepare_eq_ok {arguments : List String} {world : World} {ready : Ready}
    (prepared : (prepare arguments world).outcome = .ok ready) :
    ∃ machine files resolved sentences,
      (Model.resolve (.ofSettings ready.settings) (·.files.store)
          (Hub.fetcher world.hub (.ofSettings ready.settings)) machine).outcome = .ok resolved ∧
        (Transformer.load files resolved ready.settings.maxTokens
          ready.settings.expectedDimension).outcome = .ok sentences ∧
        ready.service.encoder =
          .ofModel (.ofSettings ready.settings) ready.settings.batchSize sentences := by
  unfold prepare at prepared
  split at prepared
  · cases prepared
  · cases prepared
  · unfold configure at prepared
    extract_lets unread begun at prepared
    split at prepared
    · cases prepared
    · split at prepared
      · cases prepared
      · split at prepared
        · cases prepared
        · rename_i obtained
          cases prepared
          exact obtain_eq_ok obtained

end Startup

end TextVectors
