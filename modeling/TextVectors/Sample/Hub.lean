import TextVectors.Hub.Basic
import TextVectors.Settings

/-!
# A sample hub

A hub that has some files, whichever model they are asked for, and the settings of
an environment in which little is set.
-/

namespace TextVectors

namespace Sample

/-- A hub that gives files by the last names of their addresses, and has no others. -/
def hub (files : List (String × List UInt8)) : Hub := fun _ request =>
  match files.lookup (request.url.path.getLast?.getD "") with
  | some content => .answer 200 none (.complete content)
  | none => .answer 404 none (.complete [])

/-- Settings with a model, pins and a hub, and otherwise as they are when nothing is set. -/
def settings (modelDir : String) (pins : Pins) : Settings where
  modelId := "a/b"
  modelDir
  revision := "main"
  expectedDimension := none
  pins
  hubBase := "http://hub"
  hubToken := none
  host := .v4 [0, 0, 0, 0]
  port := 9000
  batchSize := 32
  maxTokens := 512
  maxConcurrency := 2
  timeoutSeconds := 60
  maxBodyBytes := 32 * 1024 * 1024
  logSpec := "info"
  logDir := none

end Sample

end TextVectors
