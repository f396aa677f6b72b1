/-!
# Files of a model

The names of the files that make up a model, under its directory and on the hub
alike. The weights exist in two forms, and either one makes a directory
complete.
-/

namespace TextVectors

namespace Model

/-- Recognized weight files, the preferred one first. -/
def weightFiles : List String := ["model.safetensors", "pytorch_model.bin"]

/-- The file with the sizes of the network. -/
def configFile : String := "config.json"

/-- The file with the vocabulary and its rules. -/
def tokenizerFile : String := "tokenizer.json"

/-- The file that says how token vectors become one vector. It may be missing. -/
def poolingFile : String := "1_Pooling/config.json"

end Model

end TextVectors
