/-!
# The journal

What the program tells its operator while it runs. An entry has a level, the
part of the program that it comes from, and a text.
-/

namespace TextVectors

namespace Journal

/-- How urgent an entry is, the most urgent first. -/
inductive Level where
  | error
  | warn
  | info
  | debug
  | trace
  deriving DecidableEq, Repr

def Level.name : Level → String
  | .error => "ERROR"
  | .warn => "WARN"
  | .info => "INFO"
  | .debug => "DEBUG"
  | .trace => "TRACE"

/-- The place of a level in the order of urgency, from one on. -/
def Level.rank : Level → Nat
  | .error => 1
  | .warn => 2
  | .info => 3
  | .debug => 4
  | .trace => 5

/-- The part of the program that makes an entry. -/
inductive Origin where
  | program
  | logging
  | server
  | resolver
  | download
  | encoder
  deriving DecidableEq, Repr

/-- The name by which a part of the program is addressed. -/
def Origin.path : Origin → String
  | .program => "embedding_service"
  | .logging => "embedding_service::logging"
  | .server => "embedding_service::server"
  | .resolver => "embedding_service::embeddings::resolver"
  | .download => "embedding_service::embeddings::download"
  | .encoder => "embedding_service::embeddings::bert"

/-- One entry. -/
structure Entry where
  level : Level
  origin : Origin
  text : String
  deriving DecidableEq, Repr

/-- An entry as a line: the name of its level and its text. -/
def Entry.line (entry : Entry) : String :=
  entry.level.name ++ " " ++ entry.text

end Journal

end TextVectors
