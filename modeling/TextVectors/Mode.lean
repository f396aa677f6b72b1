/-!
# Arguments of the program

The program takes at most one argument, which selects what it does.
-/

namespace TextVectors

/-- What the program is asked to do. -/
inductive Mode where
  | serve
  | download
  | help
  deriving DecidableEq, Repr

/-- What a list of arguments asks for, or the argument that is not understood. -/
def Mode.ofArguments : List String → Except String Mode
  | [] => .ok .serve
  | ["--download"] => .ok .download
  | ["--help"] => .ok .help
  | ["-h"] => .ok .help
  | other :: _ => .error other

end TextVectors
