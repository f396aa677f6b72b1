import TextVectors.Number.Words
import TextVectors.Text.Split
import TextVectors.Weights.Archive
import TextVectors.Weights.Basic

/-!
# Tensors of a stack program

A second form of weights is an archive with a program in it. The program pushes
values onto a stack, and its result is a table from names to tensors; each of
them is described by the file with its numbers, the place of its first number,
its shape, and its strides, that is how far apart neighbours along each axis
stand. The numbers are in further files of the archive.
-/

namespace TextVectors

namespace Weights

/-- What a program handles. -/
inductive Value where
  | none
  | bool (value : Bool)
  | int (value : Int)
  | text (value : String)
  | tuple (items : List Value)
  | list (items : List Value)
  | table (entries : List (Value × Value))
  /-- Something of the world outside, by its module and its name. -/
  | outside (module name : String)
  /-- The result of a call that the program asks for. -/
  | call (callee argument : Value)
  /-- Something that is kept outside of the program, by its description. -/
  | stored (description : Value)
  | mark
  deriving Inhabited

/-- What is wrong with a program. -/
inductive ProgramError where
  | ended
  | unknownStep (code : Nat)
  | emptyStack
  | wrongValue
  deriving DecidableEq, Repr

def ProgramError.message : ProgramError → String
  | .ended => "failed to fill whole buffer"
  | .unknownStep code => "unknown op-code " ++ toString code
  | .emptyStack => "unexpected empty stack"
  | .wrongValue => "unexpected value"

namespace StackProgram

/-- The state of a running program: the stack with its top first, and the values that it keeps. -/
structure State where
  stack : List Value := []
  kept : List (Nat × Value) := []

namespace State

/-- The state with a value on top. -/
def push (state : State) (value : Value) : State :=
  { state with stack := value :: state.stack }

/-- The value on top and the state without it. -/
def pop (state : State) : Except ProgramError (Value × State) :=
  match state.stack with
  | value :: stack => .ok (value, { state with stack })
  | [] => .error .emptyStack

/-- Keeps the value on top under a number. -/
def keep (state : State) (number : Nat) : Except ProgramError State :=
  match state.stack with
  | value :: _ => .ok { state with kept := (number, value) :: state.kept }
  | [] => .error .emptyStack

/-- Pushes the value that is kept under a number. -/
def pushKept (state : State) (number : Nat) : Except ProgramError State :=
  match state.kept.lookup number with
  | some value => .ok (state.push value)
  | none => .error .wrongValue

/-- The values above the topmost mark, the lowest first, and the state below it. -/
def popToMark (state : State) : Except ProgramError (List Value × State) :=
  let isMark : Value → Bool
    | .mark => true
    | _ => false
  let above := state.stack.takeWhile (!isMark ·)
  match state.stack.drop above.length with
  | _ :: stack => .ok (above.reverse, { state with stack })
  | [] => .error .emptyStack

/-- Makes a tuple of the topmost values. -/
def tuple (state : State) (count : Nat) : Except ProgramError State :=
  if state.stack.length < count then .error .emptyStack
  else
    .ok { state with
      stack := .tuple (state.stack.take count).reverse :: state.stack.drop count }

/-- Adds entries to the table on top. -/
def extendTable (state : State) (values : List Value) : Except ProgramError State := do
  let rec pairs : List Value → List (Value × Value)
    | key :: value :: rest => (key, value) :: pairs rest
    | _ => []
  match ← state.pop with
  | (.table entries, state) => return state.push (.table (entries ++ pairs values))
  | _ => throw .wrongValue

/-- Adds items to the list on top. -/
def extendList (state : State) (values : List Value) : Except ProgramError State := do
  match ← state.pop with
  | (.list items, state) => return state.push (.list (items ++ values))
  | _ => throw .wrongValue

/-- Calls a value with an argument. Only tables are really made. -/
def call (state : State) : Except ProgramError State := do
  let (argument, state) ← state.pop
  let (callee, state) ← state.pop
  match callee with
  | .outside "collections" "OrderedDict" | .outside "collections" "defaultdict" =>
    return state.push (.table [])
  | _ => return state.push (.call callee argument)

end State

private def word (size : Nat) (bytes : List UInt8) : Except ProgramError (Nat × List UInt8) :=
  match Number.takeWord size bytes with
  | some found => .ok found
  | none => .error .ended

/-- A signed word of a number of bits. -/
private def signed (bits word : Nat) : Int :=
  if word < Nat.pow 2 (bits - 1) then word else (word : Int) - (Nat.pow 2 bits : Nat)

private def textOf (length : Nat) (bytes : List UInt8) :
    Except ProgramError (String × List UInt8) := do
  if bytes.length < length then throw .ended
  let some text := String.fromUTF8? (bytes.take length).toByteArray | throw .wrongValue
  return (text, bytes.drop length)

/-- A line and what comes after its end. -/
private def lineOf (bytes : List UInt8) : Except ProgramError (String × List UInt8) := do
  let line := bytes.takeWhile (· ≠ 0x0A)
  let (text, rest) ← textOf line.length bytes
  match rest with
  | _ :: rest => return (text, rest)
  | [] => throw .ended

/-- One step of a program after its code. -/
def step (code : UInt8) (state : State) (bytes : List UInt8) :
    Except ProgramError (State × List UInt8) := do
  match code with
  | 0x80 => return (state, (← word 1 bytes).2)
  | 0x7D => return (state.push (.table []), bytes)
  | 0x5D => return (state.push (.list []), bytes)
  | 0x29 => return (state.push (.tuple []), bytes)
  | 0x28 => return (state.push .mark, bytes)
  | 0x4E => return (state.push .none, bytes)
  | 0x88 => return (state.push (.bool true), bytes)
  | 0x89 => return (state.push (.bool false), bytes)
  | 0x4A =>
    let (value, rest) ← word 4 bytes
    return (state.push (.int (signed 32 value)), rest)
  | 0x4B =>
    let (value, rest) ← word 1 bytes
    return (state.push (.int value), rest)
  | 0x4D =>
    let (value, rest) ← word 2 bytes
    return (state.push (.int value), rest)
  | 0x8A =>
    let (size, rest) ← word 1 bytes
    let (value, rest) ← word size rest
    return (state.push (.int (if size = 0 then 0 else signed (8 * size) value)), rest)
  | 0x58 =>
    let (length, rest) ← word 4 bytes
    let (text, rest) ← textOf length rest
    return (state.push (.text text), rest)
  | 0x8C =>
    let (length, rest) ← word 1 bytes
    let (text, rest) ← textOf length rest
    return (state.push (.text text), rest)
  | 0x63 =>
    let (module, rest) ← lineOf bytes
    let (name, rest) ← lineOf rest
    return (state.push (.outside module name), rest)
  | 0x74 =>
    let (items, state) ← state.popToMark
    return (state.push (.tuple items), bytes)
  | 0x85 => return (← state.tuple 1, bytes)
  | 0x86 => return (← state.tuple 2, bytes)
  | 0x87 => return (← state.tuple 3, bytes)
  | 0x51 =>
    let (description, state) ← state.pop
    return (state.push (.stored description), bytes)
  | 0x52 => return (← state.call, bytes)
  | 0x75 =>
    let (items, state) ← state.popToMark
    return (← state.extendTable items, bytes)
  | 0x73 =>
    let (value, state) ← state.pop
    let (key, state) ← state.pop
    return (← state.extendTable [key, value], bytes)
  | 0x65 =>
    let (items, state) ← state.popToMark
    return (← state.extendList items, bytes)
  | 0x61 =>
    let (item, state) ← state.pop
    return (← state.extendList [item], bytes)
  | 0x71 =>
    let (number, rest) ← word 1 bytes
    return (← state.keep number, rest)
  | 0x72 =>
    let (number, rest) ← word 4 bytes
    return (← state.keep number, rest)
  | 0x68 =>
    let (number, rest) ← word 1 bytes
    return (← state.pushKept number, rest)
  | 0x6A =>
    let (number, rest) ← word 4 bytes
    return (← state.pushKept number, rest)
  | 0x62 => return ((← state.pop).2, bytes)
  | code => throw (.unknownStep code.toNat)

/-- Runs a program of at most `fuel` steps; its result is the value on top when it stops. -/
def run : Nat → State → List UInt8 → Except ProgramError Value
  | 0, _, _ => .error .ended
  | _, _, [] => .error .ended
  | fuel + 1, state, code :: bytes => do
    if code = 0x2E then return (← state.pop).1
    let (state, bytes) ← step code state bytes
    run fuel state bytes

end StackProgram

/-! ## Tensors -/

namespace StackProgram

/-- The encodings of stored numbers, by the names of their kinds. -/
private def storages : List (String × String) := [
  ("FloatStorage", "F32"), ("DoubleStorage", "F64"), ("HalfStorage", "F16"),
  ("BFloat16Storage", "BF16"), ("ByteStorage", "U8"), ("LongStorage", "I64")]

private def natural? : Value → Option Nat
  | .int (.ofNat value) => some value
  | _ => none

private def naturals? : Value → Option (List Nat)
  | .tuple items => items.mapM natural?
  | _ => none

/-- A tensor as a program describes it. -/
structure Description where
  file : String
  encoding : Encoding
  start : Nat
  shape : List Nat
  strides : List Nat

/-- The description in the arguments of a call that makes a tensor. -/
private def ofArguments? : Value → Option Description
  | .tuple (.stored (.tuple (_ :: .outside _ storage :: .text file :: _)) :: start :: shape ::
      strides :: _) => do
    return ⟨file, ← encoding? (← storages.lookup storage), ← natural? start, ← naturals? shape,
      ← naturals? strides⟩
  | _ => none

/-- The description of a tensor, also where it is wrapped as a parameter. -/
def description? : Value → Option Description
  | .call (.outside "torch._utils" "_rebuild_tensor_v2") arguments => ofArguments? arguments
  | .call (.outside "torch._utils" "_rebuild_parameter")
      (.tuple (.call (.outside "torch._utils" "_rebuild_tensor_v2") arguments :: _)) =>
    ofArguments? arguments
  | _ => none

/-- The places of the numbers of a tensor in their order. -/
def places : List Nat → List Nat → Nat → List Nat
  | length :: shape, stride :: strides, start =>
    (List.range length).flatMap fun index => places shape strides (start + index * stride)
  | _, _, start => [start]

def Description.read (description : Description) (file : List UInt8) :
    Except TensorError (Tensor Number.Single) := do
  let stored ← description.encoding.read (file.length / description.encoding.size) file
  let stored := stored.toArray
  let numbers := (places description.shape description.strides description.start).map fun place =>
    stored.getD place ⟨0⟩
  return ⟨description.shape, numbers⟩

end StackProgram

/-- What is wrong with an archive of tensors. -/
inductive ArchivedError where
  | archive (error : ArchiveError)
  | program (error : ProgramError)
  deriving DecidableEq, Repr

def ArchivedError.message : ArchivedError → String
  | .archive error => error.message
  | .program error => error.message

/-- The tensor of an entry of the table, if it is one. -/
private def tensorOf? (archive : Archive) (directory : String) :
    Value × Value → Option (String × Except TensorError (Tensor Number.Single))
  | (.text name, value) => do
    let description ← StackProgram.description? value
    let .ok file := archive.read (directory ++ "/" ++ description.file) | none
    return (name, description.read file)
  | _ => none

/-- The tensors of the archive that are described by a program in it. -/
private def ofProgram (archive : Archive) (name : String) (program : List UInt8) :
    Except ArchivedError Weights := do
  let directory := String.ofList (name.toList.dropLast.dropLast.dropLast.dropLast)
  match ← (StackProgram.run (program.length + 1) {} program).mapError .program with
  | .table entries => return entries.filterMap (tensorOf? archive directory)
  | _ => return []

/-- The tensors of an archive. -/
def ofArchive (bytes : List UInt8) : Except ArchivedError Weights := do
  let archive ← (Archive.ofBytes bytes).mapError .archive
  let isProgram (name : String) : Bool := "data.pkl".toList.reverse.isPrefixOf name.toList.reverse
  let programs := archive.filter fun (name, _) => isProgram name
  let tensors ← programs.mapM fun (name, content) => do
    ofProgram archive name (← content.mapError .archive)
  return tensors.flatten

end Weights

end TextVectors
