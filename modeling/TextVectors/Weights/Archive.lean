import TextVectors.Number.Words

/-!
# Archives

An archive holds files one after the other, each behind a short header of its
own. A directory near the end lists them, and a record at the very end says
where the directory begins. Only files that are stored as they are can be read.
-/

namespace TextVectors

namespace Weights

/-- What is wrong with an archive. -/
inductive ArchiveError where
  | tooShort
  | noEnd
  | badDirectory
  | badFile
  | packed
  | noFile
  deriving DecidableEq, Repr

def ArchiveError.message : ArchiveError → String
  | .tooShort => "invalid Zip archive: Invalid zip header"
  | .noEnd => "invalid Zip archive: Could not find central directory end"
  | .badDirectory => "invalid Zip archive: Invalid Central Directory header"
  | .badFile => "invalid Zip archive: Invalid local file header"
  | .packed => "unsupported Zip archive: Compression method not supported"
  | .noFile => "specified file not found in archive"

/-- The files of an archive, by their names. -/
abbrev Archive := List (String × Except ArchiveError (List UInt8))

namespace Archive

/-- The mark of the record at the end. -/
private def endMark : List UInt8 := [0x50, 0x4B, 0x05, 0x06]

/-- The mark of an item of the directory. -/
private def itemMark : List UInt8 := [0x50, 0x4B, 0x01, 0x02]

/-- The mark of the header of a file. -/
private def fileMark : List UInt8 := [0x50, 0x4B, 0x03, 0x04]

/-- The length of the record at the end. -/
private def endLength : Nat := 22

/-- The number of some bytes. -/
private def field (bytes : List UInt8) (start size : Nat) : Nat :=
  Number.ofLittleEndian ((bytes.drop start).take size)

/-- The last place from `start` on where the record at the end can begin. -/
private def endFrom (fuel : Nat) (bytes : List UInt8) : Option (List UInt8) :=
  match fuel with
  | 0 => none
  | fuel + 1 =>
    if bytes.length < endLength then none
    else
      match endFrom fuel (bytes.drop 1) with
      | some found => some found
      | none => if bytes.take 4 = endMark then some bytes else none

/-- The bytes of a file of `size` bytes whose header begins at a place. -/
private def fileAt (bytes : List UInt8) (place size : Nat) : Except ArchiveError (List UInt8) :=
  let header := bytes.drop place
  if header.take 4 ≠ fileMark then .error .badFile
  else
    let content := header.drop (30 + field header 26 2 + field header 28 2)
    .ok (content.take size)

/-- The files of the directory that begins with some bytes. -/
private def itemsOf (bytes : List UInt8) : Nat → List UInt8 → Except ArchiveError Archive
  | 0, _ => .ok []
  | count + 1, directory =>
    if directory.take 4 ≠ itemMark then .error .badDirectory
    else do
      let nameLength := field directory 28 2
      let others := field directory 30 2 + field directory 32 2
      let name := String.fromUTF8? ((directory.drop 46).take nameLength).toByteArray
      let file :=
        if field directory 10 2 ≠ 0 then .error .packed
        else fileAt bytes (field directory 42 4) (field directory 24 4)
      let files ← itemsOf bytes count (directory.drop (46 + nameLength + others))
      return (name.getD "", file) :: files

/-- The files of an archive. -/
def ofBytes (bytes : List UInt8) : Except ArchiveError Archive := do
  if bytes.length < endLength then throw .tooShort
  let longestTail := endLength + 65535
  let some record := endFrom (bytes.length + 1) (bytes.drop (bytes.length - longestTail))
    | throw .noEnd
  itemsOf bytes (field record 10 2) (bytes.drop (field record 16 4))

/-- The content of a file. -/
def read (archive : Archive) (name : String) : Except ArchiveError (List UInt8) :=
  (archive.lookup name).getD (.error .noFile)

end Archive

end Weights

end TextVectors
