/-
  ShowRelay.Disk.Path

  Paths as they are handed to the operating system: names with a separator
  between them. A path that begins with a separator leads from the root folder,
  and any other from the folder at hand; in the list of its names the former has
  an empty name in front.
-/

import ShowRelay.Disk.Folder
import ShowRelay.SystemFault

namespace ShowRelay.Path

/-- The byte that separates the names of a path. -/
def separator : UInt8 := 0x2F

/-- The most bytes that a path can have. -/
def maxLength : Nat := 4095

/-- The name by which a folder refers to itself. -/
def itself : FileName := Utf8.encode "."

/-- The name by which a folder refers to the one it stands in. -/
def parent : FileName := Utf8.encode ".."

/-- Whether the path of some names leads from the root folder. -/
def isFromRoot (names : List FileName) : Bool := names.head? = some []

/-- The names of a path, which is refused before anything is looked up if it holds a
    zero byte, is empty or has too many bytes. -/
def names (path : Bytes) : Except SystemFault (List FileName) :=
  if path.contains 0 then .error .zeroInPath
  else if path.isEmpty then .error .notFound
  else if maxLength < path.length then .error .nameTooLong
  else .ok (path.splitOn separator)

/-- The path of a folder followed by a path within it; a path from the root folder
    stands for itself. -/
def join (folder path : Bytes) : Bytes :=
  if path.head? = some separator then path
  else if folder.getLast?.all (· = separator) then folder ++ path
  else folder ++ separator :: path

end ShowRelay.Path
