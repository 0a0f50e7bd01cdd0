import LogQuery.Text.Split
import LogQuery.Text.Utf8

/-!
The folder that value files are looked up in. A path leads from the folder, or from the root if it
starts with a slash, through other folders, and it may step up again. Looking a file up, it must lead
through folders that there are; adding a file, every folder that it leads through is made. Names are
bytes, which is how a path can lead to a file whose name is no text.
-/

namespace LogQuery

/-- What a file holds. -/
inductive File where
  | text (s : Text)
  /-- Bytes that need not be a text. -/
  | bytes (bs : List Nat)
  | unreadable

abbrev FileName := List Nat

namespace FileName

/-- The name of the folder itself. -/
def here : FileName := [0x2E]

/-- The name of the folder around it. -/
def up : FileName := [0x2E, 0x2E]

/-- The name leads nowhere else: there is nothing between two slashes, or a single point. -/
def stays (name : FileName) : Bool :=
  name.isEmpty || name == here

/-- The bytes of a code point in a path. Of the second halves, 128 stand for one byte each that
belongs to no character; the other halves have no bytes. -/
def bytesOf? : CodePoint → Option (List Nat)
  | .char c => some (Text.Utf8.encodeOne c.toNat)
  | .half place =>
    if 0x480 ≤ place.val ∧ place.val < 0x500 then some [place.val - 0x400] else none

def pathBytes? (path : Text) : Option (List Nat) :=
  (path.mapM bytesOf?).map List.flatten

def slash : Nat := 0x2F

/-- The names that bytes hold, with a slash between any two. -/
def split (bytes : List Nat) : List FileName :=
  Text.splitWhere (· == slash) bytes

end FileName

/-- A place: the names that lead to it from the root. -/
abbrev Place := List FileName

namespace Place

/-- The place that a name leads to from a place. A step up from the root leads nowhere else. -/
def step (place : Place) (name : FileName) : Place :=
  if name.stays then place
  else if name == FileName.up then place.dropLast
  else place ++ [name]

/-- Where names lead to from a place. -/
def reach (place : Place) (names : List FileName) : Place :=
  names.foldl step place

/-- The places that names lead to one after the other from a place. -/
def trail (place : Place) : List FileName → List Place
  | [] => []
  | name :: names => place.step name :: trail (place.step name) names

end Place

/-- A folder by its place, with the files and folders in it and around it by theirs. -/
structure Folder where
  place : Place
  files : List (Place × File)
  folders : List Place

namespace Folder

/-- The folder that names lead to from the root, with nothing in it and nothing around it but the
folders on the way. -/
def emptyAt (names : List FileName) : Folder :=
  ⟨Place.reach [] names, [], Place.trail [] names⟩

/-- The empty folder `logquery` in the root. -/
def empty : Folder :=
  emptyAt [[0x6C, 0x6F, 0x67, 0x71, 0x75, 0x65, 0x72, 0x79]]

def make (folder : Folder) (places : List Place) : Folder :=
  { folder with folders := folder.folders ++ places }

/-- Put a file at a place instead of the one there. -/
def put (folder : Folder) (place : Place) (file : File) : Folder :=
  { folder with files := (place, file) :: folder.files.filter (·.1 != place) }

/-- Where a path starts: at the root if its first byte is a slash, else at the folder. -/
def start (folder : Folder) (bytes : List Nat) : Place :=
  if bytes.head? == some FileName.slash then [] else folder.place

/-- Add a file with the folders that its path leads through; a path that ends in a slash adds only
these. -/
def add (folder : Folder) (path : Text) (file : File) : Folder :=
  match FileName.pathBytes? path with
  | none => folder
  | some bytes =>
    let names := FileName.split bytes
    let start := folder.start bytes
    let made := folder.make (start.trail names.dropLast)
    match names.getLast? with
    | none | some [] => made
    | some name => made.put (start.reach names.dropLast ++ [name]) file

/-- There is a folder at a place. The root always is one. -/
def hasFolder (folder : Folder) (place : Place) : Bool :=
  place.isEmpty || folder.folders.contains place

/-- Follow the rest of a path from a place. -/
def follow (folder : Folder) (place : Place) : List FileName → Option File
  | [] => none
  | [name] =>
    if name.stays || name == FileName.up then none else folder.files.lookup (place ++ [name])
  | name :: names =>
    if folder.hasFolder (place.step name) then follow folder (place.step name) names else none

/-- The most bytes of a path that leads anywhere. -/
def maxPathBytes : Nat := 4095

/-- The file that a path leads to. -/
def file? (folder : Folder) (path : Text) : Option File := do
  let bytes ← FileName.pathBytes? path
  if maxPathBytes < bytes.length then none
  else folder.follow (folder.start bytes) (FileName.split bytes)

end Folder

/-- The characters of a file; nothing if it cannot be read. -/
def File.decode? : File → Option Text.Utf8.Decoded
  | .text s => some ⟨s, true⟩
  | .bytes bs => some (Text.Utf8.decode bs)
  | .unreadable => none

end LogQuery
