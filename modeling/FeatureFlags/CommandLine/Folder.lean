import FeatureFlags.Loading

/-!
# Paths in a folder

A folder holds files by their paths.  A path is followed piece by piece from the
top of the folder, or from the root when it begins with a slash.  Empty pieces
and single dots stay where they are, two dots go up, and any other piece is a
name that has to be there.  Only from a directory can a path go on, and what
leads to a file is a directory.

Nothing is known of the places above a folder except that they are directories.
-/

namespace FeatureFlags.CommandLine

abbrev Piece := List Char

def pieces (path : String) : List Piece := Text.cut '/' path.toList

def stays (piece : Piece) : Bool := piece == [] || piece == ['.']

def goesUp (piece : Piece) : Bool := piece == ['.', '.']

/-- A name without what follows its last dot, unless the dot is its first. -/
def stemOf (name : Piece) : Piece :=
  let extension := name.reverse.takeWhile (· ≠ '.')
  let stem := name.take (name.length - extension.length - 1)
  if extension.length = name.length ∨ stem = [] then name else stem

def fileStem (path : String) : String :=
  match ((pieces path).filter fun piece => !stays piece).getLast? with
  | none => ""
  | some name => if goesUp name then "" else String.ofList (stemOf name)

abbrev Trail := List Piece

def Trail.follow (trail : Trail) (piece : Piece) : Trail :=
  if stays piece then trail
  else if goesUp piece then trail.drop 1
  else piece :: trail

def Trail.ofPath (path : String) : Trail :=
  (pieces path).foldl Trail.follow []

/-- The files in the order in which they were written. -/
abbrev Folder := Entries ByteArray

def Folder.file? (folder : Folder) (trail : Trail) : Option ByteArray :=
  (folder.reverse.find? fun file => Trail.ofPath file.1 = trail).map Prod.snd

def Folder.knows (folder : Folder) (trail : Trail) : Bool :=
  folder.any fun file => trail.isSuffixOf (Trail.ofPath file.1)

inductive Spot
  | inside (trail : Trail)
  | above

def Spot.start (path : String) : Spot :=
  match path.toList with
  | '/' :: _ => above
  | _ => inside []

def Spot.parent : Spot → Spot
  | inside [] => above
  | inside (_ :: trail) => inside trail
  | above => above

def Spot.content? (folder : Folder) : Spot → Option ByteArray
  | inside trail => folder.file? trail
  | above => none

def longestName : Nat := 255

def longestPath : Nat := 4095

def Spot.enter (folder : Folder) (name : Piece) : Spot → Except FileFault Spot
  | inside trail =>
    if longestName < Json.byteCount name then .error .nameTooLong
    else if folder.knows (name :: trail) then .ok (inside (name :: trail))
    else .error .notFound
  | above =>
    if longestName < Json.byteCount name then .error .nameTooLong
    else .error .notFound

def Spot.follow (folder : Folder) (spot : Spot) (piece : Piece) :
    Except FileFault Spot :=
  if (spot.content? folder).isSome then .error .notDirectory
  else if stays piece then .ok spot
  else if goesUp piece then .ok spot.parent
  else spot.enter folder piece

def Spot.followAll (folder : Folder) : Spot → List Piece → Except FileFault Spot
  | spot, [] => .ok spot
  | spot, piece :: pieces =>
    match spot.follow folder piece with
    | .error fault => .error fault
    | .ok next => next.followAll folder pieces

def Folder.read (folder : Folder) (path : String) :
    Except FileFault ByteArray :=
  if path.toList.contains '\x00' then .error .holdsNul
  else if path = "" then .error .notFound
  else if longestPath < path.utf8ByteSize then .error .nameTooLong
  else
    match (Spot.start path).followAll folder (pieces path) with
    | .error fault => .error fault
    | .ok spot =>
      match spot.content? folder with
      | some content => .ok content
      | none => .error .isDirectory

end FeatureFlags.CommandLine
