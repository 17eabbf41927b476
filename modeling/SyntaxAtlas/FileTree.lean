import SyntaxAtlas.Path
import SyntaxAtlas.Pattern
import SyntaxAtlas.Snapshot.Basic
/-!
Files and directories.

The library does not touch the disk: it works on a tree of files. The parser and the pattern engine
are outside of it as well, so what they say about a text is stored with the file. Around the tree
there are only directories, in which nothing can be found.
-/
namespace SyntaxAtlas

/-- The content of a file, with what the parser and the pattern engine say about it. -/
structure StoredFile where
  /-- The text. -/
  text : String
  /-- The snapshot of the text. -/
  snapshot : Snapshot := ⟨#[]⟩
  /-- What the pattern engine says about patterns in the text. -/
  answers : List (String × PatternAnswer) := []
deriving Inhabited

/-- A file, or a directory with its entries in the order of their names. -/
inductive FileTree where
  | file (content : StoredFile)
  | directory (entries : List (String × FileTree))
deriving Inhabited

/-- Why a path does not lead to what was asked for. -/
inductive FileError where
  /-- Nothing is there. -/
  | notFound
  /-- The path goes on below a file. -/
  | notDirectory
  /-- A text was asked for, and there is a directory. -/
  | isDirectory
  /-- The path, or a name in it, is longer than the system allows. -/
  | tooLong
  /-- The path holds the character that ends texts of the system. -/
  | nulCharacter
deriving DecidableEq, Repr, Inhabited

/-- The report of the system. -/
def FileError.message : FileError → String
  | .notFound => "No such file or directory (os error 2)"
  | .notDirectory => "Not a directory (os error 20)"
  | .isDirectory => "Is a directory (os error 21)"
  | .tooLong => "File name too long (os error 36)"
  | .nulCharacter => "file name contained an unexpected NUL byte"

/-- Why the files at a path cannot be listed. -/
structure ListingError where
  /-- The path at which the listing ends. -/
  path : String
  /-- What is wrong there. -/
  reason : FileError
deriving DecidableEq, Repr, Inhabited

/-- The report of a listing that ends early. -/
def ListingError.message (error : ListingError) : String :=
  "IO error for operation on " ++ error.path ++ ": " ++ error.reason.message

namespace FileTree

/-- The entries with one of them put at its place, or replaced. -/
def putEntry (name : String) (tree : FileTree) :
    List (String × FileTree) → List (String × FileTree)
  | [] => [(name, tree)]
  | entry :: rest =>
    if name < entry.1 then
      (name, tree) :: entry :: rest
    else if entry.1 < name then
      entry :: putEntry name tree rest
    else
      (name, tree) :: rest

/-- The entries of a directory. A file has none. -/
def entries : FileTree → List (String × FileTree)
  | .file _ => []
  | .directory entries => entries

/-- The tree with a file put below it, or with a directory made there. Directories on the way are
made, and what is in a directory stays. -/
def insert (tree : FileTree) (content : Option StoredFile) : List String → FileTree
  | [] =>
    match content with
    | some content => .file content
    | none => .directory tree.entries
  | name :: rest =>
    let below := (tree.entries.lookup name).getD (.directory [])
    .directory (putEntry name (below.insert content rest) tree.entries)

/-- The tree with a file or a directory put at the end of a path, from a place that is given by its
names in reverse order. -/
def insertFrom (tree : FileTree) (content : Option StoredFile) :
    List String → List String → FileTree
  | place, [] => tree.insert content place.reverse
  | place, segment :: rest =>
    if Path.isIdle segment then
      tree.insertFrom content place rest
    else if segment = ".." then
      (tree.insert none place.reverse).insertFrom content place.tail rest
    else
      tree.insertFrom content (segment :: place) rest

/-- The tree with some files. A path without content is a directory. -/
def ofFiles (files : List (String × Option StoredFile)) : FileTree :=
  files.foldl (fun tree (path, content) => tree.insertFrom content [] (Path.segments path))
    (.directory [])

/-- What surrounds the tree. -/
def surroundings : FileTree :=
  .directory []

/-- The number of bytes that a name has at most. -/
def maxNameSize : Nat := 255

/-- The number of bytes that a path has at most. -/
def maxPathSize : Nat := 4095

/-- What the segments of a path lead to, from a directory with the directories around it. -/
def follow (around : List FileTree) (here : FileTree) : List String → Except FileError FileTree
  | [] => .ok here
  | segment :: rest =>
    match here with
    | .file _ => .error .notDirectory
    | .directory entries =>
      if Path.isIdle segment then
        follow around here rest
      else if segment = ".." then
        match around with
        | [] => follow [] surroundings rest
        | outer :: further => follow further outer rest
      else if maxNameSize < segment.utf8ByteSize then
        .error .tooLong
      else
        match entries.lookup segment with
        | none => .error .notFound
        | some inner => follow (here :: around) inner rest

/-- What is at a path. -/
def find (tree : FileTree) (path : String) : Except FileError FileTree :=
  if path.toList.contains '\x00' then
    .error .nulCharacter
  else if path.isEmpty then
    .error .notFound
  else if maxPathSize < path.utf8ByteSize then
    .error .tooLong
  else if Path.isAbsolute path then
    follow [] surroundings (Path.segments path)
  else
    follow [] tree (Path.segments path)

/-- The content of the file at a path. -/
def read (tree : FileTree) (path : String) : Except FileError StoredFile := do
  match ← tree.find path with
  | .file content => .ok content
  | .directory _ => .error .isDirectory

/-- There is a file at a path. -/
def isFile (tree : FileTree) (path : String) : Bool :=
  match tree.find path with
  | .ok (.file _) => true
  | _ => false

/-- There is a directory at a path. -/
def isDirectory (tree : FileTree) (path : String) : Bool :=
  match tree.find path with
  | .ok (.directory _) => true
  | _ => false

mutual

/-- The paths of the files in a directory whose names are wanted; below it only if asked for. -/
def filesIn (wanted : String → Bool) (recursive : Bool) (path : String) :
    List (String × FileTree) → Except ListingError (List String)
  | [] => .ok []
  | (name, tree) :: rest => do
    let first ← filesAt wanted recursive path name tree
    let others ← filesIn wanted recursive path rest
    return first ++ others

/-- The paths of the wanted files that an entry of a directory contributes. A directory whose path
has become too long cannot be entered. -/
def filesAt (wanted : String → Bool) (recursive : Bool) (path name : String) :
    FileTree → Except ListingError (List String)
  | .file _ => .ok (if wanted name then [Path.join path name] else [])
  | .directory entries =>
    if !recursive then
      .ok []
    else if maxPathSize < (Path.join path name).utf8ByteSize then
      .error ⟨Path.join path name, .tooLong⟩
    else
      filesIn wanted recursive (Path.join path name) entries

end

/-- The paths of the wanted files at a path: the file itself, or those in the directory. -/
def listFiles (tree : FileTree) (wanted : String → Bool) (recursive : Bool) (path : String) :
    Except ListingError (List String) :=
  match tree.find path with
  | .error reason => .error ⟨path, reason⟩
  | .ok (.file _) => .ok (if wanted (Path.fileName path) then [path] else [])
  | .ok (.directory entries) => filesIn wanted recursive path entries

end FileTree

end SyntaxAtlas
