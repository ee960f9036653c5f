import DocBlock.Number.Decimal
import DocBlock.Text.Lines
import DocBlock.Text.Quoted

/-! File paths, the failures of reading a file, and a directory given by its files. -/

namespace DocBlock.CommandLine

/-- Why a file cannot be read. -/
inductive FileCause where
  | notFound
  | notDirectory
  | isDirectory
  | nameTooLong
  | other (number : Nat) (reason : Text)
  deriving Repr, DecidableEq

/-- A file that cannot be read, and why. -/
structure FileError where
  cause : FileCause
  path : Text
  deriving Repr, DecidableEq

/-- The number the operating system gives the failure. -/
def FileCause.number : FileCause → Nat
  | .notFound => 2
  | .notDirectory => 20
  | .isDirectory => 21
  | .nameTooLong => 36
  | .other number _ => number

/-- The words the operating system has for the failure. -/
def FileCause.reason : FileCause → Text
  | .notFound => "No such file or directory".toList
  | .notDirectory => "Not a directory".toList
  | .isDirectory => "Is a directory".toList
  | .nameTooLong => "File name too long".toList
  | .other _ reason => reason

/-- What to tell the user. -/
def FileError.message (error : FileError) : Text :=
  "[Errno ".toList ++ Decimal.digitsOf error.cause.number ++ "] ".toList
    ++ error.cause.reason ++ ": ".toList ++ Text.quoted error.path

/-- The names on a path: empty ones and single dots mean nothing. -/
def pathNames (path : Text) : List Text :=
  (Text.splitOn '/' path).filter fun name => !name.isEmpty && name ≠ ['.']

/-- What an absolute path starts with. Exactly two slashes are kept apart. -/
def pathRoot (path : Text) : Text :=
  let slashes := (path.takeWhile (· = '/')).length
  if slashes = 0 then [] else if slashes = 2 then "//".toList else "/".toList

/-- The shortest spelling of a path; an empty one is the current directory. -/
def normalPath (path : Text) : Text :=
  let normal := pathRoot path ++ Text.join ['/'] (pathNames path)
  if normal.isEmpty then ['.'] else normal

/-- A directory given by the paths and contents of its files. -/
abbrev Directory := List (Text × Text)

namespace Directory

/-- Longest name a directory entry may have, in bytes. -/
def maxName : Nat :=
  255

/-- Longest path a file may be asked for by, in bytes. -/
def maxPath : Nat :=
  4095

/-- The text takes more than the given number of bytes. -/
def isLonger (limit : Nat) (text : Text) : Bool :=
  (String.ofList text).utf8ByteSize > limit

/-- Some file lies below the names. -/
def hasBelow (directory : Directory) (names : List Text) : Bool :=
  directory.any fun file =>
    let fileNames := pathNames file.1
    names.length < fileNames.length && fileNames.take names.length = names

/-- Why nothing can be read outside the directory, where only the directories above are known. -/
def outside (names : List Text) : FileCause :=
  match names.dropWhile (· = "..".toList) with
  | [] => .isDirectory
  | name :: _ => if isLonger maxName name then .nameTooLong else .notFound

/-- Walk a path name by name from the directory reached by `reached`. -/
def walk (directory : Directory) (reached : List Text) : List Text → Except FileCause Text
  | [] => .error .isDirectory
  | name :: rest =>
    if isLonger maxName name then .error .nameTooLong
    else if name = "..".toList then
      if reached.isEmpty then .error (outside rest) else walk directory reached.dropLast rest
    else
      let names := reached ++ [name]
      match (directory.filter fun file => pathNames file.1 = names).getLast? with
      | some (_, contents) => if rest.isEmpty then .ok contents else .error .notDirectory
      | none => if directory.hasBelow names then walk directory names rest else .error .notFound

/-- The contents of the file at a path. -/
def read (directory : Directory) (path : Text) : Except FileError Text :=
  let contents :=
    if isLonger maxPath path then .error .nameTooLong
    else if Text.startsWith ['/'] path then .error (outside (pathNames path))
    else walk directory [] (pathNames path)
  contents.mapError fun cause => { cause, path }

end Directory

end DocBlock.CommandLine
