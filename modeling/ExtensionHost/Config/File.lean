/-!
# `ExtensionHost.Config.File`: what is found under a path

A path is followed through a tree of directories, one name at a time. The
first name that leads nowhere decides why nothing is found, so a path that
goes on behind a file fails because the file is no directory, and one that
starts with an unknown name fails at that name, whatever comes after it.
-/

set_option autoImplicit false

namespace ExtensionHost

/-- Why a text cannot be read from a file. -/
inductive FileError
  | missing
  /-- The path goes on behind a file. -/
  | notDirectory
  | isDirectory
  | nameTooLong
  /-- The bytes of the file are no text. -/
  | notText
deriving DecidableEq, Repr

namespace FileError

/-- The wording of a failure. -/
def message : FileError → String
  | missing => "No such file or directory (os error 2)"
  | notDirectory => "Not a directory (os error 20)"
  | isDirectory => "Is a directory (os error 21)"
  | nameTooLong => "File name too long (os error 36)"
  | notText => "stream did not contain valid UTF-8"

end FileError

/-- Files in directories. -/
inductive FileTree
  | file (bytes : ByteArray)
  | directory (entries : List (String × FileTree))

namespace FileTree

/-- The most bytes of a name in a path. -/
def longestName : Nat := 255

/-- The most bytes of a path. -/
def longestPath : Nat := 4095

/-- Follows names from a place in the tree. The directories that the place
lies in come first, the innermost at the head; the outermost directory lies
in itself. -/
def follow : (around : List FileTree) → (place : FileTree) → (names : List String) →
    Except FileError FileTree
  | _, place, [] => .ok place
  | _, file _, _ :: _ => .error .notDirectory
  | around, directory entries, name :: names =>
    if name = "" ∨ name = "." then follow around (directory entries) names
    else if name = ".." then
      match around with
      | [] => follow [] (directory entries) names
      | parent :: around => follow around parent names
    else if longestName < name.utf8ByteSize then .error .nameTooLong
    else
      match entries.lookup name with
      | some place => follow (directory entries :: around) place names
      | none => .error .missing

/-- What a path leads to. A path that does not start at the root starts at
an empty directory in it. -/
def find (root : FileTree) (path : String) : Except FileError FileTree :=
  if path = "" then .error .missing
  else if longestPath < path.utf8ByteSize then .error .nameTooLong
  else
    match path.splitOn "/" with
    | "" :: names => follow [] root names
    | names => follow [root] (directory []) names

/-- The bytes of the file that a path leads to. -/
def read (root : FileTree) (path : String) : Except FileError ByteArray :=
  match root.find path with
  | .error e => .error e
  | .ok (directory _) => .error .isDirectory
  | .ok (file bytes) => .ok bytes

/-- Directories without known entries. -/
def directories (names : List String) : List (String × FileTree) :=
  names.map fun name => (name, directory [])

/-- The directories that every system has, and the file that is always
empty. -/
def standard : FileTree :=
  directory <|
    [("dev", directory (("null", file ByteArray.empty) :: directories ["pts", "shm"])),
      ("usr", directory (directories ["bin", "include", "lib", "local", "sbin", "share"])),
      ("var", directory (directories ["cache", "lib", "log", "opt", "spool", "tmp"]))]
    ++ directories ["bin", "boot", "etc", "home", "lib", "media", "mnt", "opt", "proc", "root",
      "run", "sbin", "srv", "sys", "tmp"]

end FileTree

end ExtensionHost
