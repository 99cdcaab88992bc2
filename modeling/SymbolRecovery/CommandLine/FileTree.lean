import SymbolRecovery.ByteFile

/-!
What a path leads to in a tree of directories and files. A path is followed name by name: an empty
name and a single dot stay where they are, two dots go up. Nothing can be followed beyond a file,
so that even a slash behind the name of a file is one too many.
-/
namespace SymbolRecovery.CommandLine

inductive FileEntry where
  | bytes (content : Bytes)
  | directory
  | missing
  | beyondFile
  | nameTooLong
deriving Repr, DecidableEq

/-- Files, each with the names on the way to it from the root. A directory is there when it is on
the way to a file or to the working directory. -/
structure FileTree where
  files : List (List String × Bytes)
  working : List String := []
deriving Repr, DecidableEq

namespace FileTree

def nameLimit : Nat := 255

def pathLimit : Nat := 4095

def hasDirectory (t : FileTree) (place : List String) : Bool :=
  (t.working :: t.files.map (·.1)).any place.isPrefixOf

def follow (t : FileTree) (place : List String) : List String → FileEntry
  | [] => .directory
  | name :: names =>
    if name = "" ∨ name = "." then t.follow place names
    else if name = ".." then t.follow place.dropLast names
    else if nameLimit < name.utf8ByteSize then .nameTooLong
    else match t.files.lookup (place ++ [name]) with
      | some content => if names.isEmpty then .bytes content else .beyondFile
      | none =>
        if t.hasDirectory (place ++ [name]) then t.follow (place ++ [name]) names else .missing

/-- What a path leads to: from the root if it starts with a slash, else from the working
directory. The empty path leads nowhere. -/
def entry (t : FileTree) (path : String) : FileEntry :=
  if path = "" then .missing
  else if pathLimit < path.utf8ByteSize then .nameTooLong
  else t.follow (if path.toList.head? = some '/' then [] else t.working) (path.splitOn "/")

end FileTree
end SymbolRecovery.CommandLine
