import CurriedLisp.File.Path

set_option autoImplicit false

namespace CurriedLisp.File

structure Tree where
  files : List (List String × ByteArray)
  directories : List (List String)

inductive Place where
  | file (contents : ByteArray)
  | inside (parts : List String)
  | outside
deriving Inhabited

namespace Tree

def hasDirectory (tree : Tree) (parts : List String) : Bool :=
  tree.directories.any (parts.isPrefixOf ·) || tree.files.any fun (file, _) => parts.isPrefixOf file

def enter (tree : Tree) (place : Place) (part : String) : Except Fault Place :=
  match place with
  | .file _ => .error .notDirectory
  | .outside => if part = ".." then .ok .outside else .error .missing
  | .inside parts =>
      if part = ".." then .ok (if parts.isEmpty then .outside else .inside parts.dropLast)
      else
        match tree.files.lookup (parts ++ [part]) with
        | some contents => .ok (.file contents)
        | none =>
            if tree.hasDirectory (parts ++ [part]) then .ok (.inside (parts ++ [part]))
            else .error .missing

def read (tree : Tree) (path : Path) : Except Fault ByteArray := do
  let start := if path.root = "" then Place.inside [] else Place.outside
  match ← path.parts.foldlM tree.enter start with
  | .file contents => return contents
  | _ => throw .isDirectory

end Tree

end CurriedLisp.File
