import CurriedLisp.Text.Quoted

set_option autoImplicit false

namespace CurriedLisp.File

structure Path where
  -- The slashes that make the path absolute: none, one or two.
  root : String
  parts : List String
deriving DecidableEq

namespace Path

def rootOf (s : String) : String :=
  match (s.toList.takeWhile (· = '/')).length with
  | 0 => ""
  | 2 => "//"
  | _ => "/"

def ofString (s : String) : Path :=
  ⟨rootOf s, (s.splitOn "/").filter fun part => part ≠ "" ∧ part ≠ "."⟩

def text (p : Path) : String :=
  if p.root = "" ∧ p.parts = [] then "." else p.root ++ "/".intercalate p.parts

end Path

structure Fault where
  code : Nat
  reason : String
deriving DecidableEq, Repr

namespace Fault

def missing : Fault := ⟨2, "No such file or directory"⟩

def notDirectory : Fault := ⟨20, "Not a directory"⟩

def isDirectory : Fault := ⟨21, "Is a directory"⟩

def message (path : Path) (fault : Fault) : String :=
  "[Errno " ++ toString fault.code ++ "] " ++ fault.reason ++ ": " ++ Text.quoted path.text

end Fault

end CurriedLisp.File
