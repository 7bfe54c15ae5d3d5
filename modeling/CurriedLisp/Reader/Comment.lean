set_option autoImplicit false

namespace CurriedLisp.Reader

structure Uncommented where
  inComment : Bool
  -- The characters kept so far, latest first.
  kept : List Char

def Uncommented.feed (state : Uncommented) (c : Char) : Uncommented :=
  if c = '\n' then ⟨false, c :: state.kept⟩
  else if state.inComment || c = ';' then ⟨true, state.kept⟩
  else ⟨false, c :: state.kept⟩

def removeComments (cs : List Char) : List Char :=
  (cs.foldl Uncommented.feed ⟨false, []⟩).kept.reverse

end CurriedLisp.Reader
