set_option autoImplicit false

namespace CurriedLisp

inductive Keyword where
  | quote
  | define
  | lambda
  | ifElse
  | cond
  | letIn
  | eval
  | error
  | begin
deriving DecidableEq, Repr

namespace Keyword

def name : Keyword → String
  | quote => "quote"
  | define => "define"
  | lambda => "lambda"
  | ifElse => "if"
  | cond => "cond"
  | letIn => "let"
  | eval => "eval"
  | error => "error"
  | begin => "begin"

def all : List Keyword := [quote, define, lambda, ifElse, cond, letIn, eval, error, begin]

def ofName? (name : String) : Option Keyword := all.find? fun k => k.name == name

theorem ofName_name (k : Keyword) : ofName? k.name = some k := by cases k <;> decide

theorem name_of_ofName {name : String} {k : Keyword} (found : ofName? name = some k) : k.name = name := by
  simpa using List.find?_some found

end Keyword

end CurriedLisp
