import Montage.Numeric.Decimal

/-!
# Expressions

The arithmetic that the engine evaluates for every frame: gates, ramps and positions. An expression
is written exactly as it is built; where grouping is needed it holds a group.
-/

namespace Montage.Graph

open Montage.Numeric (Binary64 num)

/-- An expression over named quantities such as the time `t`. -/
inductive Expression where
  | name (text : String)
  | decimal (value : Binary64)
  | whole (value : Int)
  | neg (a : Expression)
  | add (a b : Expression)
  | sub (a b : Expression)
  | mul (a b : Expression)
  | div (a b : Expression)
  | group (a : Expression)
  | call1 (function : String) (a : Expression)
  | call2 (function : String) (a b : Expression)
  | call3 (function : String) (a b c : Expression)

namespace Expression

/-- The time of the frame in seconds. -/
def time : Expression := name "t"

def atLeast (a b : Expression) : Expression := call2 "gte" a b

def lessThan (a b : Expression) : Expression := call2 "lt" a b

def greaterThan (a b : Expression) : Expression := call2 "gt" a b

def ifElse (condition yes no : Expression) : Expression := call3 "if" condition yes no

/-- The text of an expression. -/
def render : Expression → String
  | name text => text
  | decimal value => num value
  | whole value => toString value
  | neg a => "-" ++ a.render
  | add a b => a.render ++ "+" ++ b.render
  | sub a b => a.render ++ "-" ++ b.render
  | mul a b => a.render ++ "*" ++ b.render
  | div a b => a.render ++ "/" ++ b.render
  | group a => "(" ++ a.render ++ ")"
  | call1 function a => function ++ "(" ++ a.render ++ ")"
  | call2 function a b => function ++ "(" ++ a.render ++ "," ++ b.render ++ ")"
  | call3 function a b c =>
    function ++ "(" ++ a.render ++ "," ++ b.render ++ "," ++ c.render ++ ")"

end Expression

end Montage.Graph
