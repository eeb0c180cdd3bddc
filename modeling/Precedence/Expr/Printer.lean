import Precedence.Expr.Basic

/-!
# Printing expressions

`Expr.print` writes an expression with every operator application in parentheses, so that the text
does not depend on how tightly operators bind. `Expr.outline` writes it as a tree, one node a line,
two blanks deeper at every level.
-/

namespace Precedence.Expr

mutual

def print : Expr → String
  | identifier name _ => name
  | literal _ raw _ => raw
  | unary op argument => "(" ++ op.symbol ++ " " ++ print argument ++ ")"
  | binary op left right => "(" ++ print left ++ " " ++ op.symbol ++ " " ++ print right ++ ")"
  | conditional test consequent alternate =>
    "(" ++ print test ++ " ? " ++ print consequent ++ " : " ++ print alternate ++ ")"
  | compound [] => "()"
  | compound (leaf :: leaves) => "(" ++ print leaf ++ printRest leaves ++ ")"
  | assignment target value => "(" ++ print target ++ " = " ++ print value ++ ")"
  | hole => ""

/-- The leaves after the first; nothing stands between a comma and a hole. -/
def printRest : List Expr → String
  | [] => ""
  | hole :: leaves => "," ++ printRest leaves
  | leaf :: leaves => ", " ++ print leaf ++ printRest leaves

end

/-- What a node is, without its children. -/
def caption : Expr → String
  | identifier name span => (identifier name span).label ++ " " ++ name
  | literal value raw span =>
    (literal value raw span).label ++ " " ++ raw ++ " (" ++ value.label ++ ")"
  | unary op argument => (unary op argument).label ++ " " ++ op.symbol
  | binary op left right => (binary op left right).label ++ " " ++ op.symbol
  | compound leaves => (compound leaves).label ++ " [" ++ toString leaves.length ++ "]"
  | e => e.label

mutual

/-- The captions of an expression and all in it, each with its depth. -/
def captions (depth : Nat) : Expr → List (Nat × String)
  | identifier name span => [(depth, caption (identifier name span))]
  | literal value raw span => [(depth, caption (literal value raw span))]
  | unary op argument => (depth, caption (unary op argument)) :: captions (depth + 1) argument
  | binary op left right =>
    (depth, caption (binary op left right)) ::
      (captions (depth + 1) left ++ captions (depth + 1) right)
  | conditional test consequent alternate =>
    (depth, caption (conditional test consequent alternate)) ::
      (captions (depth + 1) test ++ captions (depth + 1) consequent ++
        captions (depth + 1) alternate)
  | compound leaves => (depth, caption (compound leaves)) :: captionsOfAll (depth + 1) leaves
  | assignment target value =>
    (depth, caption (assignment target value)) ::
      (captions (depth + 1) target ++ captions (depth + 1) value)
  | hole => [(depth, caption hole)]

def captionsOfAll (depth : Nat) : List Expr → List (Nat × String)
  | [] => []
  | e :: rest => captions depth e ++ captionsOfAll depth rest

end

def outline (e : Expr) : String :=
  String.join ((captions 0 e).map fun (depth, caption) =>
    String.ofList (List.replicate (2 * depth) ' ') ++ caption ++ "\n")

end Precedence.Expr
