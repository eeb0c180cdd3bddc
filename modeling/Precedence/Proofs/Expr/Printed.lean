import Precedence.Expr.Printer

/-!
# What an expression and its printed form have in common

Spans are not printed, so expressions are compared without them (`Expr.withoutSpans`). How deep the
expressions nest in the printed form can be told from the expression (`Expr.printedDepth`): every
pair of parentheses is one level, and the branches of a conditional are one more.
-/

namespace Precedence.Expr

mutual

/-- The expression with every span made the same. -/
def withoutSpans : Expr → Expr
  | identifier name _ => identifier name (.point 0)
  | literal value raw _ => literal value raw (.point 0)
  | unary op argument => unary op (withoutSpans argument)
  | binary op left right => binary op (withoutSpans left) (withoutSpans right)
  | conditional test consequent alternate =>
    conditional (withoutSpans test) (withoutSpans consequent) (withoutSpans alternate)
  | compound leaves => compound (withoutSpansOfAll leaves)
  | assignment target value => assignment (withoutSpans target) (withoutSpans value)
  | hole => hole

def withoutSpansOfAll : List Expr → List Expr
  | [] => []
  | e :: rest => withoutSpans e :: withoutSpansOfAll rest

end

mutual

/-- The literals from left to right, each with the text that it was written as. -/
def literals : Expr → List (LiteralValue × String)
  | identifier _ _ => []
  | literal value raw _ => [(value, raw)]
  | unary _ argument => literals argument
  | binary _ left right => literals left ++ literals right
  | conditional test consequent alternate =>
    literals test ++ literals consequent ++ literals alternate
  | compound leaves => literalsOfAll leaves
  | assignment target value => literals target ++ literals value
  | hole => []

def literalsOfAll : List Expr → List (LiteralValue × String)
  | [] => []
  | e :: rest => literals e ++ literalsOfAll rest

end

mutual

/-- How deep the expressions in the printed form nest. -/
def printedDepth : Expr → Nat
  | identifier _ _ => 0
  | literal _ _ _ => 0
  | unary _ argument => printedDepth argument + 1
  | binary _ left right => max (printedDepth left) (printedDepth right) + 1
  | conditional test consequent alternate =>
    max (printedDepth test) (max (printedDepth consequent + 1) (printedDepth alternate + 1)) + 1
  | compound leaves => printedDepthOfLeaves leaves
  | assignment _ value => printedDepth value + 1
  | hole => 0

/-- The same for the elements between two parentheses; nothing is printed for a hole. -/
def printedDepthOfLeaves : List Expr → Nat
  | [] => 0
  | hole :: leaves => printedDepthOfLeaves leaves
  | leaf :: leaves => max (printedDepth leaf + 1) (printedDepthOfLeaves leaves)

end

/-! ### The elements of a compound -/

theorem printRest_cons {leaf : Expr} (h : leaf ≠ hole) (leaves : List Expr) :
    printRest (leaf :: leaves) = ", " ++ print leaf ++ printRest leaves := by
  cases leaf <;> first | rfl | exact absurd rfl h

theorem printedDepthOfLeaves_cons {leaf : Expr} (h : leaf ≠ hole) (leaves : List Expr) :
    printedDepthOfLeaves (leaf :: leaves) =
      max (printedDepth leaf + 1) (printedDepthOfLeaves leaves) := by
  cases leaf <;> first | rfl | exact absurd rfl h

theorem withoutSpans_eq_hole {e : Expr} : e.withoutSpans = hole ↔ e = hole := by
  cases e <;> simp [withoutSpans]

/-! ### Spans are not printed, and no depth or literal depends on them -/

mutual

theorem print_withoutSpans : ∀ e : Expr, e.withoutSpans.print = e.print
  | identifier _ _ => rfl
  | literal _ _ _ => rfl
  | unary op argument => by
    rw [withoutSpans, print, print, print_withoutSpans argument]
  | binary op left right => by
    rw [withoutSpans, print, print, print_withoutSpans left, print_withoutSpans right]
  | conditional test consequent alternate => by
    rw [withoutSpans, print, print, print_withoutSpans test, print_withoutSpans consequent,
      print_withoutSpans alternate]
  | compound [] => rfl
  | compound (leaf :: leaves) => by
    rw [withoutSpans, withoutSpansOfAll, print, print, print_withoutSpans leaf,
      printRest_withoutSpans leaves]
  | assignment target value => by
    rw [withoutSpans, print, print, print_withoutSpans target, print_withoutSpans value]
  | hole => rfl

theorem printRest_withoutSpans : ∀ leaves : List Expr,
    printRest (withoutSpansOfAll leaves) = printRest leaves
  | [] => rfl
  | leaf :: leaves => by
    by_cases h : leaf = hole
    · subst h
      rw [withoutSpansOfAll, withoutSpans, printRest, printRest, printRest_withoutSpans leaves]
    · rw [withoutSpansOfAll, printRest_cons (mt withoutSpans_eq_hole.mp h), printRest_cons h,
        print_withoutSpans leaf, printRest_withoutSpans leaves]

end

theorem print_congr {e e' : Expr} (h : e'.withoutSpans = e.withoutSpans) : e'.print = e.print := by
  rw [← print_withoutSpans e', h, print_withoutSpans]

mutual

theorem printedDepth_withoutSpans : ∀ e : Expr, e.withoutSpans.printedDepth = e.printedDepth
  | identifier _ _ => rfl
  | literal _ _ _ => rfl
  | unary op argument => by
    rw [withoutSpans, printedDepth, printedDepth, printedDepth_withoutSpans argument]
  | binary op left right => by
    rw [withoutSpans, printedDepth, printedDepth, printedDepth_withoutSpans left,
      printedDepth_withoutSpans right]
  | conditional test consequent alternate => by
    rw [withoutSpans, printedDepth, printedDepth, printedDepth_withoutSpans test,
      printedDepth_withoutSpans consequent, printedDepth_withoutSpans alternate]
  | compound leaves => printedDepthOfLeaves_withoutSpans leaves
  | assignment target value => by
    rw [withoutSpans, printedDepth, printedDepth, printedDepth_withoutSpans value]
  | hole => rfl

theorem printedDepthOfLeaves_withoutSpans : ∀ leaves : List Expr,
    printedDepthOfLeaves (withoutSpansOfAll leaves) = printedDepthOfLeaves leaves
  | [] => rfl
  | leaf :: leaves => by
    by_cases h : leaf = hole
    · subst h
      rw [withoutSpansOfAll, withoutSpans, printedDepthOfLeaves, printedDepthOfLeaves,
        printedDepthOfLeaves_withoutSpans leaves]
    · rw [withoutSpansOfAll, printedDepthOfLeaves_cons (mt withoutSpans_eq_hole.mp h),
        printedDepthOfLeaves_cons h, printedDepth_withoutSpans leaf,
        printedDepthOfLeaves_withoutSpans leaves]

end

theorem printedDepth_congr {e e' : Expr} (h : e'.withoutSpans = e.withoutSpans) :
    e'.printedDepth = e.printedDepth := by
  rw [← printedDepth_withoutSpans e', h, printedDepth_withoutSpans]

mutual

theorem literals_withoutSpans : ∀ e : Expr, e.withoutSpans.literals = e.literals
  | identifier _ _ => rfl
  | literal _ _ _ => rfl
  | unary op argument => literals_withoutSpans argument
  | binary op left right => by
    rw [withoutSpans, literals, literals, literals_withoutSpans left, literals_withoutSpans right]
  | conditional test consequent alternate => by
    rw [withoutSpans, literals, literals, literals_withoutSpans test,
      literals_withoutSpans consequent, literals_withoutSpans alternate]
  | compound leaves => literalsOfAll_withoutSpans leaves
  | assignment target value => by
    rw [withoutSpans, literals, literals, literals_withoutSpans target,
      literals_withoutSpans value]
  | hole => rfl

theorem literalsOfAll_withoutSpans : ∀ leaves : List Expr,
    literalsOfAll (withoutSpansOfAll leaves) = literalsOfAll leaves
  | [] => rfl
  | leaf :: leaves => by
    rw [withoutSpansOfAll, literalsOfAll, literalsOfAll, literals_withoutSpans leaf,
      literalsOfAll_withoutSpans leaves]

end

theorem literals_congr {e e' : Expr} (h : e'.withoutSpans = e.withoutSpans) :
    e'.literals = e.literals := by
  rw [← literals_withoutSpans e', h, literals_withoutSpans]

end Precedence.Expr
