import Precedence.Pratt.Context
import Precedence.Proofs.Pratt.Locality

/-!
# A context through its steps

Whatever reads an expression with a context does with its cursor what the parser does that knows the
levels that are left, and closes all expressions that it opened (`tracks_nested`); so between the
steps none is open. From this and from the locality of the readers it follows what every step of
every run does (`run_disciplined`).
-/

namespace Precedence.Pratt

variable {table : Table}

namespace Context

/-! ### Open expressions -/

/-- Where that many expressions are open, the stepper does with the cursor what the reader does, and
leaves as many open. -/
def Tracks (depth : Nat) (stepper : Stepper) (reader : Reader) : Prop :=
  ∀ x, x.depth = depth → stepper x = x.through reader

section Readers

variable {depth : Nat} {deeper : Nat → Stepper} {deeper' : Nat → Reader}
  (hdeeper : ∀ precedence, Tracks depth (deeper precedence) (deeper' precedence))

include hdeeper

theorem tracks_opening (t : Token) (s : Symbol) (opening : Opening) :
    Tracks depth (Context.readOpening deeper t s opening)
      (Pratt.readOpening deeper' t s opening) := by
  intro x hx
  cases opening with
  | name => rfl
  | literal =>
    rcases hvalue : t.value with value | value <;>
      simp only [Context.readOpening, through, Pratt.readOpening, hvalue]
  | operator =>
    simp only [Context.readOpening, hdeeper frontPrecedence x hx, through, Pratt.readOpening]
    rcases deeper' frontPrecedence x.cursor with ⟨_ | operand, c⟩ <;> rfl
  | group closing =>
    simp only [Context.readOpening, hdeeper 0 x hx, through, Pratt.readOpening, expect]
    rcases deeper' 0 x.cursor with ⟨_ | term, c⟩
    · rfl
    · simp only
      rcases c.expect closing with ⟨_ | t', c'⟩ <;> rfl

theorem tracks_extend (precedence : Nat) : ∀ fuel left,
    Tracks depth (Context.extend table deeper precedence fuel left)
      (Pratt.extend table deeper' precedence fuel left)
  | 0, left => fun _ _ => rfl
  | fuel + 1, left => fun x hx => by
    unfold Context.extend through Pratt.extend peek
    rcases x.cursor.peek with _ | ⟨t, s⟩
    · rfl
    rcases hjoining : table.joining? s with _ | joining
    · simp only [hjoining]
    simp only [hjoining]
    split
    · rfl
    have hread : deeper joining.operandPrecedence x.consume.2 =
        x.through fun c => deeper' joining.operandPrecedence c.advance :=
      hdeeper joining.operandPrecedence x.consume.2 hx
    rw [hread, through]
    rcases deeper' joining.operandPrecedence x.cursor.advance with ⟨_ | right, c⟩
    · rfl
    · exact tracks_extend precedence fuel _ ⟨c, x.depth⟩ hx

theorem tracks_binding (precedence : Nat) :
    Tracks depth (Context.readBinding table deeper precedence)
      (Pratt.readBinding table deeper' precedence) := by
  intro x hx
  unfold Context.readBinding through Pratt.readBinding consume through
  rcases x.cursor.consume with ⟨_ | ⟨t, s⟩, c⟩
  · rfl
  rcases hopening : table.opening? s with _ | opening
  · simp only [hopening]
  have hread := tracks_opening hdeeper t s opening ⟨c, x.depth⟩ hx
  simp only [hopening, hread, through]
  rcases Pratt.readOpening deeper' t s opening c with ⟨_ | left, c'⟩
  · rfl
  · exact tracks_extend hdeeper precedence _ left ⟨c', x.depth⟩ hx

end Readers

/-- An expression is closed where it was opened, and the levels that are left are those up to the
limit. So the fuel is never used up. -/
theorem tracks_nested : ∀ {fuel depth : Nat}, depth ≤ depthLimit → depthLimit < depth + fuel →
    ∀ precedence, Tracks depth (readNested table fuel precedence)
      (readWithin table (depthLimit - depth) precedence)
  | 0, depth, hle, hlt, _ => absurd hlt (Nat.not_lt.mpr hle)
  | fuel + 1, depth, hle, hlt, precedence => fun x hx => by
    by_cases hroom : depth < depthLimit
    · have hlevels : depthLimit - depth = depthLimit - (depth + 1) + 1 := by omega
      have hread : Context.readBinding table (readNested table fuel) precedence
            { x with depth := x.depth + 1 } =
          through (Pratt.readBinding table (readWithin table (depthLimit - (depth + 1))) precedence)
            { x with depth := x.depth + 1 } :=
        tracks_binding (tracks_nested (Nat.succ_le_of_lt hroom) (by omega)) precedence _
          (congrArg (· + 1) hx)
      rw [readNested, enter, if_pos (hx ▸ hroom), hlevels]
      simp only [hread]
      rfl
    · have hnone : depthLimit - depth = 0 := by omega
      simp only [readNested, enter, hx, if_neg hroom, hnone]
      rfl

/-- Between steps an expression is read as the parser reads it from the cursor, and none is left
open. -/
theorem readExpression_eq (precedence : Nat) {x : Context} (hx : x.depth = 0) :
    readExpression table precedence x = x.through (Pratt.readExpression table precedence) :=
  tracks_nested (Nat.zero_le _) (by omega) precedence x hx

/-! ### Steps -/

/-- No expression is open, and the tokens behind the place are left, each with its symbol. -/
structure Idle (tokens : List Token) (x : Context) : Prop where
  depth : x.depth = 0
  position_le : x.cursor.position ≤ tokens.length
  rest : Classifies (tokens.drop x.cursor.position) x.cursor.rest
  finish : x.cursor.finish = Cursor.finishOf tokens

theorem idle_of_ofTokens {tokens : List Token} {x : Context} (h : ofTokens tokens = .ok x) :
    x.Idle tokens := by
  obtain ⟨c, hc, h⟩ := Failure.bind_eq_ok_iff.mp h
  obtain rfl := Except.ok.inj h
  obtain ⟨row, hrow, hc⟩ := Failure.bind_eq_ok_iff.mp hc
  obtain rfl := Except.ok.inj hc
  exact ⟨rfl, Nat.zero_le _, mapM_eq_ok_iff.mp hrow, rfl⟩

theorem Idle.length_rest {tokens : List Token} {x : Context} (h : x.Idle tokens) :
    x.cursor.position + x.cursor.rest.length = tokens.length := by
  have hlength := congrArg List.length h.rest.1
  rw [List.length_map, List.length_drop] at hlength
  have hle := h.position_le
  omega

theorem Idle.skip {tokens : List Token} {x : Context} (h : x.Idle tokens) {n : Nat}
    (hn : n ≤ x.cursor.rest.length) : Idle tokens { x with cursor := x.cursor.skip n } where
  depth := h.depth
  position_le := by
    have hlength := h.length_rest
    show x.cursor.position + n ≤ tokens.length
    omega
  rest := by
    obtain ⟨hmap, hsymbols⟩ := h.rest
    refine ⟨?_, fun t ht => hsymbols t (List.mem_of_mem_drop ht)⟩
    show (x.cursor.rest.drop n).map Prod.fst = tokens.drop (x.cursor.position + n)
    rw [List.map_drop, hmap, List.drop_drop]
  finish := h.finish

theorem skip_of_local {α : Type} {read : Cursor → Except Failure α × Cursor} (h : Local read)
    (x : Context) : ∃ n ≤ x.cursor.rest.length,
      (x.through read).2 = { x with cursor := x.cursor.skip n } := by
  obtain ⟨o, ho, hat⟩ := h x.cursor.rest
  rw [through, hat x.cursor rfl]
  cases o with
  | value a taken => exact ⟨taken, ho, rfl⟩
  | failure problem place taken => exact ⟨taken, ho.2, rfl⟩

variable (table)

/-- All that a step does to a context where no expression is open is to skip tokens that are
left. -/
theorem step_skips {x : Context} (hx : x.depth = 0) (s : Step) :
    ∃ n ≤ x.cursor.rest.length, (x.step table s).2 = { x with cursor := x.cursor.skip n } := by
  cases s with
  | peek => exact ⟨0, Nat.zero_le _, rfl⟩
  | consume =>
    rcases hrest : x.cursor.rest with _ | ⟨sign, rest⟩
    · refine ⟨0, Nat.zero_le _, ?_⟩
      simp [step, consume, through, Cursor.consume, Cursor.advance, hrest, Cursor.skip_zero]
    · have hne : x.cursor.rest ≠ [] := by simp [hrest]
      refine ⟨1, Nat.succ_le_succ (Nat.zero_le _), ?_⟩
      simp only [step, consume, through, Cursor.consume, Cursor.advance_eq_skip hne]
  | expect symbol => exact skip_of_local (local_expect symbol) x
  | read precedence =>
    simp only [step, readExpression_eq precedence hx]
    exact skip_of_local (local_within table depthLimit precedence) x

theorem idle_of_step {tokens : List Token} {x : Context} (h : x.Idle tokens) (s : Step) :
    (x.step table s).2.Idle tokens := by
  obtain ⟨n, hn, hstep⟩ := step_skips table h.depth s
  rw [hstep]
  exact h.skip hn

theorem idle_of_run {tokens : List Token} {x : Context} (h : x.Idle tokens) (steps : List Step) :
    (x.run table steps).Idle tokens := by
  induction steps generalizing x with
  | nil => exact h
  | cons s steps ih => exact ih (idle_of_step table h s)

/-- What the steps from a context do. Reading gives what the parser reads from the cursor. -/
structure Disciplined (table : Table) (x : Context) : Prop where
  position_le : ∀ s, x.cursor.position ≤ (x.step table s).2.cursor.position
  peek : (x.step table .peek).2 = x
  expect : ∀ symbol failure, (x.expect symbol).1 = .error failure →
    (x.step table (.expect symbol)).2 = x
  position_lt : ∀ precedence term, (readExpression table precedence x).1 = .ok term →
    x.cursor.position < (x.step table (.read precedence)).2.cursor.position
  read : ∀ precedence,
    readExpression table precedence x = x.through (Pratt.readExpression table precedence)

theorem expect_failed {x : Context} {symbol : Symbol} {failure : Failure}
    (h : (x.expect symbol).1 = .error failure) : (x.expect symbol).2 = x := by
  have hcursor : (x.cursor.expect symbol).2 = x.cursor := Cursor.expect_failed h
  rw [expect, through, hcursor]

theorem Idle.disciplined {tokens : List Token} {x : Context} (h : x.Idle tokens) :
    x.Disciplined table where
  position_le s := by
    obtain ⟨n, -, hstep⟩ := step_skips table h.depth s
    rw [hstep]
    exact Nat.le_add_right _ _
  peek := rfl
  expect symbol failure hfailure := expect_failed hfailure
  position_lt precedence term hterm := by
    have hnext := idle_of_step table h (.read precedence)
    have hlength := h.length_rest
    have hlength' := hnext.length_rest
    have hless : (x.step table (.read precedence)).2.cursor.rest.length < x.cursor.rest.length := by
      simp only [step, readExpression_eq precedence h.depth] at hterm ⊢
      exact length_lt_of_read (Prod.ext hterm rfl)
    omega
  read precedence := readExpression_eq precedence h.depth

/-- Whatever was done with a context, and whatever failed, no expression is open afterwards, the
cursor is within the tokens and never goes back, and what is read next, or why and where that fails,
is told by the tokens that are left and the precedence. -/
theorem run_disciplined (table : Table) :
    (∀ tokens x, ofTokens tokens = .ok x → ∀ steps,
      (x.run table steps).Idle tokens ∧ (x.run table steps).Disciplined table) ∧
    ∀ precedence rest, ∃ o : Outcome Term, o.Within rest.length ∧
      ∀ tokens x, ofTokens tokens = .ok x → ∀ steps, (x.run table steps).cursor.rest = rest →
        readExpression table precedence (x.run table steps) =
          (x.run table steps).through o.startAt := by
  refine ⟨fun tokens x hx steps => ?_, fun precedence rest => ?_⟩
  · have hidle := idle_of_run table (idle_of_ofTokens hx) steps
    exact ⟨hidle, hidle.disciplined table⟩
  · obtain ⟨o, ho, hat⟩ := local_within table depthLimit precedence rest
    refine ⟨o, ho, fun tokens x hx steps hrest => ?_⟩
    have hidle := idle_of_run table (idle_of_ofTokens hx) steps
    rw [readExpression_eq precedence hidle.depth, through, Pratt.readExpression, hat _ hrest]
    rfl

/-- In front of `-a*b+c`. -/
def productContext : Context :=
  { cursor := start negatedProduct
      (negatedProduct.zip [.minus, .name, .star, .name, .plus, .name]) }

/-- A wrong symbol is asked for, the operand of the product is read, and the product sign, which
opens no expression, is taken. -/
def productSteps : List Step :=
  [.expect .star, .read 5, .read 0]

theorem product_steps_disciplined : ofTokens negatedProduct = .ok productContext ∧
    (productContext.run productsRight productSteps).cursor.position = 3 ∧
    (productContext.run productsRight productSteps).Idle negatedProduct ∧
    (productContext.run productsRight productSteps).Disciplined productsRight ∧
    ∃ o : Outcome Term, o.Within 3 ∧
      readExpression productsRight 0 (productContext.run productsRight productSteps) =
        (productContext.run productsRight productSteps).through o.startAt := by
  have htokens : ofTokens negatedProduct = .ok productContext := rfl
  obtain ⟨hidle, hdisciplined⟩ :=
    (run_disciplined productsRight).1 negatedProduct productContext htokens productSteps
  obtain ⟨o, ho, hat⟩ := (run_disciplined productsRight).2 0 (productContext.cursor.rest.drop 3)
  exact ⟨htokens, rfl, hidle, hdisciplined, o, ho,
    hat negatedProduct productContext htokens productSteps rfl⟩

end Context

end Precedence.Pratt
