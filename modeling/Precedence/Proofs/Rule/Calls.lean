import Mathlib.Data.List.Induction
import Precedence.Proofs.Rule.Run

/-!
# States under any calls

Rules move the cursor of a state, record failures, and enter and leave levels, in whatever order.
What a state then says hangs on the calls alone. Its record is that of the furthest place at which
the cursor stood when a failure was recorded (`FailureRecord.expected_noteAll`). Levels are counted
until one is asked for that the limit does not admit; from then on none is entered any more
(`ParseState.run_of_unrefused`, `ParseState.run_of_refused`).
-/

namespace Precedence

/-- What can be called on a state, tables of outcomes apart. -/
inductive Call where
  | advance
  | peek
  | restore (position : Nat)
  | recordFailure (what : String)
  | enterNested
  | exitNested
  deriving DecidableEq

namespace Call

/-- Where a call leaves the cursor, if there are that many tokens. -/
def move (count cursor : Nat) : Call → Nat
  | advance => if cursor < count then cursor + 1 else cursor
  | restore position => position
  | _ => cursor

/-- Where the cursor stands after the calls. -/
def cursor (count : Nat) (calls : List Call) : Nat :=
  calls.foldl (move count) 0

/-- What a call records when the cursor stands there. -/
def failure? (cursor : Nat) : Call → Option (Nat × String)
  | recordFailure what => some (cursor, what)
  | _ => none

/-- The failures that are recorded by calls from a place on, each with the place of the cursor. -/
def failuresFrom (count cursor : Nat) : List Call → List (Nat × String)
  | [] => []
  | call :: calls =>
    (call.failure? cursor).toList ++ failuresFrom count (call.move count cursor) calls

def failures (count : Nat) (calls : List Call) : List (Nat × String) :=
  failuresFrom count 0 calls

def deepen (level : Nat) : Call → Nat
  | enterNested => level + 1
  | exitNested => level - 1
  | _ => level

/-- How many levels are entered and not left again, if there is no limit. -/
def level (calls : List Call) : Nat :=
  calls.foldl deepen 0

/-- No level is asked for when the limit is reached. -/
def Unrefused (calls : List Call) : Prop :=
  ∀ before after, calls = before ++ enterNested :: after → level before ≠ nestingLimit

/-- The first of the calls that asks for a level when the limit is reached stands between `before`
and `after`. -/
structure FirstRefused (before after calls : List Call) : Prop where
  calls_eq : calls = before ++ enterNested :: after
  full : level before = nestingLimit
  unrefused : Unrefused before

theorem level_append (calls : List Call) (call : Call) :
    level (calls ++ [call]) = deepen (level calls) call := by
  rw [level, List.foldl_append, List.foldl_cons, List.foldl_nil, level]

theorem Unrefused.of_append {calls later : List Call} (h : Unrefused (calls ++ later)) :
    Unrefused calls := by
  rintro before after rfl
  exact h before (after ++ later) (List.append_assoc ..)

theorem Unrefused.append {calls : List Call} {call : Call} (h : Unrefused calls)
    (hcall : call = enterNested → level calls ≠ nestingLimit) : Unrefused (calls ++ [call]) := by
  intro before after heq
  rcases List.eq_nil_or_concat after with rfl | ⟨after, last, rfl⟩
  · obtain ⟨rfl, hlast⟩ := List.append_inj' heq rfl
    exact hcall (List.singleton_inj.mp hlast)
  · rw [List.concat_eq_append, ← List.cons_append, ← List.append_assoc] at heq
    exact h before after (List.append_inj' heq rfl).1

/-- Either no call asks for a level too many, or one of them is the first to do so. -/
theorem unrefused_or (calls : List Call) :
    Unrefused calls ∨ ∃ before after, FirstRefused before after calls := by
  induction calls using List.reverseRecOn with
  | nil => exact Or.inl fun before after h => by simp at h
  | append_singleton calls call ih =>
    rcases ih with h | ⟨before, after, rfl, hfull, hfirst⟩
    · by_cases hcall : call = enterNested ∧ level calls = nestingLimit
      · obtain ⟨rfl, hfull⟩ := hcall
        exact Or.inr ⟨calls, [], rfl, hfull, h⟩
      · exact Or.inl (h.append fun hc hfull => hcall ⟨hc, hfull⟩)
    · exact Or.inr ⟨before, after ++ [call], by simp, hfull, hfirst⟩

theorem FirstRefused.not_unrefused {before after calls : List Call}
    (h : FirstRefused before after calls) : ¬ Unrefused calls :=
  fun hall => hall before after h.calls_eq h.full

theorem not_unrefused_iff {calls : List Call} :
    ¬ Unrefused calls ↔ ∃ before after, FirstRefused before after calls :=
  ⟨(unrefused_or calls).resolve_left, fun ⟨_, _, h⟩ => h.not_unrefused⟩

end Call

/-! ### The record -/

namespace FailureRecord

/-- The texts that failures give for a place, each once, in the order in which they come first. -/
def textsAt (place : Nat) (failures : List (Nat × String)) : List String :=
  ((failures.filter (·.1 == place)).map (·.2)).eraseDups

theorem textsAt_append_other {place : Nat} {failures : List (Nat × String)} {f : Nat × String}
    (h : f.1 ≠ place) : textsAt place (failures ++ [f]) = textsAt place failures := by
  simp [textsAt, List.filter_append, h]

theorem eraseDups_concat {α : Type} [DecidableEq α] (l : List α) (a : α) :
    (l ++ [a]).eraseDups = if a ∈ l then l.eraseDups else l.eraseDups ++ [a] := by
  rw [List.eraseDups_append]
  split_ifs with h <;> simp [List.removeAll, h, List.eraseDups_cons]

theorem textsAt_append_here {failures : List (Nat × String)} {f : Nat × String} :
    textsAt f.1 (failures ++ [f]) =
      if f.2 ∈ textsAt f.1 failures then textsAt f.1 failures
      else textsAt f.1 failures ++ [f.2] := by
  simp only [textsAt, List.filter_append, List.filter_cons, beq_self_eq_true, if_true,
    List.filter_nil, List.map_append, List.map_cons, List.map_nil, eraseDups_concat,
    List.mem_eraseDups]

theorem furthest_noteAll_start (failures : List (Nat × String)) :
    (noteAll ⟨0, []⟩ failures).furthest = (failures.map (·.1)).foldl max 0 := by
  induction failures using List.reverseRecOn with
  | nil => rfl
  | append_singleton failures f ih =>
    rw [noteAll_append, noteAll, List.foldl_cons, List.foldl_nil, furthest_note, ih,
      List.map_append, List.foldl_append]
    rfl

/-- What a record expects are the texts of its furthest place. -/
theorem expected_noteAll (failures : List (Nat × String)) :
    (noteAll ⟨0, []⟩ failures).expected =
      textsAt (noteAll ⟨0, []⟩ failures).furthest failures := by
  induction failures using List.reverseRecOn with
  | nil => rfl
  | append_singleton failures f ih =>
    have hle : ∀ f' ∈ failures, f'.1 ≤ (noteAll ⟨0, []⟩ failures).furthest :=
      fun f' hf' => (holds_noteAll hf').le
    rw [noteAll_append]
    generalize noteAll ⟨0, []⟩ failures = r at ih hle ⊢
    have hlast : r.noteAll [f] = r.note f := rfl
    rw [hlast]
    unfold note
    split_ifs with hfurther hnew
    · -- the place is new, so nothing was recorded there before
      have hnone : failures.filter (·.1 == f.1) = [] := by
        rw [List.filter_eq_nil_iff]
        intro f' hf' heq
        have := hle f' hf'
        have := beq_iff_eq.mp heq
        omega
      have hempty : textsAt f.1 failures = [] := by simp [textsAt, hnone]
      rw [textsAt_append_here, hempty, if_neg (List.not_mem_nil), List.nil_append]
    · simp only [Bool.and_eq_true, decide_eq_true_eq, Bool.not_eq_true',
        List.contains_eq_mem, decide_eq_false_iff_not] at hnew
      obtain ⟨hplace, hnew⟩ := hnew
      rw [ih, ← hplace] at hnew
      simp only
      rw [← hplace, textsAt_append_here, if_neg hnew, ih, hplace]
    · by_cases hplace : f.1 = r.furthest
      · have hold : f.2 ∈ textsAt f.1 failures := by
          rw [hplace, ← ih]
          simpa [hplace] using hnew
        rw [← hplace, textsAt_append_here, if_pos hold, ih, hplace]
      · rw [textsAt_append_other hplace, ih]

end FailureRecord

/-! ### Runs -/

namespace ParseState

open Call

variable {ι V : Type} [BEq ι] [Hashable ι] {s : ParseState ι V}

/-- The state behind a call. -/
def perform (s : ParseState ι V) : Call → ParseState ι V
  | .advance => s.advance.2
  | .peek => s
  | .restore position => s.restore position
  | .recordFailure what => s.recordFailure what
  | .enterNested => s.enterNested.2
  | .exitNested => s.exitNested

/-- The state behind calls. -/
def run (s : ParseState ι V) (calls : List Call) : ParseState ι V :=
  calls.foldl perform s

theorem run_append (s : ParseState ι V) (calls later : List Call) :
    s.run (calls ++ later) = (s.run calls).run later :=
  List.foldl_append

theorem advance_moved (s : ParseState ι V) :
    s.advance.2 = s.restore (Call.advance.move s.tokens.size s.position) := by
  unfold advance peek Call.move
  by_cases h : s.position < s.tokens.size
  · rw [Array.getElem?_eq_getElem h, if_pos h]
  · rw [Array.getElem?_eq_none (Nat.le_of_not_lt h), if_neg h]
    rfl

/-- What a call does to the cursor and the record. -/
theorem perform_moved (s : ParseState ι V) (call : Call) :
    (s.perform call).tokens = s.tokens ∧
      (s.perform call).position = call.move s.tokens.size s.position ∧
      (s.perform call).record = s.record.noteAll (call.failure? s.position).toList := by
  cases call with
  | advance =>
    rw [perform, advance_moved]
    exact ⟨rfl, rfl, rfl⟩
  | peek => exact ⟨rfl, rfl, rfl⟩
  | restore position => exact ⟨rfl, rfl, rfl⟩
  | recordFailure what =>
    rw [perform, recordFailure_eq]
    exact ⟨rfl, rfl, rfl⟩
  | enterNested => exact s.enterNested_still
  | exitNested => exact ⟨rfl, rfl, rfl⟩

/-- What calls do to the cursor and the record. -/
theorem run_moved (s : ParseState ι V) (calls : List Call) :
    (s.run calls).position = calls.foldl (move s.tokens.size) s.position ∧
      (s.run calls).record =
        s.record.noteAll (failuresFrom s.tokens.size s.position calls) := by
  induction calls generalizing s with
  | nil => exact ⟨rfl, rfl⟩
  | cons call calls ih =>
    obtain ⟨htokens, hposition, hrecord⟩ := s.perform_moved call
    obtain ⟨hposition', hrecord'⟩ := ih (s.perform call)
    rw [htokens, hposition] at hposition' hrecord'
    refine ⟨hposition', ?_⟩
    rw [failuresFrom, FailureRecord.noteAll_append, ← hrecord]
    exact hrecord'

/-- A call that enters no level does not touch what was refused. -/
theorem perform_nested {call : Call} (h : call ≠ .enterNested) :
    (s.perform call).depth = deepen s.depth call ∧ (s.perform call).overflow = s.overflow := by
  cases call with
  | advance =>
    rw [perform, advance_moved]
    exact ⟨rfl, rfl⟩
  | peek => exact ⟨rfl, rfl⟩
  | restore position => exact ⟨rfl, rfl⟩
  | recordFailure what =>
    rw [perform, recordFailure_eq]
    exact ⟨rfl, rfl⟩
  | enterNested => exact absurd rfl h
  | exitNested => exact ⟨rfl, rfl⟩

theorem enterNested_of_overflow {i : Nat} (h : s.overflow = some i) :
    s.enterNested = (false, s) := by
  rw [enterNested, h, Option.isSome_some, if_pos rfl]

theorem enterNested_of_full (h : s.overflow = none) (hfull : s.depth = nestingLimit) :
    s.enterNested = (false, { s with overflow := some s.position }) := by
  rw [enterNested, h, Option.isSome_none, if_neg Bool.false_ne_true, hfull, if_pos (Nat.le_refl _)]

theorem enterNested_of_lt (h : s.overflow = none) (hlt : s.depth < nestingLimit) :
    s.enterNested = (true, { s with depth := s.depth + 1 }) := by
  rw [enterNested, h, Option.isSome_none, if_neg Bool.false_ne_true, if_neg (Nat.not_le.mpr hlt)]

theorem start_fresh {start : ParseState ι V} {strategy : Strategy} {tokens : Array Token}
    (h : strategy.start tokens = start) : start.tokens = tokens ∧ start.position = 0 ∧
      start.record = ⟨0, []⟩ ∧ start.depth = 0 ∧ start.overflow = none := by
  subst h
  cases strategy <;> exact ⟨rfl, rfl, rfl, rfl, rfl⟩

/-- As long as no level is asked for when the limit is reached, levels are counted. -/
theorem run_of_unrefused (hdepth : s.depth = 0) (hoverflow : s.overflow = none)
    {calls : List Call} (h : Unrefused calls) :
    (s.run calls).overflow = none ∧ (s.run calls).depth = level calls ∧
      level calls ≤ nestingLimit := by
  induction calls using List.reverseRecOn with
  | nil => exact ⟨hoverflow, hdepth, Nat.zero_le _⟩
  | append_singleton calls call ih =>
    obtain ⟨hnone, hlevel, hle⟩ := ih h.of_append
    rw [run_append, level_append, ← hlevel]
    show (perform _ _).overflow = none ∧ (perform _ _).depth = _ ∧ _
    by_cases hcall : call = .enterNested
    · subst hcall
      have hlt : (s.run calls).depth < nestingLimit := by
        rw [hlevel]
        exact Nat.lt_of_le_of_ne hle (h calls [] rfl)
      rw [perform, enterNested_of_lt hnone hlt]
      exact ⟨hnone, rfl, hlt⟩
    · obtain ⟨hdepth, hoverflow⟩ := perform_nested (s := s.run calls) hcall
      refine ⟨hoverflow.trans hnone, hdepth, ?_⟩
      rw [← hlevel] at hle
      cases call with
      | enterNested => exact absurd rfl hcall
      | exitNested => exact Nat.le_trans (Nat.sub_le _ _) hle
      | _ => exact hle

theorem perform_of_overflow {i : Nat} (h : s.overflow = some i) (call : Call) :
    (s.perform call).overflow = some i ∧
      (s.perform call).depth = s.depth - if call == .exitNested then 1 else 0 := by
  by_cases hcall : call = .enterNested
  · subst hcall
    rw [perform, enterNested_of_overflow h]
    exact ⟨h, rfl⟩
  · obtain ⟨hdepth, hoverflow⟩ := perform_nested (s := s) hcall
    refine ⟨hoverflow.trans h, hdepth.trans ?_⟩
    cases call with
    | enterNested => exact absurd rfl hcall
    | _ => rfl

/-- Once a level was refused, that stays on record, and levels are only left. -/
theorem run_of_overflow {i : Nat} (h : s.overflow = some i) (calls : List Call) :
    (s.run calls).overflow = some i ∧
      (s.run calls).depth = s.depth - calls.count .exitNested := by
  induction calls generalizing s with
  | nil => exact ⟨h, rfl⟩
  | cons call calls ih =>
    obtain ⟨hoverflow, hdepth⟩ := perform_of_overflow h call
    obtain ⟨hlater, hleft⟩ := ih hoverflow
    refine ⟨hlater, hleft.trans ?_⟩
    rw [hdepth, List.count_cons, Nat.sub_sub, Nat.add_comm]

/-- The first level that is asked for when the limit is reached is refused, and its place stays on
record. -/
theorem run_of_refused (hdepth : s.depth = 0) (hoverflow : s.overflow = none)
    {before after calls : List Call} (h : FirstRefused before after calls) :
    (s.run before).enterNested.1 = false ∧
      (s.run calls).overflow = some (s.run before).position ∧
      (s.run calls).depth = nestingLimit - after.count .exitNested := by
  obtain ⟨rfl, hfull, hfirst⟩ := h
  obtain ⟨hnone, hlevel, -⟩ := run_of_unrefused hdepth hoverflow hfirst
  have hrefused := enterNested_of_full hnone (hlevel.trans hfull)
  have hnext : (s.run before).perform .enterNested =
      { s.run before with overflow := some (s.run before).position } := by
    rw [perform, hrefused]
  obtain ⟨hlater, hleft⟩ := run_of_overflow (s := (s.run before).perform .enterNested)
    (i := (s.run before).position) (by rw [hnext]) after
  rw [run_append, hrefused]
  refine ⟨rfl, hlater, hleft.trans ?_⟩
  rw [hnext]
  exact congrArg (· - after.count .exitNested) (hlevel.trans hfull)

theorem run_overflow_eq_none_iff (hdepth : s.depth = 0) (hoverflow : s.overflow = none)
    {calls : List Call} : (s.run calls).overflow = none ↔ Unrefused calls := by
  constructor
  · intro hnone
    rcases unrefused_or calls with h | ⟨before, after, h⟩
    · exact h
    · rw [(run_of_refused hdepth hoverflow h).2.1] at hnone
      exact absurd hnone (Option.some_ne_none _)
  · intro h
    exact (run_of_unrefused hdepth hoverflow h).1

/-- What stays on record is the place at which the first level was refused. -/
theorem run_overflow_iff (hdepth : s.depth = 0) (hoverflow : s.overflow = none)
    {calls : List Call} (i : Nat) : (s.run calls).overflow = some i ↔
      ∃ before after, FirstRefused before after calls ∧ i = (s.run before).position := by
  constructor
  · intro hsome
    have hrefused : ¬ Unrefused calls := by
      rw [← run_overflow_eq_none_iff hdepth hoverflow, hsome]
      exact Option.some_ne_none i
    obtain ⟨before, after, h⟩ := not_unrefused_iff.mp hrefused
    rw [(run_of_refused hdepth hoverflow h).2.1] at hsome
    exact ⟨before, after, h, (Option.some.inj hsome).symm⟩
  · rintro ⟨before, after, h, rfl⟩
    exact (run_of_refused hdepth hoverflow h).2.1

theorem run_depth_le (hdepth : s.depth = 0) (hoverflow : s.overflow = none) (calls : List Call) :
    (s.run calls).depth ≤ nestingLimit := by
  rcases unrefused_or calls with h | ⟨before, after, h⟩
  · obtain ⟨-, hlevel, hle⟩ := run_of_unrefused hdepth hoverflow h
    exact hlevel ▸ hle
  · rw [(run_of_refused hdepth hoverflow h).2.2]
    exact Nat.sub_le _ _

/-- What a state that was `start` says after the calls. -/
structure Accounted (start : ParseState ι V) (calls : List Call) : Prop where
  position_eq : (start.run calls).position = cursor start.tokens.size calls
  /-- The furthest place is that of the furthest failure, and 0 without one. -/
  furthest_eq : (start.run calls).furthest =
    ((failures start.tokens.size calls).map (·.1)).foldl max 0
  /-- What was expected there, each text once, the first to be recorded in front. -/
  expected_eq : (start.run calls).expected =
    FailureRecord.textsAt (start.run calls).furthest (failures start.tokens.size calls)
  depth_le : (start.run calls).depth ≤ nestingLimit
  depth_eq : (start.run calls).overflow = none → (start.run calls).depth = level calls
  /-- Where the first level was refused. -/
  overflow_iff : ∀ i, (start.run calls).overflow = some i ↔
    ∃ before after, FirstRefused before after calls ∧ i = cursor start.tokens.size before
  refused : ∀ before after, FirstRefused before after calls →
    (start.run before).depth = nestingLimit ∧ (start.run before).enterNested.1 = false
  /-- Afterwards none is entered, whatever is left in between. -/
  stays : ∀ i, (start.run calls).overflow = some i → ∀ later,
    (start.run (calls ++ later)).overflow = some i ∧
      (start.run (calls ++ later)).enterNested = (false, start.run (calls ++ later))

/-- Whatever is called on a state at the beginning of a parse, its record is that of the furthest
place at which a failure was recorded, and its levels are counted up to the first that was refused,
after which it refuses all. -/
theorem calls_accounted (strategy : Strategy) (tokens : Array Token) (calls : List Call) :
    (strategy.start tokens : ParseState ι V).Accounted calls := by
  generalize hstart : (strategy.start tokens : ParseState ι V) = start
  obtain ⟨-, hposition, hrecord, hdepth, hoverflow⟩ := start_fresh hstart
  have hcursor : ∀ calls, (start.run calls).position = cursor start.tokens.size calls := by
    intro calls
    rw [(start.run_moved calls).1, hposition, cursor]
  have hnotes : (start.run calls).record =
      .noteAll ⟨0, []⟩ (failures start.tokens.size calls) := by
    rw [(start.run_moved calls).2, hposition, hrecord, failures]
  have hfurthest := (congrArg FailureRecord.furthest hnotes).trans
    (FailureRecord.furthest_noteAll_start _)
  have hexpected := (congrArg FailureRecord.expected hnotes).trans
    (FailureRecord.expected_noteAll _)
  rw [← hnotes] at hexpected
  refine ⟨hcursor calls, hfurthest, hexpected, run_depth_le hdepth hoverflow calls, fun h => ?_,
    fun i => ?_, fun before after h => ?_, fun i h later => ?_⟩
  · have hunrefused := (run_overflow_eq_none_iff hdepth hoverflow).mp h
    exact (run_of_unrefused hdepth hoverflow hunrefused).2.1
  · simp only [run_overflow_iff hdepth hoverflow, hcursor]
  · obtain ⟨-, hlevel, -⟩ := run_of_unrefused hdepth hoverflow h.unrefused
    exact ⟨hlevel.trans h.full, (run_of_refused hdepth hoverflow h).1⟩
  · rw [run_append]
    have hlater := (run_of_overflow h later).1
    exact ⟨hlater, enterNested_of_overflow hlater⟩

/-- A failure behind the first token hides those in front of it, earlier and later ones. -/
example : ((ofTokens #[default, default] : ParseState Nat Nat).run
    [.recordFailure "number", .advance, .recordFailure "identifier", .recordFailure "identifier",
      .restore 0, .recordFailure "string"]).expected = ["identifier"] := rfl

end ParseState

end Precedence
