import Precedence.Proofs.Grammar.Correctness
import Precedence.Proofs.Grammar.Values
import Precedence.Proofs.Rule.Transparency

/-!
# Errors are where they belong

A row of tokens is viable if a program can begin with it. Where a parse fails, and not for its depth,
the failure points behind the longest viable beginning of the tokens; it says that input is left over
if that beginning is a program itself, and otherwise it lists just what could follow
(`errors_located`). That the furthest failure lies no further and lists no more is what the rules
foresee; that it lies no nearer and lists no less follows by comparing the parse with that of a
program which begins alike (`reads_or_parts`).
-/

namespace Precedence

/-- The index of the token that a failure points at. -/
def Failure.tokenIndex? : Failure → Option Nat
  | unexpected _ _ i _ => some i
  | trailing _ i _ => some i
  | _ => none

namespace Grammar

open Trace

/-- All of the tokens are a program, however deep. -/
def Complete (options : GrammarOptions) (tokens : List Token) : Prop :=
  ∃ d e, Compound options .program d tokens e

/-- A program can begin with the tokens. -/
def Viable (options : GrammarOptions) (tokens : List Token) : Prop :=
  ∃ rest, Complete options (tokens ++ rest)

variable {options : GrammarOptions}

theorem Viable.of_append {ts us : List Token} (h : Viable options (ts ++ us)) :
    Viable options ts := by
  obtain ⟨rest, h⟩ := h
  exact ⟨us ++ rest, by rwa [← List.append_assoc]⟩

theorem Complete.viable {ts : List Token} (h : Complete options ts) : Viable options ts :=
  ⟨[], by rwa [List.append_nil]⟩

/-- Two rows that are the same up to a place, with programs as what is looked for. -/
def comparison (options : GrammarOptions) {tokens others : List Token} {i : Nat}
    (hi : i ≤ tokens.length) (hsame : others.take i = tokens.take i) : Comparison where
  tokens := tokens.toArray
  others := others.toArray
  common := i
  common_le := hi
  same p hp := by
    have h := congrArg (·[p]?) hsame
    simpa [List.getElem?_take, hp] using h
  viable := Viable options
  viable_of_append _ _ := Viable.of_append

/-- What trying the program at the first token comes to. -/
abbrev programTrace (options : GrammarOptions) (tokens : List Token) :
    Trace Production (Outcome Part) :=
  attempt options tokens.toArray nestingLimit (program options) 0

/-- The failures of the parse, as they are on record at its end. -/
abbrev programRecord (options : GrammarOptions) (tokens : List Token) : FailureRecord :=
  FailureRecord.noteAll ⟨0, []⟩ (programTrace options tokens).failures

/-- The failure points behind the longest viable beginning of the tokens, and says what is wrong. -/
structure Locates (options : GrammarOptions) (tokens : List Token) (i : Nat) (failure : Failure) :
    Prop where
  tokenIndex?_eq : failure.tokenIndex? = some i
  le : i ≤ tokens.length
  viable : Viable options (tokens.take i)
  not_viable : i < tokens.length → ¬ Viable options (tokens.take (i + 1))
  left_over : i < tokens.length ∧ Complete options (tokens.take i) →
    failure = trailing tokens.toArray i
  unfinished : ¬ (i < tokens.length ∧ Complete options (tokens.take i)) →
    ∃ expected, failure = unexpected tokens.toArray expected i ∧ expected.Nodup ∧
      ∀ what, what ∈ expected ↔
        ∃ t : Token, t.terminal = what ∧ Viable options (tokens.take i ++ [t])

section Parse

variable {tokens : List Token} {c : List Part} {q : Nat}

/-- What is read is a program. -/
theorem complete_of_reads (h : (programTrace options tokens).Reads c q) :
    q ≤ tokens.length ∧ Complete options (tokens.take q) := by
  obtain ⟨d, ts, e, -, he, hs, -⟩ := program_sound nestingLimit 0 c q h
  have htake := hs.take_eq
  rw [List.take_zero, List.nil_append] at htake
  exact ⟨hs.le_size (Nat.zero_le _), d, e, htake ▸ he⟩

variable (hvalue : ∀ t ∈ tokens, HasValue t)

include hvalue

theorem comparison_directs (options : GrammarOptions) {others : List Token} {i : Nat}
    (hi : i ≤ tokens.length) (hsame : others.take i = tokens.take i) (levels : Nat) :
    (program options).Directs (comparison options hi hsame) levels
      ((graph options).traceBehind tokens.toArray levels)
      ((graph options).traceBehind others.toArray levels) (Tree (Compound options .program)) :=
  program_directs (by simpa [comparison] using hvalue) levels

/-- A failure is noted where the tokens could go on with what is missing. -/
theorem foresees_failure {f : Nat × String} (hf : f ∈ (programTrace options tokens).failures) :
    f.1 ≤ tokens.length ∧
      ∃ t : Token, t.terminal = f.2 ∧ Viable options (tokens.take f.1 ++ [t]) := by
  have hdirects := comparison_directs hvalue options (Nat.le_refl _) rfl nestingLimit
  refine hdirects.foresees (p := 0) ⟨Nat.zero_le _, fun ts c ⟨d, e, he, _⟩ => ?_⟩ f hf
  exact Complete.viable ⟨d, e, he⟩

theorem noted_of_fails (h : (programTrace options tokens).Fails) :
    ∃ f, f ∈ (programTrace options tokens).failures := by
  have hdirects := comparison_directs hvalue options (Nat.le_refl _) rfl nestingLimit
  exact (hdirects.loud 0 h).imp fun _ h => h.1

section Stuck

variable (hnodup : options.precedence.flatten.Nodup) (hok : ¬ (programTrace options tokens).Refuses)

include hnodup hok

/-- A parse that is not refused reads just what the parse of any program that begins alike reads, or
it notes at the place where the two part what the program has there. -/
theorem reads_or_parts {others : List Token} {i : Nat} (hi : i ≤ tokens.length)
    (hothers : Complete options others) (hsame : others.take i = tokens.take i)
    (hreads : ∀ c q, (programTrace options tokens).Reads c q → q ≤ i)
    (hnoted : ∀ f ∈ (programTrace options tokens).failures, f.1 ≤ i) :
    (∃ c, (programTrace options tokens).Reads c others.length) ∨
      ∃ token, others[i]? = some token ∧
        (i, token.terminal) ∈ (programTrace options tokens).failures := by
  obtain ⟨d, e, he⟩ := hothers
  -- with levels enough for the other row, this one still comes to the same
  have hlevels : nestingLimit ≤ max nestingLimit d := Nat.le_max_left _ _
  obtain ⟨o, ho⟩ : ∃ o, (programTrace options tokens).result = .ok o := by
    rcases hr : (programTrace options tokens).result with j | o
    · exact absurd ⟨j, hr⟩ hok
    · exact ⟨o, rfl⟩
  obtain ⟨hresult, hfailures, -⟩ := (graph options).refines keyed_behind nestingLimit
    (Nat.le_refl nestingLimit) (program options) keyed_program _ hlevels 0 o ho
  have hcomplete := (program_complete hnodup he (max nestingLimit d)).1 (Nat.le_max_right _ _)
  have hdirects := comparison_directs hvalue options hi hsame (max nestingLimit d)
  have hstays : (comparison options hi hsame).Stays
      (attempt options tokens.toArray (max nestingLimit d) (program options) 0) := by
    refine ⟨fun ⟨j, hj⟩ => absurd (hj.symm.trans hresult) (by simp), fun {c q} h => ?_, ?_⟩
    · exact hreads c q (ho.trans (hresult.symm.trans h))
    · rw [attempt, hfailures]
      exact hnoted
  rcases hdirects.agrees (p := 0) (Nat.zero_le _) hstays with h | ⟨token, htoken, h⟩
  · exact Or.inl ⟨_, ho.trans (hresult.symm.trans (h.trans hcomplete))⟩
  · exact Or.inr ⟨token, by simpa [comparison] using htoken, hfailures ▸ h⟩

/-- No program begins with one more token than the parse came to. -/
theorem not_viable_of_stays {i : Nat} (hi : i < tokens.length)
    (hreads : ∀ c q, (programTrace options tokens).Reads c q → q ≤ i)
    (hnoted : ∀ f ∈ (programTrace options tokens).failures, f.1 ≤ i) :
    ¬ Viable options (tokens.take (i + 1)) := by
  rintro ⟨rest, h⟩
  have hlength : (tokens.take (i + 1)).length = i + 1 := List.length_take_of_le hi
  have hsame : (tokens.take (i + 1) ++ rest).take (i + 1) = tokens.take (i + 1) :=
    List.take_left' hlength
  rcases reads_or_parts hvalue hnodup hok hi h hsame
    (fun c q h => Nat.le_succ_of_le (hreads c q h))
    (fun f hf => Nat.le_succ_of_le (hnoted f hf)) with ⟨c, h⟩ | ⟨token, -, h⟩
  · have := hreads _ _ h
    rw [List.length_append, hlength] at this
    omega
  · have := hnoted _ h
    simp only at this
    omega

/-- Where the furthest failure lies beyond what was read, it tells what could follow. -/
theorem locates_furthest
    (hreads : ∀ c q, (programTrace options tokens).Reads c q →
      q < (programRecord options tokens).furthest) :
    Locates options tokens (programRecord options tokens).furthest
      (unexpected tokens.toArray (programRecord options tokens).expected
        (programRecord options tokens).furthest) := by
  have hreads' := fun c q h => Nat.le_of_lt (hreads c q h)
  have hholds : ∀ f ∈ (programTrace options tokens).failures,
      (programRecord options tokens).Holds f := fun f hf => FailureRecord.holds_noteAll hf
  have hnoted : ∀ f ∈ (programTrace options tokens).failures,
      f.1 ≤ (programRecord options tokens).furthest := fun f hf =>
    (hholds f hf).le
  obtain ⟨what, hwhat⟩ : ∃ what, ((programRecord options tokens).furthest, what) ∈
      (programTrace options tokens).failures := by
    rcases hnone : (programTrace options tokens).failures with _ | ⟨f, failures⟩
    · rcases (programTrace options tokens).cases with ⟨c, q, h⟩ | h | h
      · exact absurd (hreads c q h) (by simp [programRecord, hnone, FailureRecord.noteAll])
      · obtain ⟨f, hf⟩ := noted_of_fails hvalue h
        simp [hnone] at hf
      · exact absurd h hok
    · rw [← hnone]
      exact FailureRecord.exists_mem_furthest (hnone ▸ List.mem_cons_self)
  obtain ⟨hle, t, -, hviable⟩ := foresees_failure hvalue hwhat
  -- no program is compared with this row without parting where the furthest failure is
  have hparts : ∀ {others : List Token}, Complete options others →
      (programRecord options tokens).furthest ≤ others.length →
      others.take (programRecord options tokens).furthest =
        tokens.take (programRecord options tokens).furthest →
      ∃ token, others[(programRecord options tokens).furthest]? = some token ∧
        token.terminal ∈ (programRecord options tokens).expected := by
    intro others hothers hlength hsame
    rcases reads_or_parts hvalue hnodup hok hle hothers hsame hreads' hnoted with
      ⟨c, h⟩ | ⟨token, htoken, h⟩
    · exact absurd (hreads _ _ h) (Nat.not_lt.mpr hlength)
    · exact ⟨token, htoken, (hholds _ h).elim (fun h => absurd h (Nat.lt_irrefl _)) (·.2)⟩
  have hlength : (tokens.take (programRecord options tokens).furthest).length =
      (programRecord options tokens).furthest := List.length_take_of_le hle
  refine ⟨rfl, hle, hviable.of_append, fun hlt =>
    not_viable_of_stays hvalue hnodup hok hlt hreads' hnoted, ?_, fun _ =>
    ⟨_, rfl, FailureRecord.nodup_noteAll (by simp), fun what => ⟨fun h => ?_, ?_⟩⟩⟩
  · rintro ⟨_, h⟩
    obtain ⟨token, htoken, -⟩ := hparts h (Nat.le_of_eq hlength.symm)
      (by rw [List.take_take, Nat.min_self])
    rw [List.getElem?_eq_none (Nat.le_of_eq hlength)] at htoken
    simp at htoken
  · rcases FailureRecord.mem_of_mem_expected h with h | ⟨-, h⟩
    · exact (foresees_failure hvalue h).2
    · simp at h
  · rintro ⟨token, rfl, rest, h⟩
    rw [List.append_assoc] at h
    obtain ⟨token', htoken', hmem⟩ := hparts h (by simp [hlength]) (List.take_left' hlength)
    obtain rfl : token = token' := by
      rw [List.getElem?_append_right (Nat.le_of_eq hlength), hlength, Nat.sub_self] at htoken'
      simpa using htoken'
    exact hmem

/-- Where no failure lies beyond what was read, what is left over is wrong. -/
theorem locates_left (h : (programTrace options tokens).Reads c q) (hq : q < tokens.length)
    (hfurthest : (programRecord options tokens).furthest ≤ q) :
    Locates options tokens q (trailing tokens.toArray q) := by
  obtain ⟨-, hcomplete⟩ := complete_of_reads h
  have hreads : ∀ c' q', (programTrace options tokens).Reads c' q' → q' ≤ q := fun _ _ h' =>
    Nat.le_of_eq (h'.unique h).2
  have hnoted : ∀ f ∈ (programTrace options tokens).failures, f.1 ≤ q := fun f hf =>
    Nat.le_trans (FailureRecord.holds_noteAll (r := ⟨0, []⟩) hf).le hfurthest
  exact ⟨rfl, Nat.le_of_lt hq, hcomplete.viable, fun _ =>
    not_viable_of_stays hvalue hnodup hok hq hreads hnoted, fun _ => rfl,
    fun hnot => absurd ⟨hq, hcomplete⟩ hnot⟩

end Stuck

end Parse

/-- What a parse that is not refused says when it fails. -/
theorem error_cases {tokens : List Token} {failure : Failure}
    (h : verdictOf tokens.toArray (programTrace options tokens) = .error failure)
    (hdepth : ∀ j, failure ≠ tooDeep tokens.toArray j) :
    ¬ (programTrace options tokens).Refuses ∧
      (failure = unexpected tokens.toArray (programRecord options tokens).expected
          (programRecord options tokens).furthest ∧
        (∀ c q, (programTrace options tokens).Reads c q →
          q < (programRecord options tokens).furthest) ∨
      ∃ c q, (programTrace options tokens).Reads c q ∧ q < tokens.length ∧
        (programRecord options tokens).furthest ≤ q ∧ failure = trailing tokens.toArray q) := by
  unfold verdictOf at h
  rcases (programTrace options tokens).cases with ⟨c, q, hread⟩ | hfails | ⟨j, hj⟩
  · refine ⟨hread.not_refuses, ?_⟩
    have hread' := hread
    unfold Reads at hread'
    simp only [hread', Option.map_some, Option.getD_some] at h
    by_cases hnext : q < tokens.length
    · by_cases hf : q < (programRecord options tokens).furthest
      · rw [verdict_of_furthest _ hnext hf] at h
        exact Or.inl ⟨(Except.error.inj h).symm, fun c' q' h' => (hread.unique h').2 ▸ hf⟩
      · rw [verdict_of_left _ hnext hf] at h
        exact Or.inr ⟨c, q, hread, hnext, Nat.le_of_not_lt hf, (Except.error.inj h).symm⟩
    · rw [verdict_of_end _ hnext] at h
      obtain ⟨d, ts, e, -, -, -, rfl⟩ := program_sound nestingLimit 0 c q hread
      simp [Part.expr?] at h
  · refine ⟨?_, Or.inl ⟨?_, fun c q h => absurd hfails h.not_fails⟩⟩
    · rintro ⟨j, hj⟩
      exact absurd (hj.symm.trans hfails) (by simp)
    unfold Fails at hfails
    simp only [hfails] at h
    exact (Except.error.inj h).symm
  · simp only [hj] at h
    exact absurd (Except.error.inj h).symm (hdepth j)

/-- For options without a fault, whichever strategy they ask for: if a parse fails, and not for the
depth of the tokens, then the failure is located exactly, provided that the numbers are finite and
the regular expressions have their patterns; and those of a text are so. -/
theorem errors_located (h : options.validate = .ok options) :
    ∃ grammar, ofOptions options = .ok grammar ∧
      (∀ text tokens, grammar.tokenize text = .ok tokens → ∀ t ∈ tokens, HasValue t) ∧
      ∀ tokens failure, (∀ t ∈ tokens, HasValue t) → grammar.parseTokens tokens = .error failure →
        (∀ j, failure ≠ tooDeep tokens.toArray j) → ∃ i, Locates options tokens i failure := by
  have hfault := (GrammarOptions.fault?_of_validate h).1
  have hnodup := GrammarOptions.nodup_of_fault?_eq_none hfault
  refine ⟨_, ofOptions_eq hfault, fun text tokens => hasValue_of_tokenize,
    fun tokens failure hvalue hparse hdepth => ?_⟩
  rw [parseTokens_eq] at hparse
  obtain ⟨hok, ⟨rfl, hreads⟩ | ⟨c, q, hread, hq, hfurthest, rfl⟩⟩ := error_cases hparse hdepth
  · exact ⟨_, locates_furthest hvalue hnodup hok hreads⟩
  · exact ⟨q, locates_left hvalue hnodup hok hread hq hfurthest⟩

/-- The tokens of `x +`, where an operand is missing. -/
def openSum : List Token :=
  [⟨.identifier, "x", .text "x", [], ⟨0, 1⟩, ⟨1, 1⟩⟩,
    ⟨.verbatim, "+", .text "+", [], ⟨2, 3⟩, ⟨1, 3⟩⟩]

/-- What can begin an operand. -/
def openings : List String :=
  ["`NOT`", "identifier", "string", "number", "null", "boolean", "regex", "`(`"]

theorem missing_operand_located : GrammarOptions.standard.validate = .ok .standard ∧
    ∃ grammar, ofOptions .standard = .ok grammar ∧ (∀ t ∈ openSum, HasValue t) ∧
      grammar.parseTokens openSum = .error (unexpected openSum.toArray openings 2) ∧
        ∃ i, Locates .standard openSum i (unexpected openSum.toArray openings 2) := by
  have hvalid : GrammarOptions.standard.validate = .ok .standard := rfl
  obtain ⟨grammar, hgrammar, -, hlocated⟩ := errors_located hvalid
  have hvalue : ∀ t ∈ openSum, HasValue t := by
    simp [openSum, HasValue]
  have hparse : grammar.parseTokens openSum =
      .error (unexpected openSum.toArray openings 2) := by
    obtain rfl : ⟨.standard, ⟨patternForms .standard⟩⟩ = grammar :=
      Except.ok.inj ((ofOptions_eq rfl).symm.trans hgrammar)
    cbv
  exact ⟨hvalid, grammar, hgrammar, hvalue, hparse, hlocated _ _ hvalue hparse fun j => by
    simp [tooDeep, unexpected, openings]⟩

end Grammar

end Precedence
