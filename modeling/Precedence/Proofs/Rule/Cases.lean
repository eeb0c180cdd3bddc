import Precedence.Rule.Strategy

/-!
# What the tokens and the table decide

Two ways to try something look into the state: what is expected is read or not by the token at the
cursor (`Recognizer.expecting_cases`), and a memoized rule is tried itself unless the table has an
outcome for it, which is then told again (`Recognizer.memoized_cases`). A table begins empty, and an
outcome comes into it only as one that was just found; so whatever is true of each outcome that is
put in is true of all that the table holds, from the start of a parse on (`ParseState.Remembers`).
-/

namespace Precedence

variable {ι V : Type} [BEq ι] [Hashable ι]

namespace ParseState

/-- Each outcome in the table has the property, with the key and the place that it is found under. -/
def Remembers (P : ι → Nat → Outcome V → Prop) (s : ParseState ι V) : Prop :=
  ∀ table, s.memo = some table → ∀ key p o, table[(key, p)]? = some o → P key p o

variable {s : ParseState ι V}

/-- Of failures nothing may be asked. -/
theorem remembers_read_iff {P : ι → Nat → List V → Nat → Prop} :
    s.Remembers (fun key p o => ∀ captures stop, o = some (captures, stop) →
      P key p captures stop) ↔
    ∀ table, s.memo = some table → ∀ key p captures stop,
      table[(key, p)]? = some (some (captures, stop)) → P key p captures stop := by
  constructor
  · intro h table htable key p captures stop hget
    exact h table htable key p _ hget captures stop rfl
  · rintro h table htable key p _ hget captures stop rfl
    exact h table htable key p captures stop hget

variable {P : ι → Nat → Outcome V → Prop}

theorem remembers_start (strategy : Strategy) (tokens : Array Token) :
    (strategy.start tokens : ParseState ι V).Remembers P := by
  intro table htable key p o hget
  cases strategy with
  | backtracking => simp [Strategy.start, ofTokens] at htable
  | packrat =>
    obtain rfl : ∅ = table := by simpa [Strategy.start, memoizing] using htable
    simp at hget

theorem Remembers.remember [LawfulBEq ι] (h : s.Remembers P) {key : ι} {p : Nat} {o : Outcome V}
    (ho : P key p o) : (s.remember key p o).Remembers P := by
  intro table htable key' p' o' hget
  obtain ⟨table, hmemo, rfl⟩ := Option.map_eq_some_iff.mp htable
  rw [Std.HashMap.getElem?_insert] at hget
  by_cases hk : ((key, p) == (key', p')) = true
  · rw [if_pos hk] at hget
    obtain ⟨rfl, rfl⟩ := Prod.mk.injEq .. ▸ eq_of_beq hk
    obtain rfl : o = o' := by simpa using hget
    exact ho
  · rw [if_neg hk] at hget
    exact h table hmemo key' p' o' hget

theorem Remembers.remembered (h : s.Remembers P) {key : ι} {o : Outcome V}
    (hget : s.remembered? key = some o) : P key s.position o := by
  obtain ⟨table, htable, hget⟩ := Option.bind_eq_some_iff.mp hget
  exact h table htable key s.position o hget

end ParseState

namespace Recognizer

/-- The next token is one that is wanted, and is read; or there is none such, and that is noted. -/
theorem expecting_cases (what : String) (wanted : Token → Bool) (capture : Token → List V)
    (s : ParseState ι V) :
    (∃ token, s.tokens[s.position]? = some token ∧ wanted token ∧
      expecting what wanted capture s = (some (capture token), s.restore (s.position + 1))) ∨
    (∀ token, s.tokens[s.position]? = some token → ¬ wanted token) ∧
      expecting what wanted capture s = (none, s.recordFailure what) := by
  unfold expecting ParseState.peek
  rcases s.tokens[s.position]? with _ | token
  · exact Or.inr ⟨by simp, rfl⟩
  · by_cases hw : wanted token
    · exact Or.inl ⟨token, rfl, hw, by simp only [if_pos hw]⟩
    · refine Or.inr ⟨?_, by simp only [if_neg hw]⟩
      rintro _ ⟨⟩
      exact hw

/-- Without a table the rule is tried; with one, it is tried and its outcome remembered, or else the
outcome in the table is told again. -/
theorem memoized_cases (key : ι) (r : Recognizer ι V) (s : ParseState ι V) :
    (¬ s.isMemoizing ∧ memoized key r s = r s) ∨
    (s.isMemoizing ∧ s.remembered? key = none ∧
      memoized key r s = ((r s).1, (r s).2.remember key s.position
        ((r s).1.map fun captures => (captures, (r s).2.position)))) ∨
    (s.isMemoizing ∧ s.remembered? key = some none ∧ memoized key r s = (none, s)) ∨
    ∃ captures stop, s.isMemoizing ∧ s.remembered? key = some (some (captures, stop)) ∧
      memoized key r s = (some captures, s.restore stop) := by
  unfold memoized
  by_cases hm : s.isMemoizing
  · rw [if_pos hm]
    rcases s.remembered? key with _ | _ | ⟨captures, stop⟩
    · exact Or.inr (Or.inl ⟨hm, rfl, rfl⟩)
    · exact Or.inr (Or.inr (Or.inl ⟨hm, rfl, rfl⟩))
    · exact Or.inr (Or.inr (Or.inr ⟨captures, stop, hm, rfl, rfl⟩))
  · rw [if_neg hm]
    exact Or.inl ⟨hm, rfl⟩

end Recognizer

end Precedence
