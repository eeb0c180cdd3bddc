import Precedence.Proofs.Grammar.Strategies

/-!
# Options that can be used

Options are usable if their table has levels, none of them empty, with no operator twice and no
slash beside regular expressions (`GrammarOptions.Consistent`). In any others a reader who goes
through the table level by level and operator by operator comes upon an entry that is wrong after
those in front of it. The first such entry decides what is reported
(`GrammarOptions.fault?_eq_some_iff`), and nothing else keeps options from making a grammar
(`Grammar.validates_exactly`).
-/

namespace Precedence

namespace GrammarOptions

/-- What the table must be like. -/
structure Consistent (options : GrammarOptions) : Prop where
  levels : options.precedence ≠ []
  filled : ∀ level ∈ options.precedence, level ≠ []
  distinct : options.precedence.flatten.Nodup
  slash : .divide ∈ options.precedence.flatten → options.regexLiterals = false

/-! ### Reading a table -/

/-- What the reader of a table comes upon: a level, and then each of its operators. -/
inductive Entry where
  | level (number : Nat) (operators : List BinaryOperator)
  | operator (op : BinaryOperator)

def Entry.operator? : Entry → Option BinaryOperator
  | level _ _ => none
  | operator op => some op

/-- The entries of levels that are counted from `number`. -/
def entries (number : Nat) : List (List BinaryOperator) → List Entry
  | [] => []
  | level :: levels =>
    .level number level :: (level.map .operator ++ entries (number + 1) levels)

/-- What is wrong with an entry that comes behind others. -/
inductive Violates (regexLiterals : Bool) (before : List Entry) : Entry → OptionsFault → Prop
  | emptyLevel (number : Nat) :
    Violates regexLiterals before (.level number []) (.emptyLevel number)
  | ambiguousSlash (h : regexLiterals = true) :
    Violates regexLiterals before (.operator .divide) .ambiguousSlash
  | repeated {op : BinaryOperator} (h : .operator op ∈ before) :
    Violates regexLiterals before (.operator op) (.repeated op)

/-- Nothing is wrong with any of the entries. -/
def Clean (regexLiterals : Bool) (entries : List Entry) : Prop :=
  ∀ before entry after fault, entries = before ++ entry :: after →
    ¬ Violates regexLiterals before entry fault

/-- The fault is that of the first entry with which something is wrong. -/
def FirstViolation (regexLiterals : Bool) (entries : List Entry) (fault : OptionsFault) : Prop :=
  ∃ before entry after, entries = before ++ entry :: after ∧ Clean regexLiterals before ∧
    Violates regexLiterals before entry fault

/-- What the reader of the table meets first. -/
inductive FirstFault (options : GrammarOptions) : OptionsFault → Prop
  | noLevels (h : options.precedence = []) : FirstFault options .noLevels
  | violation {fault : OptionsFault}
    (h : FirstViolation options.regexLiterals (entries 1 options.precedence) fault) :
    FirstFault options fault

variable {regexLiterals : Bool} {before items : List Entry} {entry : Entry}
  {fault fault' : OptionsFault}

theorem filterMap_entries (number : Nat) (levels : List (List BinaryOperator)) :
    (entries number levels).filterMap Entry.operator? = levels.flatten := by
  induction levels generalizing number with
  | nil => rfl
  | cons level levels ih =>
    have hlevel : (level.map Entry.operator).filterMap Entry.operator? = level := by
      rw [List.filterMap_map]
      exact List.filterMap_some
    rw [entries, List.filterMap_cons_none rfl, List.filterMap_append, hlevel, ih,
      List.flatten_cons]

theorem operator_mem_entries {number : Nat} {levels : List (List BinaryOperator)}
    {op : BinaryOperator} : .operator op ∈ entries number levels ↔ op ∈ levels.flatten := by
  rw [← filterMap_entries number, List.mem_filterMap]
  constructor
  · exact fun h => ⟨_, h, rfl⟩
  · rintro ⟨_ | op', hmem, hop⟩
    · simp [Entry.operator?] at hop
    · obtain rfl := Option.some.inj hop
      exact hmem

theorem level_mem_entries (number : Nat) {levels : List (List BinaryOperator)}
    {level : List BinaryOperator} :
    (∃ i, .level i level ∈ entries number levels) ↔ level ∈ levels := by
  induction levels generalizing number with
  | nil => simp [entries]
  | cons first levels ih =>
    simp only [entries, List.mem_cons, List.mem_append, List.mem_map, reduceCtorEq, and_false,
      exists_false, false_or, Entry.level.injEq]
    rw [← ih (number + 1), exists_or]
    simp

theorem clean_nil : Clean regexLiterals [] :=
  fun before entry after fault h => by simp at h

theorem Clean.concat (h : Clean regexLiterals before)
    (hentry : ∀ fault, ¬ Violates regexLiterals before entry fault) :
    Clean regexLiterals (before ++ [entry]) := by
  intro front item after fault heq
  rcases List.eq_nil_or_concat after with rfl | ⟨after, last, rfl⟩
  · obtain ⟨rfl, hlast⟩ := List.append_inj' heq rfl
    exact List.singleton_inj.mp hlast ▸ hentry fault
  · rw [List.concat_eq_append, ← List.cons_append, ← List.append_assoc] at heq
    exact h front item after fault (List.append_inj' heq rfl).1

theorem Clean.not_firstViolation (h : Clean regexLiterals items) :
    ¬ FirstViolation regexLiterals items fault :=
  fun ⟨before, entry, after, heq, _, hviolates⟩ => h before entry after fault heq hviolates

/-- An entry behind entries with which nothing is wrong has one fault at most. -/
theorem Violates.unique (hclean : Clean regexLiterals before)
    (h : Violates regexLiterals before entry fault)
    (h' : Violates regexLiterals before entry fault') : fault = fault' := by
  have hslash : regexLiterals = true → .operator .divide ∉ before := by
    intro hregex hmem
    obtain ⟨front, after, rfl⟩ := List.append_of_mem hmem
    exact hclean front _ after _ rfl (.ambiguousSlash hregex)
  cases h with
  | emptyLevel number =>
    cases h'
    rfl
  | ambiguousSlash hregex =>
    cases h' with
    | ambiguousSlash _ => rfl
    | repeated hmem => exact absurd hmem (hslash hregex)
  | repeated hmem =>
    cases h' with
    | ambiguousSlash hregex => exact absurd hmem (hslash hregex)
    | repeated _ => rfl

/-- Of two entries that each come behind entries with which nothing is wrong, neither can be in
front of the other. -/
theorem Violates.unique_of_clean {between after after' : List Entry} {entry' : Entry}
    (heq : entry :: after = between ++ entry' :: after') (hclean : Clean regexLiterals before)
    (hclean' : Clean regexLiterals (before ++ between))
    (h : Violates regexLiterals before entry fault)
    (h' : Violates regexLiterals (before ++ between) entry' fault') : fault = fault' := by
  rcases between with _ | ⟨first, between⟩
  · rw [List.append_nil] at h'
    obtain ⟨rfl, -⟩ := List.cons.inj heq
    exact h.unique hclean h'
  · obtain ⟨rfl, -⟩ := List.cons.inj heq
    exact absurd h (hclean' before entry between fault rfl)

theorem FirstViolation.unique (h : FirstViolation regexLiterals items fault)
    (h' : FirstViolation regexLiterals items fault') : fault = fault' := by
  obtain ⟨before, entry, after, rfl, hclean, hviolates⟩ := h
  obtain ⟨before', entry', after', heq, hclean', hviolates'⟩ := h'
  rcases List.append_eq_append_iff.mp heq with ⟨between, rfl, hrest⟩ | ⟨between, rfl, hrest⟩
  · exact hviolates.unique_of_clean hrest hclean hclean' hviolates'
  · exact (hviolates'.unique_of_clean hrest hclean' hclean hviolates).symm

/-! ### The first fault is found -/

/-- Behind `before` that is the first fault of the items, if they have one. -/
def Finds (regexLiterals : Bool) (before items : List Entry) : Option OptionsFault → Prop
  | none => Clean regexLiterals (before ++ items)
  | some fault => ∃ front entry after, items = front ++ entry :: after ∧
      Clean regexLiterals (before ++ front) ∧ Violates regexLiterals (before ++ front) entry fault

theorem finds_entry (h : Clean regexLiterals before)
    (hviolates : Violates regexLiterals before entry fault) (items : List Entry) :
    Finds regexLiterals before (entry :: items) (some fault) :=
  ⟨[], entry, items, rfl, by rwa [List.append_nil], by rwa [List.append_nil]⟩

theorem Finds.orElse {items' : List Entry} {found found' : Option OptionsFault}
    (h : Finds regexLiterals before items found)
    (h' : Clean regexLiterals (before ++ items) →
      Finds regexLiterals (before ++ items) items' found') :
    Finds regexLiterals before (items ++ items') (found <|> found') := by
  rcases found with _ | fault
  · have hlater := h' h
    rcases found' with _ | fault
    · have hboth : Clean regexLiterals (before ++ items ++ items') := hlater
      rwa [List.append_assoc] at hboth
    · obtain ⟨front, entry, after, rfl, hclean, hviolates⟩ := hlater
      rw [List.append_assoc] at hclean hviolates
      exact ⟨items ++ front, entry, after, (List.append_assoc ..).symm, hclean, hviolates⟩
  · obtain ⟨front, entry, after, rfl, hclean, hviolates⟩ := h
    exact ⟨front, entry, after ++ items', by simp, hclean, hviolates⟩

theorem faultInLevel?_finds {ops seen : List BinaryOperator} (h : Clean regexLiterals before)
    (hseen : ∀ op, op ∈ seen ↔ .operator op ∈ before) :
    Finds regexLiterals before (ops.map .operator) (faultInLevel? regexLiterals seen ops) := by
  induction ops generalizing seen before with
  | nil =>
    rw [List.map_nil, faultInLevel?, Finds, List.append_nil]
    exact h
  | cons op ops ih =>
    rw [List.map_cons, faultInLevel?]
    split_ifs with hslash hold
    · simp only [Bool.and_eq_true, decide_eq_true_eq] at hslash
      obtain ⟨rfl, hregex⟩ := hslash
      exact finds_entry h (.ambiguousSlash hregex) _
    · exact finds_entry h (.repeated ((hseen op).mp (List.contains_iff_mem.mp hold))) _
    · have hentry : ∀ fault, ¬ Violates regexLiterals before (.operator op) fault := by
        rintro fault (_ | ⟨hregex⟩ | ⟨hmem⟩)
        · exact hslash (by simpa using hregex)
        · exact hold (List.contains_iff_mem.mpr ((hseen op).mpr hmem))
      have hfinds : Finds regexLiterals before [.operator op] none := h.concat hentry
      refine hfinds.orElse fun hclean => ih hclean fun op' => ?_
      simp [hseen, or_comm]

theorem faultInLevels?_finds {levels : List (List BinaryOperator)} {seen : List BinaryOperator}
    {number : Nat} (h : Clean regexLiterals before)
    (hseen : ∀ op, op ∈ seen ↔ .operator op ∈ before) :
    Finds regexLiterals before (entries number levels)
      (faultInLevels? regexLiterals seen number levels) := by
  induction levels generalizing seen before number with
  | nil =>
    rw [entries, faultInLevels?, Finds, List.append_nil]
    exact h
  | cons level levels ih =>
    rw [entries, faultInLevels?]
    split_ifs with hempty
    · obtain rfl := List.isEmpty_iff.mp hempty
      exact finds_entry h (.emptyLevel number) _
    · have hentry : ∀ fault, ¬ Violates regexLiterals before (.level number level) fault := by
        rintro fault ⟨⟩
        exact hempty rfl
      have hfinds : Finds regexLiterals before [.level number level] none := h.concat hentry
      refine hfinds.orElse fun hclean => (faultInLevel?_finds hclean fun op => ?_).orElse
        fun hclean' => ih hclean' fun op => ?_
      · simp [hseen]
      · simp [hseen, or_comm]

theorem fault?_finds {options : GrammarOptions} (h : options.precedence ≠ []) :
    Finds options.regexLiterals [] (entries 1 options.precedence) options.fault? := by
  rw [fault?, if_neg (by simpa using h)]
  exact faultInLevels?_finds clean_nil (by simp)

/-- What is reported is what the reader of the table meets first. -/
theorem fault?_eq_some_iff {options : GrammarOptions} :
    options.fault? = some fault ↔ FirstFault options fault := by
  by_cases hlevels : options.precedence = []
  · have hfault : options.fault? = some .noLevels := by
      rw [fault?, hlevels, List.isEmpty_nil, if_pos rfl]
    rw [hfault]
    constructor
    · intro h
      obtain rfl := Option.some.inj h
      exact .noLevels hlevels
    · rintro (_ | ⟨_, _, _, h, -⟩)
      · rfl
      · simp [hlevels, entries] at h
  · have hfinds := fault?_finds hlevels
    constructor
    · intro h
      rw [h] at hfinds
      exact .violation hfinds
    · rintro (h | h)
      · exact absurd h hlevels
      · rcases hfault : options.fault? with _ | fault'
        · rw [hfault] at hfinds
          exact absurd h (Clean.not_firstViolation hfinds)
        · rw [hfault] at hfinds
          exact congrArg some (FirstViolation.unique hfinds h)

/-- The reader of a consistent table meets no fault. -/
theorem Consistent.not_firstFault {options : GrammarOptions} (h : options.Consistent) :
    ¬ FirstFault options fault := by
  rintro (hlevels | ⟨before, entry, after, heq, -, hviolates⟩)
  · exact h.levels hlevels
  have hentry : entry ∈ entries 1 options.precedence := by simp [heq]
  cases hviolates with
  | emptyLevel number => exact h.filled [] ((level_mem_entries _).mp ⟨number, hentry⟩) rfl
  | ambiguousSlash hregex =>
    rw [h.slash (operator_mem_entries.mp hentry)] at hregex
    simp at hregex
  | @repeated op hmem =>
    have hdistinct := h.distinct
    rw [← filterMap_entries 1, heq, List.filterMap_append, List.nodup_append] at hdistinct
    exact hdistinct.2.2 op (List.mem_filterMap.mpr ⟨_, hmem, rfl⟩) op
      (List.mem_filterMap.mpr ⟨_, List.mem_cons_self, rfl⟩) rfl

theorem fault?_eq_none_iff {options : GrammarOptions} :
    options.fault? = none ↔ options.Consistent := by
  constructor
  · intro h
    have hlevels : options.precedence ≠ [] := by
      intro hlevels
      simp [fault?, hlevels] at h
    obtain ⟨hdistinct, hslash⟩ := table_of_fault?_eq_none h
    have hclean := fault?_finds hlevels
    rw [h] at hclean
    refine ⟨hlevels, ?_, hdistinct, hslash⟩
    rintro _ hmem rfl
    obtain ⟨number, hentry⟩ := (level_mem_entries 1).mpr hmem
    obtain ⟨before, after, heq⟩ := List.append_of_mem hentry
    exact hclean before _ after _ heq (.emptyLevel number)
  · intro h
    rcases hfault : options.fault? with _ | fault
    · rfl
    · exact absurd (fault?_eq_some_iff.mp hfault) h.not_firstFault

theorem validate_eq_ok_iff {options : GrammarOptions} :
    options.validate = .ok options ↔ options.fault? = none := by
  rcases hfault : options.fault? with _ | fault <;> simp [validate, hfault]

theorem validate_eq_error_iff {options : GrammarOptions} {failure : Failure} :
    options.validate = .error failure ↔ ∃ fault, options.fault? = some fault ∧
      failure = fault.failure := by
  rcases hfault : options.fault? with _ | fault <;> simp [validate, hfault, eq_comm]

end GrammarOptions

namespace Grammar

open GrammarOptions

/-- Options with a fault make no grammar, for that reason. -/
theorem ofOptions_eq_error {options : GrammarOptions} {fault : OptionsFault}
    (h : options.fault? = some fault) : ofOptions options = .error fault.failure := by
  rw [ofOptions, validate, h]
  rfl

/-- Options are accepted exactly if their table is consistent, and refused for the first fault that
a reader of the table meets; with either strategy they make a grammar exactly if they are accepted,
and are refused for the same reason otherwise. -/
theorem validates_exactly (options : GrammarOptions) :
    (options.validate = .ok options ↔ options.Consistent) ∧
    (∀ failure, options.validate = .error failure ↔
      ∃ fault, FirstFault options fault ∧ failure = fault.failure) ∧
    ∀ strategy,
      ((∃ grammar, ofOptions (withStrategy options strategy) = .ok grammar) ↔
        options.validate = .ok options) ∧
      ∀ failure, ofOptions (withStrategy options strategy) = .error failure ↔
        options.validate = .error failure := by
  refine ⟨validate_eq_ok_iff.trans fault?_eq_none_iff, fun failure => ?_, fun strategy => ?_⟩
  · simp only [validate_eq_error_iff, fault?_eq_some_iff]
  rw [validate_eq_ok_iff]
  simp only [validate_eq_error_iff]
  have hsame : (withStrategy options strategy).fault? = options.fault? := rfl
  rcases hfault : options.fault? with _ | fault
  · simp [ofOptions_eq (hsame.trans hfault)]
  · simp [ofOptions_eq_error (hsame.trans hfault), eq_comm]

end Grammar

end Precedence
