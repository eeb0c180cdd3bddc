import Precedence.Grammar.Parse
import Precedence.Proofs.Grammar.PatternForms

/-!
# Grammars exist

All token patterns can be read, so that options without a fault make a grammar
(`Grammar.ofOptions_eq`).
-/

namespace Precedence

namespace Grammar

/-- The patterns of a grammar, read. -/
def patternForms (options : GrammarOptions) : List TokenPattern :=
  [⟨.ignore, blanks, blanksForm⟩, ⟨.ignore, comment, commentForm⟩,
    ⟨.string, singleQuoted, quotedForm '\''⟩, ⟨.string, doubleQuoted, quotedForm '"'⟩,
    ⟨.number, decimal, decimalForm⟩, ⟨.number, hexadecimal, hexadecimalForm⟩,
    ⟨.null, null, wordsForm ["null"]⟩, ⟨.boolean, boolean, wordsForm ["true", "false"]⟩] ++
  (if options.regexLiterals then [⟨.regex, regex, regexForm⟩] else []) ++
  [⟨.verbatim, verbatim, verbatimForm⟩, ⟨.identifier, identifier, identifierForm⟩]

theorem read_of_mem_patternForms {options : GrammarOptions} {p : TokenPattern}
    (h : p ∈ patternForms options) : Pattern.read p.source.toList = some p.pattern := by
  have hall : ∀ p ∈ patternForms { options with regexLiterals := true },
      Pattern.read p.source.toList = some p.pattern := by
    simpa [patternForms] using read_patterns
  refine hall p ?_
  unfold patternForms at h ⊢
  by_cases hr : options.regexLiterals
  · simpa only [if_pos hr, if_true] using h
  · simp only [if_neg hr, List.append_nil, List.mem_append] at h ⊢
    rcases h with h | h
    · exact Or.inl (Or.inl h)
    · exact Or.inr h

end Grammar

theorem Classifier.registerAll_eq : ∀ (entries done : List TokenPattern),
    (∀ p ∈ entries, Pattern.read p.source.toList = some p.pattern) →
      ((done ++ entries).map fun p => (p.kind, p.source)).Nodup →
      registerAll ⟨done⟩ (entries.map fun p => (p.source, p.kind)) = .ok ⟨done ++ entries⟩
  | [], done, _, _ => by rw [List.append_nil]; rfl
  | p :: entries, done, hread, hnodup => by
    have hnew : (done.any fun q => q.kind == p.kind && q.source == p.source) = false := by
      rw [List.any_eq_false]
      intro q hq hqp
      rw [Bool.and_eq_true, beq_iff_eq, beq_iff_eq] at hqp
      rw [List.map_append, List.nodup_append] at hnodup
      refine hnodup.2.2 (q.kind, q.source) (List.mem_map_of_mem hq) (p.kind, p.source)
        (List.mem_map_of_mem List.mem_cons_self) ?_
      rw [hqp.1, hqp.2]
    have hregister : register ⟨done⟩ p.source p.kind = .ok ⟨done ++ [p]⟩ := by
      simp only [register, hnew, Bool.false_eq_true, if_false, hread p List.mem_cons_self]
    have ih := registerAll_eq entries (done ++ [p])
      (fun q hq => hread q (List.mem_cons_of_mem _ hq)) (by simpa using hnodup)
    rw [List.append_assoc, List.singleton_append] at ih
    rw [← ih]
    simp only [List.map_cons, registerAll, hregister]
    rfl

namespace Grammar

theorem patterns_eq (options : GrammarOptions) :
    patterns options = (patternForms options).map fun p => (p.source, p.kind) := by
  unfold patterns patternForms
  by_cases hr : options.regexLiterals
  · simp only [if_pos hr]
    rfl
  · simp only [if_neg hr]
    rfl

/-- Options without a fault make a grammar, with all its patterns. -/
theorem ofOptions_eq {options : GrammarOptions} (h : options.fault? = none) :
    ofOptions options = .ok ⟨options, ⟨patternForms options⟩⟩ := by
  have hnodup : ((patternForms options).map fun p => (p.kind, p.source)).Nodup := by
    unfold patternForms
    by_cases hr : options.regexLiterals <;>
      simp [hr, blanks, comment, singleQuoted, doubleQuoted, decimal, hexadecimal]
  have hall := Classifier.registerAll_eq (patternForms options) []
    (fun p hp => read_of_mem_patternForms hp) hnodup
  rw [← patterns_eq, List.nil_append] at hall
  have hempty : Classifier.empty.registerAll (patterns options) = .ok ⟨patternForms options⟩ := hall
  simp only [ofOptions, GrammarOptions.validate, h, bind, Except.bind, hempty, pure, Except.pure]

end Grammar

end Precedence
