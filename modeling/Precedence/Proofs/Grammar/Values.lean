import Precedence.Proofs.Grammar.Anticipation
import Precedence.Proofs.Grammar.Splitting
import Precedence.Proofs.Number.Finite

/-!
# The tokens of a text have values

Each token of a text is that of a segment (`exists_segment_of_mem`), so a number among them is finite
and a regular expression has its pattern (`hasValue_of_tokenize`).
-/

namespace Precedence.Grammar

open Regex Text TokenPattern

variable {options : GrammarOptions} {index : LineIndex} {offset : Nat} {before : Option Char}
  {text : List Char}

/-- Each token of a text is that of a segment somewhere in it. -/
theorem exists_segment_of_mem {classifier : Classifier} {tokens : List Token} {t : Token}
    (h : classifier.tokensFrom index offset before text = .ok tokens) (ht : t ∈ tokens) :
    ∃ before text s offset, classifier.segment? before text = some s ∧
      Classifier.token index offset s = .ok t := by
  refine Classifier.tokensFrom_induction (motive := fun _ _ _ tokens => ∀ t ∈ tokens,
    ∃ before text s offset, classifier.segment? before text = some s ∧
      Classifier.token index offset s = .ok t) ?nil ?ignored ?read h t ht
  case nil => simp
  case ignored => exact fun _ _ _ _ _ _ _ _ ih => ih
  case read =>
    intro offset before text s ts first hs _ hfirst _ ih
    exact List.forall_mem_cons.mpr ⟨⟨before, text, s, offset, hs, hfirst⟩, ih⟩

theorem hasValue_of_token {s : Segment} {t : Token}
    (hs : (lexer options).segment? before text = some s)
    (ht : Classifier.token index offset s = .ok t) : HasValue t := by
  have htoken := Classifier.isTokenOf_of_token ht
  refine ⟨fun hk => ?_, fun hk => ?_⟩
  · have hkind : s.kind = .number := htoken.kind.symm.trans hk
    simp only [Classifier.token, if_pos hkind] at ht
    rcases hx : Number.Numeral.value? s.primary with _ | x
    · simp [hx, Except.map] at ht
    · simp only [hx, Except.map, Except.ok.injEq] at ht
      subst ht
      simp [finite?, Token.number?, Option.filter, Number.Numeral.isFinite_of_value? hx]
  · have hkind : s.kind = .regex := htoken.kind.symm.trans hk
    have hr := regexLiterals_of_segment hs hkind
    obtain ⟨body, flags, -, hcaptures, -⟩ := regex_readsBack hs hkind hr
    rw [Token.capture?, htoken.captures]
    rcases hcaptures with hc | ⟨-, hc⟩ <;> rw [hc] <;> rfl

theorem hasValue_of_tokenize {text : String} {tokens : List Token}
    (h : Grammar.tokenize ⟨options, lexer options⟩ text = .ok tokens) :
    ∀ t ∈ tokens, HasValue t := by
  intro t ht
  obtain ⟨before, text, s, offset, hs, htoken⟩ := exists_segment_of_mem h ht
  exact hasValue_of_token hs htoken

end Precedence.Grammar
