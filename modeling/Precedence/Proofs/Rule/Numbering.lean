import Mathlib.Logic.Function.Basic
import Precedence.Proofs.Rule.Refusal
import Precedence.Rule.Builder

/-!
# Numbers tell rules apart

However rules are built one from another, every key among them is the number of the one rule that is
remembered under it (`Script.keyed`): the rules are `Rule.Keyed`, and so is the graph of what is
behind the references. For numbers are given once, and a rule that is built knows only numbers that
were given before (`Rule.Below`), so that what a later number stands for does not concern it.
-/

namespace Precedence

variable {V : Type}

namespace Rule

/-- All keys are below `n`. -/
def Below (n : Nat) : Rule Nat V → Prop
  | seq r t => Below n r ∧ Below n t
  | choice r t => Below n r ∧ Below n t
  | plus r => Below n r
  | optional r => Below n r
  | node r _ => Below n r
  | memoized key r => key < n ∧ Below n r
  | _ => True

theorem Below.mono {m n : Nat} (h : m ≤ n) : ∀ {r : Rule Nat V}, r.Below m → r.Below n
  | kind _, _ => trivial
  | verbatim _, _ => trivial
  | nothing, _ => trivial
  | never, _ => trivial
  | seq _ _, hr => ⟨hr.1.mono h, hr.2.mono h⟩
  | choice _ _, hr => ⟨hr.1.mono h, hr.2.mono h⟩
  | plus r, hr => Below.mono (r := r) h hr
  | optional r, hr => Below.mono (r := r) h hr
  | node r _, hr => Below.mono (r := r) h hr
  | memoized _ _, hr => ⟨Nat.lt_of_lt_of_le hr.1 h, hr.2.mono h⟩
  | reference _, _ => trivial

/-- A rule does not concern itself with what numbers stand for that were given after it. -/
theorem Keyed.of_below {rules rules' : Nat → Rule Nat V} {n : Nat}
    (h : ∀ key < n, rules' key = rules key) :
    ∀ {r : Rule Nat V}, r.Below n → r.Keyed rules → r.Keyed rules'
  | kind _, _, _ => trivial
  | verbatim _, _, _ => trivial
  | nothing, _, _ => trivial
  | never, _, _ => trivial
  | seq _ _, hb, hk => ⟨hk.1.of_below h hb.1, hk.2.of_below h hb.2⟩
  | choice _ _, hb, hk => ⟨hk.1.of_below h hb.1, hk.2.of_below h hb.2⟩
  | plus r, hb, hk => Keyed.of_below (r := r) h hb hk
  | optional r, hb, hk => Keyed.of_below (r := r) h hb hk
  | node r _, hb, hk => Keyed.of_below (r := r) h hb hk
  | memoized key _, hb, hk => ⟨(h key hb.1).trans hk.1, hk.2.of_below h hb.2⟩
  | reference _, _, _ => trivial

/-- Up to `n` numbers were given, and the keys of the rule are among them as they should be. -/
def Numbered (rules : Nat → Rule Nat V) (n : Nat) (rule : Rule Nat V) : Prop :=
  rule.Below n ∧ rule.Keyed rules

variable {rules : Nat → Rule Nat V} {n : Nat}

/-- One more number is given. -/
theorem Numbered.update {rule : Rule Nat V} (h : rule.Numbered rules n) (rule' : Rule Nat V) :
    rule.Numbered (Function.update rules n rule') (n + 1) :=
  ⟨h.1.mono (Nat.le_succ n),
    h.2.of_below (fun _ hkey => Function.update_of_ne (Nat.ne_of_lt hkey) _ _) h.1⟩

theorem numbered_all : ∀ row : List (Rule Nat V), (∀ rule ∈ row, rule.Numbered rules n) →
    (all row).Numbered rules n
  | [], _ => ⟨trivial, trivial⟩
  | rule :: row, h =>
    have hrule := h rule List.mem_cons_self
    have hrow := numbered_all row fun r hr => h r (List.mem_cons_of_mem _ hr)
    ⟨⟨hrule.1, hrow.1⟩, hrule.2, hrow.2⟩

theorem numbered_any : ∀ row : List (Rule Nat V), (∀ rule ∈ row, rule.Numbered rules n) →
    (any row).Numbered rules n
  | [], _ => ⟨trivial, trivial⟩
  | rule :: row, h =>
    have hrule := h rule List.mem_cons_self
    have hrow := numbered_any row fun r hr => h r (List.mem_cons_of_mem _ hr)
    ⟨⟨hrule.1, hrow.1⟩, hrule.2, hrow.2⟩

end Rule

/-- Rules that are made one from another: each of rules that were made before or are at hand. -/
inductive Script : List (NumberedRule V) → Build V (NumberedRule V) → Prop
  | given {made : List (NumberedRule V)} {r : NumberedRule V} (h : r ∈ made) : Script made (pure r)
  | kind (made : List (NumberedRule V)) (k : TokenKind) : Script made (.kind k)
  | token (made : List (NumberedRule V)) (pattern : String) (k : TokenKind) :
    Script made (.token pattern k)
  | verbatim (made : List (NumberedRule V)) (text : String) : Script made (.verbatim text)
  | all {made row : List (NumberedRule V)} (h : row ⊆ made) : Script made (.all row)
  | any {made row : List (NumberedRule V)} (h : row ⊆ made) : Script made (.any row)
  | plus {made : List (NumberedRule V)} {r : NumberedRule V} (h : r ∈ made) : Script made (.plus r)
  | optional {made : List (NumberedRule V)} {r : NumberedRule V} (h : r ∈ made) :
    Script made (.optional r)
  | star {made : List (NumberedRule V)} {r : NumberedRule V} (h : r ∈ made) : Script made (.star r)
  | memoize {made : List (NumberedRule V)} {r : NumberedRule V} (h : r ∈ made) :
    Script made (.memoize r)
  | node {made : List (NumberedRule V)} {r : NumberedRule V} (h : r ∈ made) (reduce : Reducer V) :
    Script made (.node r reduce)
  | fixedPoint {made : List (NumberedRule V)} {build : NumberedRule V → Build V (NumberedRule V)}
    (h : ∀ r, Script (r :: made) (build r)) : Script made (.fixedPoint build)
  | next {made : List (NumberedRule V)} {first : Build V (NumberedRule V)}
    {rest : NumberedRule V → Build V (NumberedRule V)} (h : Script made first)
    (h' : ∀ r, Script (r :: made) (rest r)) : Script made (first >>= rest)

/-- The rules that were made have numbers of their own, and know only numbers that were given. -/
structure RuleBuilder.Numbers (rules : Nat → Rule Nat V) (made : List (NumberedRule V))
    (builder : RuleBuilder V) : Prop where
  lt : ∀ r ∈ made, r.number < builder.nextNumber
  rule_eq : ∀ r ∈ made, rules r.number = r.rule
  numbered : ∀ r ∈ made, r.rule.Numbered rules builder.nextNumber
  behind : ∀ slot rule, builder.graph.target slot = some rule →
    rule.Numbered rules builder.nextNumber

/-- From a builder whose numbers are in order, a rule is made that is in order too. -/
def Build.InOrder (made : List (NumberedRule V)) (build : Build V (NumberedRule V)) : Prop :=
  ∀ rules (builder : RuleBuilder V) r builder', builder.Numbers rules made →
    build builder = .ok (r, builder') → ∃ rules', builder'.Numbers rules' (r :: made)

namespace RuleBuilder

variable {rules : Nat → Rule Nat V} {made made' : List (NumberedRule V)} {builder : RuleBuilder V}

theorem Numbers.of_subset (h : builder.Numbers rules made) (hsub : made' ⊆ made) :
    builder.Numbers rules made' :=
  ⟨fun r hr => h.lt r (hsub hr), fun r hr => h.rule_eq r (hsub hr),
    fun r hr => h.numbered r (hsub hr), h.behind⟩

/-- The next number is given to a rule that knows only the ones before. -/
theorem Numbers.number (h : builder.Numbers rules made) {rule : Rule Nat V}
    (hrule : rule.Numbered rules builder.nextNumber) :
    Numbers (Function.update rules builder.nextNumber rule)
      (⟨builder.nextNumber, rule⟩ :: made)
      { builder with nextNumber := builder.nextNumber + 1 } where
  lt r hr := by
    obtain rfl | hr := List.mem_cons.mp hr
    · exact Nat.lt_succ_self _
    · exact Nat.lt_succ_of_lt (h.lt r hr)
  rule_eq r hr := by
    obtain rfl | hr := List.mem_cons.mp hr
    · exact Function.update_self _ _ _
    · exact (Function.update_of_ne (Nat.ne_of_lt (h.lt r hr)) _ _).trans (h.rule_eq r hr)
  numbered r hr := by
    obtain rfl | hr := List.mem_cons.mp hr
    · exact hrule.update rule
    · exact (h.numbered r hr).update rule
  behind slot r hr := (h.behind slot r hr).update rule

/-- A slot is closed with a rule that was made. -/
theorem Numbers.close (h : builder.Numbers rules made) {r : NumberedRule V} (hr : r ∈ made)
    (slot : Nat) :
    Numbers rules made { builder with graph := builder.graph.close slot r.rule } where
  lt := h.lt
  rule_eq := h.rule_eq
  numbered := h.numbered
  behind i rule hrule := by
    simp only [RuleGraph.close] at hrule
    by_cases hi : i = slot
    · rw [if_pos hi] at hrule
      exact Option.some.inj hrule ▸ h.numbered r hr
    · rw [if_neg hi] at hrule
      exact h.behind i rule hrule

end RuleBuilder

namespace Build

variable {made : List (NumberedRule V)}

/-! Each of the steps that are made of others, as what it does with a builder. -/

theorem bind_eq (first : Build V (NumberedRule V))
    (rest : NumberedRule V → Build V (NumberedRule V)) (builder : RuleBuilder V) :
    (first >>= rest) builder = (first builder).bind fun out => rest out.1 out.2 := rfl

theorem token_eq (pattern : String) (k : TokenKind) (builder : RuleBuilder V) :
    token pattern k builder = (builder.classifier.register pattern k).bind fun classifier =>
      kind k { builder with classifier } := by
  simp only [token, bind, StateT.bind, get, getThe, MonadStateOf.get, StateT.get, liftM, monadLift,
    MonadLift.monadLift, StateT.lift, pure, Except.pure, Except.bind]
  rcases builder.classifier.register pattern k with _ | _ <;> rfl

theorem node_eq (r : NumberedRule V) (reduce : Reducer V) (builder : RuleBuilder V) :
    node r reduce builder = (number (.node r.rule reduce) builder).bind fun out =>
      match out.2.strategy with
      | .backtracking => .ok out
      | .packrat => memoize out.1 out.2 := by
  obtain ⟨_ | _, _⟩ := builder <;> rfl

theorem fixedPoint_eq (build : NumberedRule V → Build V (NumberedRule V))
    (builder : RuleBuilder V) :
    fixedPoint build builder = (number (.reference builder.nextSlot)
      { builder with nextSlot := builder.nextSlot + 1 }).bind fun reference =>
        (build reference.1 reference.2).bind fun body =>
          number body.1.rule
            { body.2 with graph := body.2.graph.close builder.nextSlot body.1.rule } := rfl

theorem exists_of_bind {α β ε : Type} {x : Except ε α} {f : α → Except ε β} {b : β}
    (h : x.bind f = .ok b) : ∃ a, x = .ok a ∧ f a = .ok b := by
  rcases x with e | a
  · simp [Except.bind] at h
  · exact ⟨a, rfl, h⟩

theorem InOrder.number (rule : Rule Nat V)
    (hrule : ∀ {rules n}, (∀ r ∈ made, r.number < n ∧ rules r.number = r.rule ∧
      r.rule.Numbered rules n) → rule.Numbered rules n) : InOrder made (Build.number rule) := by
  intro rules builder r builder' h hbuild
  obtain ⟨rfl, rfl⟩ := Prod.mk.inj (Except.ok.inj hbuild)
  exact ⟨_, h.number (hrule fun r hr => ⟨h.lt r hr, h.rule_eq r hr, h.numbered r hr⟩)⟩

theorem InOrder.next {first : Build V (NumberedRule V)}
    {rest : NumberedRule V → Build V (NumberedRule V)} (h : InOrder made first)
    (h' : ∀ r, InOrder (r :: made) (rest r)) : InOrder made (first >>= rest) := by
  intro rules builder r builder'' hnumbers hbuild
  rw [bind_eq] at hbuild
  obtain ⟨⟨r', builder'⟩, hfirst, hrest⟩ := exists_of_bind hbuild
  obtain ⟨rules', hnumbers'⟩ := h rules builder r' builder' hnumbers hfirst
  obtain ⟨rules'', hnumbers''⟩ := h' r' rules' builder' r builder'' hnumbers' hrest
  exact ⟨rules'', hnumbers''.of_subset (List.cons_subset_cons _ (List.subset_cons_self _ _))⟩

theorem inOrder_kind (k : TokenKind) : InOrder made (Build.kind k) :=
  .number _ fun _ => ⟨trivial, trivial⟩

theorem inOrder_token (pattern : String) (k : TokenKind) :
    InOrder made (Build.token pattern k) := by
  intro rules builder r builder' h hbuild
  rw [token_eq] at hbuild
  obtain ⟨classifier, -, hkind⟩ := exists_of_bind hbuild
  exact inOrder_kind k rules { builder with classifier } r builder'
    ⟨h.lt, h.rule_eq, h.numbered, h.behind⟩ hkind

theorem inOrder_memoize {r : NumberedRule V} (hr : r ∈ made) : InOrder made (Build.memoize r) :=
  .number _ fun h => ⟨⟨(h r hr).1, (h r hr).2.2.1⟩, (h r hr).2.1, (h r hr).2.2.2⟩

theorem inOrder_node {r : NumberedRule V} (hr : r ∈ made) (reduce : Reducer V) :
    InOrder made (Build.node r reduce) := by
  intro rules builder r' builder'' hnumbers hbuild
  rw [node_eq] at hbuild
  obtain ⟨⟨node, builder'⟩, hnode, hmemo⟩ := exists_of_bind hbuild
  obtain ⟨rules', hnumbers'⟩ := InOrder.number (.node r.rule reduce)
    (fun h => (h r hr).2.2) rules builder node builder' hnumbers hnode
  simp only at hmemo
  split at hmemo
  · obtain ⟨rfl, rfl⟩ := Prod.mk.inj (Except.ok.inj hmemo)
    exact ⟨rules', hnumbers'⟩
  · obtain ⟨rules'', hnumbers''⟩ :=
      inOrder_memoize List.mem_cons_self rules' builder' r' builder'' hnumbers' hmemo
    exact ⟨rules'', hnumbers''.of_subset (List.cons_subset_cons _ (List.subset_cons_self _ _))⟩

theorem InOrder.fixedPoint {build : NumberedRule V → Build V (NumberedRule V)}
    (h : ∀ r, InOrder (r :: made) (build r)) : InOrder made (Build.fixedPoint build) := by
  intro rules builder r builder'' hnumbers hbuild
  rw [fixedPoint_eq] at hbuild
  obtain ⟨⟨reference, builder₁⟩, hreference, hbuild⟩ := exists_of_bind hbuild
  obtain ⟨⟨body, builder₂⟩, hbody, hnumber⟩ := exists_of_bind hbuild
  have hslot : RuleBuilder.Numbers rules made { builder with nextSlot := builder.nextSlot + 1 } :=
    ⟨hnumbers.lt, hnumbers.rule_eq, hnumbers.numbered, hnumbers.behind⟩
  obtain ⟨rules₁, h₁⟩ := InOrder.number (.reference builder.nextSlot)
    (fun _ => ⟨trivial, trivial⟩) rules _ reference builder₁ hslot hreference
  obtain ⟨rules₂, h₂⟩ := h reference rules₁ builder₁ body builder₂ h₁ hbody
  obtain ⟨rules₃, h₃⟩ := InOrder.number body.rule
    (fun h => (h body List.mem_cons_self).2.2) rules₂ _ r builder''
    (h₂.close List.mem_cons_self builder.nextSlot) hnumber
  -- the reference and the body stay inside
  exact ⟨rules₃, h₃.of_subset <| List.cons_subset_cons _ <|
    List.Subset.trans (List.subset_cons_self _ _) (List.subset_cons_self _ _)⟩

theorem inOrder_plus {r : NumberedRule V} (hr : r ∈ made) : InOrder made (Build.plus r) :=
  .number _ fun h => (h r hr).2.2

theorem inOrder_optional {r : NumberedRule V} (hr : r ∈ made) : InOrder made (Build.optional r) :=
  .number _ fun h => (h r hr).2.2

end Build

/-- Every step of a script is in order. -/
theorem Script.inOrder {made : List (NumberedRule V)} {build : Build V (NumberedRule V)}
    (h : Script made build) : build.InOrder made := by
  induction h with
  | given hr =>
    intro rules builder r builder' hnumbers hbuild
    obtain ⟨rfl, rfl⟩ := Prod.mk.inj (Except.ok.inj hbuild)
    exact ⟨rules, hnumbers.of_subset (List.cons_subset.mpr ⟨hr, List.Subset.refl _⟩)⟩
  | kind made k => exact Build.inOrder_kind k
  | token made pattern k => exact Build.inOrder_token pattern k
  | verbatim made text => exact .number _ fun _ => ⟨trivial, trivial⟩
  | all hrow =>
    refine .number _ fun hmade => Rule.numbered_all _ fun rule hrule => ?_
    obtain ⟨r, hr, rfl⟩ := List.mem_map.mp hrule
    exact (hmade r (hrow hr)).2.2
  | any hrow =>
    refine .number _ fun hmade => Rule.numbered_any _ fun rule hrule => ?_
    obtain ⟨r, hr, rfl⟩ := List.mem_map.mp hrule
    exact (hmade r (hrow hr)).2.2
  | plus hr => exact Build.inOrder_plus hr
  | optional hr => exact Build.inOrder_optional hr
  | star hr => exact (Build.inOrder_plus hr).next fun r => Build.inOrder_optional List.mem_cons_self
  | memoize hr => exact Build.inOrder_memoize hr
  | node hr reduce => exact Build.inOrder_node hr reduce
  | fixedPoint _ ih => exact .fixedPoint ih
  | next _ _ ih ih' => exact ih.next ih'

/-- In what a script makes, each key is the number of the one rule that is remembered under it. -/
theorem Script.keyed {build : Build V (NumberedRule V)} (h : Script [] build) {strategy : Strategy}
    {r : NumberedRule V} {builder : RuleBuilder V}
    (hbuild : build { strategy } = .ok (r, builder)) :
    ∃ rules, builder.graph.Keyed rules ∧ r.rule.Keyed rules := by
  obtain ⟨rules, hnumbers⟩ := h.inOrder (fun _ => .nothing) { strategy } r builder
    ⟨by simp, by simp, by simp, by simp [RuleGraph.isOpen]⟩ hbuild
  exact ⟨rules, fun slot rule hrule => (hnumbers.behind slot rule hrule).2,
    (hnumbers.numbered r List.mem_cons_self).2⟩

end Precedence
