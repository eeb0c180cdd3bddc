import Precedence.Proofs.LineScanner.Sites
import Precedence.Proofs.Pratt.Binding

/-!
# Printed terms are parsed again

Of a term without texts between quotes that was parsed with the standard table, every name and
every numeral is a word of the line scanner, and every operator has its role in the table
(`Printable`). So its printed form is scanned word by word into the tokens of a tree for the same term
(`print_scans`). As operators between operands stand in groups, and an operator in front of its
operand binds more tightly than any of them, that tree is bound as the table says wherever it stands
(`Closed`). So the printed form is parsed as the term again, or its groups nest too deeply
(`print_parsed`).
-/

namespace Precedence.Pratt

open LineScanner Number Text

/-- The texts between quotes from left to right. -/
def Term.strings : Term → List String
  | name _ => []
  | number _ _ => []
  | string value => [value]
  | prefixed _ operand => operand.strings
  | operation left _ right => left.strings ++ right.strings

/-- The word is one of the line scanner, in one line. -/
structure LineWord (kind : LexemeKind) (w : List Char) : Prop where
  isWord : IsWord kind w
  inLine : ∀ c ∈ w, InLine c

/-- Every word of the printed form is a lexeme by itself, and every operator has its role in the
standard table. -/
def Printable : Term → Prop
  | .name text => LineWord .name text.toList
  | .number value raw => LineWord .number raw.toList ∧
    (Decimal.read raw.toList).bind Decimal.toBinary64? = some value
  | .string _ => False
  | .prefixed op operand => Table.standard.opening? op = some .operator ∧ Printable operand
  | .operation left op right =>
    (Table.standard.joining? op).isSome ∧ Printable left ∧ Printable right

/-- A tree for the term, of symbols, that is bound as the standard table says whatever stands behind
it. -/
structure Closed (e : Term) (tree : Tree) : Prop where
  erase : tree.erase = e
  symbols : ∀ t ∈ tree.signs, Symbol.ofToken t.1 = .ok t.2
  registered : tree.Registered .standard
  settled : ∀ next, tree.Settled .standard next
  spine : tree.spine = []

/-- The tokens are those of such a tree. -/
def Spells (e : Term) (ts : List Token) : Prop :=
  ∃ tree, Closed e tree ∧ tree.signs.map Prod.fst = ts

/-! ### Signs and blanks -/

/-- The symbols of the standard table that are operators or parentheses. -/
def signs : List Symbol :=
  [.plus, .minus, .tilde, .bang, .star, .slash, .leftParen, .rightParen]

theorem mem_signs_of_opening {op : Symbol} (h : Table.standard.opening? op = some .operator) :
    op ∈ signs := by
  cases op <;> cases h <;> decide

theorem mem_signs_of_joining {op : Symbol} (h : (Table.standard.joining? op).isSome) :
    op ∈ signs := by
  cases op <;> first | exact absurd h (by decide) | decide

theorem isWord_of_sign {op : Symbol} (h : op ∈ signs) :
    IsWord .punctuator (Term.operatorText op).toList := by
  intro rest hrest
  have hcases : rest = [] ∨ ∃ tail, rest = ' ' :: tail := by
    rcases rest with _ | ⟨c, tail⟩
    · exact Or.inl rfl
    · exact Or.inr ⟨tail, by rw [hrest c rfl]⟩
  simp only [signs, List.mem_cons, List.not_mem_nil, or_false] at h
  rcases hcases with rfl | ⟨tail, rfl⟩ <;>
    rcases h with rfl | rfl | rfl | rfl | rfl | rfl | rfl | rfl <;> exact ⟨_, rfl, rfl, rfl⟩

theorem sign_scans {op : Symbol} (h : op ∈ signs) :
    ScansTo (Term.operatorText op).toList fun ts => ∃ t, Symbol.ofToken t = .ok op ∧ ts = [t] := by
  refine .word (isWord_of_sign h) fun place => ⟨_, rfl, ?_⟩
  have hall : ∀ op ∈ signs, Symbol.ofText? (Term.operatorText op) = some op := by decide
  simp only [Symbol.ofToken, String.ofList_toList, hall op h]

/-! ### Terms -/

theorem name_scans {text : String} (h : LineWord .name text.toList) :
    ScansTo (Term.name text).print.toList (Spells (.name text)) := by
  have hword : ScansTo text.toList fun ts =>
      ∃ t : Token, (t.text = text ∧ t.kind = .name) ∧ ts = [t] :=
    .word h.isWord fun place => ⟨_, rfl, String.ofList_toList, rfl⟩
  refine hword.imp ?_
  rintro _ ⟨t, ⟨htext, hkind⟩, rfl⟩
  refine ⟨.name (t, .name), ⟨congrArg Term.name htext, ?_, rfl, fun _ => trivial, rfl⟩, rfl⟩
  refine List.forall_mem_singleton.mpr ?_
  simp only [Symbol.ofToken, hkind]

theorem number_scans {value : Binary64} {raw : String} (h : LineWord .number raw.toList)
    (hvalue : (Decimal.read raw.toList).bind Decimal.toBinary64? = some value) :
    ScansTo (Term.number value raw).print.toList (Spells (.number value raw)) := by
  have hword : ScansTo raw.toList fun ts =>
      ∃ t : Token, (t.text = raw ∧ t.kind = .number ∧ t.value = .number value) ∧ ts = [t] := by
    refine .word h.isWord fun place => ?_
    simp only [token?, hvalue]
    exact ⟨_, rfl, String.ofList_toList, rfl, rfl⟩
  refine hword.imp ?_
  rintro _ ⟨t, ⟨htext, hkind, hnumber⟩, rfl⟩
  refine ⟨.literal (t, .number), ⟨?_, ?_, rfl, fun _ => trivial, rfl⟩, rfl⟩
  · simp only [Tree.erase, hnumber, htext]
  · refine List.forall_mem_singleton.mpr ?_
    simp only [Symbol.ofToken, hkind]

theorem fits_of_spine {tree : Tree} {level : Nat} {next : Option Sign} (h : tree.spine = [])
    (hstops : ∀ t ∈ next, ¬ Table.standard.Exceeds level t.2) :
    tree.Fits .standard level next :=
  ⟨by simp [h], hstops⟩

/-- An operator in front of a term binds more tightly than all that can follow. -/
theorem Closed.prefixed {op : Symbol} {operand : Term} {tree : Tree} {t : Token}
    (hop : Table.standard.opening? op = some .operator) (ht : Symbol.ofToken t = .ok op)
    (h : Closed operand tree) : Closed (.prefixed op operand) (.prefixed (t, op) tree) where
  erase := congrArg (Term.prefixed op) h.erase
  symbols := List.forall_mem_cons.mpr ⟨ht, h.symbols⟩
  registered := ⟨hop, h.registered⟩
  settled next := ⟨fits_of_spine h.spine fun _ _ => not_exceeds _ (by decide), h.settled next⟩
  spine := rfl

theorem exceeds_of_joining {op : Symbol} (h : (Table.standard.joining? op).isSome) :
    Table.standard.Exceeds 0 op := by
  obtain ⟨joining, hjoining⟩ := Option.isSome_iff_exists.mp h
  refine ⟨joining, hjoining, ?_⟩
  cases op <;> cases hjoining <;> decide

/-- An operator between two terms is closed off by the parentheses around it. -/
theorem Closed.operation {op : Symbol} {left right : Term} {leftTree rightTree : Tree}
    {opener t closer : Token} (hop : (Table.standard.joining? op).isSome)
    (ho : Symbol.ofToken opener = .ok .leftParen) (ht : Symbol.ofToken t = .ok op)
    (hc : Symbol.ofToken closer = .ok .rightParen) (hl : Closed left leftTree)
    (hr : Closed right rightTree) :
    Closed (.operation left op right) (.group (opener, .leftParen)
      (.operation leftTree (t, op) rightTree) (closer, .rightParen)) where
  erase := by rw [Tree.erase, Tree.erase, hl.erase, hr.erase]
  symbols := by
    refine List.forall_mem_cons.mpr ⟨ho, List.forall_mem_append.mpr ⟨?_,
      List.forall_mem_singleton.mpr hc⟩⟩
    exact List.forall_mem_append.mpr ⟨hl.symbols, List.forall_mem_cons.mpr ⟨ht, hr.symbols⟩⟩
  registered := ⟨rfl, hop, hl.registered, hr.registered⟩
  settled _ := by
    have hstops : ∀ level, ∀ t' ∈ some (closer, Symbol.rightParen),
        ¬ Table.standard.Exceeds level t'.2 := by
      rintro level _ ⟨⟩
      exact not_exceeds_rightParen level
    refine ⟨⟨?_, hstops 0⟩, hl.settled _, hr.settled _, fun joining _ =>
      fits_of_spine hr.spine (hstops _)⟩
    intro op' hmem
    rw [Tree.spine, hl.spine] at hmem
    obtain rfl := List.mem_singleton.mp hmem
    exact exceeds_of_joining hop
  spine := rfl

/-- The printed form of a term is scanned into the tokens of a closed tree for it. -/
theorem print_scans : ∀ {e : Term}, Printable e → ScansTo e.print.toList (Spells e)
  | .name _, h => name_scans h
  | .number _ _, ⟨h, hvalue⟩ => number_scans h hvalue
  | .prefixed op operand, ⟨hop, h⟩ => by
    have htext : (Term.prefixed op operand).print.toList =
        (Term.operatorText op).toList ++ ' ' :: operand.print.toList := by
      simp [Term.print]
    rw [htext]
    refine ((sign_scans (mem_signs_of_opening hop)).joined (print_scans h)).imp ?_
    rintro _ ⟨_, _, ⟨t, ht, rfl⟩, ⟨tree, htree, rfl⟩, rfl⟩
    exact ⟨_, htree.prefixed hop ht, rfl⟩
  | .operation left op right, ⟨hop, hl, hr⟩ => by
    have htext : (Term.operation left op right).print.toList =
        "(".toList ++ ' ' :: (left.print.toList ++ ' ' :: ((Term.operatorText op).toList ++
          ' ' :: (right.print.toList ++ ' ' :: ")".toList))) := by
      simp [Term.print]
    have hopen : Symbol.leftParen ∈ signs := by decide
    have hclose : Symbol.rightParen ∈ signs := by decide
    rw [htext]
    refine ((sign_scans hopen).joined ((print_scans hl).joined
      ((sign_scans (mem_signs_of_joining hop)).joined
        ((print_scans hr).joined (sign_scans hclose))))).imp ?_
    rintro _ ⟨_, _, ⟨opener, ho, rfl⟩, ⟨_, _, ⟨leftTree, hleft, rfl⟩, ⟨_, _, ⟨t, ht, rfl⟩,
      ⟨_, _, ⟨rightTree, hright, rfl⟩, ⟨closer, hc, rfl⟩, rfl⟩, rfl⟩, rfl⟩, rfl⟩
    exact ⟨_, hleft.operation hop ho ht hc hright, by simp [Tree.signs]⟩

theorem inLine_of_all {w : List Char} (h : w.all (InLine ·) = true) : ∀ c ∈ w, InLine c := by
  simpa using h

theorem sign_inLine {op : Symbol} (h : op ∈ signs) :
    ∀ c ∈ (Term.operatorText op).toList, InLine c := by
  have hall : ∀ op ∈ signs, (Term.operatorText op).toList.all (InLine ·) = true := by decide
  exact inLine_of_all (hall op h)

/-- The printed form of a term has one line. -/
theorem print_inLine : ∀ {e : Term}, Printable e → ∀ c ∈ e.print.toList, InLine c
  | .name _, h => h.inLine
  | .number _ _, ⟨h, _⟩ => h.inLine
  | .prefixed op operand, ⟨hop, h⟩ => by
    have hsign := sign_inLine (mem_signs_of_opening hop)
    have hblank : ∀ c ∈ " ".toList, InLine c := inLine_of_all (by decide)
    simp only [Term.print, String.toList_append, List.forall_mem_append]
    exact ⟨⟨hsign, hblank⟩, print_inLine h⟩
  | .operation left op right, ⟨hop, hl, hr⟩ => by
    have hsign := sign_inLine (mem_signs_of_joining hop)
    have hblank : ∀ c ∈ " ".toList, InLine c := inLine_of_all (by decide)
    have hopen : ∀ c ∈ "( ".toList, InLine c := inLine_of_all (by decide)
    have hclose : ∀ c ∈ " )".toList, InLine c := inLine_of_all (by decide)
    simp only [Term.print, String.toList_append, List.forall_mem_append]
    exact ⟨⟨⟨⟨⟨⟨hopen, print_inLine hl⟩, hblank⟩, hsign⟩, hblank⟩, print_inLine hr⟩, hclose⟩

/-! ### Parsed terms -/

section Parsed

variable {text : String} {tokens : List Token} (hscan : scan text = .ok tokens)

include hscan

theorem printable_of_name {t : Sign} (ht : t.1 ∈ tokens) (hsymbol : Symbol.ofToken t.1 = .ok t.2)
    (hopening : Table.standard.opening? t.2 = some .name) : Printable (.name t.1.text) := by
  obtain ⟨t, s⟩ := t
  obtain rfl : s = .name := by
    cases s <;> cases hopening
    rfl
  obtain ⟨p, -, hlexed⟩ := lexedIn_of_tokensOfLines hscan t ht
  rcases hlexed.kinds with ⟨-, -, hkind, -⟩ | ⟨-, ⟨-, hword⟩ | hkind | hkind⟩
  · simp [Symbol.ofToken, hkind] at hsymbol
  · exact ⟨hword, inLine_of_scan hscan t ht⟩
  · simp [Symbol.ofToken, hkind] at hsymbol
  · -- the text of a sign is not that of a name
    simp only [Symbol.ofToken, hkind] at hsymbol
    split at hsymbol
    · next hs =>
      obtain rfl := Except.ok.inj hsymbol
      exact absurd (List.find?_some hs) (by simp [Symbol.text?])
    · simp at hsymbol

theorem printable_of_literal {t : Sign} (ht : t.1 ∈ tokens)
    (hstrings : (Tree.literal t).erase.strings = []) : Printable (Tree.literal t).erase := by
  obtain ⟨p, -, hlexed⟩ := lexedIn_of_tokensOfLines hscan t.1 ht
  rcases hlexed.kinds with ⟨x, hvalue, -, hword, hx⟩ | ⟨⟨value, hvalue⟩, -⟩
  · simp only [Tree.erase, hvalue]
    exact ⟨⟨hword, inLine_of_scan hscan t.1 ht⟩, hx⟩
  · simp [Tree.erase, hvalue, Term.strings] at hstrings

/-- A tree of tokens of a text is one of a printable term, if that has no texts between quotes. -/
theorem printable_of_registered : ∀ tree : Tree,
    (∀ t ∈ tree.signs, t.1 ∈ tokens ∧ Symbol.ofToken t.1 = .ok t.2) → tree.Registered .standard →
      tree.erase.strings = [] → Printable tree.erase
  | .name t, hsigns, hregistered, _ =>
    have ⟨ht, hsymbol⟩ := hsigns t List.mem_cons_self
    printable_of_name hscan ht hsymbol hregistered
  | .literal t, hsigns, _, hstrings =>
    printable_of_literal hscan (hsigns t List.mem_cons_self).1 hstrings
  | .prefixed _ operand, hsigns, ⟨hop, hregistered⟩, hstrings =>
    ⟨hop, printable_of_registered operand (List.forall_mem_cons.mp hsigns).2 hregistered hstrings⟩
  | .group _ content _, hsigns, ⟨_, hregistered⟩, hstrings =>
    have hcontent := (List.forall_mem_append.mp (List.forall_mem_cons.mp hsigns).2).1
    printable_of_registered content hcontent hregistered hstrings
  | .operation left _ right, hsigns, ⟨hop, hl, hr⟩, hstrings =>
    have ⟨hleft, hrest⟩ := List.forall_mem_append.mp hsigns
    have ⟨hleftStrings, hrightStrings⟩ := List.append_eq_nil_iff.mp hstrings
    ⟨hop, printable_of_registered left hleft hl hleftStrings,
      printable_of_registered right (List.forall_mem_cons.mp hrest).2 hr hrightStrings⟩

end Parsed

/-- A term parsed with the standard table is printable, if it has no texts between quotes. -/
theorem printable_of_parse {text : String} {e : Term} (h : parse .standard text = .ok e)
    (hstrings : e.strings = []) : Printable e := by
  obtain ⟨tokens, hscan, hparse⟩ := Failure.bind_eq_ok_iff.mp h
  obtain ⟨tree, rfl, hrow, hbound⟩ := parseTokens_sound hparse
  refine printable_of_registered hscan tree (fun t ht => ⟨?_, hrow.2 t ht⟩) hbound.registered
    hstrings
  rw [← hrow.1]
  exact List.mem_map_of_mem ht

/-- Closed trees are bound as the table says. -/
theorem Closed.wellBound {e : Term} {tree : Tree} (h : Closed e tree) :
    tree.WellBound .standard where
  registered := h.registered
  fits := fits_of_spine h.spine (by simp)
  settled := h.settled none

/-- The printed form of a term that was parsed with the standard table, and has no texts between
quotes, is parsed as the same term, unless it nests too deeply. -/
theorem print_parsed {text : String} {e : Term} (h : parse .standard text = .ok e)
    (hstrings : e.strings = []) :
    parse .standard e.print = .ok e ∨ MeetsLimit (parse .standard e.print) := by
  have hprintable := printable_of_parse h hstrings
  obtain ⟨tokens, hscan, tree, hclosed, rfl⟩ :=
    (print_scans hprintable).scan (print_inLine hprintable)
  have hparse : parse .standard e.print = parseTokens .standard (tree.signs.map Prod.fst) := by
    rw [parse, hscan]
    rfl
  have hrow : Classifies (tree.signs.map Prod.fst) tree.signs := ⟨rfl, hclosed.symbols⟩
  have hread := parseTokens_complete hrow hclosed.wellBound
  rwa [hclosed.erase, ← hparse] at hread

/-- An operator in front of a group. -/
theorem negated_sum_printed : ∃ e, parse .standard "-(a+2.50)*b // c" = .ok e ∧ e.strings = [] ∧
    e.print = "( - ( a + 2.50 ) * b )" ∧ (parse .standard e.print = .ok e ∨
      MeetsLimit (parse .standard e.print)) := by
  have hprint : (parse .standard "-(a+2.50)*b // c").toOption.map
      (fun e => (e.strings, e.print)) = some ([], "( - ( a + 2.50 ) * b )") := by
    decide +kernel
  rcases hparse : parse .standard "-(a+2.50)*b // c" with failure | e
  · rw [hparse] at hprint
    simp [Except.toOption] at hprint
  · rw [hparse] at hprint
    obtain ⟨hstrings, htext⟩ := Prod.mk.inj (Option.some.inj hprint)
    exact ⟨e, rfl, hstrings, htext, print_parsed hparse hstrings⟩

end Precedence.Pratt
