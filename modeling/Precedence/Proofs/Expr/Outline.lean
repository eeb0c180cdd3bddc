import Mathlib.Data.List.Forall2
import Precedence.Expr.Printer
import Precedence.Proofs.Expr.Leaves
import Precedence.Proofs.Expr.Printed

/-!
# Reading an outline

The outline of an expression has a piece for each of its nodes, in the order in which a reader meets
them (`Expr.nodes`). As long as no line feed is in the name of an identifier, the outline has a line
for each node and one more for each line feed in a literal (`Expr.length_endedLines_outline`).
Without any line feed the lines are those of the nodes (`Expr.forall₂_begins`), and the kinds of the
nodes and how they nest can be read from them (`Expr.ofOutline_outline`).
-/

namespace Precedence

namespace Text

/-- The lines of a text that line feeds end, without these. -/
def endedLines : List Char → List (List Char)
  | [] => []
  | '\n' :: rest => [] :: endedLines rest
  | c :: rest => (endedLines rest).modifyHead (c :: ·)

variable {line : List Char}

theorem length_endedLines (text : List Char) : (endedLines text).length = text.count '\n' := by
  fun_induction endedLines text with
  | case1 => rfl
  | case2 rest ih => rw [List.length_cons, ih, List.count_cons_self]
  | case3 c rest hc ih => rw [List.length_modifyHead, ih, List.count_cons_of_ne hc]

theorem endedLines_append (h : '\n' ∉ line) (rest : List Char) :
    endedLines (line ++ '\n' :: rest) = line :: endedLines rest := by
  induction line with
  | nil => rfl
  | cons c line ih =>
    obtain ⟨hc, hline⟩ := not_or.mp (mt List.mem_cons.mpr h)
    rw [List.cons_append, endedLines.eq_3 _ _ (Ne.symm hc), ih hline, List.modifyHead_cons]

end Text

/-- The kind of a node, and the shapes of what it is put together of. -/
inductive Shape where
  | node (label : String) (children : List Shape)

/-- The shapes of the nodes that are listed by kind, each with its depth: what follows a node at
greater depths is in it. -/
def Shape.ofEntries : List (Nat × String) → List Shape
  | [] => []
  | (depth, label) :: rest =>
    .node label (ofEntries (rest.takeWhile fun entry => depth < entry.1)) ::
      ofEntries (rest.dropWhile fun entry => depth < entry.1)
termination_by entries => entries.length
decreasing_by
  · exact Nat.lt_succ_of_le (List.takeWhile_sublist _).length_le
  · exact Nat.lt_succ_of_le (List.dropWhile_sublist _).length_le

/-- The kind of a node, which is the word of its line, and its depth, which is told by the blanks in
front of that. -/
def Shape.readEntry (line : List Char) : Nat × String :=
  ((line.takeWhile (· = ' ')).length / 2,
    String.ofList ((line.dropWhile (· = ' ')).takeWhile (· ≠ ' ')))

/-- The shapes of the expressions of an outline. -/
def Shape.ofOutline (text : List Char) : List Shape :=
  ofEntries ((Text.endedLines text).map readEntry)

namespace Expr

open Text

theorem sizeOf_lt_of_mem_children {c e : Expr} (h : c ∈ e.children) : sizeOf c < sizeOf e := by
  cases e with
  | identifier | literal | hole => exact absurd h List.not_mem_nil
  | compound leaves =>
    have hlt := List.sizeOf_lt_of_mem (show c ∈ leaves from h)
    simp only [compound.sizeOf_spec]
    omega
  | unary | binary | conditional | assignment =>
    simp only [children, List.mem_cons, List.not_mem_nil, or_false] at h
    simp only [unary.sizeOf_spec, binary.sizeOf_spec, conditional.sizeOf_spec,
      assignment.sizeOf_spec]
    rcases h with rfl | rfl | rfl <;> omega

/-- An expression and all in it, each with its depth, in the order of their beginnings. -/
def nodes (depth : Nat) (e : Expr) : List (Nat × Expr) :=
  (depth, e) :: e.children.attach.flatMap fun ⟨c, _⟩ => nodes (depth + 1) c
termination_by e
decreasing_by exact sizeOf_lt_of_mem_children ‹_›

/-- The kinds of the expressions in an expression, and how they nest. -/
def shape (e : Expr) : Shape :=
  .node e.label (e.children.attach.map fun ⟨c, _⟩ => shape c)
termination_by e
decreasing_by exact sizeOf_lt_of_mem_children ‹_›

def leaf? : Expr → Option Expr
  | identifier name span => some (identifier name span)
  | literal value raw span => some (literal value raw span)
  | _ => none

/-- The value and the text of a literal. -/
def literal? : Expr → Option (LiteralValue × String)
  | literal value raw _ => some (value, raw)
  | _ => none

/-- The line feeds in the texts of the literals. -/
def lineFeeds (e : Expr) : Nat :=
  (e.literals.flatMap fun l => l.2.toList).count '\n'

/-- What the outline says of a node, in front of the line feed. -/
def piece (node : Nat × Expr) : List Char :=
  List.replicate (2 * node.1) ' ' ++ node.2.caption.toList

/-- The line begins with two blanks for each level of depth and the kind of the node, and what goes
on behind that goes on with a blank. -/
def Begins (line : List Char) (node : Nat × Expr) : Prop :=
  ∃ rest, line = List.replicate (2 * node.1) ' ' ++ (node.2.label.toList ++ rest) ∧
    ∀ c ∈ rest.head?, c = ' '

/-- No identifier is named with a line feed. -/
def NamedInLine (e : Expr) : Prop :=
  ∀ name span, identifier name span ∈ e.leaves → '\n' ∉ name.toList

variable {e : Expr} {depth : Nat} {node : Nat × Expr}

/-! ### Nodes -/

theorem nodes_eq (depth : Nat) (e : Expr) :
    e.nodes depth = (depth, e) :: e.children.flatMap (nodes (depth + 1)) := by
  rw [nodes]
  simp

theorem shape_eq (e : Expr) : e.shape = .node e.label (e.children.map shape) := by
  rw [shape]
  simp

theorem induction_on_children {P : Expr → Prop} (h : ∀ e, (∀ c ∈ e.children, P c) → P e)
    (e : Expr) : P e :=
  h e fun c _ => induction_on_children h c
termination_by e
decreasing_by exact sizeOf_lt_of_mem_children ‹_›

/-- What is collected from an expression and then from what it is put together of is collected from
node to node. -/
theorem eq_flatMap_nodes {α : Type} {f : Nat → Expr → List α} {g : Nat × Expr → List α}
    (h : ∀ depth e, f depth e = g (depth, e) ++ e.children.flatMap (f (depth + 1)))
    (depth : Nat) (e : Expr) : f depth e = (e.nodes depth).flatMap g := by
  induction e using induction_on_children generalizing depth with
  | h e ih =>
    rw [h, nodes_eq, List.flatMap_cons, List.flatMap_assoc]
    exact congrArg _ (List.flatMap_congr fun c hc => ih c hc (depth + 1))

theorem captionsOfAll_eq (depth : Nat) (es : List Expr) :
    captionsOfAll depth es = es.flatMap (captions depth) := by
  induction es with
  | nil => rfl
  | cons e es ih => rw [captionsOfAll, ih, List.flatMap_cons]

theorem captions_eq (depth : Nat) (e : Expr) :
    captions depth e = (e.nodes depth).map fun node => (node.1, node.2.caption) := by
  rw [List.map_eq_flatMap]
  refine eq_flatMap_nodes (fun depth e => ?_) depth e
  cases e <;> simp [captions, children, captionsOfAll_eq]

theorem literalsOfAll_eq (es : List Expr) : literalsOfAll es = es.flatMap literals := by
  induction es with
  | nil => rfl
  | cons e es ih => rw [literalsOfAll, ih, List.flatMap_cons]

theorem literals_eq (depth : Nat) (e : Expr) :
    e.literals = (e.nodes depth).filterMap fun node => node.2.literal? := by
  rw [List.filterMap_eq_flatMap_toList]
  refine eq_flatMap_nodes (f := fun _ => literals) (fun depth e => ?_) depth e
  cases e <;> simp [literals, literal?, children, literalsOfAll_eq]

theorem leaves_eq (depth : Nat) (e : Expr) :
    e.leaves = (e.nodes depth).filterMap fun node => node.2.leaf? := by
  rw [List.filterMap_eq_flatMap_toList]
  refine eq_flatMap_nodes (f := fun _ => leaves) (fun depth e => ?_) depth e
  cases e <;> simp [leaves, leaf?, children, leavesOfAll_eq]

/-! ### Captions -/

theorem lineFeed_not_mem_toString (n : Nat) : '\n' ∉ (toString n).toList := by
  intro hmem
  rw [show toString n = n.repr from rfl, Nat.toList_repr] at hmem
  exact absurd (Nat.isDigit_of_mem_toDigits (by decide) (by decide) hmem) (by decide)

/-- No kind is written with a blank or a line feed. -/
theorem label_chars (e : Expr) :
    e.label.toList ≠ [] ∧ ∀ c ∈ e.label.toList, c ≠ ' ' ∧ c ≠ '\n' := by
  cases e <;> simp [label]

/-- The caption of a node begins with its kind and has the line feeds of its literal. -/
theorem exists_caption_eq
    (h : ∀ name span, e = identifier name span → '\n' ∉ name.toList) :
    ∃ rest, e.caption.toList = e.label.toList ++ rest ∧ (∀ c ∈ rest.head?, c = ' ') ∧
      rest.count '\n' = (e.literal?.toList.flatMap fun l => l.2.toList).count '\n' := by
  have hspaced (w : String) : (e.label ++ " " ++ w).toList = e.label.toList ++ ' ' :: w.toList := by
    rw [String.toList_append, String.toList_append, List.append_assoc]
    rfl
  cases e with
  | identifier name span =>
    refine ⟨' ' :: name.toList, hspaced name, by simp, ?_⟩
    rw [List.count_cons_of_ne (by decide), List.count_eq_zero.mpr (h name span rfl)]
    rfl
  | literal value raw span =>
    refine ⟨' ' :: (raw ++ (" (" ++ value.label ++ ")")).toList, ?_, by simp, ?_⟩
    · rw [← hspaced]
      simp [caption, String.append_assoc]
    · have hvalue : '\n' ∉ (" (" ++ value.label ++ ")").toList := by
        cases value <;> simp [LiteralValue.label]
      rw [List.count_cons_of_ne (by decide), String.toList_append, List.count_append,
        List.count_eq_zero.mpr hvalue]
      simp [literal?]
  | unary op argument =>
    exact ⟨' ' :: op.symbol.toList, hspaced _, by simp, by cases op <;> rfl⟩
  | binary op left right =>
    exact ⟨' ' :: op.symbol.toList, hspaced _, by simp, by cases op <;> rfl⟩
  | compound leaves =>
    refine ⟨' ' :: ("[" ++ toString leaves.length ++ "]").toList, ?_, by simp, ?_⟩
    · rw [← hspaced]
      simp [caption, String.append_assoc]
    · have hlength := lineFeed_not_mem_toString leaves.length
      refine List.count_eq_zero.mpr ?_
      simp only [String.toList_append, List.mem_cons, List.mem_append, not_or]
      exact ⟨by decide, ⟨by decide, hlength⟩, by decide⟩
  | conditional | assignment | hole =>
    exact ⟨[], (List.append_nil _).symm, by simp, rfl⟩

/-! ### Lines -/

theorem outline_eq (e : Expr) :
    e.outline.toList = (e.nodes 0).flatMap fun node => piece node ++ ['\n'] := by
  rw [outline, captions_eq, String.toList_join]
  simp [List.flatMap_map, piece]

theorem count_piece (h : ∀ name span, node.2 = identifier name span → '\n' ∉ name.toList) :
    (piece node).count '\n' =
      (node.2.literal?.toList.flatMap fun l => l.2.toList).count '\n' := by
  obtain ⟨rest, hcaption, -, hcount⟩ := exists_caption_eq h
  have hblanks : '\n' ∉ List.replicate (2 * node.1) ' ' := fun hmem =>
    absurd (List.eq_of_mem_replicate hmem) (by decide)
  have hlabel : '\n' ∉ node.2.label.toList := fun hmem => ((label_chars node.2).2 _ hmem).2 rfl
  rw [piece, hcaption, List.count_append, List.count_append, List.count_eq_zero.mpr hblanks,
    List.count_eq_zero.mpr hlabel, hcount, Nat.zero_add, Nat.zero_add]

theorem begins_piece (h : ∀ name span, node.2 = identifier name span → '\n' ∉ name.toList) :
    Begins (piece node) node := by
  obtain ⟨rest, hcaption, hhead, -⟩ := exists_caption_eq h
  exact ⟨rest, congrArg _ hcaption, hhead⟩

theorem NamedInLine.of_mem (h : NamedInLine e) (hnode : node ∈ e.nodes depth) (name : String)
    (span : Span) (hname : node.2 = identifier name span) : '\n' ∉ name.toList := by
  refine h name span ?_
  rw [leaves_eq depth]
  exact List.mem_filterMap.mpr ⟨node, hnode, by rw [hname]; rfl⟩

/-- The outline has a line for each node, and one for each line feed in a literal. -/
theorem length_endedLines_outline (h : NamedInLine e) :
    (endedLines e.outline.toList).length = (e.nodes 0).length + e.lineFeeds := by
  have hnames := fun node (hnode : node ∈ e.nodes 0) => h.of_mem hnode
  rw [length_endedLines, outline_eq, lineFeeds, literals_eq 0]
  generalize e.nodes 0 = nodes at hnames ⊢
  induction nodes with
  | nil => rfl
  | cons node nodes ih =>
    obtain ⟨hnode, hnodes⟩ := List.forall_mem_cons.mp hnames
    rw [List.flatMap_cons, List.count_append, List.count_append, ih hnodes, count_piece hnode,
      List.filterMap_cons, List.length_cons, List.count_singleton_self]
    cases node.2.literal? <;> simp <;> omega

/-- Without a line feed in a literal, the lines of the outline are those of the nodes. -/
theorem forall₂_begins (h : NamedInLine e) (hraws : ∀ l ∈ e.literals, '\n' ∉ l.2.toList) :
    List.Forall₂ Begins (endedLines e.outline.toList) (e.nodes 0) := by
  have hnames := fun node (hnode : node ∈ e.nodes 0) => h.of_mem hnode
  have hpieces : ∀ node ∈ e.nodes 0, '\n' ∉ piece node := by
    intro node hnode hmem
    have hcount := count_piece (hnames node hnode)
    rw [literals_eq 0] at hraws
    rcases hliteral : node.2.literal? with _ | l
    · rw [hliteral] at hcount
      exact absurd hmem (List.count_eq_zero.mp hcount)
    · have hraw := hraws l (List.mem_filterMap.mpr ⟨node, hnode, hliteral⟩)
      rw [hliteral] at hcount
      exact absurd hmem (List.count_eq_zero.mp (by simp [hcount, List.count_eq_zero.mpr hraw]))
  rw [outline_eq]
  generalize e.nodes 0 = nodes at hnames hpieces ⊢
  induction nodes with
  | nil => exact .nil
  | cons node nodes ih =>
    obtain ⟨hname, hnames⟩ := List.forall_mem_cons.mp hnames
    obtain ⟨hpiece, hpieces⟩ := List.forall_mem_cons.mp hpieces
    rw [List.flatMap_cons, List.append_assoc, List.singleton_append, endedLines_append hpiece]
    exact .cons (begins_piece hname) (ih hnames hpieces)

/-! ### What can be read from the lines -/

/-- The kind of a node begins where the blanks in front of it end, and it ends with the next. -/
theorem Begins.readEntry_eq {line : List Char} (h : Begins line node) :
    Shape.readEntry line = (node.1, node.2.label) := by
  obtain ⟨rest, rfl, hrest⟩ := h
  obtain ⟨hne, hlabel⟩ := label_chars node.2
  have hblanks : ∀ c ∈ List.replicate (2 * node.1) ' ', decide (c = ' ') = true := fun c hc => by
    simp [List.eq_of_mem_replicate hc]
  have hword : ∀ c ∈ node.2.label.toList, decide (c ≠ ' ') = true := fun c hc => by
    simp [(hlabel c hc).1]
  have hend : rest.takeWhile (fun c => c ≠ ' ') = [] := by
    rcases rest with _ | ⟨c, rest⟩
    · rfl
    · rw [hrest c rfl]
      rfl
  obtain ⟨c, cs, hcs⟩ := List.exists_cons_of_ne_nil hne
  have hbegin : c ≠ ' ' := (hlabel c (hcs ▸ List.mem_cons_self)).1
  have htake : (node.2.label.toList ++ rest).takeWhile (fun c => decide (c = ' ')) = [] := by
    rw [hcs, List.cons_append, List.takeWhile_cons_of_neg (by simpa using hbegin)]
  have hdrop : (node.2.label.toList ++ rest).dropWhile (fun c => decide (c = ' ')) =
      node.2.label.toList ++ rest := by
    rw [hcs, List.cons_append, List.dropWhile_cons_of_neg (by simpa using hbegin)]
  rw [Shape.readEntry, List.takeWhile_append_of_pos hblanks, List.dropWhile_append_of_pos hblanks,
    htake, hdrop, List.takeWhile_append_of_pos hword, hend, List.append_nil, List.append_nil,
    List.length_replicate, Nat.mul_div_cancel_left _ (by decide), String.ofList_toList]

theorem le_of_mem_nodes (h : node ∈ e.nodes depth) : depth ≤ node.1 := by
  induction e using induction_on_children generalizing depth with
  | h e ih =>
    rw [nodes_eq] at h
    rcases List.mem_cons.mp h with rfl | h
    · exact Nat.le_refl _
    · obtain ⟨c, hc, hnode⟩ := List.mem_flatMap.mp h
      exact Nat.le_of_succ_le (ih c hc hnode)

/-- The entries of the nodes of an expression, which stands at a depth. -/
def entries (depth : Nat) (e : Expr) : List (Nat × String) :=
  (e.nodes depth).map fun node => (node.1, node.2.label)

theorem entries_eq (depth : Nat) (e : Expr) :
    e.entries depth = (depth, e.label) :: e.children.flatMap (entries (depth + 1)) := by
  rw [entries, nodes_eq, List.map_cons, List.map_flatMap]
  rfl

/-- If the shape of each of some expressions is read in front of what is not in it, then so are
those of all. -/
theorem ofEntries_flatMap {es : List Expr}
    (h : ∀ c ∈ es, ∀ rest : List (Nat × String), (∀ entry ∈ rest.head?, entry.1 ≤ depth) →
      Shape.ofEntries (c.entries depth ++ rest) = c.shape :: Shape.ofEntries rest) :
    Shape.ofEntries (es.flatMap (entries depth)) = es.map shape := by
  induction es with
  | nil => rw [List.flatMap_nil, Shape.ofEntries, List.map_nil]
  | cons c es ih =>
    obtain ⟨hc, hes⟩ := List.forall_mem_cons.mp h
    rw [List.flatMap_cons, hc, ih hes, List.map_cons]
    intro entry hentry
    rcases es with _ | ⟨c', es⟩
    · cases hentry
    · rw [List.flatMap_cons, entries_eq] at hentry
      cases hentry
      exact Nat.le_refl _

/-- What is in an expression is listed behind it at greater depths, and what follows is not. -/
theorem ofEntries_entries (e : Expr) (depth : Nat) {rest : List (Nat × String)}
    (hrest : ∀ entry ∈ rest.head?, entry.1 ≤ depth) :
    Shape.ofEntries (e.entries depth ++ rest) = e.shape :: Shape.ofEntries rest := by
  induction e using induction_on_children generalizing depth rest with
  | h e ih =>
    have hdeeper : ∀ entry ∈ e.children.flatMap (entries (depth + 1)),
        decide (depth < entry.1) = true := by
      intro entry hentry
      obtain ⟨c, -, hentry⟩ := List.mem_flatMap.mp hentry
      obtain ⟨node, hnode, rfl⟩ := List.mem_map.mp hentry
      exact decide_eq_true (le_of_mem_nodes hnode)
    have hend : rest.takeWhile (fun entry => decide (depth < entry.1)) = [] ∧
        rest.dropWhile (fun entry => decide (depth < entry.1)) = rest := by
      rcases rest with _ | ⟨entry, rest⟩
      · exact ⟨rfl, rfl⟩
      · have hle : ¬ decide (depth < entry.1) = true := by simpa using hrest entry rfl
        exact ⟨List.takeWhile_cons_of_neg hle, List.dropWhile_cons_of_neg hle⟩
    rw [entries_eq, List.cons_append, Shape.ofEntries, List.takeWhile_append_of_pos hdeeper,
      List.dropWhile_append_of_pos hdeeper, hend.1, hend.2, List.append_nil,
      ofEntries_flatMap fun c hc _ hrest => ih c hc _ hrest, shape_eq]

/-- Without a line feed in a literal, the shape can be read from the outline. -/
theorem ofOutline_outline (h : NamedInLine e) (hraws : ∀ l ∈ e.literals, '\n' ∉ l.2.toList) :
    Shape.ofOutline e.outline.toList = [e.shape] := by
  have hentries : (endedLines e.outline.toList).map Shape.readEntry =
      e.entries 0 := by
    refine List.forall₂_eq_eq_eq ▸ List.forall₂_map_left_iff.mpr (List.forall₂_map_right_iff.mpr ?_)
    exact (forall₂_begins h hraws).imp fun _ _ hbegins => hbegins.readEntry_eq
  have hshape : Shape.ofEntries (e.entries 0 ++ []) = e.shape :: Shape.ofEntries [] :=
    ofEntries_entries e 0 fun entry hentry => absurd hentry (Option.not_mem_none entry)
  rwa [List.append_nil, ← hentries, Shape.ofEntries] at hshape

end Expr

end Precedence
