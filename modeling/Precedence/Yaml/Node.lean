import Precedence.Yaml.Mark

/-!
# YAML nodes

`Node.parse?` reads a text of one document as a tree of scalars, sequences and mappings. An alias
stands for the node with the anchor of that name that was read last; one that stands within that
node itself is kept as a cycle. Where a node is missing, an empty plain scalar stands.
-/

namespace Precedence.Yaml

inductive Node where
  | scalar (tag : Option (List Char)) (style : ScalarStyle) (text : List Char)
  | sequence (items : List Node)
  | mapping (pairs : List (Node × Node))
  | cycle
  deriving Inhabited

namespace Node

def empty : Node :=
  .scalar none .plain []

/-- A name, and the node that it stands for once that is complete. -/
structure Anchor where
  name : List Char
  node? : Option Node

/-- What is left to read, the anchors with the latest first, and the handles of tags. -/
structure Reading where
  rest : List Mark
  anchors : List Anchor := []
  handles : List (List Char × List Char) := []

/-- What a reader finds, and what is left then. -/
abbrev Read (α : Type) := Option (α × Reading)

namespace Reading

def next? (r : Reading) : Option Mark :=
  r.rest.head?

def skip (r : Reading) : Reading :=
  { r with rest := r.rest.tail }

/-- The node that an alias stands for. -/
def resolve? (r : Reading) (name : List Char) : Option Node :=
  (r.anchors.find? (·.name == name)).map fun a => a.node?.getD .cycle

/-- Adds an anchor for a node that begins here. -/
def declare (r : Reading) (name : Option (List Char)) : Reading :=
  match name with
  | some name => { r with anchors := ⟨name, none⟩ :: r.anchors }
  | none => r

/-- Completes the anchor that was declared when there were `count` others. -/
def complete (r : Reading) (name : Option (List Char)) (count : Nat) (node : Node) : Reading :=
  if name.isSome then
    { r with
      anchors := r.anchors.modify (r.anchors.length - 1 - count) ({ · with node? := some node }) }
  else r

/-- The tag that a handle and a suffix mean. -/
def tag? (r : Reading) (handle suffix : List Char) : Option (List Char) :=
  if handle.isEmpty then some suffix
  else (r.handles.lookup handle).map (· ++ suffix)

end Reading

/-- The anchor and the tag of a node. -/
structure Properties where
  anchor : Option (List Char) := none
  tag : Option (List Char) := none

/-- Reads an anchor and a tag, in either order, either of which may be missing. -/
def readProperties (r : Reading) : Read Properties :=
  let tag := fun (r : Reading) (handle suffix : List Char) (anchor : Option (List Char)) =>
    (r.tag? handle suffix).map fun tag => ({ anchor, tag := some tag : Properties }, r)
  match r.rest with
  | .anchor name :: .tag handle suffix :: rest => tag { r with rest } handle suffix (some name)
  | .tag handle suffix :: .anchor name :: rest => tag { r with rest } handle suffix (some name)
  | .anchor name :: rest => some ({ anchor := some name }, { r with rest })
  | .tag handle suffix :: rest => tag { r with rest } handle suffix none
  | _ => some ({}, r)

/-- A scalar with a tag that says no more than that it is one has none. -/
def scalarTag (tag : Option (List Char)) : Option (List Char) :=
  if tag = some ['!'] then none else tag

/-- Whether one of the marks comes next. -/
def Reading.at (r : Reading) (marks : List Mark) : Bool :=
  r.next?.any marks.contains

mutual

/-- Reads a node. `inBlock` admits block collections, `hanging` a sequence that is indented no
deeper than the key in front of it. -/
def readNode (fuel : Nat) (inBlock hanging : Bool) (r : Reading) : Read Node :=
  match fuel with
  | 0 => none
  | fuel + 1 =>
    match r.rest with
    | .alias name :: rest => (r.resolve? name).map fun node => (node, { r with rest })
    | _ =>
      match readProperties r with
      | none => none
      | some (properties, r) =>
        let count := r.anchors.length
        let finish := fun (node : Node) (r : Reading) =>
          (node, r.complete properties.anchor count node)
        let r := r.declare properties.anchor
        let collection := fun (make : Read Node) => make.map fun (node, r) => finish node r
        match r.rest with
        | .entry :: _ =>
          if hanging then
            collection ((readHanging fuel r).map fun (items, r) => (.sequence items, r))
          else if properties.anchor.isSome || properties.tag.isSome then
            some (finish (.scalar properties.tag .plain []) r)
          else none
        | .scalar style text :: rest =>
          some (finish (.scalar (scalarTag properties.tag) style text) { r with rest })
        | .flowSequenceStart :: rest =>
          collection ((readFlowItems fuel true { r with rest }).map fun (items, r) =>
            (.sequence items, r))
        | .flowMappingStart :: rest =>
          collection ((readFlowPairs fuel true { r with rest }).map fun (pairs, r) =>
            (.mapping pairs, r))
        | m :: rest =>
          if inBlock && m = .blockSequenceStart then
            collection ((readItems fuel { r with rest }).map fun (items, r) => (.sequence items, r))
          else if inBlock && m = .blockMappingStart then
            collection ((readPairs fuel { r with rest }).map fun (pairs, r) => (.mapping pairs, r))
          else if properties.anchor.isSome || properties.tag.isSome then
            some (finish (.scalar properties.tag .plain []) r)
          else none
        | [] =>
          if properties.anchor.isSome || properties.tag.isSome then
            some (finish (.scalar properties.tag .plain []) r)
          else none

/-- Reads a node, or nothing where one of the given marks or the end of the text comes next. -/
def readOptional (fuel : Nat) (inBlock hanging : Bool) (ends : List Mark) (r : Reading) :
    Read Node :=
  match fuel with
  | 0 => none
  | fuel + 1 => if r.at ends then some (.empty, r) else readNode fuel inBlock hanging r

/-- Reads the entries of a block sequence up to its end. -/
def readItems (fuel : Nat) (r : Reading) : Read (List Node) :=
  match fuel with
  | 0 => none
  | fuel + 1 =>
    match r.rest with
    | .entry :: rest =>
      match readOptional fuel true false [.entry, .blockEnd] { r with rest } with
      | none => none
      | some (item, r) => (readItems fuel r).map fun (items, r) => (item :: items, r)
    | .blockEnd :: rest => some ([], { r with rest })
    | _ => none

/-- Reads the entries of a sequence that ends where no further entry follows. -/
def readHanging (fuel : Nat) (r : Reading) : Read (List Node) :=
  match fuel with
  | 0 => none
  | fuel + 1 =>
    match r.rest with
    | .entry :: rest =>
      match readOptional fuel true false [.entry, .key, .value, .blockEnd] { r with rest } with
      | none => none
      | some (item, r) => (readHanging fuel r).map fun (items, r) => (item :: items, r)
    | _ => some ([], r)

/-- Reads the pairs of a block mapping up to its end. -/
def readPairs (fuel : Nat) (r : Reading) : Read (List (Node × Node)) :=
  match fuel with
  | 0 => none
  | fuel + 1 =>
    match r.rest with
    | .key :: rest =>
      match readOptional fuel true true [.key, .value, .blockEnd] { r with rest } with
      | none => none
      | some (key, r) =>
        match r.rest with
        | .value :: rest =>
          match readOptional fuel true true [.key, .value, .blockEnd] { r with rest } with
          | none => none
          | some (value, r) => (readPairs fuel r).map fun (pairs, r) => ((key, value) :: pairs, r)
        | _ => (readPairs fuel r).map fun (pairs, r) => ((key, .empty) :: pairs, r)
    | .blockEnd :: rest => some ([], { r with rest })
    | _ => none

/-- Reads the items of a flow sequence up to its bracket. A pair among them is a mapping. -/
def readFlowItems (fuel : Nat) (first : Bool) (r : Reading) : Read (List Node) :=
  match fuel with
  | 0 => none
  | fuel + 1 =>
    match r.rest with
    | .flowSequenceEnd :: rest => some ([], { r with rest })
    | _ =>
      let behindComma := match r.rest with
        | .comma :: rest => if first then none else some { r with rest }
        | _ => if first then some r else none
      match behindComma with
      | none => none
      | some r =>
        match r.rest with
        | .flowSequenceEnd :: rest => some ([], { r with rest })
        | .key :: rest =>
          match readFlowPair fuel [.comma, .flowSequenceEnd] { r with rest } with
          | none => none
          | some (pair, r) =>
            (readFlowItems fuel false r).map fun (items, r) => (.mapping [pair] :: items, r)
        | _ =>
          match readNode fuel false false r with
          | none => none
          | some (item, r) =>
            (readFlowItems fuel false r).map fun (items, r) => (item :: items, r)

/-- Reads a key and, if there is one, its value. -/
def readFlowPair (fuel : Nat) (ends : List Mark) (r : Reading) : Read (Node × Node) :=
  match fuel with
  | 0 => none
  | fuel + 1 =>
    match readOptional fuel false false (.value :: ends) r with
    | none => none
    | some (key, r) =>
      match r.rest with
      | .value :: rest =>
        (readOptional fuel false false ends { r with rest }).map fun (value, r) => ((key, value), r)
      | _ => some ((key, .empty), r)

/-- Reads the pairs of a flow mapping up to its brace. -/
def readFlowPairs (fuel : Nat) (first : Bool) (r : Reading) : Read (List (Node × Node)) :=
  match fuel with
  | 0 => none
  | fuel + 1 =>
    match r.rest with
    | .flowMappingEnd :: rest => some ([], { r with rest })
    | _ =>
      let behindComma := match r.rest with
        | .comma :: rest => if first then none else some { r with rest }
        | _ => if first then some r else none
      match behindComma with
      | none => none
      | some r =>
        match r.rest with
        | .flowMappingEnd :: rest => some ([], { r with rest })
        | .key :: rest =>
          match readFlowPair fuel [.comma, .flowMappingEnd] { r with rest } with
          | none => none
          | some (pair, r) =>
            (readFlowPairs fuel false r).map fun (pairs, r) => (pair :: pairs, r)
        | _ =>
          match readNode fuel false false r with
          | none => none
          | some (key, r) =>
            (readFlowPairs fuel false r).map fun (pairs, r) => ((key, .empty) :: pairs, r)

end

/-! ### Documents -/

/-- The handles that need no directive. -/
def standardHandles : List (List Char × List Char) :=
  [(['!'], ['!']), (['!', '!'], "tag:yaml.org,2002:".toList)]

/-- Reads directives: the version at most once, each handle at most once. -/
def readDirectives (versioned : Bool) (handles : List (List Char × List Char)) :
    List Mark → Option (List (List Char × List Char) × List Mark)
  | .version major minor :: rest =>
    if versioned || major ≠ 1 || (minor ≠ 1 && minor ≠ 2) then none
    else readDirectives true handles rest
  | .tagHandle handle meaning :: rest =>
    if (handles.lookup handle).isSome then none
    else readDirectives versioned (handles ++ [(handle, meaning)]) rest
  | rest => some (handles, rest)

/-- Reads the node of a document whose beginning is marked. -/
def readMarked (fuel : Nat) (r : Reading) : Read Node :=
  match r.rest with
  | [] => some (.empty, r)
  | .version _ _ :: _ => some (.empty, r)
  | .tagHandle _ _ :: _ => some (.empty, r)
  | .documentStart :: _ => some (.empty, r)
  | .documentEnd :: _ => some (.empty, r)
  | _ => readNode fuel true false r

/-- The node of a row of marks that is one document. Without any marks there is none. -/
def ofMarks? (marks : List Mark) : Option (Option Node) := do
  if marks.isEmpty then return none
  let fuel := 3 * marks.length + 3
  let (handles, rest) ← readDirectives false [] marks
  let handles := handles ++ standardHandles
  let (node, r) ← match rest with
    | .documentStart :: rest => readMarked fuel { rest, handles }
    | rest =>
      if rest.length = marks.length then readNode fuel true false { rest, handles } else none
  if (r.rest.dropWhile (· == .documentEnd)).isEmpty then return some node else none

/-- The node of a text that is one document; an empty text has an empty one. -/
def parse? (text : String) : Option Node :=
  ((marks? text.toList).bind ofMarks?).map (·.getD .empty)

end Node

end Precedence.Yaml
