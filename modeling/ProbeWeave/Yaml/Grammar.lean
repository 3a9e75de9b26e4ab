import ProbeWeave.Yaml.Lexer
import ProbeWeave.Yaml.Scalar

/-!
# From tokens to nodes

A document is one node, perhaps between markers. A reference stands for the node that was named
before it. No two keys of a map may be equal; the entries of other maps can be taken over by a merge
key, and those of the map itself come first.
-/

namespace ProbeWeave.Yaml

/-- What is left of the tokens, and the nodes that were named. -/
structure Source where
  tokens : List Token
  named : List (String × Node)

/-- Reads part of a document. -/
abbrev Reader (α : Type) := StateT Source Option α

namespace Reader

/-- The next token. -/
def peek : Reader (Option Token) := do
  return (← get).tokens.head?

/-- Whether the next token is one of some. -/
def sees (ts : List Token) : Reader Bool := do
  match ← peek with
  | some t => return ts.contains t
  | none => return false

/-- Passes over the next token. -/
def skip : Reader Unit :=
  modify fun s => { s with tokens := s.tokens.tail }

/-- Passes over the next token if it is a given one. -/
def accept (t : Token) : Reader Bool := do
  if ← sees [t] then
    skip
    return true
  else return false

/-- Passes over a token that has to come next. -/
def expect (t : Token) : Reader Unit := do
  if !(← accept t) then failure

end Reader

/-- The node where nothing is written. -/
def Node.empty : Node :=
  .scalar .null

/-- The scalar of a text, given the tag in front of it. -/
def Scalar.ofWritten (tag : Option String) (s : String) (style : Style) : Scalar :=
  match tag with
  | some "!str" | some "" => .text s (if style == .plain then .single else style)
  | some _ => ofPlain s
  | none => if style == .plain then ofPlain s else .text s style

namespace Node

/-- Whether the key of an entry is the mark to take over entries. -/
def isMerge (key : Node) : Bool :=
  key.bare == .scalar (.text Scalar.mergeKey .plain)

/-- The entries that a merge key takes over. -/
def mergedEntries (node : Node) : Option (List (Node × Node)) :=
  match node.bare with
  | map _ entries => some entries
  | list _ items => do
    let parts ← items.mapM fun item =>
      match item.bare with
      | map _ entries => some entries
      | _ => none
    return parts.flatten
  | _ => none

/-- Whether a key is among entries. -/
def hasKey (entries : List (Node × Node)) (key : Node) : Bool :=
  entries.any fun (k, _) => k.value == key.value

/-- Adds entries whose keys are new. -/
def addNew (entries new : List (Node × Node)) : List (Node × Node) :=
  new.foldl (fun entries (k, v) => if hasKey entries k then entries else entries ++ [(k, v)]) entries

/-- Whether two entries have equal keys. -/
def hasDuplicates : List (Node × Node) → Bool
  | [] => false
  | (k, _) :: rest => hasKey rest k || hasDuplicates rest

/-- The map of some entries. -/
def ofEntries? (inline : Bool) (entries : List (Node × Node)) : Option Node := do
  let own := entries.filter fun (k, _) => !isMerge k
  let merged ← (entries.filter fun (k, _) => isMerge k).mapM fun (_, v) => mergedEntries v
  if hasDuplicates own then none else return map inline (addNew own merged.flatten)

end Node

/-- Where a node stands. -/
inductive Position where
  /-- In a block. -/
  | block
  /-- In a map of a block, whose lists need not be indented. -/
  | entry
  /-- Between brackets. -/
  | inline
  deriving DecidableEq, Repr

namespace Reader

/-- Names a node. -/
def bind? (name : Option String) (node : Node) : Reader Node := do
  match name with
  | none => return node
  | some name =>
    let node := Node.named name node
    modify fun s => { s with named := (name, node) :: s.named }
    return node

/-- The anchor and the tag in front of a node, in either order. -/
def properties : Reader (Option String × Option String) := do
  match (← get).tokens with
  | .anchor a :: .tag t :: rest | .tag t :: .anchor a :: rest =>
    modify fun s => { s with tokens := rest }
    return (some a, some t)
  | .anchor a :: rest =>
    modify fun s => { s with tokens := rest }
    return (some a, none)
  | .tag t :: rest =>
    modify fun s => { s with tokens := rest }
    return (none, some t)
  | _ => return (none, none)

mutual

/-- Reads a node. -/
def node : Nat → Position → Reader Node
  | 0, _ => failure
  | fuel + 1, position => do
    match ← peek with
    | some (.reference name) =>
      skip
      match (← get).named.lookup name with
      | some node => return node
      | none => failure
    | _ =>
      let (name, tag) ← properties
      match ← peek with
      | some (.scalar s style) =>
        skip
        bind? name (.scalar (Scalar.ofWritten tag s style))
      | some .flowListStart =>
        skip
        bind? name (.list true (← inlineItems fuel true))
      | some .flowMapStart =>
        skip
        let entries ← inlineEntries fuel true
        bind? name (← Node.ofEntries? true entries)
      | some .blockEntry =>
        if position == .entry then bind? name (.list false (← looseItems fuel))
        else if name.isSome || tag.isSome then bind? name .empty
        else failure
      | some .blockListStart =>
        if position == .inline then failure
        else
          skip
          bind? name (.list false (← blockItems fuel))
      | some .blockMapStart =>
        if position == .inline then failure
        else
          skip
          let entries ← blockEntries fuel
          bind? name (← Node.ofEntries? false entries)
      | _ => if name.isSome || tag.isSome then bind? name .empty else failure

/-- Reads a node, or nothing if one of some tokens comes next. -/
def nodeUnless : Nat → Position → List Token → Reader Node
  | 0, _, _ => failure
  | fuel + 1, position, ends => do
    match ← peek with
    | none => return .empty
    | some t => if ends.contains t then return .empty else node fuel position

/-- Reads the entries of an indented list. -/
def blockItems : Nat → Reader (List Node)
  | 0 => failure
  | fuel + 1 => do
    if ← accept .blockEntry then
      let item ← nodeUnless fuel .block [.blockEntry, .blockEnd]
      return item :: (← blockItems fuel)
    else
      expect .blockEnd
      return []

/-- Reads the entries of a list that is not indented. -/
def looseItems : Nat → Reader (List Node)
  | 0 => failure
  | fuel + 1 => do
    if ← accept .blockEntry then
      let item ← nodeUnless fuel .block [.blockEntry, .key, .value, .blockEnd]
      return item :: (← looseItems fuel)
    else return []

/-- Reads the entries of an indented map. -/
def blockEntries : Nat → Reader (List (Node × Node))
  | 0 => failure
  | fuel + 1 => do
    if ← sees [.key, .value] then
      let key ←
        if ← accept .key then nodeUnless fuel .entry [.key, .value, .blockEnd] else pure Node.empty
      let value ←
        if ← accept .value then nodeUnless fuel .entry [.key, .value, .blockEnd]
        else pure Node.empty
      return (key, value) :: (← blockEntries fuel)
    else
      expect .blockEnd
      return []

/-- Reads the rest of a list between brackets. -/
def inlineItems : Nat → Bool → Reader (List Node)
  | 0, _ => failure
  | fuel + 1, first => do
    if ← accept .flowListEnd then return []
    else
      if !first then expect .flowEntry
      if ← accept .flowListEnd then return []
      else
        let item ←
          if ← accept .key then do
            let key ← nodeUnless fuel .inline [.value, .flowEntry, .flowListEnd]
            let value ←
              if ← accept .value then nodeUnless fuel .inline [.flowEntry, .flowListEnd]
              else pure Node.empty
            pure (Node.map true [(key, value)])
          else node fuel .inline
        return item :: (← inlineItems fuel false)

/-- Reads the rest of a map between brackets. -/
def inlineEntries : Nat → Bool → Reader (List (Node × Node))
  | 0, _ => failure
  | fuel + 1, first => do
    if ← accept .flowMapEnd then return []
    else
      if !first then expect .flowEntry
      if ← accept .flowMapEnd then return []
      else
        let key ←
          if ← accept .key then nodeUnless fuel .inline [.value, .flowEntry, .flowMapEnd]
          else nodeUnless fuel .inline [.value]
        let value ←
          if ← accept .value then nodeUnless fuel .inline [.flowEntry, .flowMapEnd]
          else pure Node.empty
        return (key, value) :: (← inlineEntries fuel false)

end

/-- Passes over tokens of one kind. -/
def skipAll (t : Token) : Reader Unit :=
  modify fun s => { s with tokens := s.tokens.dropWhile (· == t) }

/-- Reads a document; there is none if nothing was written. -/
def document : Reader (Option Node) := do
  let fuel := 3 * (← get).tokens.length + 3
  skipAll .directive
  if (← get).tokens.isEmpty then return none
  else
    discard (accept .documentStart)
    let root ← nodeUnless fuel .block [.directive, .documentStart, .documentEnd]
    skipAll .documentEnd
    if (← get).tokens.isEmpty then return some root else failure

end Reader

/-- Reads a document; `none` inside if nothing is written in it, outside if it is malformed. -/
def read? (text : String) : Option (Option Node) := do
  let tokens ← tokens? text
  let (root, _) ← Reader.document.run ⟨tokens, []⟩
  return root

end ProbeWeave.Yaml
