import Custody.Yaml.Token

/-!
# Trees of YAML documents

`Tree.ofTokens` arranges the tokens of a text as the tree of its one document: scalars, sequences
and mappings, with their anchors and tags, and aliases. Where a node may be left out, the empty
plain scalar stands for it. Tag handles are replaced by what they stand for. A text may have no
document at all, but not two.

Names of nodes are looked at in the order of the tokens (`checkNames`): a name is given to one node
only, and an alias comes after the node of its name. Nodes nest up to `deepest` levels.
-/

namespace Custody.Yaml

/-- The anchor and the tag of a node. -/
structure Properties where
  /-- The name by which aliases refer to the node. -/
  anchor : Option (List Char) := none
  /-- The tag, with its handle replaced. -/
  tag : Option (List Char) := none
deriving DecidableEq, Repr

/-- A node of a document before aliases are followed. -/
inductive Tree where
  | alias (name : List Char)
  | scalar (properties : Properties) (text : Text) (plain : Bool)
  | sequence (properties : Properties) (items : List Tree)
  | mapping (properties : Properties) (entries : List (Tree × Tree))

namespace Tree

/-- What tag handles stand for. -/
abbrev Handles := List (List Char × List Char)

/-- What the two usual handles stand for. -/
def usualHandles : Handles :=
  [("!".toList, "!".toList), ("!!".toList, "tag:yaml.org,2002:".toList)]

/-- The node that stands where one is left out. -/
def empty : Tree :=
  .scalar {} ⟨[]⟩ true

/-- The tokens up to the first that misuses a name, in whose place a fault stands; `known` are the
names given so far. -/
def checkNames (known : List (List Char)) : List Token → List Token
  | [] => []
  | .alias name :: rest =>
    if known.contains name then .alias name :: checkNames known rest else [.broken .malformed]
  | .anchor name :: rest =>
    if known.contains name then
      -- That a name is taken shows when the first token of the node itself is told.
      .anchor name :: match rest with
        | .broken fault :: _ => [.broken fault]
        | .tag handle suffix :: .broken fault :: _ => [.tag handle suffix, .broken fault]
        | _ => [.broken .malformed]
    else .anchor name :: checkNames (name :: known) rest
  | token :: rest => token :: checkNames known rest

/-- The fault of tokens that do not go on as they should. -/
def faultAt : List Token → Fault
  | .broken fault :: _ => fault
  | _ => .malformed

/-- How many levels of nodes there may be. -/
def deepest : Nat := 488

/-- A tag with its handle replaced. -/
def resolveHandle (handles : Handles) (handle : Option (List Char)) (suffix : List Char) :
    Except Fault (List Char) :=
  match handle with
  | none => .ok suffix
  | some handle =>
    match handles.lookup handle with
    | some uri => .ok (uri ++ suffix)
    | none => .error .malformed

/-- The anchor and the tag at the front of the tokens, in either order. -/
def readProperties (handles : Handles) :
    List Token → Except Fault (Properties × List Token)
  | .anchor name :: .tag handle suffix :: rest | .tag handle suffix :: .anchor name :: rest => do
    let tag ← resolveHandle handles handle suffix
    .ok ({ anchor := some name, tag := some tag }, rest)
  | .anchor name :: rest => .ok ({ anchor := some name }, rest)
  | .tag handle suffix :: rest => do
    let tag ← resolveHandle handles handle suffix
    .ok ({ tag := some tag }, rest)
  | tokens => .ok ({}, tokens)

/-- Whether the tokens start with one of those given. -/
def startsWith (tokens : List Token) (choices : List Token) : Bool :=
  tokens.head?.any choices.contains

/-- What was read, made into a tree. -/
def build {α : Type} (make : α → Tree) (read : Except Fault (α × List Token)) :
    Except Fault (Tree × List Token) :=
  read.map fun (a, rest) => (make a, rest)

/-- The scalar that is left out after an anchor or a tag. -/
def leftOut (properties : Properties) (rest : List Token) : Except Fault (Tree × List Token) :=
  match rest with
  | .broken fault :: _ => .error fault
  | _ => if properties = {} then .error .malformed else .ok (.scalar properties ⟨[]⟩ true, rest)

mutual

/-- A node of at most so many levels. Block collections are read if `block` says so, and entries
of a block sequence with no start of its own if `bare` says so. -/
def readNode (handles : Handles) (block bare : Bool) (levels : Nat) :
    (fuel : Nat) → List Token → Except Fault (Tree × List Token)
  | 0, _ => .error .malformed
  | _ + 1, .alias name :: rest => .ok (.alias name, rest)
  | fuel + 1, tokens => do
    let (properties, rest) ← readProperties handles tokens
    if levels = 0 then .error .tooDeep
    else match rest with
    | .scalar text plain :: rest => .ok (.scalar properties text plain, rest)
    | .flowSequenceStart :: rest =>
      build (.sequence properties) (readFlowSequence handles true (levels - 1) fuel rest)
    | .flowMappingStart :: rest =>
      build (.mapping properties) (readFlowMapping handles true (levels - 1) fuel rest)
    | .blockSequenceStart :: more =>
      if block then build (.sequence properties) (readBlockSequence handles (levels - 1) fuel more)
      else leftOut properties rest
    | .blockMappingStart :: more =>
      if block then build (.mapping properties) (readBlockMapping handles (levels - 1) fuel more)
      else leftOut properties rest
    | .blockEntry :: _ =>
      if bare then build (.sequence properties) (readBareSequence handles (levels - 1) fuel rest)
      else leftOut properties rest
    | _ => leftOut properties rest
termination_by structural fuel => fuel

/-- The entries of a block sequence, to its end. -/
def readBlockSequence (handles : Handles) (levels : Nat) :
    (fuel : Nat) → List Token → Except Fault (List Tree × List Token)
  | 0, _ => .error .malformed
  | _ + 1, .blockEnd :: rest => .ok ([], rest)
  | fuel + 1, .blockEntry :: rest => do
    let (item, rest) ←
      if startsWith rest [.blockEntry, .blockEnd] then .ok (empty, rest)
      else readNode handles true false levels fuel rest
    let (items, rest) ← readBlockSequence handles levels fuel rest
    .ok (item :: items, rest)
  | _ + 1, tokens => .error (faultAt tokens)
termination_by structural fuel => fuel

/-- The entries of a block sequence that has no start and no end of its own. -/
def readBareSequence (handles : Handles) (levels : Nat) :
    (fuel : Nat) → List Token → Except Fault (List Tree × List Token)
  | 0, _ => .error .malformed
  | fuel + 1, .blockEntry :: rest => do
    let (item, rest) ←
      if startsWith rest [.blockEntry, .key, .value, .blockEnd] then .ok (empty, rest)
      else readNode handles true false levels fuel rest
    let (items, rest) ← readBareSequence handles levels fuel rest
    .ok (item :: items, rest)
  | _ + 1, tokens => .ok ([], tokens)
termination_by structural fuel => fuel

/-- The entries of a block mapping, to its end. -/
def readBlockMapping (handles : Handles) (levels : Nat) :
    (fuel : Nat) → List Token → Except Fault (List (Tree × Tree) × List Token)
  | 0, _ => .error .malformed
  | _ + 1, .blockEnd :: rest => .ok ([], rest)
  | fuel + 1, .key :: rest => do
    let (key, rest) ←
      if startsWith rest [.key, .value, .blockEnd] then .ok (empty, rest)
      else readNode handles true true levels fuel rest
    let (value, rest) ←
      match rest with
      | .value :: rest =>
        if startsWith rest [.key, .value, .blockEnd] then .ok (empty, rest)
        else readNode handles true true levels fuel rest
      | _ => .ok (empty, rest)
    let (entries, rest) ← readBlockMapping handles levels fuel rest
    .ok ((key, value) :: entries, rest)
  | _ + 1, tokens => .error (faultAt tokens)
termination_by structural fuel => fuel

/-- The entries of a flow sequence, to its end; all but the first follow a comma. An entry that
is a key and a value is a mapping of them. -/
def readFlowSequence (handles : Handles) (first : Bool) (levels : Nat) :
    (fuel : Nat) → List Token → Except Fault (List Tree × List Token)
  | 0, _ => .error .malformed
  | _ + 1, .flowSequenceEnd :: rest => .ok ([], rest)
  | fuel + 1, tokens => do
    let tokens ←
      if first then .ok tokens
      else
        match tokens with
        | .flowEntry :: rest => .ok rest
        | _ => .error (faultAt tokens)
    match tokens with
    | .flowSequenceEnd :: rest => .ok ([], rest)
    | .key :: rest => do
      let (key, rest) ←
        if startsWith rest [.value, .flowEntry, .flowSequenceEnd] then .ok (empty, rest)
        else readNode handles false false (levels - 1) fuel rest
      let (value, rest) ←
        match rest with
        | .value :: rest =>
          if startsWith rest [.flowEntry, .flowSequenceEnd] then .ok (empty, rest)
          else readNode handles false false (levels - 1) fuel rest
        | _ => .ok (empty, rest)
      let (items, rest) ← readFlowSequence handles false levels fuel rest
      .ok (.mapping {} [(key, value)] :: items, rest)
    | _ => do
      let (item, rest) ← readNode handles false false levels fuel tokens
      let (items, rest) ← readFlowSequence handles false levels fuel rest
      .ok (item :: items, rest)
termination_by structural fuel => fuel

/-- The entries of a flow mapping, to its end; all but the first follow a comma. -/
def readFlowMapping (handles : Handles) (first : Bool) (levels : Nat) :
    (fuel : Nat) → List Token → Except Fault (List (Tree × Tree) × List Token)
  | 0, _ => .error .malformed
  | _ + 1, .flowMappingEnd :: rest => .ok ([], rest)
  | fuel + 1, tokens => do
    let tokens ←
      if first then .ok tokens
      else
        match tokens with
        | .flowEntry :: rest => .ok rest
        | _ => .error (faultAt tokens)
    match tokens with
    | .flowMappingEnd :: rest => .ok ([], rest)
    | .key :: rest => do
      let (key, rest) ←
        if startsWith rest [.value, .flowEntry, .flowMappingEnd] then .ok (empty, rest)
        else readNode handles false false levels fuel rest
      let (value, rest) ←
        match rest with
        | .value :: rest =>
          if startsWith rest [.flowEntry, .flowMappingEnd] then .ok (empty, rest)
          else readNode handles false false levels fuel rest
        | _ => .ok (empty, rest)
      let (entries, rest) ← readFlowMapping handles false levels fuel rest
      .ok ((key, value) :: entries, rest)
    | _ => do
      let (key, rest) ← readNode handles false false levels fuel tokens
      let (entries, rest) ← readFlowMapping handles false levels fuel rest
      .ok ((key, empty) :: entries, rest)
termination_by structural fuel => fuel

end

/-- What directives say of handles; each handle and the version may be given once. -/
def readDirectives (versioned : Bool) (handles : Handles) :
    List Token → Except Fault (Handles × List Token)
  | .directive (.version major) :: rest =>
    if versioned || major != 1 then .error .malformed else readDirectives true handles rest
  | .directive (.tag handle uri) :: rest =>
    if (handles.lookup handle).isSome then .error .malformed
    else readDirectives versioned (handles ++ [(handle, uri)]) rest
  | .directive .other :: rest => readDirectives versioned handles rest
  | tokens => .ok (handles, tokens)

/-- Whether tokens start with a mark that leaves the content of a document empty. -/
def endsContent (tokens : List Token) : Bool :=
  match tokens with
  | [] | .directive _ :: _ | .documentStart :: _ | .documentEnd :: _ => true
  | _ => false

/-- The tree of a document, if there is one, and the tokens after it. -/
def readDocument (tokens : List Token) : Except Fault (Option Tree × List Token) :=
  -- Each node takes at most two steps for each of its tokens.
  let fuel := 2 * tokens.length + 2
  match tokens with
  | [] => .ok (none, [])
  | .directive _ :: _ | .documentStart :: _ => do
    let (handles, rest) ← readDirectives false [] tokens
    match rest with
    | .documentStart :: rest =>
      if endsContent rest then .ok (some empty, rest)
      else do
        let (tree, rest) ← readNode (handles ++ usualHandles) true false deepest fuel rest
        .ok (some tree, rest)
    | _ => .error (faultAt rest)
  | _ => do
    let (tree, rest) ← readNode usualHandles true false deepest fuel tokens
    .ok (some tree, rest)

/-- The tree of the one document of a text, if it has one. -/
def ofTokens (tokens : List Token) : Except Fault (Option Tree) := do
  let (tree, rest) ← readDocument (checkNames [] tokens)
  match rest.dropWhile (· == .documentEnd) with
  | [] => .ok tree
  | rest => .error (faultAt rest)

end Tree

end Custody.Yaml
