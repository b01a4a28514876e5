/-
  MockServer.Yaml.Node — documents written in YAML.

  A text holds one document.  Quoted scalars are texts; plain ones are
  words, whose meaning is left to the reader, and so is a missing node,
  which is the empty word.  An alias stands for a copy of the node it
  names.
-/
import MockServer.Document.Basic
import MockServer.Yaml.Token

namespace MockServer.Yaml

/-- What is left of the tokens, and the nodes that have names. -/
structure Reader where
  tokens : List Token
  anchors : List (String × Document)

/-- Reads something off the tokens, or fails. -/
abbrev Read := StateT Reader Option

def peek : Read (Option Token) := return (← get).tokens.head?

def advance : Read Unit := modify fun r => { r with tokens := r.tokens.tail }

/-- Goes behind the next token if it is the given one. -/
def accept (t : Token) : Read Bool := do
  if (← peek) == some t then
    advance
    return true
  else return false

/-- Goes behind the next token, which must be the given one. -/
def expect (t : Token) : Read Unit := do
  if ← accept t then return else failure

/-- Is the next token one of a list? -/
def isNext (ts : List Token) : Read Bool := return (← peek).any ts.contains

def missing : Document := .word ""

/-- What may stand in front of a node. -/
structure Properties where
  anchor : Option String := none
  tag : Option (Option Document.Tag) := none

/-- Is there anything in front of the node? -/
def Properties.isAny (p : Properties) : Bool := p.anchor.isSome || p.tag.isSome

/-- The name and the tag in front of a node, in either order. -/
def properties : Read Properties := do
  match ← peek with
  | some (.anchor name) =>
    advance
    match ← peek with
    | some (.tag t) =>
      advance
      return { anchor := name, tag := some t }
    | _ => return { anchor := name }
  | some (.tag t) =>
    advance
    match ← peek with
    | some (.anchor name) =>
      advance
      return { anchor := name, tag := some t }
    | _ => return { tag := some t }
  | _ => return {}

/-- Gives a node what stands in front of it. -/
def finish (p : Properties) (d : Document) : Read Document := do
  let d := match p.tag with
    | some (some tag) => .tagged tag d
    | _ => d
  match p.anchor with
  | none => return d
  | some name =>
    modify fun r => { r with anchors := (name, d) :: r.anchors }
    return d

mutual

/-- Reads a node; `n` bounds the nesting and the number of its parts. A sequence without a block of
its own may stand where `loose` is set. -/
def node : Nat → (inBlock loose : Bool) → Read Document
  | 0, _, _ => failure
  | n + 1, inBlock, loose => do
    match ← peek with
    | some (.alias name) =>
      advance
      match (← get).anchors.lookup name with
      | some d => return d
      | none => failure
    | _ =>
      let p ← properties
      match ← peek with
      | some (.plain text) =>
        advance
        finish p (.word text)
      | some (.quoted text) =>
        advance
        finish p (.fixed (.str text))
      | some .sequenceStart =>
        advance
        let items ← flowItems n true
        finish p (.list items false)
      | some .mappingStart =>
        advance
        let entries ← flowEntries n true
        finish p (.table entries false)
      | some .entry =>
        if loose then
          let items ← looseItems n
          finish p (.list items false)
        else failure
      | some .blockSequence =>
        if inBlock then
          advance
          let items ← blockItems n
          finish p (.list items false)
        else failure
      | some .blockMapping =>
        if inBlock then
          advance
          let entries ← blockEntries n
          finish p (.table entries false)
        else failure
      -- a name or a tag may stand in front of nothing
      | _ => if p.isAny then finish p missing else failure

/-- Reads the node of a block unless one of the given tokens follows. -/
def blockPart : Nat → (loose : Bool) → List Token → Read Document
  | 0, _, _ => failure
  | n + 1, loose, ends => do
    if ← isNext ends then return missing else node n true loose

/-- Reads the node of a flow collection unless one of the given tokens follows. -/
def flowPart : Nat → List Token → Read Document
  | 0, _ => failure
  | n + 1, ends => do
    if ← isNext ends then return missing else node n false false

/-- Reads the entries of a block sequence up to its end. -/
def blockItems : Nat → Read (List Document)
  | 0 => failure
  | n + 1 => do
    if ← accept .entry then
      let d ← blockPart n false [.entry, .blockEnd]
      return d :: (← blockItems n)
    else
      expect .blockEnd
      return []

/-- Reads the entries of a sequence that ends where the block around it goes on. -/
def looseItems : Nat → Read (List Document)
  | 0 => failure
  | n + 1 => do
    if ← accept .entry then
      let d ← blockPart n false [.entry, .key, .value, .blockEnd]
      return d :: (← looseItems n)
    else return []

/-- Reads the entries of a block mapping up to its end. -/
def blockEntries : Nat → Read (List (Document × Document))
  | 0 => failure
  | n + 1 => do
    if ← accept .blockEnd then return []
    else
      expect .key
      let k ← blockPart n true [.key, .value, .blockEnd]
      let v ← if ← accept .value then blockPart n true [.key, .value, .blockEnd] else pure missing
      return (k, v) :: (← blockEntries n)

/-- Reads the items of a flow sequence up to its end. -/
def flowItems : Nat → (isFirst : Bool) → Read (List Document)
  | 0, _ => failure
  | n + 1, isFirst => do
    if ← accept .sequenceEnd then return []
    else
      if !isFirst then expect .comma
      if ← accept .sequenceEnd then return []
      else
        let d ←
          if ← accept .key then
            let k ← flowPart n [.value, .comma, .sequenceEnd]
            let v ← if ← accept .value then flowPart n [.comma, .sequenceEnd] else pure missing
            -- a lone pair within a list is a table of its own
            pure (Document.table [(k, v)] false)
          else node n false false
        return d :: (← flowItems n false)

/-- Reads the entries of a flow mapping up to its end. -/
def flowEntries : Nat → (isFirst : Bool) → Read (List (Document × Document))
  | 0, _ => failure
  | n + 1, isFirst => do
    if ← accept .mappingEnd then return []
    else
      if !isFirst then expect .comma
      if ← accept .mappingEnd then return []
      else
        let entry ←
          if ← accept .key then
            let k ← flowPart n [.value, .comma, .mappingEnd]
            let v ← if ← accept .value then flowPart n [.comma, .mappingEnd] else pure missing
            pure (k, v)
          else
            let k ← node n false false
            pure (k, missing)
        return entry :: (← flowEntries n false)

end

def skipEnds : Nat → Read Unit
  | 0 => return
  | n + 1 => do
    if ← accept .documentEnd then skipEnds n

def skipDirectives : Nat → Read Unit
  | 0 => return
  | n + 1 => do
    if ← accept .directive then skipDirectives n

/-- Reads the only document of a text; an empty text holds the missing node. -/
def document (n : Nat) : Read Document := do
  match ← peek with
  | none => return missing
  | some t =>
    if t == .directive || t == .documentStart then
      skipDirectives n
      expect .documentStart
    let d ←
      if (← peek).isNone || (← isNext [.directive, .documentStart, .documentEnd]) then pure missing
      else node n true false
    skipEnds n
    if (← peek).isNone then return d else failure

end Yaml

def Document.ofYamlText? (s : String) : Option Document := do
  let tokens ← Yaml.tokens? s.toList
  let (d, _) ← (Yaml.document (4 * tokens.length + 4)).run ⟨tokens, []⟩
  return d

end MockServer
