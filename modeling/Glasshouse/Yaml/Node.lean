/-
Glasshouse.Yaml.Node — the tree of a text: scalars, lists and tables with their
kinds. Nodes are read from tokens; an alias is the node that its anchor names.

An alias inside of the node that its anchor names makes that node contain
itself. It is read as `Node.again`, and the tree is unfolded afterwards: each
such place is replaced by the node itself, as often as `unfoldDepth` says, and
what is left of them stands where the unfolding was cut off.
-/
import Glasshouse.Table
import Glasshouse.Yaml.Tag
import Glasshouse.Yaml.Token

namespace Glasshouse.Yaml

/-- A node with its kind. -/
inductive Node where
  | scalar (tag : Tag) (text : String)
  | list (tag : Tag) (items : List Node)
  | table (tag : Tag) (entries : List (Node × Node))
  /-- The node around it that an anchor names. -/
  | again (anchor : String)

namespace Node

/-- What is known while the nodes of a document are read. -/
structure State where
  tokens : List Token
  anchors : Table String Node := []
  /-- What the handles of tags stand for. -/
  handles : Table String String := []

/-- A reading that may find the text malformed. -/
abbrev Read := StateT State (Except Problem)

/-- The text is malformed. -/
def malformed {α : Type} : Read α := throw .malformed

/-- The next token. -/
def peek : Read (Option Token) := return (← get).tokens.head?

/-- The next token taken. -/
def take : Read (Option Token) := do
  let s ← get
  set { s with tokens := s.tokens.drop 1 }
  return s.tokens.head?

/-- A node put under an anchor. -/
def name (anchor : Option String) (n : Node) : Read Unit :=
  match anchor with
  | none => pure ()
  | some a => modify fun s => { s with anchors := s.anchors.put a n }

/-- A list or a table that begins under an anchor. -/
def enter (anchor : Option String) : Read Unit :=
  match anchor with
  | none => pure ()
  | some a => name anchor (.again a)

/-- The handles that every document knows. -/
def usualHandles : Table String String := [("!", "!"), ("!!", Tag.space)]

/-- The node of nothing. -/
def empty : Node := .scalar .null ""

/-- The address of a tag; none where it leaves the kind open. -/
def address (handle : Option String) (suffix : String) : Read (Option String) := do
  match handle with
  | none => return if suffix == "!" then none else some suffix
  | some h =>
    match (← get).handles.get? h with
    | some stands =>
      let a := stands ++ suffix
      return if a == "!" then none else some a
    | none => malformed

/-- The properties in front of a node: its anchor, its tag, and whether there was
a tag at all. -/
structure Properties where
  anchor : Option String := none
  tag : Option Tag := none
  tagged : Bool := false

/-- The properties in front of a node, in either order. -/
def properties (fuel : Nat) (p : Properties) : Read Properties := do
  match fuel, ← peek with
  | fuel + 1, some (.anchor a) =>
    if p.anchor.isSome then return p
    else
      let _ ← take
      properties fuel { p with anchor := some a }
  | fuel + 1, some (.tag h suffix) =>
    if p.tagged then return p
    else
      let _ ← take
      let a ← address h suffix
      properties fuel { p with tag := a.map Tag.ofAddress, tagged := true }
  | _, _ => return p

/-- The kind of a scalar. -/
def scalarTag (p : Properties) (plain : Bool) (text : String) : Tag :=
  match p.tag with
  | some t => t
  | none => if plain || p.tagged then Plain.tag text else .str

/-- Whether no node follows where a value on a line is expected. -/
def noBlockNode : Option Token → Bool
  | some .key | some .value | some .blockEnd => true
  | _ => false

/-- Whether no node follows inside of brackets. -/
def noFlowNode (close : Token → Bool) : Option Token → Bool
  | some .comma | some .value => true
  | some t => close t
  | none => false

/-- The closing bracket of a list. -/
def closesList : Token → Bool
  | .listClose => true
  | _ => false

/-- The closing bracket of a table. -/
def closesTable : Token → Bool
  | .tableClose => true
  | _ => false

mutual

/-- A node. Lists and tables on lines occur where `block` allows them, and entries
without an indentation of their own where `bare` does. -/
def read (fuel : Nat) (block bare : Bool) : Read Node := do
  match fuel with
  | 0 => malformed
  | fuel + 1 =>
    match ← peek with
    | some (.alias a) =>
      let _ ← take
      match (← get).anchors.get? a with
      | some n => return n
      | none => malformed
    | _ =>
      let p ← properties 2 {}
      let anchors := (← get).anchors
      if p.anchor.any fun a => (anchors.get? a).isSome then malformed
      else
        let listTag := p.tag.getD .seq
        let tableTag := p.tag.getD .map
        let list (items : Read (List Node)) : Read Node := do
          enter p.anchor
          let n := Node.list listTag (← items)
          name p.anchor n
          return n
        let table (entries : Read (List (Node × Node))) : Read Node := do
          enter p.anchor
          let n := Node.table tableTag (← entries)
          name p.anchor n
          return n
        let scalar (plain : Bool) (text : String) : Read Node := do
          let n := Node.scalar (scalarTag p plain text) text
          name p.anchor n
          return n
        match ← peek with
        | some (.scalar text plain) =>
          let _ ← take
          scalar plain text
        | some .listOpen => do
          let _ ← take
          list (readFlowList fuel true)
        | some .tableOpen => do
          let _ ← take
          table (readFlowTable fuel true)
        | some .entriesStart =>
          if block then do
            let _ ← take
            list (readEntries fuel)
          else if p.anchor.isSome || p.tagged then scalar true ""
          else malformed
        | some .keysStart =>
          if block then do
            let _ ← take
            table (readKeys fuel)
          else if p.anchor.isSome || p.tagged then scalar true ""
          else malformed
        | some .entry =>
          if bare then list (readBareEntries fuel)
          else if p.anchor.isSome || p.tagged then scalar true ""
          else malformed
        | _ => if p.anchor.isSome || p.tagged then scalar true "" else malformed

/-- The entries of a list on lines, up to its end. -/
def readEntries (fuel : Nat) : Read (List Node) := do
  match fuel with
  | 0 => malformed
  | fuel + 1 =>
    match ← take with
    | some .blockEnd => return []
    | some .entry =>
      let none? : Bool := match ← peek with
        | some .entry | some .blockEnd => true
        | _ => false
      let n ← if none? then pure empty else read fuel true false
      return n :: (← readEntries fuel)
    | _ => malformed

/-- The entries of a list without an indentation of its own. -/
def readBareEntries (fuel : Nat) : Read (List Node) := do
  match fuel with
  | 0 => malformed
  | fuel + 1 =>
    match ← peek with
    | some .entry =>
      let _ ← take
      let none? : Bool := match ← peek with
        | some .entry => true
        | t => noBlockNode t
      let n ← if none? then pure empty else read fuel true false
      return n :: (← readBareEntries fuel)
    | _ => return []

/-- The keys and values of a table on lines, up to its end. -/
def readKeys (fuel : Nat) : Read (List (Node × Node)) := do
  match fuel with
  | 0 => malformed
  | fuel + 1 =>
    let part : Read Node := do
      if noBlockNode (← peek) then pure empty else read fuel true true
    match ← peek with
    | some .blockEnd =>
      let _ ← take
      return []
    | some .key =>
      let _ ← take
      let k ← part
      let v ← match ← peek with
        | some .value => do
          let _ ← take
          part
        | _ => pure empty
      return (k, v) :: (← readKeys fuel)
    | some .value =>
      let _ ← take
      let v ← part
      return (empty, v) :: (← readKeys fuel)
    | _ => malformed

/-- The items of a list in brackets, up to its end. -/
def readFlowList (fuel : Nat) (first : Bool) : Read (List Node) := do
  match fuel with
  | 0 => malformed
  | fuel + 1 =>
    if (← peek).any closesList then
      let _ ← take
      return []
    else
      if !first then
        match ← take with
        | some .comma => pure ()
        | _ => malformed
      match ← peek with
      | some .listClose => readFlowList fuel false
      | some .key =>
        let _ ← take
        let k ← if noFlowNode closesList (← peek) then pure empty else read fuel false false
        let v ← match ← peek with
          | some .value => do
            let _ ← take
            let t ← peek
            let none? : Bool := match t with
              | some .comma | some .listClose => true
              | _ => false
            if none? then pure empty else read fuel false false
          | _ => pure empty
        return .table .map [(k, v)] :: (← readFlowList fuel false)
      | _ =>
        let n ← read fuel false false
        return n :: (← readFlowList fuel false)

/-- The keys and values of a table in brackets, up to its end. -/
def readFlowTable (fuel : Nat) (first : Bool) : Read (List (Node × Node)) := do
  match fuel with
  | 0 => malformed
  | fuel + 1 =>
    if (← peek).any closesTable then
      let _ ← take
      return []
    else
      if !first then
        match ← take with
        | some .comma => pure ()
        | _ => malformed
      match ← peek with
      | some .tableClose => readFlowTable fuel false
      | some .key =>
        let _ ← take
        let k ← if noFlowNode closesTable (← peek) then pure empty else read fuel false false
        let v ← match ← peek with
          | some .value => do
            let _ ← take
            let none? : Bool := match ← peek with
              | some .comma | some .tableClose => true
              | _ => false
            if none? then pure empty else read fuel false false
          | _ => pure empty
        return (k, v) :: (← readFlowTable fuel false)
      | _ =>
        let k ← read fuel false false
        return (k, empty) :: (← readFlowTable fuel false)

end

/-! ## Documents -/

/-- The directives in front of a document. -/
def directives (fuel : Nat) (versioned : Bool) (handles : Table String String) :
    Read (Table String String) := do
  match fuel, ← peek with
  | fuel + 1, some (.directive d) =>
    let _ ← take
    match d with
    | .version major => if versioned || major != 1 then malformed else directives fuel true handles
    | .handle h stands =>
      if (handles.get? h).isSome then malformed else directives fuel versioned (handles.put h stands)
    | .other => directives fuel versioned handles
  | _, _ => return handles

/-- Markers of the end of a document skipped. -/
def skipEnds (fuel : Nat) : Read Unit := do
  match fuel, ← peek with
  | fuel + 1, some .documentEnd =>
    let _ ← take
    skipEnds fuel
  | _, _ => return ()

/-- The root of the only document of a text; nothing in a text without any. -/
def document (fuel : Nat) : Read (Option Node) := do
  let content (n : Read Node) : Read (Option Node) := do
    let n ← n
    skipEnds fuel
    if (← peek).isSome then malformed else return some n
  let marked : Bool := match ← peek with
    | some (.directive _) | some .documentStart => true
    | _ => false
  if (← peek).isNone then return none
  else if !marked then
    modify fun s => { s with handles := usualHandles }
    content (read fuel true false)
  else
    let own ← directives fuel false []
    modify fun s => { s with handles := own ++ usualHandles }
    match ← take with
    | some .documentStart =>
      let none? : Bool := match ← peek with
        | none | some (.directive _) | some .documentStart | some .documentEnd => true
        | _ => false
      content (if none? then pure empty else read fuel true false)
    | _ => malformed

/-! ## Nodes that contain themselves -/

mutual

/-- A node with other nodes in place of those around it. -/
def expand (around : String → Node) : Node → Node
  | .scalar tag text => .scalar tag text
  | .list tag items => .list tag (expandItems around items)
  | .table tag entries => .table tag (expandEntries around entries)
  | .again anchor => around anchor

/-- The items of a list expanded. -/
def expandItems (around : String → Node) : List Node → List Node
  | [] => []
  | n :: r => expand around n :: expandItems around r

/-- The keys and values of a table expanded. -/
def expandEntries (around : String → Node) : List (Node × Node) → List (Node × Node)
  | [] => []
  | (k, v) :: r => (expand around k, expand around v) :: expandEntries around r

end

/-- The node under an anchor. -/
def under (nodes : Table String Node) (anchor : String) : Node :=
  (nodes.get? anchor).getD (.again anchor)

/-- The nodes under anchors, unfolded so many times. -/
def unfolded (nodes : Table String Node) : Nat → Table String Node
  | 0 => []
  | depth + 1 =>
    let inner := unfolded nodes depth
    nodes.map fun p => (p.1, expand (under inner) p.2)

/-- How often nodes are unfolded. A recursion that meets more nodes around itself than
there are anchors has met one of them twice and does not end; the rest is for what
looks a few levels deep without recursion. -/
def unfoldDepth (anchors : Nat) : Nat := anchors + 8

/-- The root of the document that tokens write. -/
def ofTokens (ts : List Token) : Except Problem (Option Node) := do
  let (n, s) ← (document (4 * ts.length + 8)).run { tokens := ts }
  return n.map (expand (under (unfolded s.anchors (unfoldDepth s.anchors.length))))

end Node

end Glasshouse.Yaml
