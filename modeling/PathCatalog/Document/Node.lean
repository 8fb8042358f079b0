import PathCatalog.Document.Token
import PathCatalog.Entries

namespace PathCatalog.Document

inductive Node where
  | scalar (text : String) (plain : Bool) (tag : Option Tag)
  | sequence (items : List Node)
  | mapping (pairs : List (Node × Node))
  | alias (number : Nat)
  | named (number : Nat) (node : Node)
  | broken
  deriving Repr, Inhabited

/-- The tokens that follow, what handles stand for, and the numbers of the names given so far. -/
structure Cursor where
  tokens : List Token
  handles : Handles
  names : Entries Nat := Entries.empty

namespace Cursor

def before (cursor : Cursor) (tokens : List Token) : Cursor :=
  ⟨tokens, cursor.handles, cursor.names⟩

/-- The next node is given a name; a name that is given again gets no number of its own. -/
def give (cursor : Cursor) (name : String) : Nat × Cursor :=
  let number := cursor.names.pairs.length
  (number, ⟨cursor.tokens, cursor.handles, cursor.names.set name number⟩)

end Cursor

/-- A node, with the cursor after it unless a fault was met in it. -/
abbrev Found := Node × Option Cursor

def fault : Found := (.broken, none)

/-- A value that is not there. -/
def absent : Node := .scalar "" true none

/-- The anchor and the tag before a node, in either order. -/
def properties : List Token → Option String × Option TagName × List Token
  | .anchor name :: .tag tag :: rest => (some name, some tag, rest)
  | .anchor name :: rest => (some name, none, rest)
  | .tag tag :: .anchor name :: rest => (some name, some tag, rest)
  | .tag tag :: rest => (none, some tag, rest)
  | rest => (none, none, rest)

/-- What the tag before a node says; nothing if its handle is not known. -/
def tagBefore (handles : Handles) : Option TagName → Option (Option Tag)
  | none => some none
  | some name => (name.tag? handles).map some

/-- The tag of a scalar that is written out: the unspecific tag is none. -/
def writtenTag (tag : Option Tag) : Option Tag :=
  if tag == some .unspecific then none else tag

/-- The node is what the name before it names. -/
def nodeNamed (number : Option Nat) (found : Found) : Found :=
  match number with
  | some number => (.named number found.1, found.2)
  | none => found

/-- The tokens before which an item of a block sequence is absent. -/
def endsItem : Token → Bool
  | .item | .blockEnd => true
  | _ => false

/-- The tokens before which an item at its parent's column is absent. -/
def endsFlatItem : Token → Bool
  | .item | .key | .colon | .blockEnd => true
  | _ => false

/-- The tokens before which a key or a value of a block mapping is absent. -/
def endsEntry : Token → Bool
  | .key | .colon | .blockEnd => true
  | _ => false

/-- The tokens before which a key of a flow mapping is absent. -/
def endsFlowKey : Token → Bool
  | .colon | .comma | .flowMappingEnd => true
  | _ => false

/-- The tokens before which the value of a pair in a flow sequence is absent. -/
def endsPairValue : Token → Bool
  | .comma | .flowSequenceEnd => true
  | _ => false

/-- The tokens before which a value of a flow mapping is absent. -/
def endsFlowValue : Token → Bool
  | .comma | .flowMappingEnd => true
  | _ => false

/-- The sequence of the items read before a fault, the last one first. -/
def brokenSequence (items : List Node) : Found :=
  (.sequence (.broken :: items).reverse, none)

/-- The mapping of the pairs read before a fault, the last one first. -/
def brokenMapping (pairs : List (Node × Node)) : Found :=
  (.mapping ((.broken, .broken) :: pairs).reverse, none)

mutual

/-- The node at a cursor; `block` allows block collections, `flat` a block sequence at its parent's
column. -/
def node : Nat → Bool → Bool → Cursor → Found
  | 0, _, _, _ => fault
  | fuel + 1, block, flat, cursor =>
      match cursor.tokens with
      | .alias name :: rest =>
          match cursor.names.get? name with
          | some number => (.alias number, some (cursor.before rest))
          | none => fault
      | tokens =>
          let (name, tagName, rest) := properties tokens
          match rest, tagBefore cursor.handles tagName with
          | [], _ => fault
          | _, none => fault
          | first :: others, some tag =>
              let (number, here) := match name with
                | some name =>
                    let (number, given) := (cursor.before rest).give name
                    (some number, given)
                | none => (none, cursor.before rest)
              let after := here.before others
              nodeNamed number <| match first, flat, block with
                | .item, true, _ => flatSequence fuel here []
                | .scalar text plain, _, _ => (.scalar text plain (writtenTag tag), some after)
                | .flowSequenceStart, _, _ => flowSequence fuel true after []
                | .flowMappingStart, _, _ => flowMapping fuel true after []
                | .sequenceStart, _, true => blockSequence fuel after []
                | .mappingStart, _, true => blockMapping fuel after []
                | _, _, _ =>
                    if name.isSome || tag.isSome then (.scalar "" true tag, some here) else fault

/-- The node at a cursor, or an absent one before some tokens. -/
def nodeUnless : Nat → (Token → Bool) → Bool → Cursor → Found
  | 0, _, _, _ => fault
  | fuel + 1, ends, flat, cursor =>
      match cursor.tokens with
      | [] => fault
      | token :: _ => if ends token then (absent, some cursor) else node fuel true flat cursor

/-- The node at a cursor in a flow collection, or an absent one before some tokens. -/
def flowNodeUnless : Nat → (Token → Bool) → Cursor → Found
  | 0, _, _ => fault
  | fuel + 1, ends, cursor =>
      match cursor.tokens with
      | [] => fault
      | token :: _ => if ends token then (absent, some cursor) else node fuel false false cursor

/-- The items of a block sequence, the last one first. -/
def blockSequence : Nat → Cursor → List Node → Found
  | 0, _, items => brokenSequence items
  | fuel + 1, cursor, items =>
      match cursor.tokens with
      | .item :: rest =>
          match nodeUnless fuel endsItem false (cursor.before rest) with
          | (item, some after) => blockSequence fuel after (item :: items)
          | (item, none) => brokenSequence (item :: items)
      | .blockEnd :: rest => (.sequence items.reverse, some (cursor.before rest))
      | _ => brokenSequence items

/-- The items of a sequence at its parent's column, the last one first. -/
def flatSequence : Nat → Cursor → List Node → Found
  | 0, _, items => brokenSequence items
  | fuel + 1, cursor, items =>
      match cursor.tokens with
      | .item :: rest =>
          match nodeUnless fuel endsFlatItem false (cursor.before rest) with
          | (item, some after) => flatSequence fuel after (item :: items)
          | (item, none) => brokenSequence (item :: items)
      | [] => brokenSequence items
      | _ :: _ => (.sequence items.reverse, some cursor)

/-- The pairs of a block mapping, the last one first. -/
def blockMapping : Nat → Cursor → List (Node × Node) → Found
  | 0, _, pairs => brokenMapping pairs
  | fuel + 1, cursor, pairs =>
      match cursor.tokens with
      | .key :: rest =>
          match nodeUnless fuel endsEntry true (cursor.before rest) with
          | (key, none) => brokenMapping ((key, .broken) :: pairs)
          | (key, some after) =>
              match blockValue fuel after with
              | (value, some next) => blockMapping fuel next ((key, value) :: pairs)
              | (value, none) => brokenMapping ((key, value) :: pairs)
      | .blockEnd :: rest => (.mapping pairs.reverse, some (cursor.before rest))
      | _ => brokenMapping pairs

/-- The value after a key of a block mapping. -/
def blockValue : Nat → Cursor → Found
  | 0, _ => fault
  | fuel + 1, cursor =>
      match cursor.tokens with
      | .colon :: rest => nodeUnless fuel endsEntry true (cursor.before rest)
      | [] => fault
      | _ :: _ => (absent, some cursor)

/-- The items of a flow sequence, the last one first; a comma stands between them. -/
def flowSequence : Nat → Bool → Cursor → List Node → Found
  | 0, _, _, items => brokenSequence items
  | fuel + 1, first, cursor, items =>
      match first, cursor.tokens with
      | _, .flowSequenceEnd :: rest | false, .comma :: .flowSequenceEnd :: rest =>
          (.sequence items.reverse, some (cursor.before rest))
      | false, .comma :: rest => flowItem fuel (cursor.before rest) items
      | true, _ => flowItem fuel cursor items
      | false, _ => brokenSequence items

/-- One item of a flow sequence, which may be a single pair, and those after it. -/
def flowItem : Nat → Cursor → List Node → Found
  | 0, _, items => brokenSequence items
  | fuel + 1, cursor, items =>
      let found : Found := match cursor.tokens with
        | .key :: rest => flowPair fuel (cursor.before rest)
        | _ => node fuel false false cursor
      match found with
      | (item, some after) => flowSequence fuel false after (item :: items)
      | (item, none) => brokenSequence (item :: items)

/-- A single pair in a flow sequence; the token in the place of an absent key is passed over. -/
def flowPair : Nat → Cursor → Found
  | 0, _ => brokenMapping []
  | fuel + 1, cursor =>
      let key : Found := match cursor.tokens with
        | .colon :: rest | .comma :: rest | .flowSequenceEnd :: rest =>
            (absent, some (cursor.before rest))
        | _ => node fuel false false cursor
      match key with
      | (key, none) => brokenMapping [(key, .broken)]
      | (key, some after) =>
          match flowValue fuel endsPairValue after with
          | (value, none) => brokenMapping [(key, value)]
          | (value, some next) =>
              if next.tokens.isEmpty then brokenMapping [(key, value)]
              else (.mapping [(key, value)], some next)

/-- The pairs of a flow mapping, the last one first; a comma stands between them. -/
def flowMapping : Nat → Bool → Cursor → List (Node × Node) → Found
  | 0, _, _, pairs => brokenMapping pairs
  | fuel + 1, first, cursor, pairs =>
      match first, cursor.tokens with
      | _, .flowMappingEnd :: rest | false, .comma :: .flowMappingEnd :: rest =>
          (.mapping pairs.reverse, some (cursor.before rest))
      | false, .comma :: rest => flowEntry fuel (cursor.before rest) pairs
      | true, _ => flowEntry fuel cursor pairs
      | false, _ => brokenMapping pairs

/-- The pairs of a flow mapping; a node that is not announced as a key has no value. -/
def flowEntry : Nat → Cursor → List (Node × Node) → Found
  | 0, _, pairs => brokenMapping pairs
  | fuel + 1, cursor, pairs =>
      let (announced, found) : Bool × Found := match cursor.tokens with
        | .key :: rest => (true, flowNodeUnless fuel endsFlowKey (cursor.before rest))
        | _ => (false, node fuel false false cursor)
      match found with
      | (key, none) => brokenMapping ((key, .broken) :: pairs)
      | (key, some after) =>
          let value : Found :=
            if announced then flowValue fuel endsFlowValue after
            else if after.tokens.isEmpty then fault
            else (absent, some after)
          match value with
          | (value, some next) => flowMapping fuel false next ((key, value) :: pairs)
          | (value, none) => brokenMapping ((key, value) :: pairs)

/-- The value after a key of a flow collection. -/
def flowValue : Nat → (Token → Bool) → Cursor → Found
  | 0, _, _ => fault
  | fuel + 1, ends, cursor =>
      match cursor.tokens with
      | .colon :: rest => flowNodeUnless fuel ends (cursor.before rest)
      | [] => fault
      | _ :: _ => (absent, some cursor)

end

mutual

/-- The nodes in a node that have numbers, in the order in which they begin. -/
def Node.numbered : Node → List (Nat × Node)
  | .named number node => (number, node) :: node.numbered
  | .sequence items => numberedItems items
  | .mapping pairs => numberedPairs pairs
  | _ => []

/-- The nodes with numbers in the items of a sequence. -/
def numberedItems : List Node → List (Nat × Node)
  | [] => []
  | item :: rest => item.numbered ++ numberedItems rest

/-- The nodes with numbers in the pairs of a mapping. -/
def numberedPairs : List (Node × Node) → List (Nat × Node)
  | [] => []
  | (key, value) :: rest => key.numbered ++ value.numbered ++ numberedPairs rest

end

/-- A node without its name. -/
def Node.bare : Node → Node
  | .named _ node => node
  | node => node

/-- The value of a text, its numbered nodes, last one first, and whether nothing follows the
value. -/
structure Contents where
  root : Node
  numbered : List (Nat × Node)
  complete : Bool

namespace Contents

/-- The contents of a text with the given value. -/
def ofRoot (root : Node) (complete : Bool) : Contents :=
  ⟨root, root.numbered.reverse, complete⟩

/-- What a node stands for: an alias for the last node with its number, any other for itself. -/
def resolve (contents : Contents) : Node → Node
  | .alias number => ((contents.numbered.lookup number).getD .broken).bare
  | node => node.bare

end Contents

/-- The directives at the start of a text, and the tokens after them. -/
def directives : List Token → List Directive × List Token
  | .directive directive :: rest => ((directives rest).1.cons directive, (directives rest).2)
  | rest => ([], rest)

/-- The tokens before which a document that has been started has no value. -/
def endsDocument : Token → Bool
  | .directive _ | .documentStart | .documentEnd | .textEnd => true
  | _ => false

/-- The handles of the first document, whether its start is marked, and the tokens of its content.
-/
def firstDocument (tokens : List Token) : Option (Handles × Bool × List Token) :=
  match directives tokens with
  | ([], .documentStart :: content) => some (predefinedHandles, true, content)
  | ([], content) => some (predefinedHandles, false, content)
  | (found, .documentStart :: content) =>
      (Handles.ofDirectives false [] found).map fun handles => (handles, true, content)
  | (_, _) => none

/-- What follows the first document is nothing but the end of the text. -/
def endsText (tokens : List Token) : Bool :=
  tokens.dropWhile (· == .documentEnd) == [.textEnd]

/-- The value of the first document of a text. -/
def read (text : String) : Contents :=
  match firstDocument (tokens text) with
  | none => .ofRoot .broken false
  | some (handles, marked, content) =>
      if marked && (content.head?.map endsDocument).getD false then
        .ofRoot absent (endsText content)
      else
        match node (3 * content.length + 3) true false ⟨content, handles, Entries.empty⟩ with
        | (root, some after) => .ofRoot root (endsText after.tokens)
        | (root, none) => .ofRoot root false

end PathCatalog.Document
