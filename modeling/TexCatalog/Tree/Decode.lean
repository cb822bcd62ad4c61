import TexCatalog.Tree.Encode

/-!
# Trees from JSON

Reading is strict: an unknown kind, missing or wrong contents and wrong numbers of contents are
faults. Other members of a node are passed over.
-/

namespace TexCatalog

open Json (Draft Decoded)

def bare (a : α) : Option Draft → Decoded α
  | none => .ok a
  | some .null => .ok a
  | some (.deep _) => .error .syntactic
  | some d => .error d.refusal

def contents : Option α → Decoded α
  | none => .error .shape
  | some c => .ok c

mutual

def inlineOf (r : Draft.Reading) (d : Draft) : Decoded Inline := do
  let node ← d.tagged InlineKind.tags r
  let r := node.reading
  let inline ← r.settle do
    match node.kind with
    | .space => bare .space (node.content.map (·.1))
    | .softBreak => bare .softBreak (node.content.map (·.1))
    | .lineBreak => bare .lineBreak (node.content.map (·.1))
    | .text =>
      let ⟨c, _⟩ ← contents node.content
      return .text (← c.text)
    | .code =>
      let ⟨c, _⟩ ← contents node.content
      let (attr, t) ← c.pair Attr.ofDraft Draft.text
      return .code attr t
    | .math =>
      let ⟨c, _⟩ ← contents node.content
      let (kind, t) ← c.pair (·.plainTag MathKind.tags r) Draft.text
      return .math kind t
    | .raw =>
      let ⟨c, _⟩ ← contents node.content
      let (format, t) ← c.pair Format.ofDraft Draft.text
      return .raw format t
    | .styled style =>
      let ⟨c, _⟩ ← contents node.content
      return .styled style (← inlinesOf r c)
    | .note =>
      let ⟨c, _⟩ ← contents node.content
      return .note (← blocksOf r c)
    | .quoted =>
      let ⟨c, _⟩ ← contents node.content
      let ⟨items, _⟩ ← c.items
      let ⟨d, items, _, _⟩ ← Draft.next items
      let kind ← d.plainTag QuoteKind.tags r
      let ⟨d, items, _, _⟩ ← Draft.next items
      let content ← inlinesOf r d
      Draft.closed items (.quoted kind content)
    | .span =>
      let ⟨c, _⟩ ← contents node.content
      let ⟨items, _⟩ ← c.items
      let ⟨d, items, _, _⟩ ← Draft.next items
      let attr ← Attr.ofDraft d
      let ⟨d, items, _, _⟩ ← Draft.next items
      let content ← inlinesOf r d
      Draft.closed items (.span attr content)
    | .link =>
      let ⟨c, _⟩ ← contents node.content
      let ⟨items, _⟩ ← c.items
      let ⟨d, items, _, _⟩ ← Draft.next items
      let attr ← Attr.ofDraft d
      let ⟨d, items, _, _⟩ ← Draft.next items
      let content ← inlinesOf r d
      let ⟨d, items, _, _⟩ ← Draft.next items
      let target ← Target.ofDraft d
      Draft.closed items (.link attr content target)
    | .image =>
      let ⟨c, _⟩ ← contents node.content
      let ⟨items, _⟩ ← c.items
      let ⟨d, items, _, _⟩ ← Draft.next items
      let attr ← Attr.ofDraft d
      let ⟨d, items, _, _⟩ ← Draft.next items
      let content ← inlinesOf r d
      let ⟨d, items, _, _⟩ ← Draft.next items
      let target ← Target.ofDraft d
      Draft.closed items (.image attr content target)
    | .crossRef =>
      let ⟨c, _⟩ ← contents node.content
      let ⟨items, _⟩ ← c.items
      let ⟨d, items, _, _⟩ ← Draft.next items
      let attr ← Attr.ofDraft d
      let ⟨d, items, _, _⟩ ← Draft.next items
      let content ← inlinesOf r d
      let ⟨d, items, _, _⟩ ← Draft.next items
      let label ← d.text
      Draft.closed items (.crossRef attr content label)
  node.behind
  return inline
termination_by sizeOf d

def inlinesOf (r : Draft.Reading) (d : Draft) : Decoded (List Inline) := do
  let ⟨items, _⟩ ← d.items
  inlinesOfItems r items
termination_by sizeOf d

def inlinesOfItems (r : Draft.Reading) (items : List Draft) : Decoded (List Inline) :=
  match items with
  | [] => .ok []
  | d :: more => do
    let node ← inlineOf r d
    let nodes ← inlinesOfItems r more
    return node :: nodes
termination_by sizeOf items

def blockOf (r : Draft.Reading) (d : Draft) : Decoded Block := do
  let node ← d.tagged BlockKind.tags r
  let r := node.reading
  let block ← r.settle do
    match node.kind with
    | .rule => bare .rule (node.content.map (·.1))
    | .code =>
      let ⟨c, _⟩ ← contents node.content
      let (attr, t) ← c.pair Attr.ofDraft Draft.text
      return .code attr t
    | .raw =>
      let ⟨c, _⟩ ← contents node.content
      let (format, t) ← c.pair Format.ofDraft Draft.text
      return .raw format t
    | .plain =>
      let ⟨c, _⟩ ← contents node.content
      return .plain (← inlinesOf r c)
    | .para =>
      let ⟨c, _⟩ ← contents node.content
      return .para (← inlinesOf r c)
    | .quote =>
      let ⟨c, _⟩ ← contents node.content
      return .quote (← blocksOf r c)
    | .bullets =>
      let ⟨c, _⟩ ← contents node.content
      return .bullets (← listsOf r c)
    | .header =>
      let ⟨c, _⟩ ← contents node.content
      let ⟨items, _⟩ ← c.items
      let ⟨d, items, _, _⟩ ← Draft.next items
      let level ← d.intWithin 0 255
      let ⟨d, items, _, _⟩ ← Draft.next items
      let attr ← Attr.ofDraft d
      let ⟨d, items, _, _⟩ ← Draft.next items
      let content ← inlinesOf r d
      Draft.closed items (.header (UInt8.ofNat level.toNat) attr content)
    | .numbered =>
      let ⟨c, _⟩ ← contents node.content
      let ⟨items, _⟩ ← c.items
      let ⟨d, items, _, _⟩ ← Draft.next items
      let numbering ← Numbering.ofDraft r d
      let ⟨d, items, _, _⟩ ← Draft.next items
      let lists ← listsOf r d
      Draft.closed items (.numbered numbering lists)
    | .div =>
      let ⟨c, _⟩ ← contents node.content
      let ⟨items, _⟩ ← c.items
      let ⟨d, items, _, _⟩ ← Draft.next items
      let attr ← Attr.ofDraft d
      let ⟨d, items, _, _⟩ ← Draft.next items
      let content ← blocksOf r d
      Draft.closed items (.div attr content)
  node.behind
  return block
termination_by sizeOf d

def blocksOf (r : Draft.Reading) (d : Draft) : Decoded (List Block) := do
  let ⟨items, _⟩ ← d.items
  blocksOfItems r items
termination_by sizeOf d

def blocksOfItems (r : Draft.Reading) (items : List Draft) : Decoded (List Block) :=
  match items with
  | [] => .ok []
  | d :: more => do
    let block ← blockOf r d
    let blocks ← blocksOfItems r more
    return block :: blocks
termination_by sizeOf items

def listsOf (r : Draft.Reading) (d : Draft) : Decoded (List (List Block)) := do
  let ⟨items, _⟩ ← d.items
  listsOfItems r items
termination_by sizeOf d

def listsOfItems (r : Draft.Reading) (items : List Draft) : Decoded (List (List Block)) :=
  match items with
  | [] => .ok []
  | d :: more => do
    let item ← blocksOf r d
    let lists ← listsOfItems r more
    return item :: lists
termination_by sizeOf items

end

def inlinesOfDraft (d : Draft) : Decoded (List Inline) := inlinesOf .direct d

def blocksOfDraft (d : Draft) : Decoded (List Block) := blocksOf .direct d

/-- The blocks of a document, an object whose only field counted is `blocks`. -/
def documentOfDraft (d : Draft) : Decoded (List Block) :=
  d.record [⟨"blocks", true, fun d _ => blocksOfDraft d⟩] []

end TexCatalog
