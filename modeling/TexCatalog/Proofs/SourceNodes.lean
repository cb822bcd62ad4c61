import TexCatalog.Proofs.TreeNodes
import TexCatalog.Source.Clean
import TexCatalog.Walk.Flatten

/-!
# The nodes of page source

The reader makes only some kinds of nodes: it gives no notes, spans, images or divisions, its links
say nothing of themselves by keys, so none is a citation, and its raw nodes hold page source. What
it gives keeps these kinds when it is taken as running text.
-/

namespace TexCatalog

open Source

def TreeNode.IsSource : TreeNode → Prop
  | .inline (.quoted ..) | .inline (.image ..) | .inline (.note _) | .inline (.span ..)
  | .inline (.crossRef ..) => False
  | .inline (.link attr _ _) => attr.pairs = []
  | .inline (.raw format _) | .block (.raw format _) => format = .tex
  | .block (.plain _) | .block (.quote _) | .block (.div ..) => False
  | _ => True

def FromSource (nodes : List TreeNode) : Prop := ∀ node ∈ nodes, node.IsSource

section

variable {node : TreeNode} {nodes more : List TreeNode}

@[simp] theorem fromSource_nil : FromSource [] := by simp [FromSource]

@[simp] theorem fromSource_cons :
    FromSource (node :: nodes) ↔ node.IsSource ∧ FromSource nodes := by simp [FromSource]

@[simp] theorem fromSource_append :
    FromSource (nodes ++ more) ↔ FromSource nodes ∧ FromSource more := by
  simp only [FromSource, List.mem_append, or_imp, forall_and]

end

namespace Source

structure Assembles (P : TreeNode → Prop) : Prop where
  text (t : Text) : P (.inline (.text t))
  styled (style : Style) (content : List Inline) : P (.inline (.styled style content))
  link (url : Text) (content : List Inline) : P (.inline (.link .empty content ⟨url, []⟩))

def addressLink (url : Text) : Inline := .link (.ofClasses ["uri"]) [.text url] ⟨url, []⟩

/-- A node that is made without an argument that is read as running text. -/
inductive IsAtom : Inline → Prop
  | text {t : Text} : t ≠ [] → IsAtom (.text t)
  | space : IsAtom .space
  | softBreak : IsAtom .softBreak
  | lineBreak : IsAtom .lineBreak
  | math (kind : MathKind) (t : Text) : IsAtom (.math kind t)
  | code (t : Text) : IsAtom (.code .empty t)
  | raw (t : Text) : IsAtom (.raw .tex t)
  | address (url : Text) : IsAtom (addressLink url)

namespace Token

def Atomic : Token → Prop
  | .nodes content => ∀ node ∈ content, IsAtom node
  | .nested .. => True

theorem Atomic.nil : (nodes []).Atomic := fun _ h => absurd h List.not_mem_nil

theorem Atomic.singleton {node : Inline} (h : IsAtom node) : (nodes [node]).Atomic :=
  List.forall_mem_singleton.2 h

theorem char_atomic (c : Char) : (char c).Atomic := .singleton (.text (List.cons_ne_nil c []))

theorem blanks_atomic (s : Text) : (blanks s).1.Atomic := by
  rw [blanks]
  split
  · exact .singleton .softBreak
  · exact .singleton .space

theorem dollar?_atomic {s : Text} {p : Token × Text} (h : dollar? s = some p) : p.1.Atomic := by
  unfold dollar? at h
  split at h <;>
    (obtain ⟨q, _, rfl⟩ := Option.map_eq_some_iff.1 h
     exact .singleton (.math _ _))

theorem delimited?_atomic {s : Text} {p : Token × Text} (h : delimited? s = some p) :
    p.1.Atomic := by
  unfold delimited? at h
  split at h
  · obtain ⟨q, _, rfl⟩ := Option.map_eq_some_iff.1 h
    exact .singleton (.math _ _)
  · obtain ⟨q, _, rfl⟩ := Option.map_eq_some_iff.1 h
    exact .singleton (.math _ _)
  · cases h

theorem escaped?_atomic {s : Text} {p : Token × Text} (h : escaped? s = some p) :
    p.1.Atomic := by
  unfold escaped? at h
  split at h
  · cases h
  · split at h
    · cases h
      exact .singleton .lineBreak
    · split at h
      · cases h
        exact char_atomic _
      · split at h
        · cases h
          exact .singleton .space
        · cases h

theorem ofEnvironment_atomic (e : Environment) : (ofEnvironment e).Atomic := by
  unfold ofEnvironment
  split
  · exact .singleton (.math _ _)
  · split
    · exact .singleton (.math _ _)
    · exact .singleton (.raw _)

theorem native?_atomic {name s : Text} {p : Token × Text} (h : native? name s = some p) :
    p.1.Atomic := by
  unfold native? at h
  split at h
  · obtain ⟨q, _, rfl⟩ := Option.map_eq_some_iff.1 h
    trivial
  · split at h
    · obtain ⟨q, _, rfl⟩ := Option.map_eq_some_iff.1 h
      exact .singleton (.code _)
    · split at h
      · obtain ⟨q, _, rfl⟩ := Option.map_eq_some_iff.1 h
        exact .singleton (.address _)
      · split at h
        · split at h
          · cases h
          · obtain ⟨q, _, rfl⟩ := Option.map_eq_some_iff.1 h
            trivial
        · cases h

theorem command?_atomic {s : Text} {p : Token × Text} (h : command? s = some p) :
    p.1.Atomic := by
  unfold command? at h
  split at h
  · cases h
  · split at h
    · cases h
    · exact native?_atomic h

theorem backslash?_atomic {s : Text} {p : Token × Text} (h : backslash? s = some p) :
    p.1.Atomic := by
  simp only [backslash?, Option.or_eq_some_iff, Option.or_eq_none_iff] at h
  rcases h with (h | ⟨_, h⟩) | ⟨_, h | ⟨_, h | ⟨_, h⟩⟩⟩
  · exact delimited?_atomic h
  · exact escaped?_atomic h
  · obtain ⟨q, _, rfl⟩ := Option.map_eq_some_iff.1 h
    exact ofEnvironment_atomic q.1
  · exact command?_atomic h
  · obtain ⟨q, _, rfl⟩ := Option.map_eq_some_iff.1 h
    exact .singleton (.raw _)

theorem special?_atomic {c : Char} {s : Text} {p : Token × Text} (h : special? c s = some p) :
    p.1.Atomic := by
  unfold special? at h
  split at h
  · cases h
    exact blanks_atomic (c :: s)
  · split at h
    · cases h
      exact .nil
    · split at h
      · exact dollar?_atomic h
      · split at h
        · obtain ⟨q, _, rfl⟩ := Option.map_eq_some_iff.1 h
          trivial
        · split at h
          · cases h
            exact char_atomic _
          · split at h
            · exact backslash?_atomic h
            · split at h <;> cases h <;> exact char_atomic _

/-- A token has nodes that are made without an argument, or it has an argument. -/
theorem next?_atomic {s : Text} {p : Token × Text} (h : next? s = some p) : p.1.Atomic := by
  cases s with
  | nil => cases h
  | cons c s =>
    simp only [next?, Option.some.injEq] at h
    subst h
    cases hs : special? c s with
    | some p => exact special?_atomic hs
    | none => exact .singleton (.text (List.cons_ne_nil c _))

end Token

theorem IsAtom.fromSource {node : Inline} (h : IsAtom node) :
    FromSource (.inline node :: node.inner) := by
  cases h <;>
    simp [addressLink, inlineNodes, Inline.inner, TreeNode.IsSource, Attr.ofClasses]

section

variable {P : TreeNode → Prop} (hP : Assembles P)

include hP

theorem Wrap.apply_all (wrap : Wrap) {content : List Inline}
    (h : ∀ node ∈ inlineNodes content, P node) :
    ∀ node ∈ inlineNodes (wrap.apply content), P node := by
  cases wrap with
  | splice => exact h
  | styled style =>
    rw [apply, inlineNodes, inlineNodes, List.append_nil]
    exact List.forall_mem_cons.2 ⟨hP.styled style content, h⟩
  | link url =>
    rw [apply, inlineNodes, inlineNodes, List.append_nil]
    exact List.forall_mem_cons.2 ⟨hP.link url content, h⟩

theorem normalize_all {content : List Inline} (h : ∀ node ∈ inlineNodes content, P node) :
    ∀ node ∈ inlineNodes (normalize content), P node := by
  induction content with
  | nil => exact h
  | cons node more ih =>
    rw [inlineNodes, List.cons_append, List.forall_mem_cons, List.forall_mem_append] at h
    have hmore := ih h.2.2
    unfold normalize
    split
    · next rest hm =>
      rw [hm] at hmore
      exact List.forall_mem_cons.2 ⟨hP.text _, (List.forall_mem_cons.1 hmore).2⟩
    · next rest hm =>
      rw [hm] at hmore
      exact hmore
    · exact List.forall_mem_cons.2 ⟨h.1, List.forall_mem_append.2 ⟨h.2.1, hmore⟩⟩

omit hP in
theorem itemNodes_all {items : List (List Block)}
    (h : ∀ item ∈ items, ∀ node ∈ blockNodes item, P node) : ∀ node ∈ itemNodes items, P node := by
  induction items with
  | nil => simp [itemNodes]
  | cons item more ih =>
    rw [itemNodes, List.forall_mem_append]
    exact ⟨h item (List.mem_cons_self ..), ih fun i hi => h i (List.mem_cons_of_mem _ hi)⟩

end

theorem isSource_assembles : Assembles TreeNode.IsSource where
  text _ := trivial
  styled _ _ := trivial
  link _ _ := rfl

theorem fragments_fromSource (s : Text) : FromSource (inlineNodes (fragments s)) := by
  fun_induction fragments s with
  | case1 s h => simp [inlineNodes]
  | case2 s content rest h ih =>
    have hnodes : ∀ node ∈ content, IsAtom node := Token.next?_atomic h
    rw [inlineNodes_append, fromSource_append]
    exact ⟨forall_mem_inlineNodes.2 fun node hnode => (hnodes node hnode).fromSource, ih⟩
  | case3 s wrap argument rest h ih1 ih2 =>
    rw [inlineNodes_append, fromSource_append]
    exact ⟨wrap.apply_all isSource_assembles (normalize_all isSource_assembles ih1), ih2⟩

theorem readInlines_fromSource (s : Text) : FromSource (inlineNodes (readInlines s)) :=
  normalize_all isSource_assembles (fragments_fromSource s)

theorem fromSource_singleton {block : Block} :
    FromSource (blockNodes [block]) ↔
      (TreeNode.block block).IsSource ∧ FromSource block.inner := by
  simp [blockNodes]

theorem readParagraph_fromSource (t : Text) : FromSource (blockNodes [readParagraph t]) := by
  have hpara : FromSource (blockNodes [.para (readInlines (Text.trim t))]) :=
    fromSource_singleton.2 ⟨trivial, readInlines_fromSource (Text.trim t)⟩
  have hraw (raw : Text) : FromSource (blockNodes [.raw .tex raw]) :=
    fromSource_singleton.2 ⟨rfl, fromSource_nil⟩
  unfold readParagraph
  simp only
  split
  · exact hpara
  · split
    · split
      · exact hraw _
      · exact hpara
    · split
      · exact hraw _
      · exact hpara

theorem readEnvironment_fromSource (e : Environment) :
    FromSource (blockNodes [readEnvironment e]) := by
  have hmath (t : Text) : FromSource (blockNodes [.para [.math .display t]]) := by
    simp [blockNodes, Block.inner, inlineNodes, Inline.inner, TreeNode.IsSource]
  unfold readEnvironment
  split
  · exact hmath _
  · split
    · exact hmath _
    · split
      · exact fromSource_singleton.2 ⟨trivial, fromSource_nil⟩
      · exact fromSource_singleton.2 ⟨rfl, fromSource_nil⟩

/-- The reader makes only nodes of its own kinds. -/
theorem readBlocks_fromSource (s : Text) : FromSource (blockNodes (readBlocks s)) := by
  fun_induction readBlocks s with
  | case1 s h => simp [blockNodes]
  | case2 s t rest h ih =>
    rw [← List.singleton_append, blockNodes_append, fromSource_append]
    exact ⟨readParagraph_fromSource t, ih⟩
  | case3 s p rest h ih =>
    have htitle := readInlines_fromSource p.title
    simp [blockNodes, Block.inner, TreeNode.IsSource, htitle, ih]
  | case4 s e rest h ih ih' =>
    have hitems : FromSource
        (itemNodes ((items e.body).attach.map fun item => readBlocks item.val)) := by
      apply itemNodes_all
      intro item hitem
      obtain ⟨text, _, rfl⟩ := List.mem_map.1 hitem
      exact ih text
    rw [← List.singleton_append, blockNodes_append, fromSource_append]
    refine ⟨?_, ih'⟩
    split
    · exact fromSource_singleton.2 ⟨trivial, hitems⟩
    · split
      · exact fromSource_singleton.2 ⟨trivial, hitems⟩
      · exact readEnvironment_fromSource e

end Source

/-- A condition that holds of spaces, and that raw nodes and code keep when they come from the place
of a block into running text. -/
structure TreeNode.Flattens (P : TreeNode → Prop) : Prop where
  space : P (.inline .space)
  raw {format : Format} {t : Text} : P (.block (.raw format t)) → P (.inline (.raw format t))
  code {attr : Attr} {t : Text} : P (.block (.code attr t)) → P (.inline (.code attr t))

section

variable {P : TreeNode → Prop}

theorem contribute_all (hP : TreeNode.Flattens P) {out content : List Inline}
    (ho : ∀ node ∈ inlineNodes out, P node) (hc : ∀ node ∈ inlineNodes content, P node) :
    ∀ node ∈ inlineNodes (contribute out content), P node := by
  unfold contribute
  split
  · exact hc
  · rw [inlineNodes_append, List.forall_mem_append]
    exact ⟨ho, List.forall_mem_cons.2 ⟨hP.space, hc⟩⟩

mutual

theorem flattenBlock_all (hP : TreeNode.Flattens P) {out : List Inline}
    (ho : ∀ node ∈ inlineNodes out, P node) :
    ∀ block : Block, (∀ node ∈ .block block :: block.inner, P node) →
      ∀ node ∈ inlineNodes (flattenBlock out block), P node
  | .para _, h | .plain _, h | .header .., h =>
    contribute_all hP ho (List.forall_mem_cons.1 h).2
  | .raw .., h =>
    contribute_all hP ho (List.forall_mem_singleton.2 (hP.raw (List.forall_mem_cons.1 h).1))
  | .code .., h =>
    contribute_all hP ho (List.forall_mem_singleton.2 (hP.code (List.forall_mem_cons.1 h).1))
  | .div _ content, h | .quote content, h =>
    flattenOnto_all hP ho content (List.forall_mem_cons.1 h).2
  | .bullets items, h | .numbered _ items, h =>
    flattenItems_all hP ho items (List.forall_mem_cons.1 h).2
  | .rule, _ => ho

theorem flattenOnto_all (hP : TreeNode.Flattens P) {out : List Inline}
    (ho : ∀ node ∈ inlineNodes out, P node) :
    ∀ blocks : List Block, (∀ node ∈ blockNodes blocks, P node) →
      ∀ node ∈ inlineNodes (flattenOnto out blocks), P node
  | [], _ => ho
  | block :: more, h => by
    rw [blockNodes, List.forall_mem_append] at h
    exact flattenOnto_all hP (flattenBlock_all hP ho block h.1) more h.2

theorem flattenItems_all (hP : TreeNode.Flattens P) {out : List Inline}
    (ho : ∀ node ∈ inlineNodes out, P node) :
    ∀ items : List (List Block), (∀ node ∈ itemNodes items, P node) →
      ∀ node ∈ inlineNodes (flattenItems out items), P node
  | [], _ => ho
  | item :: more, h => by
    rw [itemNodes, List.forall_mem_append] at h
    exact flattenItems_all hP (flattenOnto_all hP ho item h.1) more h.2

end

/-- What holds of all nodes of blocks holds of all nodes of their inline content. -/
theorem flatten_all (hP : TreeNode.Flattens P) {blocks : List Block}
    (h : ∀ node ∈ blockNodes blocks, P node) : ∀ node ∈ inlineNodes (flatten blocks), P node :=
  flattenOnto_all hP (by simp [inlineNodes]) blocks h

end

/-- Blocks of the reader taken as running text have only nodes of its kinds. -/
theorem flatten_fromSource {blocks : List Block} (h : FromSource (blockNodes blocks)) :
    FromSource (inlineNodes (flatten blocks)) :=
  flatten_all ⟨trivial, id, fun _ => trivial⟩ h

/-- Page source in raw nodes stays what it is when blocks are taken as running text. -/
theorem flatten_texAll {p : Text → Prop} {blocks : List Block} (h : TexAll p (blockNodes blocks)) :
    TexAll p (inlineNodes (flatten blocks)) :=
  flatten_all ⟨(fun _ ht => nomatch ht), id, id⟩ h

end TexCatalog
