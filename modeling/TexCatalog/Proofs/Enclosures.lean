import TexCatalog.Proofs.BalancedBodies
import TexCatalog.Proofs.RecordCoverage
import TexCatalog.Proofs.WalkLevels

/-!
# Environments that enclose blocks

Quotations, figures and boxes put the blocks of their body into a container and leave no other
trace: the body is walked as it is walked by itself, and looking through the container afterwards
finds nothing that the walk has not noted.
-/

namespace TexCatalog

open Source

theorem TextSet.union_singleton_of_mem {s : TextSet} {t : Text} (h : t ∈ s) :
    s.union (.singleton t) = s := by
  apply ext_mem
  intro u
  rw [mem_union, mem_singleton]
  constructor
  · rintro (hu | rfl)
    · exact hu
    · exact h
  · exact .inl

namespace Findings

def Absorbs (f g : Findings) : Prop := f.combine g = f

section

variable {f g h : Findings}

theorem Absorbs.combine (hg : f.Absorbs g) (hh : f.Absorbs h) : f.Absorbs (g.combine h) := by
  unfold Absorbs at *
  rw [← combine_assoc, hg, hh]

theorem absorbs_empty : f.Absorbs {} := combine_empty f

theorem absorbs_labelFindings {attr : Attr} (hid : attr.id ≠ [] → attr.id ∈ f.labels) :
    f.Absorbs (labelFindings attr) := by
  unfold labelFindings
  split
  · exact absorbs_empty
  · next hne =>
    have hcss : joinCss f.css none = f.css := by cases f.css <;> rfl
    simp [Absorbs, Findings.combine, ofLabel, TextSet.union_singleton_of_mem (hid hne), hcss]

theorem absorbs_citationFindings {attr : Attr}
    (hkey : ∀ key, attr.get? "data-cite" = some key → key ∈ f.citations) :
    f.Absorbs (citationFindings attr) := by
  unfold citationFindings
  split
  · exact absorbs_empty
  · next key he =>
    have hcss : joinCss f.css none = f.css := by cases f.css <;> rfl
    simp [Absorbs, Findings.combine, ofCitation, TextSet.union_singleton_of_mem (hkey key he), hcss]

theorem absorbs_linkFindings {target : Target} {content : List Inline}
    (hurl : target.url ++ " " ++ Text.trim (plainText content) ∈ f.urls) :
    f.Absorbs (linkFindings target content) := by
  have hcss : joinCss f.css none = f.css := by cases f.css <;> rfl
  have hunion := TextSet.union_singleton_of_mem hurl
  simp only [Absorbs, Findings.combine, linkFindings, ofUrl, hunion]
  simp [hcss]

end

end Findings

open Findings

section

variable {f : Findings}

mutual

theorem observeInline_absorbed : ∀ node : Inline, f.Covers (.inline node :: node.inner) →
    f.Absorbs (observeInline node)
  | .link attr content target, h => by
    rw [covers_cons] at h
    rw [observeInline]
    exact (absorbs_citationFindings h.1.1).combine
      ((absorbs_linkFindings h.1.2).combine (observeInlines_absorbed content h.2))
  | .span attr content, h => by
    rw [covers_cons] at h
    rw [observeInline]
    exact (absorbs_labelFindings h.1).combine (observeInlines_absorbed content h.2)
  | .styled _ content, h | .quoted _ content, h | .image _ content _, h
  | .crossRef _ content _, h => by
    rw [covers_cons] at h
    rw [observeInline]
    exact observeInlines_absorbed content h.2
  | .note content, h => by
    rw [covers_cons] at h
    rw [observeInline]
    exact observeBlocks_absorbed content h.2
  | .text _, _ | .code .., _ | .space, _ | .softBreak, _ | .lineBreak, _ | .math .., _
  | .raw .., _ => by
    rw [observeInline]
    exact absorbs_empty

theorem observeInlines_absorbed : ∀ nodes : List Inline, f.Covers (inlineNodes nodes) →
    f.Absorbs (observeInlines nodes)
  | [], _ => absorbs_empty
  | node :: more, h => by
    rw [inlineNodes, covers_append] at h
    rw [observeInlines]
    exact (observeInline_absorbed node h.1).combine (observeInlines_absorbed more h.2)

theorem observeBlock_absorbed : ∀ block : Block, f.Covers (.block block :: block.inner) →
    f.Absorbs (observeBlock block)
  | .header _ attr content, h => by
    rw [covers_cons] at h
    rw [observeBlock]
    exact (absorbs_labelFindings h.1).combine (observeInlines_absorbed content h.2)
  | .div attr content, h => by
    rw [covers_cons] at h
    rw [observeBlock]
    exact (absorbs_labelFindings h.1).combine (observeBlocks_absorbed content h.2)
  | .para content, h | .plain content, h => by
    rw [covers_cons] at h
    rw [observeBlock]
    exact observeInlines_absorbed content h.2
  | .quote content, h => by
    rw [covers_cons] at h
    rw [observeBlock]
    exact observeBlocks_absorbed content h.2
  | .bullets items, h | .numbered _ items, h => by
    rw [covers_cons] at h
    rw [observeBlock]
    exact observeItems_absorbed items h.2
  | .code .., _ | .raw .., _ | .rule, _ => by
    rw [observeBlock]
    exact absorbs_empty

/-- Looking through blocks of which everything is known finds nothing new. -/
theorem observeBlocks_absorbed : ∀ blocks : List Block, f.Covers (blockNodes blocks) →
    f.Absorbs (observeBlocks blocks)
  | [], _ => absorbs_empty
  | block :: more, h => by
    rw [blockNodes, covers_append] at h
    rw [observeBlocks]
    exact (observeBlock_absorbed block h.1).combine (observeBlocks_absorbed more h.2)

theorem observeItems_absorbed : ∀ items : List (List Block), f.Covers (itemNodes items) →
    f.Absorbs (observeItems items)
  | [], _ => absorbs_empty
  | item :: more, h => by
    rw [itemNodes, covers_append] at h
    rw [observeItems]
    exact (observeBlocks_absorbed item h.1).combine (observeItems_absorbed more h.2)

end

end

/-- An environment that encloses the blocks of its body. -/
inductive Enclosure where
  | quote
  | blockquote
  | figure
  | box (kind : Text) (starred : Bool) (known : kind ∈ Form.theoremNames)

namespace Enclosure

def base : Enclosure → Text
  | .quote => "quote"
  | .blockquote => "blockquote"
  | .figure => "figurefreeze"
  | .box kind _ _ => kind

def starred : Enclosure → Bool
  | .box _ starred _ => starred
  | _ => false

def name (e : Enclosure) : Text := if e.starred then e.base ++ ['*'] else e.base

/-- The body does not begin with a group in brackets, which would be the title of a box. -/
def Untitled (body : Text) : Enclosure → Prop
  | .box .. => (Text.trimStart body).head? ≠ some '['
  | _ => True

/-- The container of the blocks; a box has its kind as a heading. -/
def wrap : Enclosure → List Block → Block
  | .quote, blocks => .quote blocks
  | .blockquote, blocks => .quote blocks
  | .figure, blocks => .div (.ofClasses ["figure"]) blocks
  | .box kind starred _, blocks =>
    let attr := Attr.ofClasses ["env", kind]
    .div (if starred then attr.addClass "collapsible" else attr)
      (.para [.styled .strong [.text (Form.capitalize kind)]] :: blocks)

def bases : List Text := "quote" :: "blockquote" :: "figurefreeze" :: Form.theoremNames

theorem base_mem (e : Enclosure) : e.base ∈ bases := by
  cases e with
  | box kind _ known =>
    exact List.mem_cons_of_mem _ (List.mem_cons_of_mem _ (List.mem_cons_of_mem _ known))
  | _ => simp [base, bases]

theorem bases_spec : ∀ kind ∈ bases, kind.all isNameChar ∧ ∀ starred : Bool,
    (if starred then kind ++ ['*'] else kind) ≠ [] ∧
      Pattern.splitStar (if starred then kind ++ ['*'] else kind) = (kind, starred) := by
  decide +kernel

theorem splitStar_name (e : Enclosure) : Pattern.splitStar e.name = (e.base, e.starred) :=
  ((bases_spec e.base e.base_mem).2 e.starred).2

theorem name_chars (e : Enclosure) : ∀ c ∈ e.name, isNameChar c := by
  have hbase := List.all_eq_true.1 (bases_spec e.base e.base_mem).1
  intro c hc
  unfold name at hc
  split at hc
  · rcases List.mem_append.1 hc with hc | hc
    · exact hbase c hc
    · obtain rfl := List.mem_singleton.1 hc
      rfl
  · exact hbase c hc

theorem name_ne_nil (e : Enclosure) : e.name ≠ [] :=
  ((bases_spec e.base e.base_mem).2 e.starred).1

end Enclosure

def Pattern.ignores (p : Pattern) (base : Text) (starred : Bool) : Bool :=
  match p.kind with
  | .command => !p.names.contains ("begin" : Text)
  | .environment => !p.accepts base starred

section

variable {p : Pattern} {e : Enclosure} {body : Text} (hbody : Balanced e.name body)

include hbody

theorem matchEnvironment?_enclose :
    p.matchEnvironment? (enclose e.name body) =
      if p.accepts e.base e.starred then
        (p.arguments? body).map fun a =>
          { name := e.base, starred := e.starred, optional := a.optional, args := a.args
            body := a.rest, source := enclose e.name body }
      else none := by
  have hread := environment?_enclose e.name_chars e.name_ne_nil hbody
  have hblank : Text.isBlank [] = true := rfl
  simp only [Pattern.matchEnvironment?, hread, Enclosure.splitStar_name, hblank, if_true]
  split
  · cases p.arguments? body <;> rfl
  · rfl

theorem match?_eq_none_of_ignores (h : p.ignores e.base e.starred) :
    p.match? (enclose e.name body) = none := by
  unfold Pattern.ignores at h
  unfold Pattern.match?
  rw [trim_enclose]
  cases hkind : p.kind with
  | command =>
    simp only [hkind, Bool.not_eq_true'] at h
    obtain ⟨rest, hname⟩ : ∃ rest,
        commandName? (enclose e.name body) = some (("begin" : Text), rest) := commandName?_enclose
    simp only [Pattern.matchCommand?, hname, Pattern.accepts, h, Bool.false_and]
    rfl
  | environment =>
    simp only [hkind, Bool.not_eq_true'] at h
    simp only [matchEnvironment?_enclose hbody, h]
    rfl

/-- A pattern that takes no arguments from the body matches with the whole of it. -/
theorem match?_of_accepts (hkind : p.kind = .environment) (haccepts : p.accepts e.base e.starred)
    (harguments : p.arguments? body = some ⟨none, [], body⟩) :
    p.match? (enclose e.name body) =
      some ⟨e.base, e.starred, none, [], body, enclose e.name body⟩ := by
  simp only [Pattern.match?, hkind, trim_enclose, matchEnvironment?_enclose hbody, haccepts,
    harguments, if_true]
  rfl

end

/-- What stands behind layout stands behind blanks, unless it is one. -/
theorem trimStart_of_dropLayout {s t : Text} {c : Char} (h : Text.dropLayout s = c :: t)
    (hc : ¬ c.isBlank) : Text.trimStart s = c :: t := by
  have hs := List.takeWhile_append_dropWhile (p := Char.isLayout) (l := s)
  have hlayout : ∀ d ∈ s.takeWhile Char.isLayout, d.isBlank := by
    intro d hd
    exact isBlank_of_isLayout (List.all_eq_true.1 (List.all_takeWhile ..) d hd)
  unfold Text.dropLayout at h
  rw [Text.trimStart, ← hs, List.dropWhile_append_of_pos hlayout, h,
    List.dropWhile_cons_of_neg hc]

/-- Without a bracket at the beginning of the body there is no optional group. -/
theorem optionalGroup?_allowed {body : Text} (h : (Text.trimStart body).head? ≠ some '[') :
    Pattern.optionalGroup? body .allowed = some (none, body) := by
  have hnone : spacedBracketed? body = none := by
    cases hgroup : spacedBracketed? body with
    | none => rfl
    | some p =>
      obtain ⟨v, r⟩ := p
      have hlayout : Text.dropLayout body = '[' :: (v ++ ']' :: r) := bracketed?_eq hgroup
      rw [trimStart_of_dropLayout hlayout (by decide)] at h
      exact absurd rfl h
  simp only [Pattern.optionalGroup?, hnone, if_neg h]

namespace Form

variable {text body : Text} {e : Enclosure} (c : FormContext)

theorem expandFirst_append {Kind : Type} {front : List (Form Kind)} (back : List (Form Kind))
    (h : ∀ form ∈ front, form.pattern.match? text = none) :
    expandFirst c text (front ++ back) = expandFirst c text back := by
  induction front with
  | nil => rfl
  | cons form more ih =>
    rw [List.forall_mem_cons] at h
    rw [List.cons_append, expandFirst, h.1]
    exact ih h.2

/-- The first form that does not ignore an enclosure expands it. -/
theorem expandFirst_of_ignores {front back : List (Form Block)} {form : Form Block}
    (hbody : Balanced e.name body)
    (hfront : ∀ f ∈ front, f.pattern.ignores e.base e.starred)
    (hkind : form.pattern.kind = .environment)
    (haccepts : form.pattern.accepts e.base e.starred)
    (harguments : form.pattern.arguments? body = some ⟨none, [], body⟩)
    (hexpand : form.expand c ⟨e.base, e.starred, none, [], body, enclose e.name body⟩ =
      c.blocks body >>= fun blocks => pure (some [e.wrap blocks])) :
    expandFirst c (enclose e.name body) (front ++ form :: back) =
      c.blocks body >>= fun blocks => pure (some [e.wrap blocks]) := by
  have hignored (f : Form Block) (hf : f ∈ front) : f.pattern.match? (enclose e.name body) = none :=
    match?_eq_none_of_ignores hbody (hfront f hf)
  rw [expandFirst_append c _ hignored, expandFirst,
    match?_of_accepts hbody hkind haccepts harguments]
  simp only [hexpand, bind_assoc, pure_bind]

/-- Among all forms of blocks it is the one for the enclosure. -/
theorem expandFirst_enclose (hbody : Balanced e.name body) (huntitled : e.Untitled body) :
    expandFirst c (enclose e.name body) blockForms =
      c.blocks body >>= fun blocks => pure (some [e.wrap blocks]) := by
  cases e with
  | quote | blockquote =>
    have hforms : blockForms = blockForms.take 4 ++ ⟨Pattern.environment ["quote", "blockquote"],
      blockQuote⟩ :: blockForms.drop 5 := rfl
    rw [hforms]
    exact expandFirst_of_ignores c hbody (by decide +kernel) rfl (by decide +kernel) rfl rfl
  | figure =>
    have hforms : blockForms = blockForms.take 8 ++ ⟨Pattern.environment ["figurefreeze"],
      figure⟩ :: blockForms.drop 9 := rfl
    rw [hforms]
    exact expandFirst_of_ignores c hbody (by decide +kernel) rfl (by decide +kernel) rfl rfl
  | box kind starred known =>
    have hforms : blockForms = blockForms.take 5 ++
      ⟨((Pattern.environment theoremNames).withStar).withOptional .allowed, theoremBox⟩ ::
        blockForms.drop 6 := rfl
    have hboxes : ∀ kind ∈ theoremNames, ∀ starred : Bool,
        (∀ f ∈ blockForms.take 5, f.pattern.ignores kind starred) ∧
          Pattern.accepts (((Pattern.environment theoremNames).withStar).withOptional .allowed) kind
            starred := by
      decide +kernel
    have harguments : Pattern.arguments?
        (((Pattern.environment theoremNames).withStar).withOptional .allowed) body =
          some ⟨none, [], body⟩ := by
      simp only [Pattern.arguments?, Pattern.withOptional, optionalGroup?_allowed huntitled]
      rfl
    rw [hforms]
    refine expandFirst_of_ignores c hbody (hboxes kind known starred).1 rfl
      (hboxes kind known starred).2 harguments ?_
    have htitle : boxTitle c none = pure [] := rfl
    simp only [theoremBox, htitle, pure_bind]
    rfl

end Form

@[simp] theorem Attr.id_addClass (attr : Attr) (c : Text) : (attr.addClass c).id = attr.id := by
  unfold addClass
  split <;> rfl

/-- A container of known blocks is known. -/
theorem Enclosure.covers_wrap {f : Findings} (e : Enclosure) {blocks : List Block}
    (h : f.Covers (blockNodes blocks)) : f.Covers (blockNodes [e.wrap blocks]) := by
  have hanonymous (block : Block) (hid : (TreeNode.block block).identifier = [])
      (hinner : f.Covers block.inner) : f.Covers (blockNodes [block]) := by
    rw [blockNodes, blockNodes, List.append_nil, covers_cons]
    exact ⟨fun hne => absurd hid hne, hinner⟩
  cases e with
  | quote | blockquote | figure => exact hanonymous _ rfl h
  | box kind starred known =>
    apply hanonymous
    · change Attr.id (if starred then (Attr.ofClasses ["env", kind]).addClass "collapsible"
        else Attr.ofClasses ["env", kind]) = []
      rw [apply_ite Attr.id, Attr.id_addClass, ite_self]
      rfl
    · change f.Covers
        (blockNodes (.para [.styled .strong [.text (Form.capitalize kind)]] :: blocks))
      rw [← List.singleton_append, blockNodes_append, covers_append]
      refine ⟨?_, h⟩
      simp [blockNodes, Block.inner, inlineNodes, Inline.inner, Knows, TreeNode.identifier]

section

variable (stem : Text) (bib : Bibliography) {e : Enclosure} {body : Text}

/-- The notes of a walk know what it gives for page source. -/
theorem walkAll_covers (source : Text) :
    (walkAll stem bib (readBlocks source)).Ensures fun blocks n =>
      n.findings.Covers (blockNodes blocks) :=
  walkBlocks_ensures covers_sourceRules (full_covers _ _) _ (readBlocks_fromSource source)

/-- An enclosure is walked by walking its body and looking through the container. -/
theorem walkAll_enclose (hbody : Balanced e.name body) (huntitled : e.Untitled body) :
    walkAll stem bib [.raw .tex (enclose e.name body)] =
      walkAll stem bib (readBlocks body) >>= fun blocks =>
        .note (observeBlocks [e.wrap blocks]) >>= fun _ => pure [e.wrap blocks] := by
  have hblock : (Expander.full Form.vocabulary (sourceContext stem bib)).block
      (enclose e.name body) = walkAll stem bib (readBlocks body) >>= fun blocks =>
        .note (observeBlocks [e.wrap blocks]) >>= fun _ => pure [e.wrap blocks] := by
    rw [full_eq_ofInner]
    change Form.expandFirst _ _ Form.blockForms >>= _ = _
    rw [Form.expandFirst_enclose _ hbody huntitled, formContext_blocks]
    simp only [bind_assoc, pure_bind]
    rfl
  unfold walkAll at hblock ⊢
  simp only [walkBlocks, walkBlock, Format.isTex_tex, if_true, hblock, bind_assoc, pure_bind,
    List.append_nil]

/-- An environment that encloses a body fails where the body does; else it has the record and the
problems of the body, and a single block, the container of the blocks of the body. -/
theorem walkDocument_enclose (hbody : Balanced e.name body) (huntitled : e.Untitled body)
    (files : Store) :
    walkDocument (sourceContext stem bib) [.raw .tex (enclose e.name body)] files =
      match walkDocument (sourceContext stem bib) (readBlocks body) files with
      | (.ok page, files') =>
        (.ok ⟨⟨page.artifact.record, [e.wrap page.artifact.blocks]⟩, page.diagnostics⟩, files')
      | (.error failure, files') => (.error failure, files') := by
  have hdoc (blocks : List Block) : walkDocument (sourceContext stem bib) blocks =
      (walkAll stem bib blocks).finish stem := rfl
  have henclosed := congrFun (walkAll_enclose stem bib hbody huntitled) files
  simp only [hdoc, Walk.finish, henclosed]
  rcases hwalk : walkAll stem bib (readBlocks body) files with ⟨r, m, s⟩
  cases r with
  | error failure => rw [Walk.bind_error hwalk]
  | ok blocks =>
    have hcovers := walkAll_covers stem bib body hwalk
    have habsorbed := observeBlocks_absorbed [e.wrap blocks] (e.covers_wrap hcovers)
    have hnotes :
        m.combine (Notes.combine { findings := observeBlocks [e.wrap blocks] } {}) = m := by
      rw [Notes.combine_empty]
      unfold Findings.Absorbs at habsorbed
      simp only [Notes.combine, habsorbed, List.append_nil]
    have hcontainer : (Walk.note (observeBlocks [e.wrap blocks]) >>= fun _ =>
        (pure [e.wrap blocks] : Walk (List Block))) s =
          (.ok [e.wrap blocks],
            Notes.combine { findings := observeBlocks [e.wrap blocks] } {}, s) := rfl
    rw [Walk.bind_ok hwalk, hcontainer]
    simp only [hnotes]

end

def nestedTheorem : Text :=
  " \\begin\x7btheorem*\x7dHere\\label\x7ba\x7d\\end\x7btheorem*\x7d [1]"

/-- A theorem around another one has the label of the inner one. -/
theorem walkDocument_enclose_nestedTheorem :
    let e := Enclosure.box "theorem" true (by decide +kernel)
    Balanced e.name nestedTheorem ∧ e.Untitled nestedTheorem ∧ ∃ page files',
      walkDocument (sourceContext "page" ∅) [.raw .tex (enclose e.name nestedTheorem)] .empty =
        (.ok page, files') ∧ ("a" : Text) ∈ page.artifact.record.labels := by
  intro e
  have hbody : Balanced e.name nestedTheorem := by decide +kernel
  have huntitled : e.Untitled nestedTheorem := by
    change (Text.trimStart nestedTheorem).head? ≠ some '['
    decide +kernel
  have henclose := walkDocument_enclose "page" ∅ hbody huntitled .empty
  have hlabel :
      (match (walkDocument (sourceContext "page" ∅) (readBlocks nestedTheorem) .empty).1 with
      | .ok page => page.artifact.record.labels.contains "a"
      | .error _ => false) = true := by decide +kernel
  rcases hpage : walkDocument (sourceContext "page" ∅) (readBlocks nestedTheorem) .empty
    with ⟨r, files'⟩
  rw [hpage] at hlabel henclose
  cases r with
  | error failure => cases hlabel
  | ok page => exact ⟨hbody, huntitled, _, files', henclose, TextSet.contains_iff.1 hlabel⟩

end TexCatalog
