import TexCatalog.Form.Block
import TexCatalog.Page.Outline
import TexCatalog.Proofs.EscapedText
import TexCatalog.Proofs.LayoutRules
import TexCatalog.Proofs.Markup
import TexCatalog.Proofs.TrimmedMarkup
import TexCatalog.Proofs.WalkRules

/-!
# What markup shows

What markup shows is what is left of it when the tags are dropped and the entities are decoded. As
nothing in an escaped text could be taken for a tag, and no tag has a bracket in an attribute,
running text shows its plain text, however deep it is nested. So the titles that are made of plain
text say what the headings show.
-/

namespace TexCatalog

namespace Html

open Markup

/-- A printed text without its tags. Within a tag everything up to its closing bracket is left
out. -/
def dropTags : Bool → Text → Text
  | _, [] => []
  | false, c :: s => if c = '<' then dropTags true s else c :: dropTags false s
  | true, c :: s => dropTags (c ≠ '>') s

def seen (markup : List Html) : Text := unescape (dropTags false (printAll markup))

theorem dropTags_inert {s : Text} (h : Inert s) (rest : Text) :
    dropTags false (s ++ rest) = s ++ dropTags false rest := by
  induction s with
  | nil => rfl
  | cons c s ih =>
    rw [List.cons_append, dropTags, if_neg (h c (List.mem_cons_self ..)).1,
      ih fun d hd => h d (List.mem_cons_of_mem c hd), List.cons_append]

/-- A tag ends in its first closing bracket. -/
theorem dropTags_tag {s : Text} (h : '>' ∉ s) (rest : Text) :
    dropTags true (s ++ '>' :: rest) = dropTags false rest := by
  induction s with
  | nil => simp [dropTags]
  | cons c s ih =>
    have hc : c ≠ '>' := fun hc => h (hc ▸ List.mem_cons_self ..)
    have hs : '>' ∉ s := fun hs => h (List.mem_cons_of_mem c hs)
    rw [List.cons_append, dropTags, decide_eq_true hc, ih hs]

theorem Tag.name_closed (tag : Tag) : '>' ∉ tag.name := by
  have hnames : ∀ name ∈ elementNames, '>' ∉ name := by decide +kernel
  exact hnames _ tag.name_mem

theorem printAttributes_closed (attrs : List Attribute) : '>' ∉ printAttributes attrs := by
  have hinert (t : Text) : '>' ∉ escape t := fun h => (escape_inert t _ h).2.1 rfl
  rw [printAttributes, List.mem_flatMap]
  rintro ⟨a, _, ha⟩
  simp [printAttribute, hinert] at ha

/-- Markup that leaves a text when its tags are dropped, whatever stands behind it. -/
def ShowsText (markup : List Html) (t : Text) : Prop :=
  ∀ rest, dropTags false (printAll markup ++ rest) = escape t ++ dropTags false rest

namespace ShowsText

variable {markup more : List Html} {s t : Text}

theorem seen_eq (h : ShowsText markup t) : seen markup = t := by
  have hrest := h []
  rw [List.append_nil, dropTags, List.append_nil] at hrest
  rw [seen, hrest, unescape_escape]

theorem nil : ShowsText [] [] := fun _ => rfl

theorem text (t : Text) : ShowsText [.text t] t := fun rest => by
  rw [printAll_cons, print, printAll_nil, List.append_nil, dropTags_inert (escape_inert t)]

theorem append (h : ShowsText markup s) (hmore : ShowsText more t) :
    ShowsText (markup ++ more) (s ++ t) := fun rest => by
  rw [printAll_append, List.append_assoc, h, hmore, escape_append, List.append_assoc]

theorem element (h : ShowsText markup t) (tag : Tag) (attrs : List Attribute) :
    ShowsText [.element tag attrs markup] t := fun rest => by
  have hopen : '>' ∉ tag.name ++ printAttributes attrs := by
    simp [tag.name_closed, printAttributes_closed attrs]
  have hclose : '>' ∉ '/' :: tag.name := by simp [tag.name_closed]
  have hprint : printAll [.element tag attrs markup] ++ rest =
      '<' :: (tag.name ++ printAttributes attrs ++ '>' ::
        (printAll markup ++ '<' :: ('/' :: tag.name ++ '>' :: rest))) := by
    simp [print]
  rw [hprint, dropTags, if_pos rfl, dropTags_tag hopen, h, dropTags, if_pos rfl,
    dropTags_tag hclose]

end ShowsText

end Html

mutual

/-- A node that is shown with all of its text: a word, a space, code, or a quotation, a link, a
span but no icon, or a cross-reference with a text of its own, in any style. -/
def Inline.Legible : Inline → Prop
  | .text _ | .space | .code .. => True
  | .styled _ content | .quoted _ content | .link _ content _ => Legible content
  | .span attr content => Layout.icon? attr = none ∧ Legible content
  | .crossRef _ content _ => content ≠ [] ∧ Legible content
  | .softBreak | .lineBreak | .math .. | .raw .. | .image .. | .note _ => False

def Legible : List Inline → Prop
  | [] => True
  | node :: more => node.Legible ∧ Legible more

end

namespace Layout

open Html

variable (ctx : LayoutContext)

theorem openStyle_shows {markup : List Html} {t : Text} (h : ShowsText markup t) (style : Style) :
    ShowsText [openStyle style markup] t := by
  cases style <;> exact h.element _ _

mutual

theorem layoutInline_legible : ∀ node : Inline, node.Legible →
    (layoutInline ctx node).Ensures fun markup _ => ShowsText markup node.plainText
  | .text t, _ => by
    rw [layoutInline, Inline.plainText]
    exact ensures_pure (.text t)
  | .space, _ => by
    rw [layoutInline, Inline.plainText]
    exact ensures_pure (.text _)
  | .code _ t, _ => by
    rw [layoutInline, Inline.plainText]
    exact ensures_pure ((ShowsText.text t).element _ _)
  | .styled style content, h => by
    rw [Inline.Legible] at h
    rw [layoutInline, Inline.plainText]
    exact ensures_bind_pure (layoutInlines_legible content h) fun _ _ h => openStyle_shows h style
  | .quoted kind content, h => by
    rw [Inline.Legible] at h
    rw [layoutInline, Inline.plainText]
    exact ensures_bind_pure (layoutInlines_legible content h) fun _ _ h =>
      ((ShowsText.text [_]).append h).append (.text [_])
  | .link attr content target, h => by
    rw [Inline.Legible] at h
    rw [layoutInline, Inline.plainText]
    exact ensures_bind_pure (layoutInlines_legible content h) fun _ _ h => h.element _ _
  | .span attr content, h => by
    rw [Inline.Legible] at h
    rw [layoutInline, h.1, Inline.plainText]
    exact ensures_bind_pure (layoutInlines_legible content h.2) fun _ _ h => h.element _ _
  | .crossRef attr content label, h => by
    rw [Inline.Legible] at h
    rw [layoutInline, Inline.plainText]
    refine ensures_bind (ensures_any _) fun _ _ _ => ?_
    refine ensures_bind_pure (layoutInlines_legible content h.2) fun _ _ hshows => ?_
    rw [if_neg (by simpa using h.1)]
    exact hshows.element _ _
  | .softBreak, h | .lineBreak, h | .math .., h | .raw .., h | .image .., h | .note _, h => by
    rw [Inline.Legible] at h
    exact h.elim

theorem layoutInlines_legible : ∀ nodes : List Inline, Legible nodes →
    (layoutInlines ctx nodes).Ensures fun markup _ => ShowsText markup (plainText nodes)
  | [], _ => by
    rw [layoutInlines, plainText]
    exact ensures_pure .nil
  | node :: more, h => by
    rw [Legible] at h
    rw [layoutInlines, plainText]
    exact ensures_bind (layoutInline_legible node h.1) fun _ _ hnode =>
      ensures_bind_pure (layoutInlines_legible more h.2) fun _ _ hmore => hnode.append hmore

end

end Layout

open Html

theorem OutlineEntry.seen_toHtml (e : OutlineEntry) : seen [e.toHtml] = e.title :=
  (((ShowsText.text e.title).element _ _).element _ _).seen_eq

/-- The title that is noted for a heading is its plain text. -/
theorem Form.family_titled (c : FormContext) (inv : Invocation) :
    (family c inv).Ensures fun result notes => ∀ level attr content,
      result = some [.header level attr content] →
        { id := attr.id, title := Text.trim (plainText content) } ∈ notes.findings.sections := by
  unfold family
  simp only
  split
  · apply Walk.ensures_pure
    rintro _ _ _ ⟨⟩
  · refine Walk.ensures_bind (Walk.ensures_any _) fun title m _ => ?_
    refine Walk.ensures_bind_pure (Walk.ensures_note (P := fun _ n => n.findings.sections =
      [{ id := Text.trim (inv.optional.getD []), title := Text.trim (plainText title) }]) rfl) ?_
    rintro _ n hn _ _ _ ⟨⟩
    refine List.mem_append_right _ ?_
    rw [hn]
    exact List.mem_cons_self ..

theorem Layout.layoutInline_reference_shows (ctx : LayoutContext) (attr : Attr) (label : Text) :
    (layoutInline ctx (.crossRef attr [] label)).Ensures fun markup _ =>
      ShowsText markup (labelTitle ctx label) := by
  rw [layoutInline]
  refine ensures_bind (ensures_any _) fun _ _ _ => ?_
  exact ensures_bind_pure (ensures_any _) fun _ _ _ => (ShowsText.text _).element _ _

/-- The description of a card is its only title. -/
theorem Layout.layoutInline_card (ctx : LayoutContext) (id : Text) (title description : List Inline)
    (n : Nat) : ∃ attrs content,
      (layoutInline ctx (Form.card id title description) n).1 = [.element .a attrs content] ∧
        attrs.filter (·.name = ("title" : Text)) =
          [⟨"title", Text.trim (plainText description)⟩] := by
  rw [Form.card, layoutInline]
  refine ⟨_, _, rfl, ?_⟩
  simp [Attr.toAttributes, Attr.attributeName, Attr.plainKeys, Attr.addClass, Attr.hasClass,
    Attr.set, Attr.setPair, Attr.ofClasses]

/-- Running text shows its plain text, and so do the titles that are made of it. -/
theorem Layout.seen_layoutInlines (ctx : LayoutContext) {nodes : List Inline} (h : Legible nodes)
    (n : Nat) :
    let shown := seen (layoutInlines ctx nodes n).1
    shown = plainText nodes ∧
      (∀ level attr, seen (layoutBlock ctx (.header level attr nodes) n).1 = shown ++ ['\n'] ∧
        ∀ e ∈ (Block.header level attr nodes).outline, seen [e.toHtml] = Text.trim shown) ∧
      (∀ c inv files level attr notes files',
        Form.family c inv files = (.ok (some [.header level attr nodes]), notes, files') →
          { id := attr.id, title := Text.trim shown } ∈ notes.findings.sections) ∧
      (∀ attr label entry, ctx.labels.get? label = some entry → entry.title = Text.trim shown →
        seen (layoutInline ctx (.crossRef attr [] label) n).1 = Text.trim shown) ∧
      ∀ id title, ∃ attrs content,
        (layoutInline ctx (Form.card id title nodes) n).1 = [.element .a attrs content] ∧
          (attrs.filter (·.name = ("title" : Text))).map (fun a => unescape (escape a.value)) =
            [Text.trim shown] := by
  intro shown
  have hnodes : ShowsText (layoutInlines ctx nodes n).1 (plainText nodes) :=
    layoutInlines_legible ctx nodes h n
  have hshown : shown = plainText nodes := hnodes.seen_eq
  refine ⟨hshown, fun level attr => ⟨?_, fun e he => ?_⟩, ?_, ?_, fun id title => ?_⟩
  · have hheading : ShowsText (layoutBlock ctx (.header level attr nodes) n).1
        (plainText nodes ++ ['\n']) := by
      rw [layoutBlock]
      exact (hnodes.element _ _).append (.text ['\n'])
    rw [hheading.seen_eq, hshown]
  · rw [Block.outline] at he
    split at he
    · rw [e.seen_toHtml, List.mem_singleton.1 he, hshown]
    · exact absurd he List.not_mem_nil
  · intro c inv files level attr notes files' hfamily
    rw [hshown]
    exact Form.family_titled c inv hfamily level attr nodes rfl
  · intro attr label entry hentry htitle
    have hlabel : labelTitle ctx label = entry.title := by rw [labelTitle, hentry]
    rw [(layoutInline_reference_shows ctx attr label n).seen_eq, hlabel, htitle]
  · obtain ⟨attrs, content, hcard, htitles⟩ := layoutInline_card ctx id title nodes n
    refine ⟨attrs, content, hcard, ?_⟩
    rw [htitles, List.map_singleton, unescape_escape, hshown]

/-- A title with the characters of markup in its words, its code and the target of its link. -/
def markupTitle : List Inline :=
  [.text "a<b&c", .space, .styled .strong [.link .empty [.code .empty "\"&lt;\""] ⟨"u\">", "t>"⟩],
    .quoted .double [.span (.ofClasses ["icon"]) [.text "d"]], .crossRef .empty [.text ";"] "q"]

/-- Nothing of the tags is taken for text, and nothing of the text for a tag or an entity. -/
theorem Layout.seen_layoutInlines_markupTitle :
    let t : Text := "a<b&c \"&lt;\"\u201cd\u201d;"
    let ctx : LayoutContext := ⟨"p", TextMap.empty.insert "s" ⟨"p", "p.htm#s", t⟩, ∅, .mathml⟩
    let form : FormContext :=
      ⟨"p", ∅, fun _ => Pure.pure [], fun _ => Pure.pure [], fun _ => Pure.pure markupTitle⟩
    Legible markupTitle ∧ seen (layoutInlines ctx markupTitle 0).1 = t ∧
      (∀ e ∈ (Block.header 2 (.ofId "s") markupTitle).outline, seen [e.toHtml] = t) ∧
      { id := "s", title := t } ∈
        (Form.family form ⟨"family", false, some "s", [], [], []⟩ .empty).2.1.findings.sections ∧
      seen (layoutInline ctx (.crossRef .empty [] "s") 0).1 = t := by
  intro t ctx form
  have hlegible : Legible markupTitle := by
    simp [markupTitle, Legible, Inline.Legible, icon?, Attr.get?, Attr.ofClasses]
  have hplain : plainText markupTitle = t := by decide +kernel
  have htrim : Text.trim t = t := by decide +kernel
  obtain ⟨hshown, hheading, hfamily, hreference, _⟩ := seen_layoutInlines ctx hlegible 0
  rw [hshown, hplain, htrim] at hheading hfamily hreference
  refine ⟨hlegible, hshown.trans hplain, (hheading 2 (.ofId "s")).2, ?_, ?_⟩
  · have hid : Text.trim ((some ("s" : Text)).getD []) = "s" := by decide +kernel
    refine hfamily form ⟨"family", false, some "s", [], [], []⟩ .empty 2
      ((Attr.ofId "s").addClass "family") _ .empty ?_
    have hne : ("s" : Text) ≠ [] := by decide +kernel
    unfold Form.family
    simp only [hid, if_neg hne]
    rfl
  · exact hreference .empty "s" ⟨"p", "p.htm#s", t⟩ (by decide +kernel) rfl

end TexCatalog
