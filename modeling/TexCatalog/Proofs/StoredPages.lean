import TexCatalog.Page.Encode
import TexCatalog.Proofs.JsonShapes
import TexCatalog.Site.Index
import TexCatalog.Tree.Decode

/-!
# Stored trees, pages and indexes

A tree is read back from the JSON in which it is written. The proof follows the constructors of
nodes: the tag leads the reader to the reader of the contents, and the contents are read back by the
lemmas of their shapes.
-/

namespace TexCatalog

open Json (Draft Decoded Reads bounded)

/-- An alternative is found by its name if the names are distinct. -/
theorem named_of_nodup {tag : κ → Text} {all : List κ} (h : (all.map tag).Nodup) {k : κ}
    (hk : k ∈ all) : Draft.named (all.map fun k => (tag k, k)) (tag k) = .ok k := by
  have hfind : (all.map fun k => (tag k, k)).find? (·.1 == tag k) = some (tag k, k) := by
    induction all with
    | nil => cases hk
    | cons j more ih =>
      rw [List.map_cons, List.nodup_cons] at h
      rcases List.mem_cons.1 hk with rfl | hk
      · exact List.find?_cons_of_pos (beq_self_eq_true _)
      · have hne : tag j ≠ tag k := fun heq => h.1 (heq ▸ List.mem_map_of_mem hk)
        rw [List.map_cons, List.find?_cons_of_neg (by simpa using hne), ih h.2 hk]
  rw [Draft.named, hfind]
  rfl

theorem InlineKind.named_tag (kind : InlineKind) : Draft.named tags kind.tag = .ok kind := by
  refine named_of_nodup (by simp [all, tag]) ?_
  cases kind with
  | styled style => cases style <;> decide
  | _ => decide

theorem BlockKind.named_tag (kind : BlockKind) : Draft.named tags kind.tag = .ok kind :=
  named_of_nodup (by simp [all, tag]) (by cases kind <;> decide)

theorem MathKind.named_tag (kind : MathKind) : Draft.named tags kind.tag = .ok kind :=
  named_of_nodup (by simp [tag]) (by cases kind <;> decide)

theorem QuoteKind.named_tag (kind : QuoteKind) : Draft.named tags kind.tag = .ok kind :=
  named_of_nodup (by simp [tag]) (by cases kind <;> decide)

theorem NumberStyle.named_tag (style : NumberStyle) : Draft.named tags style.tag = .ok style :=
  named_of_nodup (by simp [all, tag]) (by cases style <;> decide)

theorem NumberDelim.named_tag (delim : NumberDelim) : Draft.named tags delim.tag = .ok delim :=
  named_of_nodup (by simp [all, tag]) (by cases delim <;> decide)

def inlineContent : InlineKind → Draft → Decoded Inline
  | .space => fun d => bare .space (some d)
  | .softBreak => fun d => bare .softBreak (some d)
  | .lineBreak => fun d => bare .lineBreak (some d)
  | .text => fun d => do return .text (← d.text)
  | .styled style => fun d => do return .styled style (← inlinesOf .direct d)
  | .note => fun d => do return .note (← blocksOf .direct d)
  | .code => fun d => do
    let p ← d.pair Attr.ofDraft Draft.text
    return .code p.1 p.2
  | .math => fun d => do
    let p ← d.pair (·.plainTag MathKind.tags .direct) Draft.text
    return .math p.1 p.2
  | .raw => fun d => do
    let p ← d.pair Format.ofDraft Draft.text
    return .raw p.1 p.2
  | .quoted => fun d => do
    let p ← d.pair (·.plainTag QuoteKind.tags .direct) (inlinesOf .direct)
    return .quoted p.1 p.2
  | .span => fun d => do
    let p ← d.pair Attr.ofDraft (inlinesOf .direct)
    return .span p.1 p.2
  | .link => fun d => do
    let p ← d.triple Attr.ofDraft (inlinesOf .direct) Target.ofDraft
    return .link p.1 p.2.1 p.2.2
  | .image => fun d => do
    let p ← d.triple Attr.ofDraft (inlinesOf .direct) Target.ofDraft
    return .image p.1 p.2.1 p.2.2
  | .crossRef => fun d => do
    let p ← d.triple Attr.ofDraft (inlinesOf .direct) Draft.text
    return .crossRef p.1 p.2.1 p.2.2

def blockContent : BlockKind → Draft → Decoded Block
  | .rule => fun d => bare .rule (some d)
  | .plain => fun d => do return .plain (← inlinesOf .direct d)
  | .para => fun d => do return .para (← inlinesOf .direct d)
  | .quote => fun d => do return .quote (← blocksOf .direct d)
  | .bullets => fun d => do return .bullets (← listsOf .direct d)
  | .code => fun d => do
    let p ← d.pair Attr.ofDraft Draft.text
    return .code p.1 p.2
  | .raw => fun d => do
    let p ← d.pair Format.ofDraft Draft.text
    return .raw p.1 p.2
  | .header => fun d => do
    let p ← d.triple (·.intWithin 0 255) Attr.ofDraft (inlinesOf .direct)
    return .header (UInt8.ofNat p.1.toNat) p.2.1 p.2.2
  | .numbered => fun d => do
    let p ← d.pair (Numbering.ofDraft .direct) (listsOf .direct)
    return .numbered p.1 p.2
  | .div => fun d => do
    let p ← d.pair Attr.ofDraft (blocksOf .direct)
    return .div p.1 p.2

section

variable {α β γ δ : Type}

theorem closed_bind (rest : List Draft) (a : α) (put : α → β) :
    (Draft.closed rest a >>= fun a => pure (put a)) = Draft.closed rest (put a) := by
  unfold Draft.closed
  split <;> rfl

/-- The parts of a tuple may be put together before the end of the tuple is looked for. -/
theorem pair_closed (f : Draft → Decoded α) (g : Draft → Decoded β) (put : α → β → δ) (c : Draft) :
    (do
      let ⟨items, _⟩ ← c.items
      let ⟨d, items, _, _⟩ ← Draft.next items
      let a ← f d
      let ⟨d, items, _, _⟩ ← Draft.next items
      let b ← g d
      Draft.closed items (put a b)) = do
    let p ← c.pair f g
    return put p.1 p.2 := by
  simp only [Draft.pair, bind_assoc, closed_bind]

theorem triple_closed (f : Draft → Decoded α) (g : Draft → Decoded β) (h : Draft → Decoded γ)
    (put : α → β → γ → δ) (c : Draft) :
    (do
      let ⟨items, _⟩ ← c.items
      let ⟨d, items, _, _⟩ ← Draft.next items
      let a ← f d
      let ⟨d, items, _, _⟩ ← Draft.next items
      let b ← g d
      let ⟨d, items, _, _⟩ ← Draft.next items
      let e ← h d
      Draft.closed items (put a b e)) = do
    let p ← c.triple f g h
    return put p.1 p.2.1 p.2.2 := by
  simp only [Draft.triple, bind_assoc, closed_bind]

/-- What is read directly is the result if nothing is wrong behind it. -/
theorem settle_direct (x : Decoded α) :
    (Draft.Reading.direct.settle x >>= fun a => (Except.ok () : Decoded Unit) >>= fun _ => pure a) =
      x := by
  cases x <;> rfl

end

theorem inlineOf_content (kind : InlineKind) (c : Draft) :
    inlineOf .direct (.obj [(.str ['t'], .str kind.tag), (.str ['c'], c)]) =
      inlineContent kind c := by
  obtain ⟨hc, h⟩ := Draft.tagged_content kind.named_tag .direct c
  rw [inlineOf, h]
  refine (settle_direct _).trans ?_
  cases kind with
  | quoted | span => exact pair_closed ..
  | link | image | crossRef => exact triple_closed ..
  | _ => rfl

theorem blockOf_content (kind : BlockKind) (c : Draft) :
    blockOf .direct (.obj [(.str ['t'], .str kind.tag), (.str ['c'], c)]) =
      blockContent kind c := by
  obtain ⟨hc, h⟩ := Draft.tagged_content kind.named_tag .direct c
  rw [blockOf, h]
  refine (settle_direct _).trans ?_
  cases kind with
  | numbered | div => exact pair_closed ..
  | header => exact triple_closed ..
  | _ => rfl

theorem inlineOf_bare {kind : InlineKind} {node : Inline}
    (h : (kind, node) ∈ [(.space, .space), (.softBreak, .softBreak), (.lineBreak, .lineBreak)]) :
    inlineOf .direct (.obj [(.str ['t'], .str kind.tag)]) = .ok node := by
  have htag := Draft.tagged_bare kind.named_tag .direct
  rw [inlineOf, htag]
  simp only [List.mem_cons, Prod.mk.injEq, List.not_mem_nil, or_false] at h
  rcases h with ⟨rfl, rfl⟩ | ⟨rfl, rfl⟩ | ⟨rfl, rfl⟩ <;> rfl

theorem blockOf_rule :
    blockOf .direct (.obj [(.str ['t'], .str BlockKind.rule.tag)]) = .ok .rule := by
  rw [blockOf, Draft.tagged_bare BlockKind.rule.named_tag .direct]
  rfl

theorem inlineOf_deep (ds : List (Draft × Draft)) :
    inlineOf .direct (.deep (.obj ds)) = .error .syntactic := by
  rw [inlineOf]
  rfl

theorem blockOf_deep (ds : List (Draft × Draft)) :
    blockOf .direct (.deep (.obj ds)) = .error .syntactic := by
  rw [blockOf]
  rfl

theorem inlinesOf_eq_list : inlinesOf .direct = Draft.list (inlineOf .direct) := by
  have hitems (items : List Draft) :
      inlinesOfItems .direct items = Draft.each (inlineOf .direct) items := by
    induction items with
    | nil => rw [inlinesOfItems, Draft.each]
    | cons d more ih => rw [inlinesOfItems, Draft.each, ih]
  funext d
  rw [inlinesOf, Draft.list]
  simp only [hitems]

theorem blocksOf_eq_list : blocksOf .direct = Draft.list (blockOf .direct) := by
  have hitems (items : List Draft) :
      blocksOfItems .direct items = Draft.each (blockOf .direct) items := by
    induction items with
    | nil => rw [blocksOfItems, Draft.each]
    | cons d more ih => rw [blocksOfItems, Draft.each, ih]
  funext d
  rw [blocksOf, Draft.list]
  simp only [hitems]

theorem listsOf_eq_list : listsOf .direct = Draft.list (Draft.list (blockOf .direct)) := by
  have hitems (items : List Draft) :
      listsOfItems .direct items = Draft.each (blocksOf .direct) items := by
    induction items with
    | nil => rw [listsOfItems, Draft.each]
    | cons d more ih => rw [listsOfItems, Draft.each, ih]
  funext d
  rw [listsOf, ← blocksOf_eq_list, Draft.list]
  simp only [hitems]

theorem inlineItems_eq_map (content : List Inline) :
    inlineItems content = content.map Inline.toJson := by
  induction content with
  | nil => rw [inlineItems, List.map_nil]
  | cons node more ih => rw [inlineItems, List.map_cons, ih]

theorem blockItems_eq_map (content : List Block) :
    blockItems content = content.map Block.toJson := by
  induction content with
  | nil => rw [blockItems, List.map_nil]
  | cons block more ih => rw [blockItems, List.map_cons, ih]

theorem listItems_eq_map (items : List (List Block)) :
    listItems items = items.map fun item => .arr (item.map Block.toJson) := by
  induction items with
  | nil => rw [listItems, List.map_nil]
  | cons item more ih => rw [listItems, List.map_cons, ih, blockItems_eq_map]

namespace Json.Reads

theorem inlines {content : List Inline}
    (h : ∀ node ∈ content, Reads (inlineOf .direct) node.toJson node) :
    Reads (inlinesOf .direct) (.arr (inlineItems content)) content := by
  rw [inlinesOf_eq_list, inlineItems_eq_map]
  exact .list h

theorem blocks {content : List Block}
    (h : ∀ block ∈ content, Reads (blockOf .direct) block.toJson block) :
    Reads (blocksOf .direct) (.arr (blockItems content)) content := by
  rw [blocksOf_eq_list, blockItems_eq_map]
  exact .list h

theorem lists {items : List (List Block)}
    (h : ∀ item ∈ items, ∀ block ∈ item, Reads (blockOf .direct) block.toJson block) :
    Reads (listsOf .direct) (.arr (listItems items)) items := by
  rw [listsOf_eq_list, listItems_eq_map]
  exact .list fun item hitem => .list (h item hitem)

theorem attr (a : Attr) : Reads Attr.ofDraft a.toJson a := by
  have hclasses : Reads (Draft.list Draft.text) (ofList .str a.classes) a.classes :=
    list fun c _ => text c
  have hpairs : Reads (Draft.list (Draft.pair Draft.text Draft.text))
      (ofList (fun p => .arr [.str p.1, .str p.2]) a.pairs) a.pairs :=
    list fun p _ => (text p.1).pair (text p.2)
  exact ((text a.id).triple hclasses hpairs).map fun p => Attr.mk p.1 p.2.1 p.2.2

theorem target (t : Target) : Reads Target.ofDraft t.toJson t :=
  ((text t.url).pair (text t.title)).map fun p => Target.mk p.1 p.2

theorem format (f : Format) : Reads Format.ofDraft f.toJson f := (text f.name).map Format.mk

theorem level (n : UInt8) : Reads (·.intWithin 0 255) (Json.nat n.toNat) (n.toNat : Int) := by
  have := n.toNat_lt
  exact .intWithin (by omega) ⟨by simp, by change (_ : Int) < 18446744073709551616; omega⟩

theorem numbering (n : Numbering) : Reads (Numbering.ofDraft .direct) n.toJson n := by
  have hrange := And.intro n.start.le_toInt n.start.toInt_le
  have hfits : (Number.int n.start.toInt).Fits := by
    refine ⟨Int.le_trans (by decide) hrange.1, Int.lt_of_le_of_lt hrange.2 (by decide)⟩
  have hstart := intWithin hrange hfits
  have := (hstart.triple (plainTag n.style.named_tag .direct)
    (plainTag n.delim.named_tag .direct)).map fun p =>
      ({ start := Int32.ofInt p.1, style := p.2.1, delim := p.2.2 } : Numbering)
  rwa [Int32.ofInt_toInt] at this

end Json.Reads

mutual

theorem reads_inline : ∀ node : Inline, Reads (inlineOf .direct) node.toJson node
  | .text t => .tagged inlineOf_deep (inlineOf_content .text) ((Reads.text t).map Inline.text)
  | .styled style content =>
    .tagged inlineOf_deep (inlineOf_content (.styled style))
      ((Reads.inlines (reads_inlines content)).map (Inline.styled style))
  | .quoted kind content => by
    have hcontent := (Reads.plainTag kind.named_tag .direct).pair
      (.inlines (reads_inlines content))
    exact .tagged inlineOf_deep (inlineOf_content .quoted)
      (hcontent.map fun p => Inline.quoted p.1 p.2)
  | .code attr t =>
    .tagged inlineOf_deep (inlineOf_content .code)
      (((Reads.attr attr).pair (.text t)).map fun p => Inline.code p.1 p.2)
  | .space => .bare inlineOf_deep (inlineOf_bare (by simp))
  | .softBreak => .bare inlineOf_deep (inlineOf_bare (by simp))
  | .lineBreak => .bare inlineOf_deep (inlineOf_bare (by simp))
  | .math kind t => by
    have hcontent := (Reads.plainTag kind.named_tag .direct).pair (.text t)
    exact .tagged inlineOf_deep (inlineOf_content .math) (hcontent.map fun p => Inline.math p.1 p.2)
  | .raw format t =>
    .tagged inlineOf_deep (inlineOf_content .raw)
      (((Reads.format format).pair (.text t)).map fun p => Inline.raw p.1 p.2)
  | .link attr content target => by
    have hcontent := (Reads.attr attr).triple (.inlines (reads_inlines content)) (.target target)
    exact .tagged inlineOf_deep (inlineOf_content .link)
      (hcontent.map fun p => Inline.link p.1 p.2.1 p.2.2)
  | .image attr content target => by
    have hcontent := (Reads.attr attr).triple (.inlines (reads_inlines content)) (.target target)
    exact .tagged inlineOf_deep (inlineOf_content .image)
      (hcontent.map fun p => Inline.image p.1 p.2.1 p.2.2)
  | .note content =>
    .tagged inlineOf_deep (inlineOf_content .note)
      ((Reads.blocks (reads_blocks content)).map Inline.note)
  | .span attr content =>
    .tagged inlineOf_deep (inlineOf_content .span)
      (((Reads.attr attr).pair (.inlines (reads_inlines content))).map fun p => Inline.span p.1 p.2)
  | .crossRef attr content label => by
    have hcontent := (Reads.attr attr).triple (.inlines (reads_inlines content)) (.text label)
    exact .tagged inlineOf_deep (inlineOf_content .crossRef)
      (hcontent.map fun p => Inline.crossRef p.1 p.2.1 p.2.2)

theorem reads_inlines : ∀ content : List Inline, ∀ node ∈ content,
    Reads (inlineOf .direct) node.toJson node
  | [] => fun _ h => absurd h (by simp)
  | node :: more => List.forall_mem_cons.2 ⟨reads_inline node, reads_inlines more⟩

theorem reads_block : ∀ block : Block, Reads (blockOf .direct) block.toJson block
  | .plain content =>
    .tagged blockOf_deep (blockOf_content .plain)
      ((Reads.inlines (reads_inlines content)).map Block.plain)
  | .para content =>
    .tagged blockOf_deep (blockOf_content .para)
      ((Reads.inlines (reads_inlines content)).map Block.para)
  | .header level attr content => by
    have hcontent := (Reads.level level).triple (.attr attr) (.inlines (reads_inlines content))
    have hheader := hcontent.map fun p => Block.header (UInt8.ofNat p.1.toNat) p.2.1 p.2.2
    rw [Int.toNat_natCast, UInt8.ofNat_toNat] at hheader
    exact .tagged blockOf_deep (blockOf_content .header) hheader
  | .code attr t =>
    .tagged blockOf_deep (blockOf_content .code)
      (((Reads.attr attr).pair (.text t)).map fun p => Block.code p.1 p.2)
  | .raw format t =>
    .tagged blockOf_deep (blockOf_content .raw)
      (((Reads.format format).pair (.text t)).map fun p => Block.raw p.1 p.2)
  | .quote content =>
    .tagged blockOf_deep (blockOf_content .quote)
      ((Reads.blocks (reads_blocks content)).map Block.quote)
  | .bullets items =>
    .tagged blockOf_deep (blockOf_content .bullets)
      ((Reads.lists (reads_lists items)).map Block.bullets)
  | .numbered numbering items =>
    .tagged blockOf_deep (blockOf_content .numbered)
      (((Reads.numbering numbering).pair (.lists (reads_lists items))).map
        fun p => Block.numbered p.1 p.2)
  | .rule => .bare blockOf_deep blockOf_rule
  | .div attr content =>
    .tagged blockOf_deep (blockOf_content .div)
      (((Reads.attr attr).pair (.blocks (reads_blocks content))).map fun p => Block.div p.1 p.2)

theorem reads_blocks : ∀ content : List Block, ∀ block ∈ content,
    Reads (blockOf .direct) block.toJson block
  | [] => fun _ h => absurd h (by simp)
  | block :: more => List.forall_mem_cons.2 ⟨reads_block block, reads_blocks more⟩

theorem reads_lists : ∀ items : List (List Block), ∀ item ∈ items, ∀ block ∈ item,
    Reads (blockOf .direct) block.toJson block
  | [] => fun _ h => absurd h (by simp)
  | item :: more => List.forall_mem_cons.2 ⟨reads_blocks item, reads_lists more⟩

end

theorem reads_tree (content : List Block) :
    Reads blocksOfDraft (blocksToJson content) content :=
  .blocks (reads_blocks content)

/-! ## Stored pages and indexes

What one stage writes the next one reads: the label index and the record index always come back from
their files. An artifact comes back as long as not too many arrays and objects stand inside one
another in it; one with a deeper tree is written all the same and refused when it is read.
-/

open Json (Puts)

/-- A field by its place. -/
theorem Json.Puts.at {α : Type} {fields : List (RecordField α)} {a b c : α} {j : Json}
    {more : List (Text × Json)} (i : Nat) (hi : i < fields.length)
    (hput : Reads (fields[i].put · a) j b) (hmore : Puts fields b more c) :
    Puts fields a ((fields[i].name, j) :: more) c :=
  .cons (List.getElem_mem hi) hput hmore

theorem PageSection.reads (s : PageSection) : Reads ofDraft s.toJson s := by
  refine .record (by decide_cbv) (.refl _) (by simp [fields]) ?_
  refine .at 0 (by decide) ((Reads.text s.id).map (PageSection.mk · [] 2)) ?_
  refine .at 1 (by decide) ((Reads.text s.title).map (PageSection.mk s.id · 2)) ?_
  have hlevel := (Reads.level s.level).map fun n => { s with level := UInt8.ofNat n.toNat }
  rw [Int.toNat_natCast, UInt8.ofNat_toNat] at hlevel
  exact .at 2 (by decide) hlevel (.nil s)

theorem LabelEntry.reads (e : LabelEntry) : Reads ofDraft e.toJson e := by
  refine .record (by decide_cbv) (.refl _) (by simp [fields]) ?_
  refine .at 0 (by decide) ((Reads.text e.page).map (LabelEntry.mk · [] [])) ?_
  refine .at 1 (by decide) ((Reads.text e.href).map (LabelEntry.mk e.page · [])) ?_
  exact .at 2 (by decide) ((Reads.text e.title).map (LabelEntry.mk e.page e.href ·)) (.nil e)

theorem LabelIndex.reads (labels : LabelIndex) : Reads ofDraft (toJson labels) labels :=
  .textMap fun e _ => e.2.reads

theorem RecordIndex.reads (records : RecordIndex) : Reads ofDraft (toJson records) records :=
  .textMap fun _ _ => .textMap fun e _ => .text e.2

namespace PageRecord

/-- A field that is left out where it has no text. -/
theorem puts_optional (put : Option Text → PageRecord) (i : Nat) (hi : i < fields.length)
    (hput : ∀ t, Reads (fields[i].put · (put none)) (.str t) (put (some t))) {t : Option Text}
    {more : List (Text × Json)} {c : PageRecord} (hmore : Puts fields (put t) more c) :
    Puts fields (put none) (optionalMember fields[i].name t ++ more) c := by
  cases t with
  | none => exact hmore
  | some t => exact .at i hi (hput t) hmore

theorem names_optionalMember (name : Text) (t : Option Text) :
    ((optionalMember name t).map Prod.fst).Sublist [name] := by
  cases t with
  | none => exact List.nil_sublist _
  | some t => exact .refl _

theorem names_sublist (r : PageRecord) {members : List (Text × Json)}
    (h : r.toJson = .obj members) :
    (members.map Prod.fst).Sublist (fields.map (·.name)) := by
  simp only [toJson, Json.obj.injEq] at h
  subst h
  simp only [List.map_append, List.append_assoc]
  refine .append (.refl _) (.append (names_optionalMember _ _) (.append (names_optionalMember _ _)
    (.append (names_optionalMember _ _) (.append (.refl _) (.append (names_optionalMember _ _)
      (.refl _))))))

theorem reads (r : PageRecord) : Reads ofDraft r.toJson r := by
  refine .record (by decide_cbv) (r.names_sublist rfl) (by simp [fields]) ?_
  simp only [List.append_assoc, List.cons_append, List.nil_append]
  let putStem (t : Text) : PageRecord := { stem := t }
  let putTitle (t : Option Text) : PageRecord := { putStem r.stem with title := t }
  let putDescription (t : Option Text) : PageRecord := { putTitle r.title with description := t }
  let putKeywords (t : Option Text) : PageRecord :=
    { putDescription r.description with keywords := t }
  let putLabels (s : TextSet) : PageRecord := { putKeywords r.keywords with labels := s }
  let putCitations (s : TextSet) : PageRecord := { putLabels r.labels with citations := s }
  let putTodos (ts : List Text) : PageRecord := { putCitations r.citations with todos := ts }
  let putSections (ss : List PageSection) : PageRecord := { putTodos r.todos with sections := ss }
  let putRecords (m : TextMap Fields) : PageRecord := { putSections r.sections with records := m }
  let putCss (t : Option Text) : PageRecord := { putRecords r.records with css := t }
  let putUrls (s : TextSet) : PageRecord := { putCss r.css with urls := s }
  refine .at 0 (by decide) ((Reads.text r.stem).map putStem) ?_
  refine puts_optional putTitle 1 (by decide) (fun t => (Reads.optionText t).map putTitle) ?_
  refine puts_optional putDescription 2 (by decide)
    (fun t => (Reads.optionText t).map putDescription) ?_
  refine puts_optional putKeywords 3 (by decide) (fun t => (Reads.optionText t).map putKeywords) ?_
  refine .at 4 (by decide) ((Reads.textSet r.labels).map putLabels) ?_
  refine .at 5 (by decide) ((Reads.textSet r.citations).map putCitations) ?_
  refine .at 6 (by decide) ((Reads.list fun t _ => .text t).map putTodos) ?_
  refine .at 7 (by decide) ((Reads.list fun s _ => s.reads).map putSections) ?_
  refine .at 8 (by decide)
    ((Reads.textMap fun _ _ => .textMap fun e _ => .text e.2).map putRecords) ?_
  refine puts_optional putCss 9 (by decide) (fun t => (Reads.optionText t).map putCss) ?_
  exact .at 10 (by decide) ((Reads.textSet r.urls).map putUrls) (.nil r)

end PageRecord

theorem Artifact.reads (a : Artifact) : Reads ofDraft a.toJson a := by
  refine .record (by decide_cbv) (.refl _) (by simp [fields]) ?_
  refine .at 0 (by decide) (a.record.reads.map (Artifact.mk · [])) ?_
  exact .at 1 (by decide) ((reads_tree a.blocks).map (Artifact.mk a.record ·)) (.nil a)

namespace Json

theorem membersNesting_le {write : α → Json} {entries : List (Text × α)} {n : Nat}
    (h : ∀ e ∈ entries, (write e.2).nesting ≤ n) :
    membersNesting (entries.map fun e => (e.1, write e.2)) ≤ n := by
  induction entries with
  | nil => exact Nat.zero_le n
  | cons e more ih =>
    rw [List.forall_mem_cons] at h
    exact Nat.max_le.2 ⟨h.1, ih h.2⟩

theorem nesting_ofTextMap_le {write : α → Json} {m : TextMap α} {n : Nat}
    (h : ∀ e ∈ m.entries, (write e.2).nesting ≤ n) : (ofTextMap write m).nesting ≤ n + 1 :=
  Nat.add_le_add_right (membersNesting_le h) 1

end Json

theorem LabelIndex.nesting_le (labels : LabelIndex) : (toJson labels).nesting ≤ 2 :=
  Json.nesting_ofTextMap_le fun _ _ => Nat.le_refl 1

theorem RecordIndex.nesting_le (records : RecordIndex) : (toJson records).nesting ≤ 2 :=
  Json.nesting_ofTextMap_le fun _ _ => Json.nesting_ofTextMap_le fun _ _ => Nat.le_refl 0

/-- What is written for the next stage is what that stage reads. Only an artifact that is nested too
deep is refused. -/
theorem written_is_read :
    (∀ a : Artifact, Artifact.ofText a.toText =
      if a.toJson.nesting ≤ Json.maxDepth then .ok a else .error (.json .syntactic)) ∧
    (∀ labels : LabelIndex, LabelIndex.ofText labels.toText = .ok labels) ∧
    ∀ records : RecordIndex, RecordIndex.ofText (RecordIndex.toText records) = .ok records := by
  refine ⟨fun a => a.reads.readText_eq, fun labels => ?_, fun records => ?_⟩
  · have hdepth := Nat.le_trans labels.nesting_le (by decide : 2 ≤ Json.maxDepth)
    exact labels.reads.readText_eq.trans (if_pos hdepth)
  · have hdepth := Nat.le_trans (RecordIndex.nesting_le records) (by decide : 2 ≤ Json.maxDepth)
    exact (RecordIndex.reads records).readText_eq.trans (if_pos hdepth)

def emphasizedPage (n : Nat) : Artifact where
  record := { stem := "p" }
  blocks := [.para [n.repeat (fun node => .styled .emphasis [node]) (.text "x")]]

theorem emphasizedPage_refused :
    Artifact.ofText (emphasizedPage 62).toText = .error (.json .syntactic) :=
  (emphasizedPage 62).reads.readText_eq.trans (if_neg (by decide +kernel))

end TexCatalog
