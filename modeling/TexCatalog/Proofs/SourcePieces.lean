import TexCatalog.Proofs.SourceNodes
import TexCatalog.Proofs.TrimmedText

/-!
# Raw nodes are pieces of what was read

The reader cuts a text up and never puts page source together: every raw node that it makes of a
text has a contiguous piece of it. Arguments and items are pieces too, so this goes through every
level of reading.
-/

namespace TexCatalog

namespace Source

theorem braced?_pieces {s v r : Text} (h : braced? s = some (v, r)) : v <:+: s ∧ r <:+: s := by
  rw [braced?_eq h]
  exact ⟨⟨['{'], '}' :: r, by simp⟩, ⟨'{' :: v ++ ['}'], [], by simp⟩⟩

theorem spacedBraced?_pieces {s v r : Text} (h : spacedBraced? s = some (v, r)) :
    v <:+: s ∧ r <:+: s := by
  have hs : Text.dropLayout s <:+: s := (List.dropWhile_suffix _).isInfix
  have hv := braced?_pieces h
  exact ⟨hv.1.trans hs, hv.2.trans hs⟩

theorem commandName?_rest {s name r : Text} (h : commandName? s = some (name, r)) : r <:+: s := by
  rw [commandName?_eq h]
  exact (List.suffix_append _ _).isInfix

theorem star_rest (s : Text) : (star s).2 <:+: s := by
  conv => rhs; rw [← star_eq s]
  exact (List.suffix_append _ _).isInfix

theorem environment?_pieces {s r : Text} {e : Environment} (h : environment? s = some (e, r)) :
    e.source <:+: s ∧ e.body <:+: s ∧ r <:+: s := by
  obtain ⟨hs, _, gap, _, he⟩ := environment?_eq h
  have hsource : e.source <:+: s := by
    rw [hs]
    exact (List.prefix_append _ _).isInfix
  have hbody : e.body <:+: e.source := by
    rw [he]
    exact ⟨"\\begin" ++ gap ++ '{' :: e.name ++ ['}'], closer e.name, by simp⟩
  refine ⟨hsource, hbody.trans hsource, ?_⟩
  rw [hs]
  exact (List.suffix_append _ _).isInfix

namespace Token

/-- The raw nodes of a token have pieces of a text, and so is the argument to be read on. -/
def Within (s : Text) : Token → Prop
  | .nodes content => TexAll (· <:+: s) (inlineNodes content)
  | .nested _ argument => argument <:+: s

/-- A token and the rest of the text behind it are pieces of a text. -/
def Pieces (s : Text) (p : Token × Text) : Prop := p.1.Within s ∧ p.2 <:+: s

theorem Pieces.mono {s t : Text} {p : Token × Text} (h : Pieces t p) (hts : t <:+: s) :
    Pieces s p := by
  refine ⟨?_, h.2.trans hts⟩
  have hwithin := h.1
  cases hp : p.1 with
  | nodes content =>
    rw [hp] at hwithin
    exact TexAll.mono hwithin fun _ hu => hu.trans hts
  | nested wrap argument =>
    rw [hp] at hwithin
    exact List.IsInfix.trans hwithin hts

theorem within_of_no_raw {s : Text} {content : List Inline}
    (h : ∀ node ∈ inlineNodes content, node.tex? = none) : (Token.nodes content).Within s := by
  intro node hnode text htext
  rw [h node hnode] at htext
  cases htext

theorem text_within (s t : Text) : (text t).Within s :=
  within_of_no_raw (by simp [inlineNodes, Inline.inner, TreeNode.tex?])

theorem char_within (s : Text) (c : Char) : (char c).Within s := text_within s [c]

theorem math_within (s : Text) (kind : MathKind) (t : Text) : (math kind t).Within s :=
  within_of_no_raw (by simp [inlineNodes, Inline.inner, TreeNode.tex?])

theorem raw_within {s t : Text} (h : t <:+: s) : (raw t).Within s := by
  simpa [raw, Within, inlineNodes, Inline.inner, TreeNode.tex?] using h

theorem blanks_pieces (s : Text) : Pieces s (blanks s) := by
  refine ⟨within_of_no_raw ?_, (List.dropWhile_suffix _).isInfix⟩
  split <;> simp [inlineNodes, Inline.inner, TreeNode.tex?]

theorem dollar?_pieces {s : Text} {p : Token × Text} (h : dollar? s = some p) : Pieces s p := by
  unfold dollar? at h
  split at h
  · next s =>
    obtain ⟨⟨v, r⟩, hc, rfl⟩ := Option.map_eq_some_iff.1 h
    refine ⟨math_within _ _ _, ?_⟩
    rw [cutUnescaped?_eq hc]
    exact (List.suffix_append ('$' :: (v ++ ("$$" : Text))) r).isInfix
  · obtain ⟨⟨v, r⟩, hc, rfl⟩ := Option.map_eq_some_iff.1 h
    refine ⟨math_within _ _ _, ?_⟩
    rw [cutUnescaped?_eq hc]
    exact (List.suffix_append _ _).isInfix

theorem delimited?_pieces {s : Text} {p : Token × Text} (h : delimited? s = some p) :
    Pieces s p := by
  unfold delimited? at h
  split at h
  · next s =>
    obtain ⟨⟨v, r⟩, hc, rfl⟩ := Option.map_eq_some_iff.1 h
    refine ⟨math_within _ _ _, ?_⟩
    rw [Text.cut?_eq hc]
    exact (List.suffix_append ('(' :: (v ++ ("\\)" : Text))) r).isInfix
  · next s =>
    obtain ⟨⟨v, r⟩, hc, rfl⟩ := Option.map_eq_some_iff.1 h
    refine ⟨math_within _ _ _, ?_⟩
    rw [Text.cut?_eq hc]
    exact (List.suffix_append ('[' :: (v ++ ("\\]" : Text))) r).isInfix
  · cases h

theorem escaped?_pieces {s : Text} {p : Token × Text} (h : escaped? s = some p) : Pieces s p := by
  unfold escaped? at h
  split at h
  · cases h
  · next c s =>
    have hrest : s <:+: c :: s := (List.suffix_cons c s).isInfix
    split at h
    · cases h
      exact ⟨within_of_no_raw (by simp [inlineNodes, Inline.inner, TreeNode.tex?]), hrest⟩
    · split at h
      · cases h
        exact ⟨char_within _ c, hrest⟩
      · split at h
        · cases h
          exact ⟨within_of_no_raw (by simp [inlineNodes, Inline.inner, TreeNode.tex?]), hrest⟩
        · cases h

theorem ofEnvironment_within {s : Text} {e : Environment} (h : e.source <:+: s) :
    (ofEnvironment e).Within s := by
  unfold ofEnvironment
  split
  · exact math_within _ _ _
  · split
    · exact math_within _ _ _
    · exact raw_within h

theorem native?_pieces {name s : Text} {p : Token × Text} (h : native? name s = some p) :
    Pieces s p := by
  unfold native? at h
  split at h
  · obtain ⟨⟨v, r⟩, hc, rfl⟩ := Option.map_eq_some_iff.1 h
    exact spacedBraced?_pieces hc
  · split at h
    · obtain ⟨⟨v, r⟩, hc, rfl⟩ := Option.map_eq_some_iff.1 h
      exact ⟨within_of_no_raw (by simp [inlineNodes, Inline.inner, TreeNode.tex?]),
        (spacedBraced?_pieces hc).2⟩
    · split at h
      · obtain ⟨⟨v, r⟩, hc, rfl⟩ := Option.map_eq_some_iff.1 h
        exact ⟨within_of_no_raw (by simp [inlineNodes, Inline.inner, TreeNode.tex?]),
          (spacedBraced?_pieces hc).2⟩
      · split at h
        · split at h
          · cases h
          · next hu =>
            obtain ⟨⟨v, r⟩, hc, rfl⟩ := Option.map_eq_some_iff.1 h
            have hbehind := (spacedBraced?_pieces hu).2
            have hv := spacedBraced?_pieces hc
            exact ⟨List.IsInfix.trans hv.1 hbehind, hv.2.trans hbehind⟩
        · cases h

theorem command?_pieces {s : Text} {p : Token × Text} (h : command? s = some p) : Pieces s p := by
  unfold command? at h
  split at h
  · cases h
  · next name r hn =>
    split at h
    · cases h
    · exact (native?_pieces h).mono (commandName?_rest hn)

theorem backslash?_pieces {s : Text} {p : Token × Text} (h : backslash? s = some p) :
    Pieces s p := by
  have htail : s.tail <:+: s := (List.tail_suffix s).isInfix
  simp only [backslash?, Option.or_eq_some_iff, Option.or_eq_none_iff] at h
  rcases h with (h | ⟨_, h⟩) | ⟨_, h | ⟨_, h | ⟨_, h⟩⟩⟩
  · exact (delimited?_pieces h).mono htail
  · exact (escaped?_pieces h).mono htail
  · obtain ⟨⟨e, r⟩, he, rfl⟩ := Option.map_eq_some_iff.1 h
    have hpieces := environment?_pieces he
    exact ⟨ofEnvironment_within hpieces.1, hpieces.2.2⟩
  · exact command?_pieces h
  · obtain ⟨⟨t, r⟩, hr, rfl⟩ := Option.map_eq_some_iff.1 h
    rw [rawCommand?_eq hr]
    exact ⟨raw_within (List.prefix_append _ _).isInfix, (List.suffix_append _ _).isInfix⟩

theorem special?_pieces {c : Char} {s : Text} {p : Token × Text} (h : special? c s = some p) :
    Pieces (c :: s) p := by
  have hrest : s <:+: c :: s := (List.suffix_cons c s).isInfix
  unfold special? at h
  split at h
  · cases h
    exact blanks_pieces (c :: s)
  · split at h
    · cases h
      exact ⟨texAll_nil, (List.dropWhile_suffix _).isInfix.trans hrest⟩
    · split at h
      · exact (dollar?_pieces h).mono hrest
      · split at h
        · obtain ⟨⟨v, r⟩, hb, rfl⟩ := Option.map_eq_some_iff.1 h
          exact braced?_pieces hb
        · split at h
          · cases h
            exact ⟨char_within _ _, hrest⟩
          · split at h
            · exact backslash?_pieces h
            · split at h
              · next rest =>
                cases h
                exact ⟨char_within _ _, ⟨"---", [], by simp⟩⟩
              · next rest _ =>
                cases h
                exact ⟨char_within _ _, ⟨"--", [], by simp⟩⟩
              · next rest =>
                cases h
                exact ⟨char_within _ _, ⟨"``", [], by simp⟩⟩
              · next rest =>
                cases h
                exact ⟨char_within _ _, ⟨"''", [], by simp⟩⟩
              · cases h

/-- The first token of a text and the rest behind it are pieces of the text. -/
theorem next?_pieces {s : Text} {p : Token × Text} (h : next? s = some p) : Pieces s p := by
  cases s with
  | nil => cases h
  | cons c s =>
    simp only [next?, Option.some.injEq] at h
    subst h
    cases hs : special? c s with
    | some p => exact special?_pieces hs
    | none =>
      refine ⟨text_within _ _, c :: (run s).1, [], ?_⟩
      rw [Option.getD_none, List.append_nil, List.cons_append, run_eq]

end Token

theorem texAll_assembles (p : Text → Prop) :
    Assembles fun node => ∀ text ∈ node.tex?, p text where
  text _ _ h := nomatch h
  styled _ _ _ h := nomatch h
  link _ _ _ h := nomatch h

theorem fragments_pieces (s : Text) : TexAll (· <:+: s) (inlineNodes (fragments s)) := by
  fun_induction fragments s with
  | case1 s h => exact texAll_nil
  | case2 s content rest h ih =>
    have hnext := Token.next?_pieces h
    rw [inlineNodes_append, texAll_append]
    exact ⟨hnext.1, ih.mono fun _ hu => hu.trans hnext.2⟩
  | case3 s wrap argument rest h ih1 ih2 =>
    have hnext := Token.next?_pieces h
    rw [inlineNodes_append, texAll_append]
    have hargument := ih1.mono fun _ hu => List.IsInfix.trans hu hnext.1
    refine ⟨wrap.apply_all (texAll_assembles _) ?_, ih2.mono fun _ hu => hu.trans hnext.2⟩
    exact normalize_all (texAll_assembles _) hargument

/-- Running text: every raw node has a contiguous piece of what was read. -/
theorem readInlines_pieces (s : Text) : TexAll (· <:+: s) (inlineNodes (readInlines s)) :=
  normalize_all (texAll_assembles _) (fragments_pieces s)

section

variable {p : Text → Prop} {block : Block}

theorem texAll_block :
    TexAll p (blockNodes [block]) ↔
      (∀ text ∈ (TreeNode.block block).tex?, p text) ∧ TexAll p block.inner := by
  simp [blockNodes]

theorem texAll_rawBlock {text : Text} : TexAll p (blockNodes [.raw .tex text]) ↔ p text := by
  simp [blockNodes, Block.inner, TreeNode.tex?]

end

theorem readParagraph_pieces (t : Text) : TexAll (· <:+: t) (blockNodes [readParagraph t]) := by
  have hpara : TexAll (· <:+: t) (blockNodes [.para (readInlines (Text.trim t))]) := by
    refine texAll_block.2 ⟨fun _ hu => (by cases hu), ?_⟩
    exact (readInlines_pieces _).mono fun _ hu => hu.trans (Text.trim_piece t)
  unfold readParagraph
  simp only
  split
  · exact hpara
  · next raw rest hraw =>
    have hpiece : raw <:+: t := by
      have hprefix : raw <:+: Text.trim t := by
        rw [rawCommand?_eq hraw]
        exact (List.prefix_append _ _).isInfix
      exact hprefix.trans (Text.trim_piece t)
    have hblock : TexAll (· <:+: t) (blockNodes [.raw .tex raw]) := texAll_rawBlock.2 hpiece
    split
    · split
      · exact hblock
      · exact hpara
    · split
      · exact hblock
      · exact hpara

theorem readEnvironment_pieces {s : Text} {e : Environment} (h : e.source <:+: s) :
    TexAll (· <:+: s) (blockNodes [readEnvironment e]) := by
  have hmath (t : Text) : TexAll (· <:+: s) (blockNodes [.para [.math .display t]]) := by
    simp [blockNodes, Block.inner, inlineNodes, Inline.inner, TreeNode.tex?]
  unfold readEnvironment
  split
  · exact hmath _
  · split
    · exact hmath _
    · split
      · exact texAll_block.2 ⟨fun _ hu => (by cases hu), texAll_nil⟩
      · exact texAll_rawBlock.2 h

theorem headingLabel_piece (s : Text) : (headingLabel s).2 <:+: s := by
  unfold headingLabel
  split
  · exact List.infix_rfl
  · next after hafter =>
    split
    · exact List.infix_rfl
    · next id rest hid =>
      have hlayout : Text.dropLayout s <:+: s := (List.dropWhile_suffix _).isInfix
      have hlabel : after <:+: Text.dropLayout s := by
        rw [Text.isPrefixOf?_eq_some.1 hafter]
        exact (List.suffix_append _ _).isInfix
      exact (spacedBraced?_pieces hid).2.trans (hlabel.trans hlayout)

theorem heading?_pieces {s r : Text} {p : Heading} (h : heading? s = some (p, r)) :
    p.title <:+: s ∧ r <:+: s := by
  unfold heading? at h
  split at h
  · cases h
  · next name after hname =>
    split at h
    · next level title rest _ htitle =>
      cases h
      have hafter : (star after).2 <:+: s := (star_rest after).trans (commandName?_rest hname)
      have hpieces := spacedBraced?_pieces htitle
      exact ⟨hpieces.1.trans hafter, (headingLabel_piece rest).trans (hpieces.2.trans hafter)⟩
    · cases h

theorem takeParagraph_pieces (s : Text) :
    (takeParagraph s).1 <:+: s ∧ (takeParagraph s).2 <:+: s := by
  constructor
  · conv => rhs; rw [← takeParagraph_eq s]
    exact (List.prefix_append _ _).isInfix
  · conv => rhs; rw [← takeParagraph_eq s]
    exact (List.suffix_append _ _).isInfix

theorem skipComments_piece (s : Text) : skipComments s <:+: s := by
  fun_induction skipComments s with
  | case1 => exact List.nil_infix
  | case2 s rest h ih =>
    have hstart : '%' :: rest <:+: s := h ▸ (List.dropWhile_suffix Char.isBlank).isInfix
    have hrest : rest <:+: s := (List.suffix_cons _ _).isInfix.trans hstart
    exact ih.trans ((List.dropWhile_suffix _).isInfix.trans hrest)
  | case3 s c rest h => exact h ▸ (List.dropWhile_suffix Char.isBlank).isInfix

namespace Piece

def Within (s : Text) : Piece → Prop
  | .environment e => e.source <:+: s ∧ e.body <:+: s
  | .heading h => h.title <:+: s
  | .paragraph t => t <:+: s

theorem Within.mono {s t : Text} {p : Piece} (h : p.Within t) (hts : t <:+: s) : p.Within s := by
  cases p with
  | environment e => exact ⟨h.1.trans hts, h.2.trans hts⟩
  | heading p => exact List.IsInfix.trans h hts
  | paragraph t => exact List.IsInfix.trans h hts

theorem first_pieces (s : Text) : (first s).1.Within s ∧ (first s).2 <:+: s := by
  unfold first
  split
  · next e rest he =>
    have hpieces := environment?_pieces he
    exact ⟨⟨hpieces.1, hpieces.2.1⟩, hpieces.2.2⟩
  · split
    · next hh => exact heading?_pieces hh
    · exact takeParagraph_pieces s

theorem next?_pieces {s r : Text} {p : Piece} (h : next? s = some (p, r)) :
    p.Within s ∧ r <:+: s := by
  have hskip := skipComments_piece s
  unfold next? at h
  split at h
  · cases h
  · next c rest hs =>
    have hfirst := first_pieces (c :: rest)
    rw [Option.some.inj h] at hfirst
    rw [hs] at hskip
    exact ⟨hfirst.1.mono hskip, hfirst.2.trans hskip⟩

end Piece

theorem flatten_consHead (c : Char) (parts : List Text) :
    (Text.consHead c parts).flatten = c :: parts.flatten := by
  cases parts <;> rfl

/-- Nothing of a list body is lost when it is cut up. -/
theorem flatten_itemParts (skip : Nat) (s : Text) : (itemParts skip s).flatten = s := by
  fun_induction itemParts skip s with
  | case1 => rfl
  | case2 _ _ _ ih | case3 _ _ _ _ _ ih | case5 _ _ _ _ ih => rw [flatten_consHead, ih]
  | case4 _ _ _ _ ih => rw [List.flatten_cons, List.nil_append, flatten_consHead, ih]

theorem itemText_piece (part : Text) : itemText part <:+: part := by
  have hdrop : Text.trimStart (part.drop 5) <:+: part :=
    (List.dropWhile_suffix _).isInfix.trans (List.drop_suffix 5 part).isInfix
  unfold itemText
  simp only
  split
  · next label rest hlabel =>
    have hrest : rest <:+: Text.trimStart (part.drop 5) := by
      rw [bracketed?_eq hlabel]
      exact ⟨'[' :: label ++ [']'], [], by simp⟩
    exact hrest.trans hdrop
  · exact hdrop

theorem items_pieces {body item : Text} (h : item ∈ items body) : item <:+: body := by
  obtain ⟨part, hpart, rfl⟩ := List.mem_map.1 h
  have hpiece := List.infix_of_mem_flatten (List.mem_of_mem_tail hpart)
  rw [flatten_itemParts] at hpiece
  exact (itemText_piece part).trans hpiece

/-- Blocks: every raw node has a contiguous piece of what was read. -/
theorem readBlocks_pieces (s : Text) : TexAll (· <:+: s) (blockNodes (readBlocks s)) := by
  fun_induction readBlocks s with
  | case1 s h => exact texAll_nil
  | case2 s t rest h ih =>
    have hnext := Piece.next?_pieces h
    rw [← List.singleton_append, blockNodes_append, texAll_append]
    exact ⟨(readParagraph_pieces t).mono fun _ hu => hu.trans hnext.1,
      ih.mono fun _ hu => hu.trans hnext.2⟩
  | case3 s p rest h ih =>
    have hnext := Piece.next?_pieces h
    rw [← List.singleton_append, blockNodes_append, texAll_append]
    refine ⟨texAll_block.2 ⟨fun _ hu => (by cases hu), ?_⟩, ih.mono fun _ hu => hu.trans hnext.2⟩
    exact (readInlines_pieces p.title).mono fun _ hu => hu.trans hnext.1
  | case4 s e rest h ih ih' =>
    have hnext := Piece.next?_pieces h
    have hitems : TexAll (· <:+: s)
        (itemNodes ((items e.body).attach.map fun item => readBlocks item.val)) := by
      apply itemNodes_all
      intro item hitem
      obtain ⟨text, _, rfl⟩ := List.mem_map.1 hitem
      exact (ih text).mono fun _ hu => hu.trans ((items_pieces text.2).trans hnext.1.2)
    rw [← List.singleton_append, blockNodes_append, texAll_append]
    refine ⟨?_, ih'.mono fun _ hu => hu.trans hnext.2⟩
    split
    · exact texAll_block.2 ⟨fun _ hu => (by cases hu), hitems⟩
    · split
      · exact texAll_block.2 ⟨fun _ hu => (by cases hu), hitems⟩
      · exact readEnvironment_pieces hnext.1.1

end Source

end TexCatalog
