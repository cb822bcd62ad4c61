import TexCatalog.Proofs.BalancedGroups
import TexCatalog.Proofs.CitedKeys
import TexCatalog.Proofs.FieldBlanks
import TexCatalog.Proofs.KeptTables

/-!
# Citations as they are spelled

The command for citations with keys behind each other and perhaps a note in front of them: it is
read as one match, its keys are found again, and its walk is the walk of the note followed by the
citation of the keys.
-/

namespace TexCatalog

open Findings

namespace Source

open Text

/-- A key as it may stand in a citation, without blanks around it and without what ends it. -/
structure IsCiteKey (key : Text) : Prop where
  ne_nil : key ≠ []
  trimmed : trim key = key
  plain : ∀ c ∈ key, c ≠ ',' ∧ c ∉ ("\\\x7b\x7d" : Text)

def noteGroup : Option Text → Text
  | none => []
  | some note => '[' :: (note ++ [']'])

def citeSource (note : Option Text) (keys : List Text) : Text :=
  '\\' :: (("cite" : Text) ++ (noteGroup note ++ '{' :: (join "," keys ++ ['}'])))

section

variable {keys : List Text} (hkeys : ∀ key ∈ keys, IsCiteKey key)

include hkeys

theorem split_join_keys (hne : keys ≠ []) : split ',' (join "," keys) = keys := by
  have hcomma {key : Text} (hkey : IsCiteKey key) : ',' ∉ key := fun h => (hkey.plain _ h).1 rfl
  induction keys with
  | nil => exact absurd rfl hne
  | cons key more ih =>
    rw [List.forall_mem_cons] at hkeys
    cases more with
    | nil => exact split_of_not_mem (hcomma hkeys.1)
    | cons next more =>
      have hjoin : join "," (key :: next :: more) = key ++ ',' :: join "," (next :: more) := by
        simp [join]
      rw [hjoin, split_cut, split_of_not_mem (hcomma hkeys.1), ih hkeys.2 (by simp)]
      rfl

theorem passesBraces_join_keys : PassesBraces (join "," keys) := by
  have hkey {key : Text} (h : IsCiteKey key) : PassesBraces key :=
    .of_plain fun c hc => (h.plain c hc).2
  exact join_of_append .nil (.of_plain (by simp)) (fun _ _ => .append) fun key hin =>
    hkey (hkeys key hin)

theorem trim_join_keys (hne : keys ≠ []) : trim (join "," keys) = join "," keys := by
  obtain ⟨first, hfirst⟩ : ∃ key, keys.head? = some key := by
    simp [List.head?_eq_some_head hne]
  obtain ⟨last, hlast⟩ : ∃ key, keys.getLast? = some key := by
    simp [List.getLast?_eq_some_getLast hne]
  have hfirstKey := hkeys first (List.mem_of_mem_head? hfirst)
  have hlastKey := hkeys last (List.mem_of_mem_getLast? hlast)
  have hstart : trimStart (join "," keys) = join "," keys := by
    obtain ⟨rest, hrest⟩ := prefix_join "," keys
    rw [hfirst] at hrest
    rw [← hrest]
    change trimStart (first ++ rest) = first ++ rest
    rw [(trimStart_append (not_blank_of_trim hfirstKey.ne_nil hfirstKey.trimmed) rest).1,
      trimStart_of_trim hfirstKey.trimmed]
  have hend : trimEnd (join "," keys) = join "," keys := by
    obtain ⟨front, hfront⟩ := suffix_join "," keys
    rw [hlast] at hfront
    rw [← hfront]
    change trimEnd (front ++ last) = front ++ last
    rw [(trimEnd_append (not_blank_of_trim hlastKey.ne_nil hlastKey.trimmed) front).1,
      trimEnd_of_trim hlastKey.trimmed]
  rw [trim, hstart, hend]

/-- The keys of a citation are found again. -/
theorem citeKeys_join (hne : keys ≠ []) : Form.citeKeys (trim (join "," keys)) = keys := by
  have htrim : keys.map trim = keys := by
    conv => rhs; rw [← List.map_id keys]
    exact List.map_congr_left fun key hkey => (hkeys key hkey).trimmed
  rw [Form.citeKeys, trim_join_keys hkeys hne, split_join_keys hkeys hne, htrim]
  exact List.filter_eq_self.2 fun key hkey => decide_eq_true (hkeys key hkey).ne_nil

end

theorem trim_citeSource (note : Option Text) (keys : List Text) :
    trim (citeSource note keys) = citeSource note keys := by
  have hstart : trimStart (citeSource note keys) = citeSource note keys := by
    simp [trimStart, citeSource, Char.isBlank]
  have hend : trimEnd (citeSource note keys) = citeSource note keys := by
    simp [trimEnd, citeSource, Char.isBlank]
  rw [trim, hstart, hend]

end Source

open Source

namespace Form

def citePattern : Pattern := ((Pattern.command ["cite"]).withOptional .allowed).withArgs 1

def citeInvocation (note : Option Text) (keys : List Text) : Invocation where
  name := "cite"
  starred := false
  optional := note
  args := [Text.join "," keys]
  body := []
  source := citeSource note keys

theorem cite_mem : ⟨citePattern, cite⟩ ∈ inlineForms := by simp [inlineForms, citePattern]

variable {note : Option Text} {keys : List Text} (hnote : ∀ t ∈ note, GroupBalanced t)
  (hkeys : ∀ key ∈ keys, IsCiteKey key)

include hnote hkeys

theorem arguments?_cite :
    citePattern.arguments? (noteGroup note ++ '{' :: (Text.join "," keys ++ ['}'])) =
      some { optional := note, args := [Text.join "," keys], rest := [] } := by
  have hoptional : Pattern.optionalGroup? (noteGroup note ++ '{' :: (Text.join "," keys ++ ['}']))
      .allowed = some (note, '{' :: (Text.join "," keys ++ ['}'])) := by
    cases note with
    | none =>
      apply optionalGroup?_allowed
      simp [noteGroup, Text.trimStart, Char.isBlank]
    | some t =>
      have hgroup : spacedBracketed?
          ('[' :: (t ++ ']' :: ('{' :: (Text.join "," keys ++ ['}'])))) =
            some (t, '{' :: (Text.join "," keys ++ ['}'])) := (hnote t rfl).bracketed? _
      rw [noteGroup, List.cons_append, List.append_assoc, List.singleton_append]
      simp only [Pattern.optionalGroup?, hgroup]
  have hgroups : Pattern.braceGroups? 1 ('{' :: (Text.join "," keys ++ ['}'])) =
      some ([Text.join "," keys], []) := by
    simp only [Pattern.braceGroups?, spacedBraced?_argument (passesBraces_join_keys hkeys) []]
    rfl
  have hshape : citePattern.optional = .allowed ∧ citePattern.args = 1 := ⟨rfl, rfl⟩
  simp only [Pattern.arguments?, hshape.1, hshape.2, hoptional, hgroups, Option.map_some]

/-- A citation is read as it was put together. -/
theorem match?_citeSource :
    citePattern.match? (citeSource note keys) = some (citeInvocation note keys) := by
  obtain ⟨c, rest, hrest, hletter, hstar⟩ :
      ∃ c rest, noteGroup note ++ '{' :: (Text.join "," keys ++ ['}']) = c :: rest ∧
        ¬c.isAlpha ∧ c ≠ '*' := by
    cases note with
    | none => exact ⟨'{', _, rfl, by decide, by decide⟩
    | some t => exact ⟨'[', _, rfl, by decide, by decide⟩
  have hname : commandName? (citeSource note keys) = some (("cite" : Text), c :: rest) := by
    rw [citeSource, hrest]
    exact commandName?_word (by simp) (by simp) hletter rest
  have hnoStar : star (c :: rest) = (false, c :: rest) := if_neg hstar
  have haccepts : citePattern.accepts "cite" false = true := by decide +kernel
  have harguments := arguments?_cite hnote hkeys
  rw [hrest] at harguments
  change citePattern.matchCommand? (Text.trim (citeSource note keys)) = _
  rw [trim_citeSource]
  simp only [Pattern.matchCommand?, hname, hnoStar, haccepts, harguments, if_true]
  rfl

end Form

/-- The span of a citation, marked if a key has no entry. What stands in front of the links is the
note, if there is one. -/
def citationSpan (bib : Bibliography) (keys : List Text) (front links : List Inline) : Inline :=
  .span (.ofClasses (if bib.undefined keys = [] then ["citation"] else ["citation", "missing"]))
    (.text "[" :: front ++ links.intersperse (.text ", ") ++ [.text "]"])

/-- What stands in front of the links: the walked note, if it is not blank, and a comma. -/
def noteFront (note : Option Text) (walked : List Inline) : List Inline :=
  if Text.isBlank (note.getD []) then [] else walked ++ [.text ", "]

theorem forall_mem_noteFront {P : TreeNode → Prop} {walked : List Inline} (note : Option Text)
    (htext : ∀ t, P (.inline (.text t))) (hwalked : ∀ node ∈ inlineNodes walked, P node) :
    ∀ node ∈ inlineNodes (noteFront note walked), P node := by
  unfold noteFront
  split
  · exact List.forall_mem_nil _
  · rw [inlineNodes_append, List.forall_mem_append]
    exact ⟨hwalked, List.forall_mem_cons.2 ⟨htext _, List.forall_mem_nil _⟩⟩

section

variable (stem : Text) {bib : Bibliography} {note : Option Text} {keys : List Text}

def fullContext (stem : Text) (bib : Bibliography) : FormContext :=
  Expander.formContext (sourceContext stem bib) (.full Form.vocabulary (sourceContext stem bib))

theorem cite_citeSource (hne : keys ≠ []) (hkeys : ∀ key ∈ keys, IsCiteKey key) :
    Form.cite (fullContext stem bib) (Form.citeInvocation note keys) = do
      let front ← Form.citeNote (fullContext stem bib) note
      let links ← Form.citeLinks (fullContext stem bib) keys
      return some [citationSpan bib keys front links] := by
  have hfound : Form.citeKeys ((Form.citeInvocation note keys).arg 0) = keys :=
    citeKeys_join hkeys hne
  have hmissing : (keys.any fun key => !(fullContext stem bib).bibliography.contains key) = true ↔
      bib.undefined keys ≠ [] := by
    rw [Bibliography.undefined, ne_eq, List.filter_eq_nil_iff, List.any_eq_true]
    push Not
    rfl
  unfold Form.cite
  simp only [hfound, if_neg hne, citationSpan, Form.classed]
  rw [if_congr hmissing rfl rfl, ite_not]
  rfl

theorem walkInline_citeSource (hne : keys ≠ []) (hkeys : ∀ key ∈ keys, IsCiteKey key)
    (hnote : ∀ t ∈ note, GroupBalanced t) {format : Format} (htex : format.isTex) :
    walkInline stem (.full Form.vocabulary (sourceContext stem bib))
        (.raw format (citeSource note keys)) = do
      let front ← Form.citeNote (fullContext stem bib) note
      let links ← Form.citeLinks (fullContext stem bib) keys
      .note (observeInlines [citationSpan bib keys front links])
      return [citationSpan bib keys front links] := by
  have hexpand : (Expander.full Form.vocabulary (sourceContext stem bib)).inline
      (citeSource note keys) = (do
        let front ← Form.citeNote (fullContext stem bib) note
        let links ← Form.citeLinks (fullContext stem bib) keys
        .note (observeInlines [citationSpan bib keys front links])
        return some [citationSpan bib keys front links]) := by
    rw [full_eq_ofInner]
    change Form.expandFirst (fullContext stem bib) _ Form.inlineForms >>= _ = _
    rw [Form.expandFirst_of_match Form.inlineForms_exclusive Form.cite_mem
      (Form.match?_citeSource hnote hkeys)]
    change Form.cite _ _ >>= _ = _
    rw [cite_citeSource stem hne hkeys]
    simp only [bind_assoc, pure_bind]
  rw [walkInline, if_pos htex, walkRaw, hexpand]
  simp only [bind_assoc, pure_bind]

theorem citeNote_of_walk {walked : List Inline} {m : Notes} {files : Store}
    (h : walkInlines stem (.full Form.vocabulary (sourceContext stem bib))
      (flatten (readBlocks (Text.trim (note.getD [])))) files = (.ok walked, m, files)) :
    Form.citeNote (fullContext stem bib) note files = (.ok (noteFront note walked), m, files) := by
  unfold Form.citeNote noteFront
  by_cases hblank : Text.isBlank (note.getD []) = true
  · have hnil := Text.trim_eq_nil_iff.2 hblank
    have hflat : flatten (readBlocks []) = [] := by rw [readBlocks_nil]; rfl
    rw [hnil, hflat, walkInlines] at h
    cases h
    simp only [hnil, if_true, if_pos hblank]
    rfl
  · have hnot : Text.trim (note.getD []) ≠ [] := fun hnil => hblank (Text.trim_eq_nil_iff.1 hnil)
    have hinlines : (fullContext stem bib).inlines (Text.trim (note.getD [])) files =
        (.ok walked, m, files) := by
      unfold fullContext
      rw [formContext_inlines]
      exact h
    simp only [if_neg hnot, if_neg hblank]
    rw [Walk.bind_ok hinlines]
    change (_, m.combine {}, _) = _
    rw [Notes.combine_empty]
    rfl

/-- Running text is walked from whatever files, and the files are left as they are. -/
theorem walkInlines_succeeds (hbib : bib.Labelled) (nodes : List Inline) :
    (walkInlines stem (.full Form.vocabulary (sourceContext stem bib)) nodes).Succeeds :=
  have hR := Walk.succeeds_congruence hbib
  (walkInlines_related hR
    (full_related hR (Form.vocabulary_related hR) fun text =>
      ⟨rfl, fun _ => ⟨readBlocks text, {}, rfl⟩⟩) nodes fun _ _ _ _ => trivial).2

/-- Keys are cited from whatever files, and the files are left as they are. -/
theorem citeLinks_ok (hbib : bib.Labelled) (keys : List Text) (files : Store) :
    ∃ links, bib.Links keys links ∧ Form.citeLinks (fullContext stem bib) keys files =
      (.ok links, citeNotes stem bib keys, files) := by
  have hself : FormContext.Related bib (fun {_} x y => x = y ∧ x.Succeeds) (fun _ => False)
      (fullContext stem bib) (fullContext stem bib) :=
    ⟨rfl, rfl, rfl, fun h => h.elim, fun h => h.elim, fun h => h.elim⟩
  have hsucceeds := (Form.citeLinks_related (Walk.succeeds_congruence hbib) hself keys).2
  obtain ⟨links, n, hlinks⟩ := hsucceeds files
  obtain ⟨hshown, rfl⟩ :=
    Form.citeLinks_traces (formContext_traces (full_traces stem bib)) keys hlinks
  exact ⟨links, hshown, hlinks⟩

end

/-- Looking through running text with identifiers and keys that are known finds links only. -/
theorem Findings.combine_observed {f : Findings} {nodes : List Inline}
    (hlabels : ∀ node ∈ inlineNodes nodes, node.identifier ≠ [] → node.identifier ∈ f.labels)
    (hcitations : CitesWithin f.citations (inlineNodes nodes)) :
    f.combine (observeInlines nodes) =
      { f with urls := f.urls.union (observeInlines nodes).urls } := by
  let g : Findings := { f with urls := f.urls.union (observeInlines nodes).urls }
  have hcovers : g.Covers (inlineNodes nodes) := by
    intro node hnode
    have hknown := observeInlines_covers nodes node hnode
    have hlabel := hlabels node hnode
    have hcited := hcitations node hnode
    unfold Findings.Knows at hknown ⊢
    split at hknown
    · exact ⟨fun key hkey => hcited key hkey, TextSet.mem_union.2 (.inr hknown.2)⟩
    · exact hlabel
  have habsorbed : g.combine (observeInlines nodes) = g := observeInlines_absorbed nodes hcovers
  calc f.combine (observeInlines nodes)
      = { g.combine (observeInlines nodes) with urls := g.urls } := rfl
    _ = g := by rw [habsorbed]

theorem Findings.combine_citations (f : Findings) (keys : TextSet) :
    f.combine { citations := keys } = { f with citations := f.citations.union keys } := by
  have hcss : joinCss f.css none = f.css := by cases f.css <;> rfl
  simp [combine, hcss]

/-- When the note and the keys of a citation are noted, there are only links left to find in its
span. -/
theorem observed_citationSpan (stem : Text) {bib : Bibliography} {keys : List Text}
    {walked links : List Inline} {m : Notes} (note : Option Text)
    (htraced : InlinesTraced stem bib walked m) (hcovers : m.findings.Covers (inlineNodes walked))
    (hlinks : bib.Links keys links) {f : Findings} {span : Inline}
    (hf : f = (m.combine (citeNotes stem bib keys)).findings)
    (hspan : span = citationSpan bib keys (noteFront note walked) links) :
    CitesWithin f.citations (inlineNodes [span]) ∧ f.combine (observeInlines [span]) =
      { f with urls := f.urls.union (observeInlines [span]).urls } := by
  subst hspan
  have hkeys (key : Text) (hkey : key ∈ m.findings.citations ∨ key ∈ keys) : key ∈ f.citations := by
    rw [hf]
    exact mem_citations_combine.2 (hkey.imp_right ((citeNotes_cites stem bib keys).noted key).2)
  have hfront : CitesWithin f.citations (inlineNodes (noteFront note walked)) :=
    forall_mem_noteFront note (by simp [TreeNode.citedKey?])
      (htraced.within.mono fun key hkey => hkeys key (.inl hkey))
  have hwithin : CitesWithin f.citations
      (inlineNodes [citationSpan bib keys (noteFront note walked) links]) :=
    Form.citesWithin_citation hfront hlinks fun key hkey => hkeys key (.inr hkey)
  refine ⟨hwithin, Findings.combine_observed ?_ hwithin⟩
  refine forall_mem_citation (fun _ hid => absurd rfl hid) (fun _ hid => absurd rfl hid) ?_
    fun link hlink => ?_
  · refine forall_mem_noteFront note (fun _ hid => absurd rfl hid) fun node hnode hid => ?_
    rw [hf]
    exact mem_labels_combine.2 (.inl ((hcovers node hnode).identifier hid))
  · obtain ⟨key, _, shown, _, rfl⟩ := exists_of_mem_right hlinks hlink
    exact ⟨key, shown, rfl, fun hid => absurd rfl hid⟩

/-- The walk of a citation whose keys have no blanks around them and whose note is balanced. It is
that of the note and then the citation of the keys: one span, with the note if it is not blank and
with one link for each key, in order. What is cited is what the note cites and the keys, in this
order; an error is reported for each that has no entry, and nothing else is reported or found behind
the note. -/
theorem walkInline_citation (stem : Text) {bib : Bibliography} (hbib : bib.Labelled)
    {keys : List Text} (hne : keys ≠ []) (hkeys : ∀ key ∈ keys, IsCiteKey key)
    {note : Option Text} (hnote : ∀ t ∈ note, GroupBalanced t) {format : Format}
    (htex : format.isTex) (files : Store) :
    ∃ walked m cited links n,
      walkInlines stem (.full Form.vocabulary (sourceContext stem bib))
          (flatten (readBlocks (Text.trim (note.getD [])))) files = (.ok walked, m, files) ∧
        m.Cites stem bib cited ∧
      walkInline stem (.full Form.vocabulary (sourceContext stem bib))
          (.raw format (citeSource note keys)) files =
        (.ok [citationSpan bib keys (noteFront note walked) links], n, files) ∧
        bib.Links keys links ∧
        n.Cites stem bib (cited ++ keys) ∧
        n.diagnostics = m.diagnostics ++ (bib.undefined keys).map (undefinedKey stem) ∧
        n.findings =
          { m.findings with citations := n.findings.citations, urls := n.findings.urls } := by
  obtain ⟨walked, m, hwalk⟩ := walkInlines_succeeds stem hbib
    (flatten (readBlocks (Text.trim (note.getD [])))) files
  obtain ⟨links, hlinks, hcite⟩ := citeLinks_ok stem hbib keys files
  have hsource := flatten_fromSource (readBlocks_fromSource (Text.trim (note.getD [])))
  have htraced := walkInlines_ensures traced_sourceRules (full_traces stem bib) _ hsource hwalk
  have hcovers := walkInlines_ensures covers_sourceRules (full_covers Form.vocabulary _) _ hsource
    hwalk
  generalize hspan : citationSpan bib keys (noteFront note walked) links = span
  obtain ⟨hwithin, hobserved⟩ :=
    observed_citationSpan stem note htraced hcovers hlinks rfl hspan.symm
  obtain ⟨cited, hcited⟩ := htraced.cites
  have hcites := hcited.combine (citeNotes_cites stem bib keys)
  have hlook : (Walk.note (observeInlines [span]) >>= fun _ => pure [span]) files =
      (.ok [span], { findings := observeInlines [span] }, files) := by
    change (_, Notes.combine _ {}, _) = _
    rw [Notes.combine_empty]
  refine ⟨walked, m, cited, links,
    (m.combine (citeNotes stem bib keys)).combine { findings := observeInlines [span] },
    hwalk, hcited, ?_, hlinks, ?_, ?_, ?_⟩
  · rw [walkInline_citeSource stem hne hkeys hnote htex, Walk.bind_ok (citeNote_of_walk stem hwalk),
      Walk.bind_ok hcite, hspan, hlook, Notes.combine_assoc]
  · exact hcites.noted_again fun _ => mem_citations_observeInlines hwithin
  · exact List.append_nil _
  · have hnoted : (m.combine (citeNotes stem bib keys)).findings = _ :=
      Findings.combine_citations m.findings (.ofList keys)
    rw [Notes.combine_findings, hobserved, hnoted]

def citingNote : Text := "see \\cite\x7bOld\x7d [p. 3]"

theorem citingNote_balanced : GroupBalanced citingNote := by
  have hspelled : citingNote = ("see " : Text) ++ '\\' :: 'c' :: (("ite" : Text) ++
      '{' :: (("Old" : Text) ++ '}' :: ((" " : Text) ++
        '[' :: ((("p. 3" : Text) ++ []) ++ ']' :: [])))) := by decide +kernel
  have hpage : GroupBalanced (("p. 3" : Text) ++ []) := .behind_plain (by simp) .nil
  have hkey : BraceBalanced "Old" := .of_plain (by simp)
  rw [hspelled]
  exact .behind_plain (by simp) (.escaped 'c' (.behind_plain (by simp)
    (.braces hkey (.behind_plain (by simp) (.brackets hpage .nil)))))

/-- Keys of which the first only has an entry, and of which one stands there twice. -/
def mixedKeys : List Text := ["Cor14", "Nope", "Nope"]

/-- A key in the note and one that is cited twice have no entries, which makes three errors. -/
theorem walkInline_citation_mixedKeys : oneWork.Labelled ∧ mixedKeys ≠ [] ∧
    (∀ key ∈ mixedKeys, IsCiteKey key) ∧ (∀ t ∈ some citingNote, GroupBalanced t) ∧
    ∃ nodes n, walkInline "page" (.full Form.vocabulary (sourceContext "page" oneWork))
        (.raw .tex (citeSource (some citingNote) mixedKeys)) .empty = (.ok nodes, n, .empty) ∧
      n.diagnostics.errors = [undefinedKey "page" "Old", undefinedKey "page" "Nope",
        undefinedKey "page" "Nope"] := by
  have hne : mixedKeys ≠ [] := List.cons_ne_nil _ _
  have hkeys : ∀ key ∈ mixedKeys, IsCiteKey key := by
    have hknown : IsCiteKey "Cor14" := ⟨by simp, by decide +kernel, by simp⟩
    have hnope : IsCiteKey "Nope" := ⟨by simp, by decide +kernel, by simp⟩
    rw [mixedKeys, List.forall_mem_cons, List.forall_mem_cons, List.forall_mem_singleton]
    exact ⟨hknown, hnope, hnope⟩
  have hnote : ∀ t ∈ some citingNote, GroupBalanced t := fun t ht => by
    cases ht
    exact citingNote_balanced
  obtain ⟨walked, m, cited, links, n, hwalk, _, hcite, _, _, hdiagnostics, _⟩ :=
    walkInline_citation "page" oneWork_labelled hne hkeys hnote Format.isTex_tex .empty
  have herrors : (walkInlines "page" (.full Form.vocabulary (sourceContext "page" oneWork))
      (flatten (readBlocks (Text.trim citingNote))) .empty).2.1.diagnostics.errors =
        [undefinedKey "page" "Old"] := by decide +kernel
  have hundefined : Diagnostics.errors ((oneWork.undefined mixedKeys).map (undefinedKey "page")) =
      [undefinedKey "page" "Nope", undefinedKey "page" "Nope"] := by decide +kernel
  refine ⟨oneWork_labelled, hne, hkeys, hnote, _, n, hcite, ?_⟩
  have hnoted : m.diagnostics.errors = [undefinedKey "page" "Old"] := by
    rw [← herrors]
    exact congrArg (fun r => r.2.1.diagnostics.errors) hwalk.symm
  rw [hdiagnostics]
  change List.filter _ (_ ++ _) = _
  rw [List.filter_append]
  exact congrArg₂ (· ++ ·) hnoted hundefined

end TexCatalog
