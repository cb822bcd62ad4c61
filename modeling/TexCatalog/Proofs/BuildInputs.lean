import TexCatalog.Proofs.PagesOfSources
import TexCatalog.Proofs.SecondBuilds

/-!
# What builds depend on

Two builds begin with the same sources, the same template and the same left-over artifacts. Whatever
the orders of their steps, they find the same at each stage, so they report the same and write the
same indexes.
-/

namespace TexCatalog

open TexCatalog.Path Store

namespace Project

variable {p : Project} {s t s' t' : Store}

theorem template_same {template template' : Template} (h : p.template s = (.ok template, s))
    (h' : p.template s' = (.ok template', s'))
    (hsame : ∀ path ∈ p.config.template, s'.textAt? (place path) = s.textAt? (place path)) :
    template' = template := by
  unfold Project.template at h h'
  cases htemplate : p.config.template with
  | none =>
    rw [htemplate] at h h'
    exact (Stage.pure_ok h').1.symm.trans (Stage.pure_ok h).1
  | some path =>
    rw [htemplate] at h h'
    obtain ⟨text, u, htext, h⟩ := Stage.bind_ok h
    obtain ⟨text', u', htext', h'⟩ := Stage.bind_ok h'
    have hread := (read_eq_ok_iff.1 (Stage.textOf_ok htext).1).2
    have hread' := (read_eq_ok_iff.1 (Stage.textOf_ok htext').1).2
    rw [hsame path htemplate, hread] at hread'
    obtain rfl := Option.some.inj hread'
    exact Except.ok.inj ((Stage.ofExcept_ok h').1.symm.trans (Stage.ofExcept_ok h).1)

/-- Two builds begin with the same inputs and read them in the same way. -/
structure BuildTrace.Alike (b : p.BuildTrace s t) (b' : p.BuildTrace s' t') : Prop where
  sound : s.Sound
  sound' : s'.Sound
  reader : ∃ f : Text → Except Failure (List Block), p.AnswersBy f s ∧ p.AnswersBy f s'
  inputs : p.SameInputs b.paths s s'
  left : ∀ q, p.IsLeftOver b.paths q → s'.textAt? q = s.textAt? q

namespace BuildTrace.Alike

variable {b : p.BuildTrace s t} {b' : p.BuildTrace s' t'} (h : b.Alike b')

include h

theorem pages : b'.pages = b.pages := by
  obtain ⟨f, hreader, hreader'⟩ := h.reader
  have hpaths : b'.paths = b.paths :=
    Except.ok.inj ((congrArg Prod.fst b'.sources).symm.trans h.inputs.sources')
  have hunique : Relator.RightUnique fun path page => ∃ source,
      s.textAt? (place path) = some source ∧
        (p.walkText (Path.stem path) source s).1 = .ok page := by
    rintro path page page' ⟨source, htext, hwalk⟩ ⟨source', htext', hwalk'⟩
    obtain rfl := Option.some.inj (htext.symm.trans htext')
    exact Except.ok.inj (hwalk.symm.trans hwalk')
  have hpages := (List.forall₂_and_left _ _).2
    ⟨fun path (hpath : path ∈ b.paths) => hpath, hpaths ▸ b'.pages_of_sources⟩
  refine hunique.forall₂ (hpages.imp ?_) b.pages_of_sources
  rintro path page ⟨hpath, source, htext, hwalk⟩
  rw [walkText_steady hreader hreader'] at hwalk
  exact ⟨source, h.inputs.texts path hpath ▸ htext, hwalk⟩

/-- The walks leave the same text at a place where they write, and where there was the same one. -/
theorem walked_text {q : Text}
    (hq : (∀ page ∈ b.pages, q ≠ p.artifactPlace page.artifact.record.stem) →
      s'.textAt? q = s.textAt? q) : b'.walked.textAt? q = b.walked.textAt? q := by
  by_cases hwritten : ∃ page ∈ b.pages, q = p.artifactPlace page.artifact.record.stem
  · obtain ⟨page, hpage, rfl⟩ := hwritten
    rw [b.textAt?_walked h.sound hpage, b'.textAt?_walked h.sound' (h.pages ▸ hpage)]
  · have hnone : written b.walkLog q = none := by
      refine written_eq_none_iff.2 fun path text hmem heq => ?_
      obtain ⟨page, hpage, rfl, _⟩ := b.file_mem_walkLog.1 hmem
      exact hwritten ⟨page, hpage, heq.symm⟩
    have hnone' : written b'.walkLog q = none := by
      refine written_eq_none_iff.2 fun path text hmem heq => ?_
      obtain ⟨page, hpage, rfl, _⟩ := b'.file_mem_walkLog.1 hmem
      exact hwritten ⟨page, h.pages ▸ hpage, heq.symm⟩
    rw [(b.walk.changes.others hnone).textAt?, (b'.walk.changes.others hnone').textAt?]
    exact hq fun page hpage heq => hwritten ⟨page, hpage, heq⟩

theorem artifacts : b'.artifacts = b.artifacts := by
  refine artifacts_eq b.artifacts_walked b'.artifacts_walked fun q hq => ?_
  refine h.walked_text fun hnot => h.left q ⟨hq, ?_⟩
  rintro path hpath rfl
  obtain ⟨page, hpage, source, _, hwalk⟩ := exists_of_mem_right b.pages_of_sources.flip hpath
  exact hnot page hpage (by rw [walkText_stem hwalk])

theorem merge : After (p.mergeChanges b.artifacts b.date) b'.walked b'.merged := by
  have hdate : b'.date = b.date := Except.ok.inj (b'.date_eq.symm.trans b.date_eq)
  have hmerge := b'.merge
  rwa [h.artifacts, hdate] at hmerge

/-- The merges leave the same text at a place where they write, and where there was the same one. -/
theorem merged_text {q : Text} (hq : written (p.mergeChanges b.artifacts b.date) q = none →
    b'.walked.textAt? q = b.walked.textAt? q) : b'.merged.textAt? q = b.merged.textAt? q := by
  by_cases hwritten : written (p.mergeChanges b.artifacts b.date) q = none
  · rw [(b.merge.changes.others hwritten).textAt?, (h.merge.changes.others hwritten).textAt?]
    exact hq hwritten
  · have hsound := b.merge.changes.grown.sound (b.walk.changes.grown.sound h.sound)
    have hsound' := h.merge.changes.grown.sound (b'.walk.changes.grown.sound h.sound')
    exact b.merge.same_text h.merge hsound hsound' hwritten

theorem merged_file {path text : Text}
    (hmem : .file path text ∈ p.mergeChanges b.artifacts b.date) :
    b'.merged.textAt? (place path) = b.merged.textAt? (place path) :=
  h.merged_text fun hnone => absurd rfl (written_eq_none_iff.1 hnone path text hmem)

theorem site : b'.site = b.site := by
  have hread {path text text' new : Text} (hread : b.merged.read path = .ok text)
      (hread' : b'.merged.read path = .ok text')
      (hmem : .file path new ∈ p.mergeChanges b.artifacts b.date) : text' = text := by
    have hsame := h.merged_file hmem
    rw [(read_eq_ok_iff.1 hread').2, (read_eq_ok_iff.1 hread).2] at hsame
    exact Option.some.inj hsame
  obtain ⟨⟨labelText, hlabels, hlabelsOf⟩, ⟨recordText, hrecords, hrecordsOf⟩, htemplate, hdate,
    hbibliography, hmath⟩ := b.offers
  obtain ⟨⟨labelText', hlabels', hlabelsOf'⟩, ⟨recordText', hrecords', hrecordsOf'⟩, htemplate',
    hdate', hbibliography', hmath'⟩ := b'.offers
  obtain ⟨hlabelFile, hrecordFile, _⟩ := files_mem_mergeChanges (p := p) b.artifacts b.date
  obtain rfl := hread hlabels hlabels' hlabelFile
  obtain rfl := hread hrecords hrecords' hrecordFile
  have htemplates := template_same htemplate htemplate' fun path hpath =>
    h.merged_text fun _ => h.walked_text fun _ => h.inputs.template path hpath
  generalize b.site = site at *
  generalize b'.site = site' at *
  obtain ⟨labels, records, bibliography, template, math, date⟩ := site
  obtain ⟨labels', records', bibliography', template', math', date'⟩ := site'
  dsimp only at *
  rw [Except.ok.inj (hlabelsOf'.symm.trans hlabelsOf),
    Except.ok.inj (hrecordsOf'.symm.trans hrecordsOf), htemplates,
    Except.ok.inj (hdate'.symm.trans hdate), hbibliography, hbibliography', hmath, hmath']

theorem documents : b'.documents = b.documents := by
  have hunique : Relator.RightUnique fun a d => Document.make b.site a = .ok d :=
    fun a d d' hd hd' => Except.ok.inj (hd.symm.trans hd')
  have hpages := b'.render_pages
  rw [h.site, h.artifacts] at hpages
  exact hunique.forall₂ hpages b.render_pages

theorem report : b'.report = b.report := by
  rw [BuildTrace.report, BuildTrace.report, h.pages, h.artifacts, h.documents]

/-- What the merge writes is the same in the end, unless artifacts share a page there. -/
theorem read {path text : Text} (hmem : .file path text ∈ p.mergeChanges b.artifacts b.date)
    (hshared : ¬p.IsShared t (place path)) :
    ∃ text, t.read path = .ok text ∧ t'.read path = .ok text := by
  have hperm : b'.pageLog.Perm b.pageLog :=
    (h.documents ▸ b'.pageLog_perm).trans b.pageLog_perm.symm
  have hpages : written b'.pageLog (place path) = written b.pageLog (place path) :=
    written_of_perm hperm (b.text_of_unshared hshared)
  have htexts : t'.textAt? (place path) = t.textAt? (place path) := by
    cases hwritten : written b.pageLog (place path) with
    | none =>
      rw [hwritten] at hpages
      rw [(b'.pages_written.changes.others hpages).textAt?,
        (b.pages_written.changes.others hwritten).textAt?, h.merged_file hmem]
    | some new =>
      rw [hwritten] at hpages
      exact text_of_written b.pages_written b'.pages_written (b.grown.sound h.sound)
        (b'.grown.sound h.sound') hwritten hpages
  obtain ⟨now, hnow⟩ := b.merge.readable hmem
  obtain ⟨now', hnow'⟩ := h.merge.readable hmem
  obtain ⟨last, hlast⟩ := b.pages_written.changes.grown.read hnow
  obtain ⟨last', hlast'⟩ := b'.pages_written.changes.grown.read hnow'
  rw [(read_eq_ok_iff.1 hlast').2, (read_eq_ok_iff.1 hlast).2] at htexts
  obtain rfl := Option.some.inj htexts
  exact ⟨_, hlast, hlast'⟩

end BuildTrace.Alike

/-- Builds of stores with the same inputs report the same and write the same indexes and the same
sitemap, whatever the orders of their steps, unless different artifacts have a page there. -/
theorem indexes_of_sameInputs {f : Text → Except Failure (List Block)} {paths : List Text}
    {r r' : Report} {day : Date} (hs : s.Sound) (hs' : s'.Sound) (hreader : p.ReadsBy f s)
    (hreader' : p.ReadsBy f s') (hday : p.config.date day = p.config.date p.today)
    (hindexes : p.IndexesOutside p.config.intermediateDir) (hinputs : p.SameInputs paths s s')
    (hleft : ∀ q, p.IsLeftOver paths q → s'.textAt? q = s.textAt? q) (h : p.BuildsTo s r t)
    (h' : (p.onDay day).BuildsTo s' r' t') :
    r' = r ∧ ∀ path ∈ [p.config.labelIndex, p.config.recordIndex, p.sitemapPath],
      (∃ text, t.read path = .ok text ∧ t'.read path = .ok text) ∨ p.IsShared t (place path) := by
  obtain ⟨b, rfl⟩ := h.trace hs hreader hindexes
  have hreaderDay : (p.onDay day).ReadsBy f s' := fun u hu =>
    hreader' u ⟨hu.grown, hu.others⟩
  obtain ⟨b', rfl⟩ := h'.trace hs' hreaderDay hindexes
  have hpaths : b.paths = paths :=
    Except.ok.inj ((congrArg Prod.fst b.sources).symm.trans hinputs.sources)
  subst hpaths
  have halike : b.Alike (b'.onDay hday.symm) :=
    ⟨hs, hs', ⟨f, hreader s (.refl s), hreader' s' (.refl s')⟩, hinputs, hleft⟩
  refine ⟨halike.report, fun path hpath => or_iff_not_imp_right.2 fun hshared => ?_⟩
  obtain ⟨hlabels, hrecords, hsitemap⟩ := files_mem_mergeChanges (p := p) b.artifacts b.date
  simp only [List.mem_cons, List.not_mem_nil, or_false] at hpath
  rcases hpath with rfl | rfl | rfl
  · exact halike.read hlabels hshared
  · exact halike.read hrecords hshared
  · exact halike.read hsitemap hshared

end Project

end TexCatalog
