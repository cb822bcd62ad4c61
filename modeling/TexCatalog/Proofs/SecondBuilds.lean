import TexCatalog.Proofs.BuildChanges

/-!
# Building twice

A build is run again on the store that it has left. The sources are as they were, so the walk writes
nothing that is not there. The merge may put back what a page has replaced, and then the page comes
again: at each place the second run writes what the first one wrote. Only where the pages of
different artifacts have one place does it depend on the order which of them stays.
-/

namespace TexCatalog

open TexCatalog.Path Store

/-- Whatever two stores were, changes with the same text for a place leave the same text there. -/
theorem Store.text_of_written {log log' : List Change} {s t s' t' : Store} (h : After log s t)
    (h' : After log' s' t') (ht : t.Sound) (ht' : t'.Sound) {q text : Text}
    (hq : written log q = some text) (hq' : written log' q = some text) :
    t'.textAt? q = t.textAt? q := by
  have hsink := ht.at?_sink_iff ht' q
  rcases h.changes.texts hq, h'.changes.texts hq' with
    ⟨hs | ⟨executable, hfile⟩, hs' | ⟨executable', hfile'⟩⟩
  · rw [Store.textAt?, Store.textAt?, hs, hs']
  · rw [hsink.1 hs] at hfile'
    cases hfile'
  · rw [hsink.2 hs'] at hfile
    cases hfile
  · rw [Store.textAt?, Store.textAt?, hfile, hfile']
    rfl

theorem Store.After.same_text {log : List Change} {s t s' t' : Store} (h : After log s t)
    (h' : After log s' t') (ht : t.Sound) (ht' : t'.Sound) {q : Text} (hq : written log q ≠ none) :
    t'.textAt? q = t.textAt? q := by
  obtain ⟨text, htext⟩ := Option.ne_none_iff_exists'.1 hq
  exact text_of_written h h' ht ht' htext htext

namespace Project

variable {p : Project} {s t u : Store}

variable (p) in
def IsShared (s : Store) (q : Text) : Prop :=
  ∃ artifacts, p.artifacts s = (.ok artifacts, s) ∧ ∃ a ∈ artifacts, ∃ a' ∈ artifacts, a ≠ a' ∧
    place (join p.config.siteDir a.record.fileName) = q ∧
    place (join p.config.siteDir a'.record.fileName) = q

namespace BuildTrace

variable (b : p.BuildTrace s t)

include b

theorem creates_site {u : Store} (h : b.merged.Extends u) :
    u.createDirectories p.config.siteDir = (.ok (), u) :=
  b.merge.directory_again (by simp [mergeChanges]) h

theorem directory_not_mem_pageLog (path : Text) : .directory path ∉ b.pageLog := by
  rw [b.pageLog_perm.mem_iff]
  simp [pageChange]

/-- The directory of the site is there before the pages are made. -/
theorem pages_written : After b.pageLog b.merged t := by
  obtain ⟨u, hcreate, hpages⟩ := b.render
  obtain rfl : u = b.merged := (Prod.mk.inj (hcreate.symm.trans (b.creates_site (.refl _)))).2
  exact hpages

theorem render_files {q : Text} (hlast : q.getLast? ≠ some 'm') : t.at? q = b.merged.at? q :=
  b.pages_written.files b.directory_not_mem_pageLog
    (written_pages_none b.render_pages b.pageLog_perm hlast)

/-! ### The walk again -/

section

variable (hindexes : p.IndexesOutside p.config.sourceDir)

include hindexes

end

section

variable (hartifacts : p.IndexesOutside p.config.intermediateDir)

include hartifacts

end

/-! ### The merge and the rendering again -/

theorem artifacts_twice : p.artifacts t = (.ok b.artifacts, t) := by
  refine artifacts_again b.artifacts_merged b.render.changes.grown fun q hq => ?_
  have hsame := b.render_files (q := q) (by simp [getLast?_artifactAt? hq])
  exact ⟨by rw [Store.textAt?, Store.textAt?, hsame], fun hsome => hsame ▸ hsome⟩

section

variable (hs : s.Sound) {v : Store} (hmerge : After (p.mergeChanges b.artifacts b.date) t v)

include hs hmerge

end

/-- Where no artifacts share a page, one text only is written. -/
theorem text_of_unshared {q : Text} (hq : ¬p.IsShared t q) {path path' text text' : Text}
    (hmem : .file path text ∈ b.pageLog) (hmem' : .file path' text' ∈ b.pageLog)
    (hplace : place path = q) (hplace' : place path' = q) : text = text' := by
  obtain ⟨a, ha, document, hmake, rfl, rfl⟩ := b.page_of_pageLog hmem
  obtain ⟨a', ha', document', hmake', rfl, rfl⟩ := b.page_of_pageLog hmem'
  by_cases heq : a = a'
  · obtain rfl := heq
    rw [Except.ok.inj (hmake.symm.trans hmake')]
  · exact absurd ⟨b.artifacts, b.artifacts_twice, a, ha, a', ha', heq, hplace, hplace'⟩ hq

end BuildTrace

/-! ### What a build leaves alone -/

/-- The paths that a build writes to: the artifacts of the sources that it finds, the indexes, the
sitemap, and the pages of all artifacts that it leaves. -/
def outputs (p : Project) (s t : Store) : Set Text :=
  {path | (∃ stem, p.IsSource s stem ∧ path = p.artifactPath stem) ∨
    path ∈ [p.config.labelIndex, p.config.recordIndex, p.sitemapPath] ∨
    ∃ artifacts, p.artifacts t = (.ok artifacts, t) ∧
      ∃ a ∈ artifacts, path = join p.config.siteDir a.record.fileName}

def Spares (p : Project) (s t : Store) (path : Text) : Prop :=
  ∀ output ∈ p.outputs s t, place output ≠ place path

end Project

end TexCatalog
