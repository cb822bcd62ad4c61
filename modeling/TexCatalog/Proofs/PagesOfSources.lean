import TexCatalog.Proofs.BuildChanges
import TexCatalog.Proofs.StoredPages

/-!
# One page for each source

A build that begins without artifacts finds at the merge and at the rendering what its own walk has
written. So each source has one artifact, one page and one entry in the sitemap, and there are no
others, whatever the names of the files are.
-/

namespace TexCatalog

open TexCatalog.Path Store

/-- What is read back from the text of an artifact is that artifact. -/
theorem Artifact.eq_of_read {a found : Artifact} (h : Artifact.ofText a.toText = .ok found) :
    found = a := by
  have hread : Artifact.ofText a.toText = _ := a.reads.readText_eq
  rw [hread] at h
  split at h
  · exact (Except.ok.inj h).symm
  · cases h

namespace Project

variable {p : Project} {s t : Store}

def IsVacant (s : Store) (directory : Text) : Prop :=
  ∀ name, IsName name → s.at? (join (place directory) name) = none

def pageName (stem : Text) : Text := stem ++ ".htm"

theorem isName_pageName {stem : Text} (hslash : '/' ∉ stem) : IsName (pageName stem) := by
  refine ⟨by simp [pageName], fun hdots => ?_, by simpa [pageName] using hslash⟩
  simp only [isDots, Bool.or_eq_true, beq_iff_eq] at hdots
  rcases hdots with hdot | hdot
  all_goals
    have hlength := congrArg List.length hdot
    simp [pageName] at hlength

theorem fileName_eq_pageName {site : SiteContext} {a : Artifact} {document : Document}
    (h : Document.make site a = .ok document) : document.fileName = pageName a.record.stem :=
  Document.fileName_make h

theorem isName_sitemap : IsName ("sitemap.xml" : Text) := by
  constructor <;> decide_cbv

theorem artifactAt?_artifactPlace {stem : Text} (hne : stem ≠ []) (hslash : '/' ∉ stem) :
    p.artifactAt? (p.artifactPlace stem) = some (artifactName stem) := by
  have hext : (splitName (artifactName stem)).2 = some ("json" : Text) := by
    rw [artifactName, splitName_append hne (by decide)]
    simp
  rw [artifactPlace_eq hslash]
  exact namedAt?_join hext (isName_artifactName hslash)

namespace BuildTrace

variable (b : p.BuildTrace s t)

include b

/-! ### Pages and artifacts -/

theorem page_of_source {stem : Text} (hsource : p.IsSource s stem) : ∃ source, ∃ page ∈ b.pages,
    page.artifact.record.stem = stem ∧ s.textAt? (place (p.sourcePath stem)) = some source ∧
      (p.walkText stem source s).1 = .ok page := by
  have hpath : p.sourcePath stem ∈ b.paths := (mem_sources b.sources).2 ⟨stem, hsource, rfl⟩
  obtain ⟨page, hpage, source, htext, hwalk⟩ := exists_of_mem_right b.pages_of_sources.flip hpath
  rw [stem_sourcePath hsource.ne_nil hsource.slash] at hwalk
  exact ⟨source, page, hpage, walkText_stem hwalk, htext, hwalk⟩

theorem textAt?_walked (hs : s.Sound) {page : Walked} (hpage : page ∈ b.pages) :
    b.walked.textAt? (p.artifactPlace page.artifact.record.stem) = some page.artifact.toText := by
  have hsink := artifactPlace_not_sink (p := p) (b.walk.changes.grown.sound hs)
    (b.source_of_page hpage).slash
  exact b.walk.changes.textAt? (b.written_page hpage).2 hsink

section

variable (hvacant : IsVacant s p.config.intermediateDir)

include hvacant

/-- What is read with the artifacts has been written by the walk. -/
theorem page_of_artifactPlace {q : Text} (hq : q ∈ p.artifactPlaces b.walked)
    (htext : (b.walked.textAt? q).isSome) :
    ∃ page ∈ b.pages, q = p.artifactPlace page.artifact.record.stem := by
  cases hwritten : written b.walkLog q with
  | some text =>
    obtain ⟨path, hmem, rfl⟩ := mem_of_written hwritten
    obtain ⟨page, hpage, rfl, _⟩ := b.file_mem_walkLog.1 hmem
    exact ⟨page, hpage, rfl⟩
  | none =>
    obtain ⟨name, hname⟩ := Option.isSome_iff_exists.1 (mem_artifactPlaces_iff.1 hq).1
    obtain ⟨_, hisName, rfl⟩ := artifactAt?_eq hname
    rw [(b.walk.changes.others hwritten).textAt?, Store.textAt?, hvacant name hisName] at htext
    cases htext

theorem mem_artifacts (hs : s.Sound) {a : Artifact} :
    a ∈ b.artifacts ↔ ∃ page ∈ b.pages, page.artifact = a := by
  obtain ⟨hall, _⟩ := artifacts_ok b.artifacts_walked
  constructor
  · -- nothing stood among the artifacts, so the walk has written what is read there
    intro ha
    obtain ⟨q, hq, text, htext, hread⟩ := exists_of_mem_right hall ha
    obtain ⟨page, hpage, rfl⟩ := b.page_of_artifactPlace hvacant hq (by rw [htext]; rfl)
    rw [b.textAt?_walked hs hpage] at htext
    cases htext
    exact ⟨page, hpage, (Artifact.eq_of_read hread).symm⟩
  · rintro ⟨page, hpage, rfl⟩
    have hsource := b.source_of_page hpage
    have htext := b.textAt?_walked hs hpage
    have hname := artifactAt?_artifactPlace (p := p) hsource.ne_nil hsource.slash
    obtain ⟨a, ha, text, htext', hread⟩ := exists_of_mem_right hall.flip
      (mem_artifactPlaces (by rw [hname]; rfl) (by rw [htext]; rfl))
    rw [htext] at htext'
    cases htext'
    rwa [Artifact.eq_of_read hread] at ha

/-- Behind the build, the files in the directory of the artifacts are those of the sources. -/
theorem isFile_artifact (hs : s.Sound) (hartifacts : p.IndexesOutside p.config.intermediateDir)
    (hdirs : place p.config.intermediateDir ≠ place p.config.siteDir) {name : Text}
    (hname : IsName name) : (t.at? (join (place p.config.intermediateDir) name)).any Node.isFile ↔
      ∃ stem, p.IsSource s stem ∧ name = artifactName stem := by
  constructor
  · intro hfile
    have hrest : written b.restLog (join (place p.config.intermediateDir) name) = none := by
      rw [b.written_rest, Option.or_eq_none_iff]
      constructor
      · refine written_eq_none_iff.2 fun path text hmem hplace => ?_
        obtain ⟨a, ha, document, hmake, rfl, _⟩ := b.page_of_pageLog hmem
        obtain ⟨page, hpage, rfl⟩ := (b.mem_artifacts hvacant hs).1 ha
        have hpageName := isName_pageName (b.source_of_page hpage).slash
        change place (join p.config.siteDir (pageName page.artifact.record.stem)) = _ at hplace
        rw [place_join _ hpageName] at hplace
        exact join_ne_join hdirs hname hpageName hplace.symm
      · obtain ⟨hlabels, hrecords⟩ := hartifacts.ne hname
        have hsitemap : place p.sitemapPath ≠ join (place p.config.intermediateDir) name := by
          rw [sitemapPath, place_join _ isName_sitemap]
          exact (join_ne_join hdirs hname isName_sitemap).symm
        rw [written_mergeChanges, if_neg hsitemap, if_neg hrecords.symm, if_neg hlabels.symm]
    cases hwritten : written b.walkLog (join (place p.config.intermediateDir) name) with
    | some text =>
      obtain ⟨path, hmem, hplace⟩ := mem_of_written hwritten
      obtain ⟨page, hpage, rfl, _⟩ := b.file_mem_walkLog.1 hmem
      have hsource := b.source_of_page hpage
      change p.artifactPlace _ = _ at hplace
      rw [artifactPlace_eq hsource.slash] at hplace
      exact ⟨_, hsource, (join_inj (isName_artifactName hsource.slash) hname hplace).symm⟩
    | none =>
      have hstays := b.changes.changes.others (by rw [written_append, hrest, hwritten]; rfl)
      rw [hstays.isFile, hvacant name hname] at hfile
      cases hfile
  · rintro ⟨stem, hsource, rfl⟩
    obtain ⟨_, page, hpage, rfl, _⟩ := b.page_of_source hsource
    rw [← artifactPlace_eq hsource.slash]
    obtain ⟨executable, hfile⟩ := (b.changes.changes.texts
      (b.written_artifact hartifacts hpage)).resolve_left
        (artifactPlace_not_sink (b.grown.sound hs) hsource.slash)
    rw [hfile]
    rfl

end

theorem read_artifact (hs : s.Sound) (hartifacts : p.IndexesOutside p.config.intermediateDir)
    {page : Walked} (hpage : page ∈ b.pages) :
    t.read (p.artifactPath page.artifact.record.stem) = .ok page.artifact.toText := by
  refine b.changes.read (List.mem_append_left _ (b.written_page hpage).1)
    (b.written_artifact hartifacts hpage) ?_
  exact artifactPlace_not_sink (b.grown.sound hs) (b.source_of_page hpage).slash

/-- The sitemap is read as the merge has written it. -/
theorem read_sitemap (hs : s.Sound) : t.read p.sitemapPath =
    .ok (Sitemap.print (TexCatalog.merge (b.artifacts.map (·.record))).pages p.config.baseUrl
      b.date) := by
  obtain ⟨_, _, hmem⟩ := files_mem_mergeChanges (p := p) b.artifacts b.date
  refine b.changes.read (List.mem_append_right _ (List.mem_append_left _ hmem)) ?_ fun hsink => ?_
  · have hrender := written_pages_none b.render_pages b.pageLog_perm (q := place p.sitemapPath)
      (by simp [getLast?_sitemapPlace])
    rw [written_append, b.written_rest, hrender, written_mergeChanges, if_pos rfl]
    rfl
  · have hname := lastName_join (place p.config.siteDir) isName_sitemap
    rw [← place_join _ isName_sitemap] at hname
    change lastName (place p.sitemapPath) = _ at hname
    rw [(b.grown.sound hs).at?_sink hsink] at hname
    exact absurd hname (by decide_cbv)

/-- The page of each source is read as the rendering has written it. -/
theorem read_page (hs : s.Sound) (hvacant : IsVacant s p.config.intermediateDir) {page : Walked}
    (hpage : page ∈ b.pages) : ∃ document, Document.make b.site page.artifact = .ok document ∧
      t.read (join p.config.siteDir (pageName page.artifact.record.stem)) = .ok document.text := by
  obtain ⟨document, hdocument, hmake⟩ := exists_of_mem_right b.render_pages.flip
    ((b.mem_artifacts hvacant hs).2 ⟨page, hpage, rfl⟩)
  have hmem : .file (join p.config.siteDir (pageName page.artifact.record.stem)) document.text ∈
      b.pageLog :=
    (file_mem_pageChanges b.pageLog_perm).2
      ⟨document, hdocument, by rw [fileName_eq_pageName hmake], rfl⟩
  have hwritten : written b.pageLog
      (place (join p.config.siteDir (pageName page.artifact.record.stem))) =
        some document.text := by
    refine written_eq_some hmem fun path text hother hplace => ?_
    obtain ⟨a, ha, document', hmake', rfl, rfl⟩ := b.page_of_pageLog hother
    obtain ⟨page', hpage', rfl⟩ := (b.mem_artifacts hvacant hs).1 ha
    have hname := isName_pageName (b.source_of_page hpage).slash
    have hname' := isName_pageName (b.source_of_page hpage').slash
    change place (join _ (pageName page'.artifact.record.stem)) = _ at hplace
    rw [place_join _ hname, place_join _ hname'] at hplace
    have hstem := List.append_cancel_right (join_inj hname' hname hplace)
    obtain rfl := List.inj_on_of_nodup_map b.nodup_pages hpage' hpage hstem
    rw [Except.ok.inj (hmake'.symm.trans hmake)]
  refine ⟨document, hmake, b.changes.read (List.mem_append_right _
    (List.mem_append_right _ (List.mem_cons_of_mem _ hmem))) ?_ ?_⟩
  · rw [written_append, b.written_rest, hwritten]
    rfl
  · have hlast := getLast?_pagePlace (p := p) page.artifact
    change (place (join _ (pageName page.artifact.record.stem))).getLast? = _ at hlast
    exact (b.grown.sound hs).not_sink (by simp [hlast])

/-- The sitemap lists the pages of the sources. -/
theorem mem_pages (hs : s.Sound) (hvacant : IsVacant s p.config.intermediateDir) {name : Text} :
    name ∈ (TexCatalog.merge (b.artifacts.map (·.record))).pages ↔
      ∃ stem, p.IsSource s stem ∧ name = pageName stem := by
  have hlisted : name ∈ (TexCatalog.merge (b.artifacts.map (·.record))).pages ↔
      ∃ a ∈ b.artifacts, a.record.fileName = name := by
    change name ∈ TextSet.ofList _ ↔ _
    simp [TextSet.ofList, TextSet.mem_foldl_insert, Text.mem_sortBy]
  rw [hlisted]
  constructor
  · rintro ⟨a, ha, rfl⟩
    obtain ⟨page, hpage, rfl⟩ := (b.mem_artifacts hvacant hs).1 ha
    exact ⟨_, b.source_of_page hpage, rfl⟩
  · rintro ⟨stem, hsource, rfl⟩
    obtain ⟨_, page, hpage, rfl, _⟩ := b.page_of_source hsource
    exact ⟨_, (b.mem_artifacts hvacant hs).2 ⟨page, hpage, rfl⟩, rfl⟩

end BuildTrace

/-! ### The site -/

/-- Each source in one store has an artifact, a page and an entry of the sitemap in the other. -/
structure OnePageEach (p : Project) (s t : Store) (date : Text) : Prop where
  artifacts {name : Text} : IsName name →
    ((t.at? (join (place p.config.intermediateDir) name)).any Node.isFile ↔
      ∃ stem, p.IsSource s stem ∧ name = artifactName stem)
  pages : ∃ site : SiteContext, site.date = date ∧ ∀ stem, p.IsSource s stem →
    ∃ source page document, s.textAt? (place (p.sourcePath stem)) = some source ∧
      (p.walkText stem source s).1 = .ok page ∧
      t.read (p.artifactPath stem) = .ok page.artifact.toText ∧
      Document.make site page.artifact = .ok document ∧
      t.read (join p.config.siteDir (pageName stem)) = .ok document.text
  sitemap : ∃ names : List Text, names.Pairwise (· < ·) ∧
    (∀ name, name ∈ names ↔ ∃ stem, p.IsSource s stem ∧ name = pageName stem) ∧
    t.read p.sitemapPath = .ok (Sitemap.head ++ names.flatMap (fun name => (
      "  <url><loc>" ++ Html.escape p.config.baseUrl ++ Html.escape name ++ "</loc><lastmod>" ++
        Html.escape date ++ "</lastmod></url>\n" : Text)) ++ "</urlset>\n")

/-- A build that begins without artifacts makes one page for each source, with the date that is set,
in whatever order its steps follow each other. -/
theorem build_onePageEach {f : Text → Except Failure (List Block)} {r : Report} {stamp : Text}
    (hs : s.Sound) (hreader : p.ReadsBy f s) (hstamp : p.config.timestamp = some stamp)
    (hdirs : place p.config.intermediateDir ≠ place p.config.siteDir)
    (hartifacts : p.IndexesOutside p.config.intermediateDir)
    (hvacant : IsVacant s p.config.intermediateDir)
    (h : p.build s = (.ok r, t) ∨ p.BuildsTo s r t) :
    ∃ date, Date.ofStamp? stamp = some date ∧ p.OnePageEach s t date.print := by
  obtain ⟨b, rfl⟩ := build_trace hs hreader hartifacts h
  have hdate : ∃ date, Date.ofStamp? stamp = some date ∧ b.date = date.print := by
    have hset := b.date_eq
    unfold Config.date at hset
    rw [hstamp] at hset
    dsimp only at hset
    split at hset
    · next date hdate => exact ⟨date, hdate, (Except.ok.inj hset).symm⟩
    · cases hset
  obtain ⟨date, hof, hdate⟩ := hdate
  refine ⟨date, hof, b.isFile_artifact hvacant hs hartifacts hdirs,
    ⟨b.site, ?_, fun stem hsource => ?_⟩, ?_⟩
  · rw [← hdate]
    exact Except.ok.inj (b.offers.date.symm.trans b.date_eq)
  · obtain ⟨source, page, hpage, rfl, hsource, hwalk⟩ := b.page_of_source hsource
    obtain ⟨document, hmake, hread⟩ := b.read_page hs hvacant hpage
    exact ⟨source, page, document, hsource, hwalk, b.read_artifact hs hartifacts hpage, hmake,
      hread⟩
  · have hnodup : (TexCatalog.merge (b.artifacts.map (·.record))).pages.Nodup :=
      Text.nodup_of_ascending (TextSet.ofList _).sorted
    have hsorted : (Text.sort (TexCatalog.merge (b.artifacts.map (·.record))).pages).Pairwise
        (· < ·) := Text.sortBy_ascending hnodup
    refine ⟨_, hsorted, fun name => ?_, hdate ▸ b.read_sitemap hs⟩
    rw [Text.sort, Text.mem_sortBy, b.mem_pages hs hvacant]

/-- A site with an address, and two sources, of which one has a name that is not the same in
markup. -/
def addressedSite : Project :=
  ⟨{ timestamp := some "2024-05-01", baseUrl := "https://site/" }, ∅, ⟨2024, 5, 1⟩⟩

def escapedSources : Store :=
  ((Store.empty.insert "tex" .directory).insert "tex/a&b.tex" (.file "\\label\x7bx\x7d\n"
    false)).insert "tex/c.tex" (.file "\\ref\x7bx\x7d\n" false)

theorem build_onePageEach_addressedSite : let t := (addressedSite.build escapedSources).2
    escapedSources.Sound ∧
      addressedSite.ReadsBy (fun text => .ok (Source.readBlocks text)) escapedSources ∧
      addressedSite.config.timestamp = some "2024-05-01" ∧
      place addressedSite.config.intermediateDir ≠ place addressedSite.config.siteDir ∧
      addressedSite.IndexesOutside addressedSite.config.intermediateDir ∧
      IsVacant escapedSources addressedSite.config.intermediateDir ∧
      addressedSite.build escapedSources = (.ok ⟨2, 0, 0⟩, t) ∧
      ∃ date, Date.ofStamp? "2024-05-01" = some date ∧
        addressedSite.OnePageEach escapedSources t date.print := by
  intro t
  have hfiles : (∀ e ∈ escapedSources.nodes.entries, e.2 ≠ .sink ∧
        (escapedSources.at? (above e.1)).any Node.isDirectory) ∧
      place addressedSite.config.intermediateDir ≠ place addressedSite.config.siteDir ∧
      (∀ index ∈ [addressedSite.config.labelIndex, addressedSite.config.recordIndex],
        above (place index) ≠ place addressedSite.config.intermediateDir) ∧
      escapedSources.at? (place addressedSite.config.intermediateDir) = none ∧
      (addressedSite.build escapedSources).1 = .ok ⟨2, 0, 0⟩ := by
    decide +kernel
  obtain ⟨hheld, hdirs, hindexes, habsent, hbuild⟩ := hfiles
  have hs : escapedSources.Sound := sound_of_entries hheld
  have hreader := readsBy_builtin (p := addressedSite) rfl escapedSources
  have hvacant : IsVacant escapedSources addressedSite.config.intermediateDir := by
    intro name hname
    by_contra hsome
    have habove := hs.above (Option.isSome_iff_ne_none.2 hsome)
    rw [above_join (isPlace_place _) hname, habsent] at habove
    cases habove
  have hbuild : addressedSite.build escapedSources = (.ok ⟨2, 0, 0⟩, t) := Prod.ext hbuild rfl
  exact ⟨hs, hreader, rfl, hdirs, hindexes, hvacant, hbuild,
    build_onePageEach hs hreader rfl hdirs hindexes hvacant (.inl hbuild)⟩

end Project

end TexCatalog
