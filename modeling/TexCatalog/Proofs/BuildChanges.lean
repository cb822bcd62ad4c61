import TexCatalog.Proofs.BuildSchedules
import TexCatalog.Proofs.RepeatedBuilds

/-!
# What a build changes

Each stage reads something, and from what it has read the changes that it makes are known. A stage
that succeeds is described by both, and whenever both are given the stage succeeds. A build is its
three stages one behind the other.
-/

namespace TexCatalog

open TexCatalog.Path Store

def Change.inside (path text : Text) : List Change :=
  (if parent path ≠ [] then [.directory (parent path)] else []) ++ [.file path text]

theorem written_inside (path text q : Text) :
    written (Change.inside path text) q = if place path = q then some text else none := by
  rw [Change.inside, written_append]
  split <;> simp [written]

theorem Document.fileName_make {site : SiteContext} {a : Artifact} {document : Document}
    (h : make site a = .ok document) : document.fileName = a.record.fileName := by
  unfold make at h
  split at h
  · cases h
  · cases h
    rfl

namespace Stage

variable {s t : Store} {path text : Text}

theorem createDirectories_ok_iff :
    createDirectories path s = (.ok (), t) ↔ After [.directory path] s t := by
  constructor
  · exact fun h => ⟨t, createDirectories_ok h, rfl⟩
  · rintro ⟨u, h, rfl⟩
    exact createDirectories_of_ok h

theorem write_ok_iff : write path text s = (.ok (), t) ↔ After [.file path text] s t := by
  constructor
  · exact fun h => ⟨t, write_ok h, rfl⟩
  · rintro ⟨u, h, rfl⟩
    exact write_of_ok h

theorem writeInside_ok_iff :
    writeInside path text s = (.ok (), t) ↔ After (Change.inside path text) s t := by
  unfold writeInside Change.inside
  split
  · rw [after_append]
    constructor
    · intro h
      obtain ⟨_, u, hcreate, hwrite⟩ := bind_ok h
      exact ⟨u, createDirectories_ok_iff.1 hcreate, write_ok_iff.1 hwrite⟩
    · rintro ⟨u, hcreate, hwrite⟩
      exact (bind_of_ok (createDirectories_ok_iff.2 hcreate) _).trans (write_ok_iff.2 hwrite)
  · exact write_ok_iff

end Stage

namespace Project

variable (p : Project)

/-! ### The walk -/

/-- The page that the walk of a source gives, by the files `s` at the beginning and the source
that is still there in `t`. -/
def WalkedAs (s t : Store) (path : Text) (page : Walked) : Prop :=
  ∃ source, t.read path = .ok source ∧ (p.walkText (Path.stem path) source s).1 = .ok page

variable {p} {s t u : Store}

/-- A walk has walked every source as it is, and written the artifacts of the pages. -/
theorem WalksTo.walkedAs {f : Text → Except Failure (List Block)} (hs : s.Sound)
    (hreader : p.ReadsBy f s) {paths : List Text} {pages : List Walked}
    (hstems : (paths.map Path.stem).Nodup)
    (hapart : ∀ path ∈ paths, ∀ stem, place path ≠ p.artifactPlace stem)
    (h : p.WalksTo paths s pages t) : p.Keeps s t ∧ List.Forall₂ (p.WalkedAs s t) paths pages ∧
      ∃ log, After log s t ∧ log.Perm (p.walkChanges pages) := by
  obtain ⟨hpages, hkeeps, hlog⟩ := h.pages hs hreader hstems
  refine ⟨hkeeps, ?_, hlog⟩
  have hboth := (List.forall₂_and_left _ _).2 ⟨fun path (hpath : path ∈ paths) => hpath, hpages⟩
  refine hboth.imp fun path page ⟨hpath, hof⟩ => ?_
  obtain ⟨source, hsource, hwalk⟩ := hof.source
  obtain ⟨text, hread⟩ := hof.readable
  have hstays : s.Stays t (place path) := hkeeps.others (hapart path hpath)
  rw [← hstays.textAt?, (read_eq_ok_iff.1 hread).2] at hsource
  obtain rfl := Option.some.inj hsource
  exact ⟨_, hread, hwalk⟩

/-! ### The merge -/

def mergeChanges (p : Project) (artifacts : List Artifact) (date : Text) : List Change :=
  let merged := TexCatalog.merge (artifacts.map (·.record))
  Change.inside p.config.labelIndex (LabelIndex.toText merged.labels) ++
    (Change.inside p.config.recordIndex (RecordIndex.toText merged.records) ++
      ([.directory p.config.siteDir] ++
        [.file p.sitemapPath (Sitemap.print merged.pages p.config.baseUrl date)]))

theorem files_mem_mergeChanges (artifacts : List Artifact) (date : Text) :
    let merged := TexCatalog.merge (artifacts.map (·.record))
    .file p.config.labelIndex (LabelIndex.toText merged.labels) ∈ p.mergeChanges artifacts date ∧
      .file p.config.recordIndex (RecordIndex.toText merged.records) ∈
        p.mergeChanges artifacts date ∧
      .file p.sitemapPath (Sitemap.print merged.pages p.config.baseUrl date) ∈
        p.mergeChanges artifacts date := by
  simp [mergeChanges, Change.inside]

theorem merge_ok_iff {r : Report} : p.merge s = (.ok r, t) ↔ ∃ artifacts date,
    p.artifacts s = (.ok artifacts, s) ∧ p.config.date p.today = .ok date ∧
      After (p.mergeChanges artifacts date) s t ∧ r = .ofDiagnostics artifacts.length
        (TexCatalog.merge (artifacts.map (·.record))).diagnostics := by
  simp only [mergeChanges, after_append]
  constructor
  · intro h
    obtain ⟨artifacts, u, hartifacts, h⟩ := Stage.bind_ok h
    obtain ⟨_, u₁, hlabels, h⟩ := Stage.bind_ok h
    obtain ⟨_, u₂, hrecords, h⟩ := Stage.bind_ok h
    obtain ⟨_, u₃, hsite, h⟩ := Stage.bind_ok h
    obtain ⟨date, u₄, hday, h⟩ := Stage.bind_ok h
    obtain ⟨_, u₅, hsitemap, h⟩ := Stage.bind_ok h
    obtain ⟨rfl, rfl⟩ := Stage.pure_ok h
    obtain ⟨_, rfl⟩ := artifacts_ok hartifacts
    obtain ⟨hdate, rfl⟩ := Stage.ofExcept_ok hday
    exact ⟨artifacts, date, hartifacts, hdate, ⟨u₁, Stage.writeInside_ok_iff.1 hlabels, u₂,
      Stage.writeInside_ok_iff.1 hrecords, u₃, Stage.createDirectories_ok_iff.1 hsite,
      Stage.write_ok_iff.1 hsitemap⟩, rfl⟩
  · rintro ⟨artifacts, date, hartifacts, hdate,
      ⟨u₁, hlabels, u₂, hrecords, u₃, hsite, hsitemap⟩, rfl⟩
    refine (Stage.bind_of_ok hartifacts _).trans ?_
    refine (Stage.bind_of_ok (Stage.writeInside_ok_iff.2 hlabels) _).trans ?_
    refine (Stage.bind_of_ok (Stage.writeInside_ok_iff.2 hrecords) _).trans ?_
    refine (Stage.bind_of_ok (Stage.createDirectories_ok_iff.2 hsite) _).trans ?_
    refine (Stage.bind_of_ok (Stage.ofExcept_of_ok hdate) _).trans ?_
    exact Stage.bind_of_ok (Stage.write_ok_iff.2 hsitemap) _

/-! ### The rendering -/

/-- What all pages are made with, by the files that the rendering finds. -/
structure Offers (p : Project) (s : Store) (site : SiteContext) : Prop where
  labels : ∃ text, s.read p.config.labelIndex = .ok text ∧ LabelIndex.ofText text = .ok site.labels
  records : ∃ text, s.read p.config.recordIndex = .ok text ∧
    RecordIndex.ofText text = .ok site.records
  template : p.template s = (.ok site.template, s)
  date : p.config.date p.today = .ok site.date
  bibliography : site.bibliography = p.bibliography
  math : site.math = p.config.math

theorem template_still {template : Template} (h : p.template s = (.ok template, t)) : s = t := by
  unfold Project.template at h
  cases htemplate : p.config.template with
  | none =>
    rw [htemplate] at h
    exact (Stage.pure_ok h).2
  | some path =>
    rw [htemplate] at h
    obtain ⟨text, u, hread, h⟩ := Stage.bind_ok h
    obtain ⟨_, rfl⟩ := Stage.textOf_ok hread
    exact (Stage.ofExcept_ok h).2

theorem preparePages_ok_iff {artifacts : List Artifact} {site : SiteContext} :
    p.preparePages s = (.ok (artifacts, site), t) ↔ p.artifacts s = (.ok artifacts, s) ∧
      p.Offers s site ∧ After [.directory p.config.siteDir] s t := by
  constructor
  · intro h
    obtain ⟨artifacts, u₁, hartifacts, h⟩ := Stage.bind_ok h
    obtain ⟨labelText, u₂, hlabelText, h⟩ := Stage.bind_ok h
    obtain ⟨labels, u₃, hlabels, h⟩ := Stage.bind_ok h
    obtain ⟨recordText, u₄, hrecordText, h⟩ := Stage.bind_ok h
    obtain ⟨records, u₅, hrecords, h⟩ := Stage.bind_ok h
    obtain ⟨template, u₆, htemplate, h⟩ := Stage.bind_ok h
    obtain ⟨date, u₇, hday, h⟩ := Stage.bind_ok h
    obtain ⟨_, u₈, hsite, h⟩ := Stage.bind_ok h
    obtain ⟨heq, rfl⟩ := Stage.pure_ok h
    cases heq
    obtain ⟨_, rfl⟩ := artifacts_ok hartifacts
    obtain ⟨hlabelRead, rfl⟩ := Stage.textOf_ok hlabelText
    obtain ⟨hlabelOf, rfl⟩ := Stage.ofExcept_ok hlabels
    obtain ⟨hrecordRead, rfl⟩ := Stage.textOf_ok hrecordText
    obtain ⟨hrecordOf, rfl⟩ := Stage.ofExcept_ok hrecords
    obtain rfl := template_still htemplate
    obtain ⟨hdate, rfl⟩ := Stage.ofExcept_ok hday
    exact ⟨hartifacts, ⟨⟨_, hlabelRead, hlabelOf⟩, ⟨_, hrecordRead, hrecordOf⟩, htemplate, hdate,
      rfl, rfl⟩, Stage.createDirectories_ok_iff.1 hsite⟩
  · rintro ⟨hartifacts, hoffers, hsite⟩
    obtain ⟨⟨labelText, hlabelRead, hlabelOf⟩, ⟨recordText, hrecordRead, hrecordOf⟩, htemplate,
      hdate, hbibliography, hmath⟩ := hoffers
    obtain ⟨labels, records, bibliography, template, math, date⟩ := site
    dsimp only at hlabelOf hrecordOf htemplate hdate hbibliography hmath
    subst hbibliography hmath
    refine (Stage.bind_of_ok hartifacts _).trans ?_
    refine (Stage.bind_of_ok (Stage.textOf_of_ok hlabelRead) _).trans ?_
    refine (Stage.bind_of_ok (Stage.ofExcept_of_ok hlabelOf) _).trans ?_
    refine (Stage.bind_of_ok (Stage.textOf_of_ok hrecordRead) _).trans ?_
    refine (Stage.bind_of_ok (Stage.ofExcept_of_ok hrecordOf) _).trans ?_
    refine (Stage.bind_of_ok htemplate _).trans ?_
    refine (Stage.bind_of_ok (Stage.ofExcept_of_ok hdate) _).trans ?_
    exact Stage.bind_of_ok (Stage.createDirectories_ok_iff.2 hsite) _

/-! ### Where the stages write -/

def IndexesOutside (p : Project) (directory : Text) : Prop :=
  ∀ index ∈ [p.config.labelIndex, p.config.recordIndex], above (place index) ≠ place directory

theorem IndexesOutside.ne {directory name : Text} (h : p.IndexesOutside directory)
    (hname : IsName name) : join (place directory) name ≠ place p.config.labelIndex ∧
      join (place directory) name ≠ place p.config.recordIndex := by
  have habove : above (join (place directory) name) = place directory :=
    above_join (isPlace_place directory) hname
  constructor
  · exact fun heq => h _ (by simp) (heq ▸ habove)
  · exact fun heq => h _ (by simp) (heq ▸ habove)

theorem getLast?_artifactPlace (stem : Text) : (p.artifactPlace stem).getLast? = some 'n' := by
  refine getLast?_place ?_ (by decide) (by decide)
  rw [artifactPath, getLast?_join_of_ne_nil _ (by simp), List.getLast?_append_of_ne_nil _ (by simp)]
  simp

theorem getLast?_sitemapPlace : (place p.sitemapPath).getLast? = some 'l' := by
  refine getLast?_place ?_ (by decide) (by decide)
  rw [sitemapPath, getLast?_join_of_ne_nil _ (by simp)]
  simp

theorem getLast?_pagePlace (a : Artifact) :
    (place (join p.config.siteDir a.record.fileName)).getLast? = some 'm' := by
  refine getLast?_place ?_ (by decide) (by decide)
  rw [PageRecord.fileName, getLast?_join_of_ne_nil _ (by simp),
    List.getLast?_append_of_ne_nil _ (by simp)]
  simp

theorem getLast?_sourceName (stem : Text) : (sourceName stem).getLast? = some 'x' := by
  rw [sourceName, List.getLast?_append_of_ne_nil _ (by simp)]
  rfl

theorem getLast?_artifactAt? {q : Text} (h : (p.artifactAt? q).isSome) :
    q.getLast? = some 'n' := by
  obtain ⟨name, hname⟩ := Option.isSome_iff_exists.1 h
  obtain ⟨hext, hisName, rfl⟩ := artifactAt?_eq hname
  rw [getLast?_join _ hisName, (splitName_eq hext).2, List.getLast?_append_of_ne_nil _ (by simp)]
  simp

/-- No source stands where an artifact could. -/
theorem sourcePlace_ne_artifactPlace {stem : Text} (hne : stem ≠ []) (hslash : '/' ∉ stem)
    (other : Text) : place (p.sourcePath stem) ≠ p.artifactPlace other := by
  intro heq
  have hlast := getLast?_artifactPlace (p := p) other
  rw [← heq, place_sourcePath hne hslash, getLast?_join _ (isName_sourceName hne hslash),
    getLast?_sourceName] at hlast
  cases hlast

theorem written_mergeChanges (artifacts : List Artifact) (date q : Text) :
    let merged := TexCatalog.merge (artifacts.map (·.record))
    written (p.mergeChanges artifacts date) q =
      if place p.sitemapPath = q then
        some (Sitemap.print merged.pages p.config.baseUrl date)
      else if place p.config.recordIndex = q then some (RecordIndex.toText merged.records)
      else if place p.config.labelIndex = q then some (LabelIndex.toText merged.labels)
      else none := by
  simp only [mergeChanges, written_append, written_inside, written, Option.none_or]
  split <;> split <;> split <;> rfl

/-- The merge does not write in a directory without an index, unless it is the sitemap. -/
theorem written_mergeChanges_outside {directory name : Text}
    (hindexes : p.IndexesOutside directory) (hname : IsName name) (hlast : name.getLast? ≠ some 'l')
    (artifacts : List Artifact) (date : Text) :
    written (p.mergeChanges artifacts date) (join (place directory) name) = none := by
  obtain ⟨hlabels, hrecords⟩ := hindexes.ne hname
  have hsitemap : place p.sitemapPath ≠ join (place directory) name := by
    intro heq
    rw [← getLast?_join (place directory) hname, ← heq] at hlast
    exact hlast getLast?_sitemapPlace
  rw [written_mergeChanges, if_neg hsitemap, if_neg hrecords.symm, if_neg hlabels.symm]

theorem written_mergeChanges_artifact (hindexes : p.IndexesOutside p.config.intermediateDir)
    {q : Text} (hq : (p.artifactAt? q).isSome) (artifacts : List Artifact)
    (date : Text) : written (p.mergeChanges artifacts date) q = none := by
  have hlast := getLast?_artifactAt? hq
  obtain ⟨name, hname⟩ := Option.isSome_iff_exists.1 hq
  obtain ⟨_, hisName, rfl⟩ := artifactAt?_eq hname
  rw [getLast?_join _ hisName] at hlast
  exact written_mergeChanges_outside hindexes hisName (by simp [hlast]) artifacts date

/-- Pages are written only where the name of a page could stand. -/
theorem written_pages_none {site : SiteContext} {artifacts : List Artifact}
    {documents : List Document} {log : List Change}
    (h : List.Forall₂ (fun a d => Document.make site a = .ok d) artifacts documents)
    (hlog : log.Perm (documents.map p.pageChange)) {q : Text} (hq : q.getLast? ≠ some 'm') :
    written log q = none := by
  refine written_eq_none_iff.2 fun path text hmem heq => hq ?_
  obtain ⟨document, hdocument, rfl, _⟩ := (file_mem_pageChanges hlog).1 hmem
  obtain ⟨a, _, hmake⟩ := exists_of_mem_right h hdocument
  rw [← heq, Document.fileName_make hmake, getLast?_pagePlace a]

/-! ### Builds -/

/-- What the stages of a build read and find on the way from one store to another, and the order of
the changes that they make. -/
structure BuildTrace (p : Project) (s t : Store) where
  paths : List Text
  pages : List Walked
  walkLog : List Change
  walked : Store
  artifacts : List Artifact
  date : Text
  merged : Store
  site : SiteContext
  documents : List Document
  pageLog : List Change
  sources : p.sources s = (.ok paths, s)
  keeps : p.Keeps s walked
  walk_pages : List.Forall₂ (p.WalkedAs s walked) paths pages
  walkLog_perm : walkLog.Perm (p.walkChanges pages)
  walk : After walkLog s walked
  artifacts_walked : p.artifacts walked = (.ok artifacts, walked)
  date_eq : p.config.date p.today = .ok date
  merge : After (p.mergeChanges artifacts date) walked merged
  artifacts_merged : p.artifacts merged = (.ok artifacts, merged)
  offers : p.Offers merged site
  render_pages : List.Forall₂ (fun a d => Document.make site a = .ok d) artifacts documents
  pageLog_perm : pageLog.Perm (documents.map p.pageChange)
  render : After (.directory p.config.siteDir :: pageLog) merged t

namespace BuildTrace

variable (b : p.BuildTrace s t)

def report : Report :=
  reportOf b.pages (.ofDiagnostics b.artifacts.length
    (TexCatalog.merge (b.artifacts.map (·.record))).diagnostics) b.documents

def restLog : List Change :=
  p.mergeChanges b.artifacts b.date ++ .directory p.config.siteDir :: b.pageLog

include b

theorem file_mem_walkLog {path text : Text} : .file path text ∈ b.walkLog ↔ ∃ page ∈ b.pages,
    path = p.artifactPath page.artifact.record.stem ∧ text = page.artifact.toText := by
  rw [b.walkLog_perm.mem_iff, file_mem_walkChanges]

/-- A page that is written is the page of an artifact. -/
theorem page_of_pageLog {path text : Text} (hmem : .file path text ∈ b.pageLog) :
    ∃ a ∈ b.artifacts, ∃ document, Document.make b.site a = .ok document ∧
      path = join p.config.siteDir a.record.fileName ∧ text = document.text := by
  obtain ⟨document, hdocument, rfl, rfl⟩ := (file_mem_pageChanges b.pageLog_perm).1 hmem
  obtain ⟨a, ha, hmake⟩ := exists_of_mem_right b.render_pages hdocument
  exact ⟨a, ha, document, hmake, by rw [Document.fileName_make hmake], rfl⟩

theorem rest : After b.restLog b.walked t := after_append.2 ⟨_, b.merge, b.render⟩

theorem changes : After (b.walkLog ++ b.restLog) s t := after_append.2 ⟨_, b.walk, b.rest⟩

theorem grown : s.Extends t := b.changes.changes.grown

theorem written_rest (q : Text) : written b.restLog q =
    (written b.pageLog q).or (written (p.mergeChanges b.artifacts b.date) q) :=
  written_append ..

/-- Behind the walk, a build writes neither where sources stand nor where artifacts are read. -/
theorem written_behind {q : Text} (hmerge : written (p.mergeChanges b.artifacts b.date) q = none)
    (hlast : q.getLast? ≠ some 'm') : written b.restLog q = none := by
  rw [b.written_rest, written_pages_none b.render_pages b.pageLog_perm hlast, hmerge]
  rfl

theorem stems_eq : b.pages.map (·.artifact.record.stem) = b.paths.map Path.stem :=
  stems_of_pages b.walk_pages fun _ _ ⟨_, _, hwalk⟩ => walkText_stem hwalk

/-- Each page is what the walk of its source gives with the files at the beginning. -/
theorem pages_of_sources : List.Forall₂ (fun path page => ∃ source,
    s.textAt? (place path) = some source ∧ (p.walkText (Path.stem path) source s).1 = .ok page)
      b.paths b.pages := by
  have hboth := (List.forall₂_and_left _ _).2
    ⟨fun path (hpath : path ∈ b.paths) => hpath, b.walk_pages⟩
  refine hboth.imp ?_
  rintro path page ⟨hpath, source, hread, hwalk⟩
  obtain ⟨stem, hsource, rfl⟩ := (mem_sources b.sources).1 hpath
  have hstays : s.Stays b.walked (place (p.sourcePath stem)) :=
    b.keeps.others (sourcePlace_ne_artifactPlace hsource.ne_nil hsource.slash)
  exact ⟨source, by rw [← hstays.textAt?, (read_eq_ok_iff.1 hread).2], hwalk⟩

theorem source_of_page {page : Walked} (hpage : page ∈ b.pages) :
    p.IsSource s page.artifact.record.stem := by
  have hstem := List.mem_map_of_mem (f := (·.artifact.record.stem)) hpage
  rw [b.stems_eq] at hstem
  obtain ⟨path, hpath, hstem⟩ := List.mem_map.1 hstem
  obtain ⟨stem, hsource, rfl⟩ := (mem_sources b.sources).1 hpath
  rw [stem_sourcePath hsource.ne_nil hsource.slash] at hstem
  exact hstem ▸ hsource

theorem nodup_pages : (b.pages.map (·.artifact.record.stem)).Nodup :=
  b.stems_eq ▸ nodup_stems b.sources

theorem written_page {page : Walked} (hpage : page ∈ b.pages) :
    Change.file (p.artifactPath page.artifact.record.stem) page.artifact.toText ∈ b.walkLog ∧
      written b.walkLog (p.artifactPlace page.artifact.record.stem) =
        some page.artifact.toText :=
  written_walk_page b.walkLog_perm b.nodup_pages (fun _ hpage => (b.source_of_page hpage).slash)
    hpage

/-- Behind the walk nothing is written where artifacts stand. -/
theorem written_artifact (hartifacts : p.IndexesOutside p.config.intermediateDir) {page : Walked}
    (hpage : page ∈ b.pages) : written (b.walkLog ++ b.restLog)
      (p.artifactPlace page.artifact.record.stem) = some page.artifact.toText := by
  have hslash := (b.source_of_page hpage).slash
  have hmerge : written (p.mergeChanges b.artifacts b.date)
      (p.artifactPlace page.artifact.record.stem) = none := by
    rw [artifactPlace_eq hslash]
    refine written_mergeChanges_outside hartifacts (isName_artifactName hslash) ?_ _ _
    rw [artifactName, List.getLast?_append_of_ne_nil _ (by simp)]
    decide
  rw [written_append, b.written_behind hmerge (by simp [getLast?_artifactPlace]),
    (b.written_page hpage).2]
  rfl

end BuildTrace

def onDay (p : Project) (day : Date) : Project := { p with today := day }

def BuildTrace.onDay (b : p.BuildTrace s t) {day : Date}
    (h : p.config.date day = p.config.date p.today) : (p.onDay day).BuildTrace s t where
  paths := b.paths
  pages := b.pages
  walkLog := b.walkLog
  walked := b.walked
  artifacts := b.artifacts
  date := b.date
  merged := b.merged
  site := b.site
  documents := b.documents
  pageLog := b.pageLog
  sources := b.sources
  keeps := ⟨b.keeps.grown, b.keeps.others⟩
  walk_pages := b.walk_pages
  walkLog_perm := b.walkLog_perm
  walk := b.walk
  artifacts_walked := b.artifacts_walked
  date_eq := h.trans b.date_eq
  merge := b.merge
  artifacts_merged := b.artifacts_merged
  offers := ⟨b.offers.labels, b.offers.records, b.offers.template, h.trans b.offers.date,
    b.offers.bibliography, b.offers.math⟩
  render_pages := b.render_pages
  pageLog_perm := b.pageLog_perm
  render := b.render

/-- A build in any order of its steps has gone its way. The rendering finds the artifacts that the
merge has found, if no index stands among them. -/
theorem BuildsTo.trace {f : Text → Except Failure (List Block)} {r : Report} (hs : s.Sound)
    (hreader : p.ReadsBy f s) (hindexes : p.IndexesOutside p.config.intermediateDir)
    (h : p.BuildsTo s r t) : ∃ b : p.BuildTrace s t, r = b.report := by
  obtain @⟨paths, _, _, _, _, _, _, _, _, _, hsources, hwalks, hmerge, hprepare, hpages⟩ := h
  have hapart : ∀ path ∈ paths, ∀ stem, place path ≠ p.artifactPlace stem := by
    intro path hpath
    obtain ⟨stem, hsource, rfl⟩ := (mem_sources hsources).1 hpath
    exact sourcePlace_ne_artifactPlace hsource.ne_nil hsource.slash
  obtain ⟨hkeeps, hwalked, walkLog, hwalk, hwalkLog⟩ :=
    hwalks.walkedAs hs hreader (nodup_stems hsources) hapart
  obtain ⟨artifacts, date, hartifacts, hdate, hmerged, rfl⟩ := merge_ok_iff.1 hmerge
  obtain ⟨hartifacts', hoffers, u, hsite, rfl⟩ := preparePages_ok_iff.1 hprepare
  obtain ⟨w, hsteps, hends, rfl⟩ := hpages
  obtain ⟨hdocuments, pageLog, hrender, hpageLog⟩ :=
    (RenderSound.steps hsteps (.start ..)).ends hends
  rw [Work.items_of_steps hsteps, Work.map_fst_start] at hdocuments
  obtain rfl := artifacts_eq hartifacts hartifacts' fun q hq =>
    (hmerged.changes.others (written_mergeChanges_artifact hindexes hq _ _)).textAt?
  exact ⟨⟨_, _, walkLog, _, _, date, _, _, _, pageLog, hsources, hkeeps, hwalked, hwalkLog, hwalk,
    hartifacts, hdate, hmerged, hartifacts', hoffers, hdocuments, hpageLog, u, hsite, hrender⟩, rfl⟩

/-- The build that the program runs is one of the orders. -/
theorem build_trace {f : Text → Except Failure (List Block)} {r : Report} (hs : s.Sound)
    (hreader : p.ReadsBy f s) (hindexes : p.IndexesOutside p.config.intermediateDir)
    (h : p.build s = (.ok r, t) ∨ p.BuildsTo s r t) : ∃ b : p.BuildTrace s t, r = b.report :=
  (h.elim buildsTo_of_build id).trace hs hreader hindexes

end Project

end TexCatalog
