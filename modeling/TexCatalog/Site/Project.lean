import TexCatalog.Bibliography.Bibtex.Entries
import TexCatalog.Bibliography.Csl
import TexCatalog.Page.Document
import TexCatalog.Page.Encode
import TexCatalog.Shell.Program
import TexCatalog.Site.Config
import TexCatalog.Site.Merge
import TexCatalog.Site.Report
import TexCatalog.Site.Sitemap

/-!
# Building a site

A site is built in three stages that speak to each other through files only. The walk turns every
source into an artifact, the merge turns all artifacts into the site indexes and the sitemap, and
the rendering turns every artifact into a page with the help of the indexes. Sources may be walked,
and pages made and written, in any order. Here they follow each other as for a single worker.
-/

namespace TexCatalog

namespace Bibliography

def ofFile (path text : Text) : Except Failure Bibliography :=
  (if Path.extension? path = some "bib" then ofBibtex text else ofCsl text).mapError fun e =>
    match e with
    | .splitCharacter => .splitCharacter
    | e => .bibliographyFormat path e

end Bibliography

namespace Config

def ofFile (path : Text) : Stage Config := do .ofExcept (ofToml (← .textOf path))

/-- The settings of a run: those of the named or the default file, under the environment. -/
def load (file : Option Text) (env : Text → Option Text) : Stage Config := do
  let store ← Stage.store
  let config ←
    match file with
    | some path => ofFile path
    | none => if store.isFile defaultFile then ofFile defaultFile else Stage.pure {}
  .ofExcept (config.applyEnv env)

end Config

/-- A site that is to be built. -/
structure Project where
  config : Config
  bibliography : Bibliography
  today : Date

namespace Project

def loadBibliography : Option Text → Stage Bibliography
  | none => return ∅
  | some path => fun s =>
    match s.read path with
    | .error fault => (.error (.bibliographyRead path fault), s)
    | .ok text => (Bibliography.ofFile path text, s)

def load (config : Config) (today : Date) : Stage Project := do
  return { config, today, bibliography := ← loadBibliography config.bibliography }

def converterArguments : List Text := ["--from", "latex+raw_tex", "--to", "json"]

def pipeCapacity : Nat := 65536

def convertedBlocks (outcome : Outcome) : Except Failure (List Block) :=
  let complaint := Text.trim (Text.ofBytes outcome.complaints)
  if pipeCapacity < outcome.unread then .error (.converter .unread)
  else
    match outcome.ending with
    | .killed signal => .error (.converter (.killed signal complaint))
    | .exited 0 =>
      (Json.readBytes documentOfDraft outcome.output).mapError fun _ => .converterOutput
    | .exited status => .error (.converter (.exited status complaint))

/-- How many levels of forms within forms the texts of the external reader may lead to. -/
def externalLevels : Nat := 4096

def externalReader (program : Text) : Reader where
  read text s :=
    match s.run program converterArguments text with
    | .error fault => (.error (.converter (.notStarted program fault)), s)
    | .ok (outcome, s) => (convertedBlocks outcome, s)
  levels _ := externalLevels

variable (p : Project)

def reader : Reader :=
  match p.config.reader with
  | .builtin => sourceReader
  | .pandoc => externalReader p.config.pandoc

def walkText (stem source : Text) : Stage Walked :=
  walkSource ⟨stem, p.reader, p.bibliography⟩ source

def artifactPath (stem : Text) : Text := Path.join p.config.intermediateDir (stem ++ ".json")

def walkFile (path : Text) : Stage Diagnostics := do
  let source ← .textOf path
  let walked ← p.walkText (Path.stem path) source
  .createDirectories p.config.intermediateDir
  .write (p.artifactPath walked.artifact.record.stem) walked.artifact.toText
  return walked.diagnostics

def walk (paths : List Text) : Stage Report := do
  let diagnostics ← Stage.eachInBatches p.walkFile paths
  return .ofDiagnostics paths.length diagnostics.flatten

def entriesWith (extension directory : Text) (entries : List (Text × Node)) :
    List (Text × Node) :=
  (entries.filter fun e => (Path.splitName e.1).2 == some extension).map fun e =>
    (Path.join directory e.1, e.2)

def sources : Stage (List Text) := do
  let entries ← .list p.config.sourceDir
  return ((entriesWith "tex" p.config.sourceDir entries).filter fun e => e.2.isFile).map Prod.fst

def artifacts : Stage (List Artifact) := do
  let directory := p.config.intermediateDir
  let store ← Stage.store
  if store.isDirectory directory then
    let entries ← .list directory
    let artifacts ← Stage.each
      (fun e : Text × Node => do .ofExcept (Artifact.ofText (← .textOf e.1)))
      (entriesWith "json" directory entries)
    if artifacts.isEmpty then .fail (.noArtifacts directory) else return artifacts
  else .fail (.missingArtifacts directory)

def merge : Stage Report := do
  let artifacts ← p.artifacts
  let merged := TexCatalog.merge (artifacts.map (·.record))
  .writeInside p.config.labelIndex (LabelIndex.toText merged.labels)
  .writeInside p.config.recordIndex (RecordIndex.toText merged.records)
  .createDirectories p.config.siteDir
  let date ← .ofExcept (p.config.date p.today)
  .write (Path.join p.config.siteDir "sitemap.xml")
    (Sitemap.print merged.pages p.config.baseUrl date)
  return .ofDiagnostics artifacts.length merged.diagnostics

def template : Stage Template := do
  match p.config.template with
  | none => return .builtin
  | some path => .ofExcept (Template.ofText path (← .textOf path))

def renderPage (site : SiteContext) (a : Artifact) : Stage Diagnostics := do
  let document ← .ofExcept (Document.make site a)
  .write (Path.join p.config.siteDir document.fileName) document.text
  return document.diagnostics

/-- Find the artifacts and what all pages are made with, and create the directory of the pages. -/
def preparePages : Stage (List Artifact × SiteContext) := do
  let artifacts ← p.artifacts
  let labels ← .ofExcept (LabelIndex.ofText (← .textOf p.config.labelIndex))
  let records ← .ofExcept (RecordIndex.ofText (← .textOf p.config.recordIndex))
  let template ← p.template
  let date ← .ofExcept (p.config.date p.today)
  .createDirectories p.config.siteDir
  let site : SiteContext :=
    { labels, records, template, date, bibliography := p.bibliography, math := p.config.math }
  return (artifacts, site)

def render : Stage Report := do
  let (artifacts, site) ← p.preparePages
  let diagnostics ← Stage.eachInBatches (p.renderPage site) artifacts
  return .ofDiagnostics artifacts.length diagnostics.flatten

def build : Stage Report := do
  let walked ← p.walk (← p.sources)
  let merged ← p.merge
  let rendered ← p.render
  return (walked.absorb merged).absorb rendered

end Project

end TexCatalog
