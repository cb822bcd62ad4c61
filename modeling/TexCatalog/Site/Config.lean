import TexCatalog.Date.Stamp
import TexCatalog.Failure
import TexCatalog.Html.Math
import TexCatalog.Toml.Document

/-!
# Site configuration

The settings of a site come from a configuration file, and variables of the environment replace
them. Every setting has a default.
-/

namespace TexCatalog

/-- What turns page source into a tree. -/
inductive ReaderKind where
  | builtin
  | pandoc
  deriving DecidableEq, Repr

namespace ReaderKind

def name : ReaderKind → Text
  | .builtin => "builtin"
  | .pandoc => "pandoc"

def ofName? (s : Text) : Option ReaderKind :=
  [ReaderKind.builtin, .pandoc].find? fun k => k.name == s

end ReaderKind

/-- The settings of a site. -/
structure Config where
  sourceDir : Text := "tex"
  intermediateDir : Text := "build/intermediate"
  bibliography : Option Text := none
  labelIndex : Text := "build/labels.json"
  recordIndex : Text := "build/polydata.json"
  template : Option Text := none
  siteDir : Text := "site"
  /-- The stamp that dates the pages; without one they are dated today. -/
  timestamp : Option Text := none
  baseUrl : Text := []
  math : MathBackend := .katex
  reader : ReaderKind := .builtin
  pandoc : Text := "pandoc"
  deriving DecidableEq, Repr

namespace Config

def defaultFile : Text := "symcat.toml"

open Toml (Definitions)

def text? (ds : Definitions) (key : Text) : Except Failure (Option Text) :=
  match ds.get? [key] with
  | none => .ok none
  | some (.value (.text t)) => .ok (some t)
  | some _ => .error .configFile

def isEmptyAt (ds : Definitions) (path : List Text) : Toml.Defined → Bool
  | .value v => v.isEmpty
  | .tables => false
  | _ => (ds.inside path).isEmpty

/-- The name that a setting chooses: a string, or the only key of a table with nothing under it. -/
def chosen? (ds : Definitions) (key : Text) : Toml.Defined → Option Text
  | .value (.text t) => some t
  | .value (.table [([name], v)]) => if v.isEmpty then some name else none
  | .value _ => none
  | .tables => none
  | _ =>
    match ds.inside [key] with
    | [name] => if (ds.get? [key, name]).any (isEmptyAt ds [key, name]) then some name else none
    | _ => none

def choice? (ofName? : Text → Option α) (ds : Definitions) (key : Text) :
    Except Failure (Option α) :=
  match ds.get? [key] with
  | none => .ok none
  | some d =>
    match (chosen? ds key d).bind ofName? with
    | some a => .ok (some a)
    | none => .error .configFile

/-- The settings in a configuration file; keys without a meaning are passed over. -/
def ofDefinitions (ds : Definitions) : Except Failure Config := do
  let sourceDir ← text? ds "source-dir"
  let intermediateDir ← text? ds "intermediate-dir"
  let bibliography ← text? ds "bibliography"
  let labelIndex ← text? ds "label-index"
  let recordIndex ← text? ds "record-index"
  let template ← text? ds "template"
  let siteDir ← text? ds "site-dir"
  let timestamp ← text? ds "source-timestamp"
  let baseUrl ← text? ds "base-url"
  let math ← choice? MathBackend.ofName? ds "math"
  let reader ← choice? ReaderKind.ofName? ds "reader"
  let pandoc ← text? ds "pandoc"
  let base : Config := {}
  return {
    sourceDir := sourceDir.getD base.sourceDir
    intermediateDir := intermediateDir.getD base.intermediateDir
    bibliography
    labelIndex := labelIndex.getD base.labelIndex
    recordIndex := recordIndex.getD base.recordIndex
    template
    siteDir := siteDir.getD base.siteDir
    timestamp
    baseUrl := baseUrl.getD base.baseUrl
    math := math.getD base.math
    reader := reader.getD base.reader
    pandoc := pandoc.getD base.pandoc }

def ofToml (s : Text) : Except Failure Config :=
  match Toml.definitions? s with
  | none => .error .configFile
  | some ds => ofDefinitions ds

def variableNames : List Text :=
  ["SYMCAT_INTERMEDIATE_DIR", "SYMCAT_BIBLIOGRAPHY", "SYMCAT_LABEL_INDEX", "SYMCAT_RECORD_INDEX",
    "SYMCAT_TEMPLATE", "SYMCAT_SITE_DIR", "SYMCAT_SOURCE_TIMESTAMP", "SYMCAT_BASE_URL",
    "SYMCAT_MATH"]

/-- Replace settings by variables of the environment; a blank variable counts as unset. -/
def applyEnv (c : Config) (env : Text → Option Text) : Except Failure Config :=
  let var (name : Text) := (env name).filter fun t => !Text.isBlank t
  let c :=
    { c with
      intermediateDir := (var "SYMCAT_INTERMEDIATE_DIR").getD c.intermediateDir
      bibliography := (var "SYMCAT_BIBLIOGRAPHY").or c.bibliography
      labelIndex := (var "SYMCAT_LABEL_INDEX").getD c.labelIndex
      recordIndex := (var "SYMCAT_RECORD_INDEX").getD c.recordIndex
      template := (var "SYMCAT_TEMPLATE").or c.template
      siteDir := (var "SYMCAT_SITE_DIR").getD c.siteDir
      timestamp := (var "SYMCAT_SOURCE_TIMESTAMP").or c.timestamp
      baseUrl := (var "SYMCAT_BASE_URL").getD c.baseUrl }
  match var "SYMCAT_MATH" with
  | none => .ok c
  | some name => (MathBackend.ofText name).map fun math => { c with math }

def date (c : Config) (today : Date) : Except Failure Text :=
  match c.timestamp with
  | none => .ok today.print
  | some stamp =>
    match Date.ofStamp? stamp with
    | some d => .ok d.print
    | none =>
      .error (.setting "SYMCAT_SOURCE_TIMESTAMP"
        ("cannot read " ++ Text.quoted (Text.trim stamp) ++ " as a date"))

end Config

end TexCatalog
