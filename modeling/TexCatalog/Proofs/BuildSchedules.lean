import TexCatalog.Proofs.Listings
import TexCatalog.Proofs.WalkSchedules

/-!
# Schedules of a build

A build walks the sources, merges what has been found and makes the pages. The sources are walked in
any order, and so are the pages made and written. The build by a single worker is one of the orders,
so what holds of every order holds of it too.
-/

namespace TexCatalog

open TexCatalog.Path Store

namespace Project

variable (p : Project)

inductive Rendering where
  | waiting
  | made (document : Document)
  | done (document : Document)

inductive PageStep (site : SiteContext) (a : Artifact) :
    Rendering → Store → Rendering → Store → Prop
  | make {s : Store} {document : Document} : Document.make site a = .ok document →
      PageStep site a .waiting s (.made document) s
  | write {s t : Store} {document : Document} :
      s.write (join p.config.siteDir document.fileName) document.text = .ok t →
      PageStep site a (.made document) s (.done document) t

def Rendering.left : Rendering → ℕ
  | .waiting => 2
  | .made _ => 1
  | .done _ => 0

def pageWork (site : SiteContext) : Work Artifact Rendering Document :=
  ⟨.waiting, .done, p.PageStep site⟩

def reportOf (pages : List Walked) (merged : Report) (documents : List Document) : Report :=
  ((Report.ofDiagnostics pages.length (pages.map (·.diagnostics)).flatten).absorb merged).absorb
    (.ofDiagnostics documents.length (documents.map (·.diagnostics)).flatten)

/-- In some order of its steps, a build that begins with files `s` reports this and leaves these
files. -/
inductive BuildsTo (s : Store) : Report → Store → Prop
  | run {paths : List Text} {pages : List Walked} {walked : Store} {found : Report} {merged : Store}
      {artifacts : List Artifact} {site : SiteContext} {ready : Store} {documents : List Document}
      {t : Store} : p.sources s = (.ok paths, s) → p.WalksTo paths s pages walked →
      p.merge walked = (.ok found, merged) →
      p.preparePages merged = (.ok (artifacts, site), ready) →
      (p.pageWork site).Completes artifacts ready documents t →
      BuildsTo s (reportOf pages found documents) t

/-- In whatever order of its steps, a build that begins with files `s` succeeds, and it reports and
leaves what it is asked to. -/
def SurelyBuilds (s : Store) (Q : Report → Store → Prop) : Prop :=
  ∃ paths, p.sources s = (.ok paths, s) ∧ p.fileWork.Surely (fun pages walked =>
    ∃ found merged artifacts site ready, p.merge walked = (.ok found, merged) ∧
      p.preparePages merged = (.ok (artifacts, site), ready) ∧
      (p.pageWork site).Surely (fun documents t => Q (reportOf pages found documents) t)
        ((p.pageWork site).start artifacts ready)) (p.fileWork.start paths s)

variable {p} {s t : Store}

theorem renderPage_steps {site : SiteContext} {a : Artifact} {d : Diagnostics}
    (h : p.renderPage site a s = (.ok d, t)) : ∃ document : Document, document.diagnostics = d ∧
      ∀ front back, Relation.ReflTransGen (p.pageWork site).Onward
        ⟨front ++ (a, .waiting) :: back, s⟩ ⟨front ++ (a, .done document) :: back, t⟩ := by
  obtain ⟨document, u, hfinish, h⟩ := Stage.bind_ok h
  obtain ⟨_, v, hwrite, h⟩ := Stage.bind_ok h
  obtain ⟨rfl, rfl⟩ := Stage.pure_ok h
  obtain ⟨hmake, rfl⟩ := Stage.ofExcept_ok hfinish
  exact ⟨document, rfl, fun front back =>
    .tail (.single (.job (.make hmake))) (.job (.write (Stage.write_ok hwrite)))⟩

/-- A build that succeeds is one of the orders. -/
theorem buildsTo_of_build {r : Report} (h : p.build s = (.ok r, t)) : p.BuildsTo s r t := by
  obtain ⟨paths, s', hsources, h⟩ := Stage.bind_ok h
  obtain ⟨walkReport, u, hwalk, h⟩ := Stage.bind_ok h
  obtain ⟨mergeReport, v, hmerge, h⟩ := Stage.bind_ok h
  obtain ⟨renderReport, t', hrender, h⟩ := Stage.bind_ok h
  obtain ⟨rfl, rfl⟩ := Stage.pure_ok h
  obtain ⟨⟨artifacts, site⟩, ready, hprepare, hrender⟩ := Stage.bind_ok hrender
  obtain ⟨ds, w, hbatches, hrender⟩ := Stage.bind_ok hrender
  obtain ⟨rfl, rfl⟩ := Stage.pure_ok hrender
  obtain ⟨_, rfl⟩ := sources_ok hsources
  obtain ⟨pages, hwalks, rfl⟩ := walksTo_of_walk hwalk
  rw [Stage.eachInBatches_eq_each (congrArg Prod.fst hbatches)] at hbatches
  obtain ⟨documents, rfl, hpages⟩ := Work.completes_of_each renderPage_steps hbatches
  rw [← hwalks.length_eq, ← hpages.length_eq]
  exact .run hsources hwalks hmerge hprepare hpages

theorem renderPage_of_surely {Q : List Document → Store → Prop} {site : SiteContext} {a : Artifact}
    {front back : List (Artifact × Rendering)}
    (h : (p.pageWork site).Surely Q ⟨front ++ (a, .waiting) :: back, s⟩) :
    ∃ document t, p.renderPage site a s = (.ok document.diagnostics, t) ∧
      (p.pageWork site).Surely Q ⟨front ++ (a, .done document) :: back, t⟩ := by
  obtain ⟨_, _, hstep, h⟩ := h.next nofun
  cases hstep with | make hmake =>
  obtain ⟨_, _, hstep, h⟩ := h.next nofun
  cases hstep with | write hwrite =>
  refine ⟨_, _, ?_, h⟩
  refine (Stage.bind_of_ok (Stage.ofExcept_of_ok hmake) _).trans ?_
  exact Stage.bind_of_ok (Stage.write_of_ok hwrite) _

/-- What is built in every order is built by the program. -/
theorem SurelyBuilds.build {Q : Report → Store → Prop} (h : p.SurelyBuilds s Q) :
    ∃ r t, p.build s = (.ok r, t) ∧ Q r t := by
  obtain ⟨paths, hsources, hwalk⟩ := h
  obtain ⟨pages, walked, hpages, hlength, found, merged, artifacts, site, ready, hmerge, hprepare,
    hrender⟩ := Work.each_of_surely Walked.diagnostics walkFile_of_surely hwalk
  obtain ⟨documents, t, hdocuments, hlength', hQ⟩ :=
    Work.each_of_surely Document.diagnostics renderPage_of_surely hrender
  refine ⟨_, t, ?_, hQ⟩
  rw [reportOf, hlength, hlength']
  have hwalked := Stage.bind_of_ok (Stage.eachInBatches_of_each hpages) fun diagnostics =>
    (return .ofDiagnostics paths.length diagnostics.flatten : Stage Report)
  have hrendered : p.render merged = (.ok (.ofDiagnostics artifacts.length
      (documents.map (·.diagnostics)).flatten), t) :=
    (Stage.bind_of_ok hprepare _).trans
      (Stage.bind_of_ok (Stage.eachInBatches_of_each hdocuments) _)
  refine (Stage.bind_of_ok hsources _).trans ?_
  refine (Stage.bind_of_ok hwalked _).trans ?_
  refine (Stage.bind_of_ok hmerge _).trans ?_
  exact Stage.bind_of_ok hrendered _

variable (p) in
def pageChange (document : Document) : Change :=
  .file (join p.config.siteDir document.fileName) document.text

variable (p) in
def Rendering.changes : Rendering → List Change
  | .waiting | .made _ => []
  | .done document => [p.pageChange document]

def Rendering.Sound (site : SiteContext) (a : Artifact) : Rendering → Prop
  | .waiting => True
  | .made document | .done document => Document.make site a = .ok document

variable (p) in
/-- What is true at any time of a rendering that has begun with files `s`. -/
structure RenderSound (site : SiteContext) (s : Store) (w : Work.State Artifact Rendering) :
    Prop where
  jobs : ∀ job ∈ w.jobs, job.2.Sound site job.1
  log : ∃ log, After log s w.files ∧ log.Perm (w.jobs.flatMap fun job => job.2.changes p)

variable {site : SiteContext}

theorem RenderSound.start (s : Store) (artifacts : List Artifact) :
    p.RenderSound site s ((p.pageWork site).start artifacts s) := by
  constructor
  · intro job hjob
    obtain ⟨a, _, rfl⟩ := List.mem_map.1 hjob
    trivial
  · refine ⟨[], rfl, ?_⟩
    simp [Work.start, pageWork, Rendering.changes]

/-- One step keeps what is true of a rendering. -/
theorem RenderSound.onward {v w : Work.State Artifact Rendering}
    (h : (p.pageWork site).Onward v w) (hv : p.RenderSound site s v) :
    p.RenderSound site s w := by
  refine ⟨?_, h.after (fun _ now => now.changes p) (fun _ hstep => ?_) hv.log⟩
  · cases h with
    | job hstep =>
      intro job hjob
      rcases Work.mem_jobs.1 hjob with rfl | hother
      · have hnow := hv.jobs _ (Work.mem_jobs.2 (.inl rfl))
        cases hstep with
        | make hmake => exact hmake
        | write => exact hnow
      · exact hv.jobs job (Work.mem_jobs.2 (.inr hother))
  · cases hstep with
    | make => exact ⟨[], .refl _, rfl⟩
    | write hwrite => exact ⟨_, .refl _, _, hwrite, rfl⟩

/-- Any number of steps keep what is true of a rendering. -/
theorem RenderSound.steps {v w : Work.State Artifact Rendering}
    (h : Relation.ReflTransGen (p.pageWork site).Onward v w) (hv : p.RenderSound site s v) :
    p.RenderSound site s w := by
  induction h with
  | refl => exact hv
  | tail _ hstep ih => exact ih.onward hstep

/-- The items that are done have been made into pages, and these have been written. -/
theorem RenderSound.ends {w : Work.State Artifact Rendering} {documents : List Document}
    (h : p.RenderSound site s w) (hends : (p.pageWork site).Ends w documents) :
    List.Forall₂ (fun a d => Document.make site a = .ok d) (w.jobs.map Prod.fst) documents ∧
      ∃ log, After log s w.files ∧ log.Perm (documents.map p.pageChange) := by
  refine ⟨hends.forall₂ fun a document hjob => h.jobs _ hjob, ?_⟩
  obtain ⟨log, hafter, hlog⟩ := h.log
  refine ⟨log, hafter, hlog.trans (.of_eq ((hends.flatMap (Rendering.changes p)).trans ?_))⟩
  exact List.flatMap_pure_eq_map ..

theorem file_mem_pageChanges {documents : List Document} {log : List Change}
    (hlog : log.Perm (documents.map p.pageChange)) {path text : Text} :
    .file path text ∈ log ↔ ∃ document ∈ documents,
      path = join p.config.siteDir document.fileName ∧ text = document.text := by
  rw [hlog.mem_iff]
  simp [pageChange, eq_comm]

end Project

end TexCatalog
