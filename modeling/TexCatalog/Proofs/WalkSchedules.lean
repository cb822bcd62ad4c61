import Mathlib.Data.List.Nodup
import TexCatalog.Proofs.FormRelations
import TexCatalog.Proofs.Schedules
import TexCatalog.Proofs.SteadyReaders

/-!
# Schedules of a walk

The sources of a site are walked independently: the steps of the work on different sources may
follow each other in any order. Whatever the order, each page ends up in its own artifact, if no two
sources share a stem. The walk in batches is one of the orders.
-/

namespace TexCatalog

open TexCatalog.Path Store

namespace Project

variable (p : Project)

inductive Progress where
  | waiting
  | read (source : Text)
  | walked (page : Walked)
  | ready (page : Walked)
  | done (page : Walked)

inductive FileStep (path : Text) : Progress → Store → Progress → Store → Prop
  | read {s : Store} {source : Text} : s.read path = .ok source →
      FileStep path .waiting s (.read source) s
  | walk {s t : Store} {source : Text} {page : Walked} :
      p.walkText (Path.stem path) source s = (.ok page, t) →
      FileStep path (.read source) s (.walked page) t
  | prepare {s t : Store} {page : Walked} :
      s.createDirectories p.config.intermediateDir = (.ok (), t) →
      FileStep path (.walked page) s (.ready page) t
  | write {s t : Store} {page : Walked} :
      s.write (p.artifactPath page.artifact.record.stem) page.artifact.toText = .ok t →
      FileStep path (.ready page) s (.done page) t

def Progress.left : Progress → ℕ
  | .waiting => 4
  | .read _ => 3
  | .walked _ => 2
  | .ready _ => 1
  | .done _ => 0

def fileWork : Work Text Progress Walked := ⟨.waiting, .done, p.FileStep⟩

/-- All sources are walked in some order of the steps, from files `s` to files `t`. -/
def WalksTo (paths : List Text) (s : Store) (pages : List Walked) (t : Store) : Prop :=
  p.fileWork.Completes paths s pages t

/-! ### The walk in batches -/

variable {p}

theorem walkFile_ok {path : Text} {s t : Store} {d : Diagnostics}
    (h : p.walkFile path s = (.ok d, t)) : ∃ source page s₁ s₂, s.read path = .ok source ∧
      p.walkText (Path.stem path) source s = (.ok page, s₁) ∧
      s₁.createDirectories p.config.intermediateDir = (.ok (), s₂) ∧
      s₂.write (p.artifactPath page.artifact.record.stem) page.artifact.toText = .ok t ∧
      d = page.diagnostics := by
  obtain ⟨source, s₀, hread, hbehind⟩ := Stage.bind_ok h
  obtain ⟨page, s₁, hwalk, hbehind⟩ := Stage.bind_ok hbehind
  obtain ⟨_, s₂, hprepare, hbehind⟩ := Stage.bind_ok hbehind
  obtain ⟨_, s₃, hwrite, hbehind⟩ := Stage.bind_ok hbehind
  obtain ⟨rfl, rfl⟩ := Stage.pure_ok hbehind
  obtain ⟨hsource, rfl⟩ := Stage.textOf_ok hread
  exact ⟨source, page, s₁, s₂, hsource, hwalk, Stage.createDirectories_ok hprepare,
    Stage.write_ok hwrite, rfl⟩

theorem walkFile_steps {path : Text} {s t : Store} {d : Diagnostics}
    (h : p.walkFile path s = (.ok d, t)) : ∃ page : Walked, page.diagnostics = d ∧
      ∀ front back, Relation.ReflTransGen p.fileWork.Onward
        ⟨front ++ (path, .waiting) :: back, s⟩ ⟨front ++ (path, .done page) :: back, t⟩ := by
  obtain ⟨source, page, s₁, s₂, hread, hwalk, hprepare, hwrite, rfl⟩ := walkFile_ok h
  exact ⟨page, rfl, fun front back => .tail (.tail (.tail (.single (.job (.read hread)))
    (.job (.walk hwalk))) (.job (.prepare hprepare))) (.job (.write hwrite))⟩

/-- A walk that succeeds is one of the orders. -/
theorem walksTo_of_walk {paths : List Text} {s t : Store} {report : Report}
    (h : p.walk paths s = (.ok report, t)) : ∃ pages, p.WalksTo paths s pages t ∧
      report = .ofDiagnostics paths.length (pages.map (·.diagnostics)).flatten := by
  obtain ⟨ds, u, hbatches, h⟩ := Stage.bind_ok h
  obtain ⟨rfl, rfl⟩ := Stage.pure_ok h
  rw [Stage.eachInBatches_eq_each (congrArg Prod.fst hbatches)] at hbatches
  obtain ⟨pages, rfl, hwalks⟩ := Work.completes_of_each walkFile_steps hbatches
  exact ⟨pages, hwalks, rfl⟩

theorem walkFile_of_surely {Q : List Walked → Store → Prop} {path : Text} {s : Store}
    {front back : List (Text × Progress)}
    (h : p.fileWork.Surely Q ⟨front ++ (path, .waiting) :: back, s⟩) :
    ∃ page t, p.walkFile path s = (.ok page.diagnostics, t) ∧
      p.fileWork.Surely Q ⟨front ++ (path, .done page) :: back, t⟩ := by
  obtain ⟨_, _, hstep, h⟩ := h.next nofun
  cases hstep with | read hread =>
  obtain ⟨_, _, hstep, h⟩ := h.next nofun
  cases hstep with | walk hwalk =>
  obtain ⟨_, _, hstep, h⟩ := h.next nofun
  cases hstep with | prepare hprepare =>
  obtain ⟨_, _, hstep, h⟩ := h.next nofun
  cases hstep with | write hwrite =>
  refine ⟨_, _, ?_, h⟩
  refine (Stage.bind_of_ok (Stage.textOf_of_ok hread) _).trans ?_
  refine (Stage.bind_of_ok hwalk _).trans ?_
  refine (Stage.bind_of_ok (Stage.createDirectories_of_ok hprepare) _).trans ?_
  exact Stage.bind_of_ok (Stage.write_of_ok hwrite) _

/-! ### What a schedule preserves -/

variable (p) in
def artifactChanges (page : Walked) : List Change :=
  [.directory p.config.intermediateDir,
    .file (p.artifactPath page.artifact.record.stem) page.artifact.toText]

variable (p) in
def walkChanges (pages : List Walked) : List Change := pages.flatMap p.artifactChanges

theorem file_mem_walkChanges {pages : List Walked} {path text : Text} :
    .file path text ∈ p.walkChanges pages ↔ ∃ page ∈ pages,
      path = p.artifactPath page.artifact.record.stem ∧ text = page.artifact.toText := by
  simp [walkChanges, artifactChanges]

variable (p) in
def Progress.changes : Progress → List Change
  | .waiting | .read _ | .walked _ => []
  | .ready _ => [.directory p.config.intermediateDir]
  | .done page => p.artifactChanges page

theorem Progress.file_mem_changes {now : Progress} {path text : Text}
    (h : .file path text ∈ now.changes p) : ∃ page, now = .done page ∧
      path = p.artifactPath page.artifact.record.stem ∧ text = page.artifact.toText := by
  cases now with
  | waiting | read | walked => cases h
  | ready => simp [changes] at h
  | done page => simpa [changes, artifactChanges] using h

section

variable (p) (s : Store)

/-- The page that the walk of a source gives by the files at the beginning; the source can still be
read. -/
structure PageOf (t : Store) (path : Text) (page : Walked) : Prop where
  source : ∃ source, s.textAt? (place path) = some source ∧
    (p.walkText (Path.stem path) source s).1 = .ok page
  readable : ∃ text, t.read path = .ok text

def Progress.Sound (t : Store) (path : Text) : Progress → Prop
  | .waiting => True
  | .read source => s.textAt? (place path) = some source ∧ ∃ text, t.read path = .ok text
  | .walked page | .ready page | .done page => p.PageOf s t path page

/-- What is true at any time of a walk that has begun with files `s`. -/
structure WalkSound (w : Work.State Text Progress) : Prop where
  jobs : ∀ job ∈ w.jobs, job.2.Sound p s w.files job.1
  log : ∃ log, After log s w.files ∧ log.Perm (w.jobs.flatMap fun job => job.2.changes p)

end

variable {f : Text → Except Failure (List Block)} {s t u : Store}

theorem Progress.Sound.extends {path : Text} {now : Progress} (h : now.Sound p s t path)
    (hgrown : t.Extends u) : now.Sound p s u path := by
  have hreadable (hread : ∃ text, t.read path = .ok text) : ∃ text, u.read path = .ok text := by
    obtain ⟨text, hread⟩ := hread
    exact hgrown.read hread
  cases now with
  | waiting => trivial
  | read => exact ⟨h.1, hreadable h.2⟩
  | walked | ready | done => exact ⟨h.source, hreadable h.readable⟩

theorem WalkSound.start (s : Store) (paths : List Text) :
    p.WalkSound s (p.fileWork.start paths s) := by
  constructor
  · intro job hjob
    obtain ⟨path, _, rfl⟩ := List.mem_map.1 hjob
    trivial
  · refine ⟨[], rfl, ?_⟩
    simp [Work.start, fileWork, Progress.changes]

/-- What a walk has written are artifacts of sources that are done. -/
theorem WalkSound.written {w : Work.State Text Progress} (h : p.WalkSound s w) {log : List Change}
    (hlog : log.Perm (w.jobs.flatMap fun job => job.2.changes p)) {path text : Text}
    (hmem : .file path text ∈ log) : ∃ source page, (source, .done page) ∈ w.jobs ∧
      path = p.artifactPath (Path.stem source) ∧ text = page.artifact.toText := by
  obtain ⟨⟨source, now⟩, hjob, hchange⟩ := List.mem_flatMap.1 (hlog.mem_iff.1 hmem)
  obtain ⟨page, rfl, rfl, rfl⟩ := Progress.file_mem_changes hchange
  obtain ⟨_, _, hpage⟩ := (h.jobs _ hjob).source
  exact ⟨source, page, hjob, by rw [walkText_stem hpage], rfl⟩

theorem WalkSound.keeps {w : Work.State Text Progress} (h : p.WalkSound s w) :
    p.Keeps s w.files := by
  obtain ⟨log, hafter, hlog⟩ := h.log
  refine ⟨hafter.changes.grown, fun hplace => hafter.changes.others ?_⟩
  refine written_eq_none_iff.2 fun path text hmem heq => ?_
  obtain ⟨source, page, _, rfl, _⟩ := h.written hlog hmem
  exact hplace _ heq.symm

/-- A source that has not been walked stands as it did, if no two sources share a stem. -/
theorem WalkSound.source_still {w : Work.State Text Progress} (hs : s.Sound) (h : p.WalkSound s w)
    {path text : Text} (hread : w.files.read path = .ok text)
    (hothers : ∀ source page, (source, .done page) ∈ w.jobs → Path.stem source ≠ Path.stem path) :
    w.files.textAt? (place path) = s.textAt? (place path) := by
  obtain ⟨log, hafter, hlog⟩ := h.log
  refine (hafter.changes.others (written_eq_none_iff.2 fun file new hmem hplace => ?_)).textAt?
  obtain ⟨source, page, hjob, rfl, _⟩ := h.written hlog hmem
  have hsound := hafter.changes.grown.sound hs
  obtain ⟨_, hreadable⟩ := (h.jobs _ hjob).readable
  exact hothers source page hjob (stem_eq_of_artifactPlace hsound hread
    (stem_ne_nil hsound hreadable) (slash_stem source) hplace.symm).symm

/-- What a step for a source changes. -/
theorem FileStep.after (hreader : p.ReadsBy f s) (hkeeps : p.Keeps s t) {path : Text}
    {now next : Progress} (h : p.FileStep path now t next u) : ∃ new : List Change,
      (next.changes p).Perm (now.changes p ++ new) ∧ After new t u := by
  cases h with
  | read => exact ⟨[], .refl _, rfl⟩
  | walk hwalk =>
    rw [walkText_steady (hreader s (.refl s)) (hreader t hkeeps)] at hwalk
    exact ⟨[], .refl _, (Prod.mk.inj hwalk).2⟩
  | prepare hprepare => exact ⟨_, .refl _, u, hprepare, rfl⟩
  | write hwrite => exact ⟨_, .refl _, u, hwrite, rfl⟩

/-- One step keeps what is true of a walk. -/
theorem WalkSound.onward (hs : s.Sound) (hreader : p.ReadsBy f s)
    {v w : Work.State Text Progress} (h : p.fileWork.Onward v w)
    (hstems : (v.jobs.map fun job => Path.stem job.1).Nodup) (hv : p.WalkSound s v) :
    p.WalkSound s w := by
  have hkeeps := hv.keeps
  refine ⟨?_, h.after (fun _ now => now.changes p)
    (fun _ hstep => hstep.after hreader hkeeps) hv.log⟩
  cases h with
  | @job front back path now next t u hstep =>
    obtain ⟨new, _, hnew⟩ := hstep.after hreader hkeeps
    have hgrown := hnew.changes.grown
    intro job hjob
    rcases Work.mem_jobs.1 hjob with rfl | hother
    · have hnow : now.Sound p s u path :=
        (hv.jobs _ (Work.mem_jobs.2 (.inl rfl))).extends hgrown
      cases hstep with
      | @read _ source hread =>
        refine ⟨?_, _, hread⟩
        rw [← hv.source_still hs hread fun other page hjob heq => ?_]
        · exact (read_eq_ok_iff.1 hread).2
        · rw [List.map_append, List.map_cons, List.nodup_middle, List.nodup_cons,
            ← List.map_append] at hstems
          rcases Work.mem_jobs.1 hjob with hsame | hother
          · cases hsame
          · exact hstems.1 (heq ▸ List.mem_map_of_mem (f := fun job => Path.stem job.1) hother)
      | walk hwalk =>
        rw [walkText_steady (hreader s (.refl s)) (hreader t hkeeps)] at hwalk
        exact ⟨⟨_, hnow.1, (Prod.mk.inj hwalk).1⟩, hnow.2⟩
      | prepare | write => exact hnow
    · exact (hv.jobs job (Work.mem_jobs.2 (.inr hother))).extends hgrown

/-- Any number of steps keep what is true of a walk. -/
theorem WalkSound.steps (hs : s.Sound) (hreader : p.ReadsBy f s)
    {v w : Work.State Text Progress} (h : Relation.ReflTransGen p.fileWork.Onward v w)
    (hstems : (v.jobs.map fun job => Path.stem job.1).Nodup) (hv : p.WalkSound s v) :
    p.WalkSound s w := by
  induction h with
  | refl => exact hv
  | tail hsteps hstep ih =>
    refine ih.onward hs hreader hstep ?_
    have hstems' := congrArg (List.map Path.stem) (Work.items_of_steps hsteps)
    rw [List.map_map, List.map_map] at hstems'
    exact hstems' ▸ hstems

/-- Behind a walk stand the artifacts of the pages that the sources give. -/
theorem WalksTo.pages (hs : s.Sound) (hreader : p.ReadsBy f s) {paths : List Text}
    {pages : List Walked} (hstems : (paths.map Path.stem).Nodup) (h : p.WalksTo paths s pages t) :
    List.Forall₂ (p.PageOf s t) paths pages ∧ p.Keeps s t ∧
      ∃ log, After log s t ∧ log.Perm (p.walkChanges pages) := by
  obtain ⟨w, hsteps, hends, rfl⟩ := h
  have hstart : ((p.fileWork.start paths s).jobs.map fun job => Path.stem job.1) =
      paths.map Path.stem := by
    rw [Work.start, List.map_map]
    rfl
  have hsound := WalkSound.steps hs hreader hsteps (hstart ▸ hstems) (.start s paths)
  have hpages := hends.forall₂ fun path page hjob => hsound.jobs _ hjob
  rw [Work.items_of_steps hsteps, Work.map_fst_start] at hpages
  refine ⟨hpages, hsound.keeps, ?_⟩
  obtain ⟨log, hafter, hlog⟩ := hsound.log
  exact ⟨log, hafter, hlog.trans (.of_eq (hends.flatMap (Progress.changes p)))⟩

theorem stems_of_pages {R : Text → Walked → Prop} {paths : List Text} {pages : List Walked}
    (h : List.Forall₂ R paths pages)
    (hstem : ∀ path page, R path page → page.artifact.record.stem = Path.stem path) :
    pages.map (·.artifact.record.stem) = paths.map Path.stem := by
  have hstems : List.Forall₂ (· = ·) (pages.map (·.artifact.record.stem))
      (paths.map Path.stem) := by
    rw [List.forall₂_map_left_iff, List.forall₂_map_right_iff]
    exact h.flip.imp fun page path => hstem path page
  rwa [List.forall₂_eq_eq_eq] at hstems

/-- The walk has written every artifact, if no two pages have the same stem. -/
theorem written_walk_page {log : List Change} {pages : List Walked}
    (hlog : log.Perm (p.walkChanges pages))
    (hstems : (pages.map (·.artifact.record.stem)).Nodup)
    (hslash : ∀ page ∈ pages, '/' ∉ page.artifact.record.stem) {page : Walked}
    (hpage : page ∈ pages) : Change.file (p.artifactPath page.artifact.record.stem)
        page.artifact.toText ∈ log ∧
      written log (p.artifactPlace page.artifact.record.stem) = some page.artifact.toText := by
  have hmem : Change.file (p.artifactPath page.artifact.record.stem) page.artifact.toText ∈ log :=
    hlog.mem_iff.2 (file_mem_walkChanges.2 ⟨page, hpage, rfl, rfl⟩)
  refine ⟨hmem, written_eq_some hmem ?_⟩
  intro path text hchange hplace
  obtain ⟨other, hother, rfl, rfl⟩ := file_mem_walkChanges.1 (hlog.mem_iff.1 hchange)
  have hstem := artifactPlace_inj (hslash other hother) (hslash page hpage) hplace
  rw [List.inj_on_of_nodup_map hstems hother hpage hstem]

/-- If no two sources share a stem, no page is lost, whatever the order of the steps: behind the
walk the artifact of each source says what the walk of that source alone gives. -/
theorem walked_pages_kept {f : Text → Except Failure (List Block)} {s t : Store} {paths : List Text}
    (hs : s.Sound) (hreader : p.ReadsBy f s) (hstems : (paths.map Path.stem).Nodup)
    (h : (∃ report, p.walk paths s = (.ok report, t)) ∨ ∃ pages, p.WalksTo paths s pages t) :
    ∀ path ∈ paths, ∃ source page, s.textAt? (place path) = some source ∧
      (p.walkText (Path.stem path) source s).1 = .ok page ∧
      t.read (p.artifactPath (Path.stem path)) = .ok page.artifact.toText := by
  have hwalks : ∃ pages, p.WalksTo paths s pages t := by
    rcases h with ⟨report, h⟩ | h
    · obtain ⟨pages, hwalks, _⟩ := walksTo_of_walk h
      exact ⟨pages, hwalks⟩
    · exact h
  obtain ⟨pages, hwalks⟩ := hwalks
  obtain ⟨hpages, hkeeps, log, hafter, hlog⟩ := hwalks.pages hs hreader hstems
  have hstem (path : Text) (page : Walked) (h : p.PageOf s t path page) :
      page.artifact.record.stem = Path.stem path := by
    obtain ⟨_, _, hwalk⟩ := h.source
    exact walkText_stem hwalk
  have hslash : ∀ page ∈ pages, '/' ∉ page.artifact.record.stem := by
    intro page hpage
    obtain ⟨path, _, hof⟩ := exists_of_mem_right hpages hpage
    exact hstem path page hof ▸ slash_stem path
  intro path hpath
  obtain ⟨page, hpage, hof⟩ := exists_of_mem_right hpages.flip hpath
  obtain ⟨source, hsource, hwalk⟩ := hof.source
  obtain ⟨hmem, hwritten⟩ := written_walk_page hlog
    (stems_of_pages hpages hstem ▸ hstems) hslash hpage
  refine ⟨source, page, hsource, hwalk, ?_⟩
  rw [← hstem path page hof]
  exact hafter.read hmem hwritten
    (artifactPlace_not_sink (hkeeps.grown.sound hs) (hslash page hpage))

def twoSources (second : Text) : Store :=
  (((Store.empty.insert "one" .directory).insert "one/p.tex" (.file "One" false)).insert "two"
    .directory).insert (join "two" second) (.file "Two" false)

theorem walked_pages_kept_twoSources :
    (twoSources "q.tex").Sound ∧
    plain.ReadsBy (fun text => .ok (Source.readBlocks text)) (twoSources "q.tex") ∧
    ((["one/p.tex", "two/q.tex"] : List Text).map Path.stem).Nodup ∧
    ∃ report t, plain.walk ["one/p.tex", "two/q.tex"] (twoSources "q.tex") = (.ok report, t) ∧
      ∀ path ∈ (["one/p.tex", "two/q.tex"] : List Text), ∃ source page,
        (twoSources "q.tex").textAt? (place path) = some source ∧
        (plain.walkText (Path.stem path) source (twoSources "q.tex")).1 = .ok page ∧
        t.read (plain.artifactPath (Path.stem path)) = .ok page.artifact.toText := by
  have hsound : (twoSources "q.tex").Sound := Store.sound_of_entries (by decide +kernel)
  have hreader := readsBy_builtin (p := plain) rfl (twoSources "q.tex")
  have hstems : ((["one/p.tex", "two/q.tex"] : List Text).map Path.stem).Nodup := by decide +kernel
  have hwalk : plain.walk ["one/p.tex", "two/q.tex"] (twoSources "q.tex") =
      (.ok ⟨2, 0, 0⟩, (plain.walk ["one/p.tex", "two/q.tex"] (twoSources "q.tex")).2) :=
    Prod.ext (by decide +kernel) rfl
  exact ⟨hsound, hreader, hstems, _, _, hwalk,
    walked_pages_kept hsound hreader hstems (.inl ⟨_, hwalk⟩)⟩

/-- The page of one of two sources with the same stem is lost. -/
theorem walked_page_lost : (["one/p.tex", "two/p.tex"] : List Text).Nodup ∧
    ∃ report t page, plain.walk ["one/p.tex", "two/p.tex"] (twoSources "p.tex") = (.ok report, t) ∧
      (twoSources "p.tex").textAt? (place "one/p.tex") = some "One" ∧
      (plain.walkText (Path.stem "one/p.tex") "One" (twoSources "p.tex")).1 = .ok page ∧
      t.read (plain.artifactPath (Path.stem "one/p.tex")) ≠ .ok page.artifact.toText := by
  refine ⟨by decide +kernel, ?_⟩
  have hwalk : (plain.walk ["one/p.tex", "two/p.tex"] (twoSources "p.tex")).1 = .ok ⟨2, 0, 0⟩ := by
    decide +kernel
  have hlost : (match (plain.walkText (Path.stem "one/p.tex") "One" (twoSources "p.tex")).1 with
    | .ok page => decide ((plain.walk ["one/p.tex", "two/p.tex"] (twoSources "p.tex")).2.read
        (plain.artifactPath (Path.stem "one/p.tex")) ≠ .ok page.artifact.toText)
    | .error _ => false) = true := by decide +kernel
  rcases hpage : (plain.walkText (Path.stem "one/p.tex") "One" (twoSources "p.tex")).1 with e | page
  · rw [hpage] at hlost
    cases hlost
  · rw [hpage] at hlost
    exact ⟨_, _, page, Prod.ext hwalk rfl, by decide +kernel, rfl, of_decide_eq_true hlost⟩

end Project

end TexCatalog
