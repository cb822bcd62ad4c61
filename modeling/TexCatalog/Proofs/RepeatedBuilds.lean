import TexCatalog.Proofs.Listings
import TexCatalog.Proofs.SteadyReaders
import TexCatalog.Proofs.TwinRuns

/-!
# Repeated builds

A site may be built again when sources have come, gone or changed. The build writes the indexes and
the sitemap from the sources and the template of now, and from what is left of artifacts that no
source of now has written: nothing takes these away, so they go on to be read.
-/

namespace TexCatalog

open TexCatalog.Path Store

namespace Project

variable (p : Project)

/-- A place that is read with the artifacts, although none of the sources has its artifact there. -/
def IsLeftOver (paths : List Text) (q : Text) : Prop :=
  (p.artifactAt? q).isSome ∧ ∀ path ∈ paths, q ≠ p.artifactPlace (Path.stem path)

/-- Two stores have the same sources and the same template. -/
structure SameInputs (paths : List Text) (s s' : Store) : Prop where
  sources : (p.sources s).1 = .ok paths
  sources' : (p.sources s').1 = .ok paths
  texts : ∀ path ∈ paths, s'.textAt? (place path) = s.textAt? (place path)
  template : ∀ path ∈ p.config.template, s'.textAt? (place path) = s.textAt? (place path)

def inputs (paths : List Text) : Set Text :=
  {q | (∃ path ∈ paths, q = place path) ∨ (∃ path ∈ p.config.template, q = place path) ∨
    p.IsLeftOver paths q}

variable {p} {s₀ s₀' : Store} {A W : Set Text}

/-- Without left-over artifacts nothing is read that no source has written. -/
theorem IsLeftOver.textAt? {s : Store} {paths : List Text} {q : Text} (h : p.IsLeftOver paths q)
    (hplaces : ∀ q ∈ p.artifactPlaces s, ∃ path ∈ paths, q = p.artifactPlace (Path.stem path)) :
    s.textAt? q = none := by
  by_contra hne
  obtain ⟨path, hpath, heq⟩ := hplaces q (mem_artifactPlaces h.1 (Option.isSome_iff_ne_none.2 hne))
  exact h.2 path hpath heq

theorem sources_still {s t : Store} {paths : List Text} (h : p.sources s = (.ok paths, t)) :
    s = t := by
  obtain ⟨entries, u, hlist, h⟩ := Stage.bind_ok h
  obtain ⟨_, rfl⟩ := Stage.list_ok hlist
  exact (Stage.pure_ok h).2

/-! ### The walk -/

/-- Twin stores of two walks that began with `s` and `s'`. -/
def WalkTwins (p : Project) (A : Set Text) (s s' : Store) (W : Set Text) (t t' : Store) : Prop :=
  Twins A W t t' ∧ p.Keeps s t ∧ p.Keeps s' t'

section

variable {f : Text → Except Failure (List Block)} (hreader : p.ReadsBy f s₀)
  (hreader' : p.ReadsBy f s₀')

include hreader hreader'

/-- The page of a source is the same with both stores, and neither is changed. -/
theorem walkText_alike (stem source : Text) (W : Set Text) :
    Stage.Alike (p.WalkTwins A s₀ s₀' W) (p.walkText stem source) fun page t t' =>
      page.artifact.record.stem = stem ∧ p.WalkTwins A s₀ s₀' W t t' := by
  intro s s' t t' page page' ⟨htwins, hkeeps, hkeeps'⟩ hs hs'
  have hs₀ := hreader s₀ (.refl s₀)
  rw [walkText_steady hs₀ (hreader s hkeeps)] at hs
  rw [walkText_steady hs₀ (hreader' s' hkeeps')] at hs'
  obtain ⟨hpage, rfl⟩ := Prod.mk.inj hs
  obtain ⟨hpage', rfl⟩ := Prod.mk.inj hs'
  exact ⟨Except.ok.inj (hpage'.symm.trans hpage), walkText_stem hpage, htwins, hkeeps, hkeeps'⟩

theorem walkFile_alike {path : Text} (hpath : place path ∈ A) (W : Set Text) :
    Stage.Alike (p.WalkTwins A s₀ s₀' W) (p.walkFile path) fun _ =>
      p.WalkTwins A s₀ s₀' (W ∪ {p.artifactPath (Path.stem path)}) := by
  refine Stage.alike_bind (R := fun _ => p.WalkTwins A s₀ s₀' W) ?_ fun source =>
    Stage.alike_bind (walkText_alike hreader hreader' _ source W) fun page =>
    Stage.alike_bind (R := fun _ t t' => page.artifact.record.stem = Path.stem path ∧
      p.WalkTwins A s₀ s₀' W t t') ?_ fun _ =>
    Stage.alike_bind ?_ fun _ => Stage.alike_pure fun _ _ h => h
  · intro s s' t t' source source' ⟨htwins, hkeeps, hkeeps'⟩ hs hs'
    obtain ⟨heq, htwins'⟩ := twins_textOf (.inl hpath) htwins hs hs'
    obtain ⟨_, rfl⟩ := Stage.textOf_ok hs
    obtain ⟨_, rfl⟩ := Stage.textOf_ok hs'
    exact ⟨heq, htwins, hkeeps, hkeeps'⟩
  · intro s s' t t' _ _ ⟨hstem, htwins, hkeeps, hkeeps'⟩ hs hs'
    have hadds := createDirectories_adds s p.config.intermediateDir
    have hadds' := createDirectories_adds s' p.config.intermediateDir
    rw [Stage.createDirectories_ok hs] at hadds
    rw [Stage.createDirectories_ok hs'] at hadds'
    exact ⟨rfl, hstem, (twins_createDirectories _ htwins hs hs').2, hkeeps.addDirectories hadds,
      hkeeps'.addDirectories hadds'⟩
  · intro s s' t t' _ _ ⟨hstem, htwins, hkeeps, hkeeps'⟩ hs hs'
    have htwins' := (twins_write _ _ htwins hs hs').2
    rw [hstem] at htwins'
    exact ⟨rfl, htwins', hkeeps.write (write_ok (Stage.write_ok hs)),
      hkeeps'.write (write_ok (Stage.write_ok hs'))⟩

/-- Behind the walk, the artifact of every source is the same with both stores. -/
theorem walk_alike {paths : List Text} (hpaths : ∀ path ∈ paths, place path ∈ A) (W : Set Text) :
    Stage.Alike (p.WalkTwins A s₀ s₀' W) (p.walk paths) fun _ =>
      p.WalkTwins A s₀ s₀' (W ∪ {q | ∃ path ∈ paths, p.artifactPath (Path.stem path) = q}) :=
  have heach := Stage.alike_each_adding (fun path hpath W =>
    walkFile_alike hreader hreader' (hpaths path hpath) W) W
  Stage.alike_bind heach.inBatches fun _ => Stage.alike_pure fun _ _ h => h

end

/-! ### The merge and the rendering -/

/-- Artifacts are alike with stores that have the same texts wherever artifacts are read. -/
theorem artifacts_alike
    (hA : ∀ q, (p.artifactAt? q).isSome → q ∈ A ∨ ∃ path ∈ W, place path = q) :
    Stage.Alike (Twins A W) p.artifacts fun _ => Twins A W := by
  intro s s' t t' artifacts artifacts' htwins hs hs'
  have heq := artifacts_eq hs hs' fun q hq => htwins.textAt? (hA q hq)
  obtain ⟨_, rfl⟩ := artifacts_ok hs
  obtain ⟨_, rfl⟩ := artifacts_ok hs'
  exact ⟨heq, htwins⟩

def sitemapPath (p : Project) : Text := join p.config.siteDir "sitemap.xml"

theorem merge_alike (hA : ∀ q, (p.artifactAt? q).isSome → q ∈ A ∨ ∃ path ∈ W, place path = q) :
    Stage.Alike (Twins A W) p.merge fun _ =>
      Twins A (W ∪ {p.config.labelIndex} ∪ {p.config.recordIndex} ∪ {p.sitemapPath}) :=
  Stage.alike_bind (artifacts_alike hA) fun _ =>
    Stage.alike_bind (twins_writeInside _ _) fun _ =>
    Stage.alike_bind (twins_writeInside _ _) fun _ =>
    Stage.alike_bind (twins_createDirectories _) fun _ =>
    Stage.alike_bind (Stage.alike_ofExcept _) fun _ =>
    Stage.alike_bind (twins_write _ _) fun _ => Stage.alike_pure fun _ _ h => h

theorem template_alike (hA : ∀ path ∈ p.config.template, place path ∈ A) :
    Stage.Alike (Twins A W) p.template fun _ => Twins A W := by
  unfold template
  cases htemplate : p.config.template with
  | none => exact Stage.alike_pure fun _ _ h => h
  | some path =>
    exact Stage.alike_bind (twins_textOf (.inl (hA path htemplate))) fun _ =>
      Stage.alike_ofExcept _

theorem renderPage_alike (site : SiteContext) (a : Artifact) :
    Stage.Alike (Twins A W) (p.renderPage site a) fun _ => Twins A W :=
  Stage.alike_bind (Stage.alike_ofExcept _) fun _ =>
    Stage.alike_bind ((twins_write _ _).weaken fun _ _ _ h => h.mono Set.subset_union_left) fun _ =>
    Stage.alike_pure fun _ _ h => h

theorem preparePages_alike
    (hA : ∀ q, (p.artifactAt? q).isSome → q ∈ A ∨ ∃ path ∈ W, place path = q)
    (htemplate : ∀ path ∈ p.config.template, place path ∈ A) (hlabels : p.config.labelIndex ∈ W)
    (hrecords : p.config.recordIndex ∈ W) :
    Stage.Alike (Twins A W) p.preparePages fun _ => Twins A W :=
  Stage.alike_bind (artifacts_alike hA) fun _ =>
    Stage.alike_bind (twins_textOf (.inr hlabels)) fun _ =>
    Stage.alike_bind (Stage.alike_ofExcept _) fun _ =>
    Stage.alike_bind (twins_textOf (.inr hrecords)) fun _ =>
    Stage.alike_bind (Stage.alike_ofExcept _) fun _ =>
    Stage.alike_bind (template_alike htemplate) fun _ =>
    Stage.alike_bind (Stage.alike_ofExcept _) fun _ =>
    Stage.alike_bind (twins_createDirectories _) fun _ => Stage.alike_pure fun _ _ h => h

theorem render_alike (hA : ∀ q, (p.artifactAt? q).isSome → q ∈ A ∨ ∃ path ∈ W, place path = q)
    (htemplate : ∀ path ∈ p.config.template, place path ∈ A) (hlabels : p.config.labelIndex ∈ W)
    (hrecords : p.config.recordIndex ∈ W) :
    Stage.Alike (Twins A W) p.render fun _ => Twins A W :=
  Stage.alike_bind (preparePages_alike hA htemplate hlabels hrecords) fun _ =>
    Stage.alike_bind (Stage.alike_each fun a _ => renderPage_alike _ a).inBatches fun _ =>
    Stage.alike_pure fun _ _ h => h

/-! ### Builds -/

/-- A build knows the day only from the date that it puts on the pages. -/
theorem build_today {day : Date} (h : p.config.date day = p.config.date p.today) :
    ({ p with today := day } : Project).build = p.build := by
  have hmerge : ({ p with today := day } : Project).merge = p.merge := by
    unfold merge
    simp only [h]
    rfl
  have hprepare : ({ p with today := day } : Project).preparePages = p.preparePages := by
    unfold preparePages
    simp only [h]
    rfl
  have hrender : ({ p with today := day } : Project).render = p.render := by
    unfold render
    rw [hprepare]
    rfl
  unfold build
  rw [hmerge, hrender]
  rfl

/-- What a build with given sources does is alike with stores that have the same inputs, and so are
the indexes and the sitemap. -/
theorem stages_alike {f : Text → Except Failure (List Block)} (hreader : p.ReadsBy f s₀)
    (hreader' : p.ReadsBy f s₀') {paths : List Text} :
    Stage.Alike (p.WalkTwins (p.inputs paths) s₀ s₀' ∅)
      (do
        let walked ← p.walk paths
        let merged ← p.merge
        let rendered ← p.render
        return (walked.absorb merged).absorb rendered)
      fun _ => Twins (p.inputs paths)
        {p.config.labelIndex, p.config.recordIndex, p.sitemapPath} := by
  have hA {W : Set Text} (hW : {q | ∃ path ∈ paths, p.artifactPath (Path.stem path) = q} ⊆ W)
      (q : Text) (hq : (p.artifactAt? q).isSome) :
      q ∈ p.inputs paths ∨ ∃ path ∈ W, place path = q := by
    by_cases hwritten : ∃ path ∈ paths, q = p.artifactPlace (Path.stem path)
    · obtain ⟨path, hpath, rfl⟩ := hwritten
      exact .inr ⟨_, hW ⟨path, hpath, rfl⟩, rfl⟩
    · exact .inl (.inr (.inr ⟨hq, fun path hpath heq => hwritten ⟨path, hpath, heq⟩⟩))
  have hwalk := walk_alike hreader hreader' (A := p.inputs paths)
    (fun path hpath => .inl ⟨path, hpath, rfl⟩) ∅
  have hrender := render_alike (A := p.inputs paths) (W := ∅ ∪
    {q | ∃ path ∈ paths, p.artifactPath (Path.stem path) = q} ∪ {p.config.labelIndex} ∪
    {p.config.recordIndex} ∪ {p.sitemapPath})
    (hA fun q hq => .inl (.inl (.inl (.inr hq))))
    (fun path hpath => .inr (.inl ⟨path, hpath, rfl⟩)) (.inl (.inl (.inr rfl))) (.inl (.inr rfl))
  refine Stage.alike_bind (hwalk.weaken fun _ _ _ h => h.1) fun _ =>
    Stage.alike_bind (merge_alike (hA fun q hq => .inr hq)) fun _ =>
    Stage.alike_bind hrender fun _ => Stage.alike_pure fun _ _ h => h.mono ?_
  rintro q (rfl | rfl | rfl)
  · exact .inl (.inl (.inr rfl))
  · exact .inl (.inr rfl)
  · exact .inr rfl

/-- Builds of stores with the same inputs write the same indexes and the same sitemap and report the
same, whatever else earlier builds have left, if the artifacts left over of other sources are the
same too. The sources may have been walked before as something else: such artifacts are replaced. -/
theorem build_indexes_of_sameInputs {f : Text → Except Failure (List Block)} {s s' t t' : Store}
    {paths : List Text} {r r' : Report} {day : Date} (hs : s.Sound) (hs' : s'.Sound)
    (hreader : p.ReadsBy f s) (hreader' : p.ReadsBy f s')
    (hday : p.config.date day = p.config.date p.today) (hinputs : p.SameInputs paths s s')
    (hleft : ∀ q, p.IsLeftOver paths q → s'.textAt? q = s.textAt? q)
    (h : p.build s = (.ok r, t))
    (h' : ({ p with today := day } : Project).build s' = (.ok r', t')) :
    r' = r ∧ ∀ path ∈ [p.config.labelIndex, p.config.recordIndex, p.sitemapPath],
      ∃ text, t.read path = .ok text ∧ t'.read path = .ok text := by
  rw [build_today hday] at h'
  obtain ⟨found, u, hfound, h⟩ := Stage.bind_ok h
  obtain ⟨found', u', hfound', h'⟩ := Stage.bind_ok h'
  obtain rfl := sources_still hfound
  obtain rfl := sources_still hfound'
  obtain rfl := Except.ok.inj (hinputs.sources.symm.trans (congrArg Prod.fst hfound))
  obtain rfl := Except.ok.inj (hinputs.sources'.symm.trans (congrArg Prod.fst hfound'))
  have htwins : Twins (p.inputs paths) ∅ s s' := by
    refine ⟨⟨hs, hs'⟩, fun {q} hq => ?_, fun hpath => absurd hpath (Set.notMem_empty _)⟩
    rcases hq with ⟨path, hpath, rfl⟩ | ⟨path, hpath, rfl⟩ | hq
    · exact hinputs.texts path hpath
    · exact hinputs.template path hpath
    · exact hleft q hq
  obtain ⟨heq, hend⟩ := stages_alike hreader hreader' ⟨htwins, .refl s, .refl s'⟩ h h'
  refine ⟨heq, fun path hpath => hend.read ?_⟩
  simpa [or_assoc] using hpath

def twoPages (label : Text) : Store :=
  [("tex/a.tex", "\\label\x7b" ++ label ++ "\x7d\n"), ("tex/b.tex", "\\ref\x7bx\x7d\n")].foldl
    (fun s e => s.insert e.1 (.file e.2 false)) (Store.empty.insert "tex" .directory)

def editedPages : Store :=
  (plain.build (twoPages "y")).2.insert "tex/a.tex" (.file "\\label\x7bx\x7d\n" false)

theorem build_indexes_of_editedPage : let fresh := twoPages "x"
    let reads := fun text => Except.ok (Source.readBlocks text)
    let paths := [("tex/a.tex" : Text), "tex/b.tex"]
    fresh.Sound ∧ editedPages.Sound ∧ plain.ReadsBy reads fresh ∧ plain.ReadsBy reads editedPages ∧
      plain.SameInputs paths fresh editedPages ∧
      (∀ q, plain.IsLeftOver paths q → editedPages.textAt? q = fresh.textAt? q) ∧
      ∃ t t', plain.build fresh = (.ok ⟨2, 0, 0⟩, t) ∧
        plain.build editedPages = (.ok ⟨2, 0, 0⟩, t') ∧
        ∀ path ∈ [plain.config.labelIndex, plain.config.recordIndex, plain.sitemapPath],
          ∃ text, t.read path = .ok text ∧ t'.read path = .ok text := by
  intro fresh reads paths
  have hfresh : (∀ e ∈ fresh.nodes.entries, e.2 ≠ .sink ∧
        (fresh.at? (above e.1)).any Node.isDirectory) ∧
      (plain.sources fresh).1 = .ok paths ∧
      (∀ path ∈ paths, editedPages.textAt? (place path) = fresh.textAt? (place path)) ∧
      plain.artifactPlaces fresh = [] ∧ (plain.build fresh).1 = .ok ⟨2, 0, 0⟩ := by
    decide +kernel
  have hedited : (∀ e ∈ editedPages.nodes.entries, e.2 ≠ .sink ∧
        (editedPages.at? (above e.1)).any Node.isDirectory) ∧
      (plain.sources editedPages).1 = .ok paths ∧
      plain.artifactPlaces editedPages =
        paths.map (fun path => plain.artifactPlace (Path.stem path)) ∧
      (plain.build editedPages).1 = .ok ⟨2, 0, 0⟩ := by
    decide +kernel
  obtain ⟨hheld, hsources, htexts, hplaces, hbuild⟩ := hfresh
  obtain ⟨hheld', hsources', hplaces', hbuild'⟩ := hedited
  have hsound : fresh.Sound := sound_of_entries hheld
  have hsound' : editedPages.Sound := sound_of_entries hheld'
  have hreads : plain.ReadsBy reads fresh := readsBy_builtin rfl fresh
  have hreads' : plain.ReadsBy reads editedPages := readsBy_builtin rfl editedPages
  have hinputs : plain.SameInputs paths fresh editedPages := ⟨hsources, hsources', htexts, nofun⟩
  have hleft (q : Text) (hq : plain.IsLeftOver paths q) :
      editedPages.textAt? q = fresh.textAt? q := by
    have hnone : fresh.textAt? q = none := hq.textAt? (by simp [hplaces])
    have hnone' : editedPages.textAt? q = none := hq.textAt? fun place hplace => by
      rw [hplaces'] at hplace
      obtain ⟨path, hpath, heq⟩ := List.mem_map.1 hplace
      exact ⟨path, hpath, heq.symm⟩
    rw [hnone, hnone']
  have h : plain.build fresh = (.ok ⟨2, 0, 0⟩, (plain.build fresh).2) := Prod.ext hbuild rfl
  have h' : plain.build editedPages = (.ok ⟨2, 0, 0⟩, (plain.build editedPages).2) :=
    Prod.ext hbuild' rfl
  exact ⟨hsound, hsound', hreads, hreads', hinputs, hleft, _, _, h, h',
    (build_indexes_of_sameInputs hsound hsound' hreads hreads' rfl hinputs hleft h h').2⟩

end Project

end TexCatalog
