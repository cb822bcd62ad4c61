import Mathlib.Data.List.Nodup
import Mathlib.Data.List.Sort
import TexCatalog.Proofs.FormRelations
import TexCatalog.Proofs.GrowingStores
import TexCatalog.Proofs.StageRules
import TexCatalog.Site.Project

/-!
# Listings of directories

A stage looks for the files of a directory that have an extension. A listing has them in the order
of their places, and each of them is known from its place.
-/

namespace TexCatalog

open TexCatalog.Path

namespace Path

/-- A file name with an extension is its stem, a dot and the extension. -/
theorem splitName_eq {name extension : Text} (h : (splitName name).2 = some extension) :
    (splitName name).1 ≠ [] ∧ name = (splitName name).1 ++ '.' :: extension := by
  unfold splitName at h ⊢
  split at h
  · cases h
  · next front back hcut =>
    split at h
    · cases h
    · next hne =>
      cases h
      rw [if_neg hne]
      exact ⟨hne, by simpa using Text.cutLast?_eq hcut⟩

theorem isName_of_extension {name extension : Text} (h : (splitName name).2 = some extension)
    (hne : extension ≠ []) (hslash : '/' ∉ name) : IsName name := by
  refine ⟨?_, fun hdots => ?_, hslash⟩
  · rintro rfl
    cases h
  · simp only [isDots, Bool.or_eq_true, beq_iff_eq] at hdots
    rcases hdots with rfl | rfl
    · cases (h.symm.trans (by decide : (splitName ['.']).2 = none))
    · exact hne (Option.some.inj (h.symm.trans (by decide)))

end Path

namespace Store

theorem nameIn?_eq {dir q name : Text} (h : nameIn? dir q = some name) : '/' ∉ name ∧
    (IsName name → q = join dir name) := by
  obtain ⟨hname, hslash⟩ := Option.filter_eq_some_iff.1 h
  refine ⟨by simpa using hslash, fun hisName => ?_⟩
  split at hname
  · next hdir =>
    cases hname
    rw [hdir, join, if_neg hisName.head_ne, if_pos (.inl rfl), List.nil_append]
  · next hdir =>
    rw [Text.isPrefixOf?_eq_some.1 hname, join, join, if_neg hisName.head_ne]
    by_cases hlast : dir.getLast? = some '/'
    · simp [hlast]
    · simp [hdir, hlast]

theorem nameIn?_join {dir name : Text} (h : IsName name) :
    nameIn? dir (join dir name) = some name := by
  have hkeep : Option.filter (fun name => !name.contains '/') (some name) = some name := by
    simp [h.slash]
  unfold nameIn?
  split
  · next hdir => rw [hdir, join, if_neg h.head_ne, if_pos (.inl rfl), List.nil_append, hkeep]
  · next hdir =>
    have hcut : (join dir []).isPrefixOf? (join dir name) = some name := by
      rw [Text.isPrefixOf?_eq_some, join, join, if_neg h.head_ne]
      by_cases hlast : dir.getLast? = some '/'
      · simp [hlast]
      · simp [hdir, hlast]
    rw [hcut, hkeep]

theorem list_ok {s : Store} {path : Text} {entries : List (Text × Node)}
    (h : s.list path = .ok entries) : entries = s.nodes.entries.filterMap fun e =>
      (nameIn? (place path) e.1).map fun name => (name, e.2) := by
  unfold list at h
  split at h
  · cases h
  · next q hlocate =>
    obtain rfl := locate_place hlocate
    split at h
    · cases h
      rfl
    · cases h

/-- A directory that can be listed can be listed later. -/
theorem Extends.list {s t : Store} (h : s.Extends t) {path : Text} {entries : List (Text × Node)}
    (hlist : s.list path = .ok entries) : ∃ entries', t.list path = .ok entries' := by
  unfold Store.list at hlist ⊢
  cases hlocate : s.locate path with
  | error fault => rw [hlocate] at hlist; cases hlist
  | ok q =>
    rw [hlocate] at hlist
    rw [h.locate hlocate]
    dsimp only at hlist ⊢
    split at hlist
    · next hdir => exact ⟨_, if_pos (h.isDirectory hdir)⟩
    · cases hlist

def namedAt? (directory extension q : Text) : Option Text :=
  (nameIn? (place directory) q).filter fun name => (splitName name).2 == some extension

theorem namedAt?_eq {directory extension q name : Text} (hne : extension ≠ [])
    (h : namedAt? directory extension q = some name) :
    (splitName name).2 = some extension ∧ IsName name ∧ q = join (place directory) name := by
  obtain ⟨hname, hext⟩ := Option.filter_eq_some_iff.1 h
  obtain ⟨hslash, hjoin⟩ := nameIn?_eq hname
  have hisName := isName_of_extension (beq_iff_eq.1 hext) hne hslash
  exact ⟨beq_iff_eq.1 hext, hisName, hjoin hisName⟩

theorem namedAt?_join {directory extension name : Text}
    (hext : (splitName name).2 = some extension) (hname : IsName name) :
    namedAt? directory extension (join (place directory) name) = some name := by
  rw [namedAt?, nameIn?_join hname, Option.filter_some, if_pos (beq_iff_eq.2 hext)]

/-- The system has no file with an extension. -/
theorem fixed?_named {directory extension q name : Text} (hne : extension ≠ [])
    (h : namedAt? directory extension q = some name) : fixed? q = none := by
  obtain ⟨hext, hname, rfl⟩ := namedAt?_eq hne h
  have hsystem : ∀ q ∈ ("/dev/null" : Text) :: systemDirectories,
      (splitName (lastName q)).2 = none := by
    decide +kernel
  have hother : join (place directory) name ∉ ("/dev/null" : Text) :: systemDirectories := by
    intro hmem
    have hnone := hsystem _ hmem
    rw [lastName_join _ hname, hext] at hnone
    cases hnone
  rw [List.mem_cons, not_or] at hother
  have hnil : join (place directory) name ≠ [] := by
    intro hnil
    have hlast := lastName_join (place directory) hname
    rw [hnil] at hlast
    exact hname.ne_nil hlast.symm
  unfold fixed? at?
  rw [if_neg, if_neg hother.1]
  · rfl
  · rintro (h | h | h)
    · exact hnil h
    · exact not_isAround_join _ hname h
    · exact hother.2 (List.contains_iff_mem.1 h)

end Store

namespace Project

open Store

/-- The entries of a listing with an extension. -/
theorem entriesWith_list (extension directory : Text) (entries : List (Text × Node)) :
    entriesWith extension directory (entries.filterMap fun e =>
      (nameIn? (place directory) e.1).map fun name => (name, e.2)) =
    entries.filterMap fun e =>
      (namedAt? directory extension e.1).map fun name => (join directory name, e.2) := by
  rw [entriesWith, List.filter_filterMap, List.map_filterMap]
  congr 1
  funext e
  unfold namedAt?
  cases nameIn? (place directory) e.1 with
  | none => rfl
  | some name =>
    by_cases hext : (splitName name).2 = some extension
    · simp [hext, Option.filter_some]
    · simp [hext, Option.filter_some]

end Project

/-! ## What the artifacts are read from

All files with the extension of an artifact are read that stand in the directory of the artifacts,
whoever wrote them. What comes of them depends on the texts at these places only: the places that
have a text are listed in ascending order, and no other node can be among them.
-/

namespace Project

variable (p : Project)

def artifactAt? (q : Text) : Option Text :=
  (Store.nameIn? (place p.config.intermediateDir) q).filter fun name =>
    (splitName name).2 == some ("json" : Text)

def artifactPlaces (s : Store) : List Text :=
  (s.nodes.entries.map Prod.fst).filter fun q => (p.artifactAt? q).isSome

def artifactPaths (s : Store) : List Text :=
  (p.artifactPlaces s).filterMap fun q => (p.artifactAt? q).map (join p.config.intermediateDir)

def ArtifactIn (s : Store) (path : Text) (a : Artifact) : Prop :=
  ∃ text, s.read path = .ok text ∧ Artifact.ofText text = .ok a

def ArtifactAt (s : Store) (q : Text) (a : Artifact) : Prop :=
  ∃ text, s.textAt? q = some text ∧ Artifact.ofText text = .ok a

variable {p} {s s' t : Store}

theorem artifactAt?_eq {q name : Text} (h : p.artifactAt? q = some name) :
    (splitName name).2 = some ("json" : Text) ∧ IsName name ∧
      q = join (place p.config.intermediateDir) name :=
  Store.namedAt?_eq (by simp) h

/-- The listing of the directory is a listing of the paths. -/
theorem map_fst_entriesWith {entries : List (Text × Node)}
    (h : s.list p.config.intermediateDir = .ok entries) :
    (entriesWith "json" p.config.intermediateDir entries).map Prod.fst = p.artifactPaths s := by
  rw [Store.list_ok h, entriesWith_list, artifactPaths, artifactPlaces, List.filterMap_filter,
    List.filterMap_map, List.map_filterMap]
  congr 1
  funext e
  change ((p.artifactAt? e.1).map fun name => (join p.config.intermediateDir name, e.2)).map
    Prod.fst = if (p.artifactAt? e.1).isSome then
      (p.artifactAt? e.1).map (join p.config.intermediateDir) else none
  cases p.artifactAt? e.1 <;> rfl

/-- The paths lead to the places. -/
theorem map_place_artifactPaths (s : Store) :
    (p.artifactPaths s).map place = p.artifactPlaces s := by
  have hplaces : ∀ q ∈ p.artifactPlaces s, (p.artifactAt? q).isSome := fun q hq =>
    (List.mem_filter.1 hq).2
  unfold artifactPaths
  generalize p.artifactPlaces s = places at hplaces
  induction places with
  | nil => rfl
  | cons q places ih =>
    obtain ⟨hq, hplaces⟩ := List.forall_mem_cons.1 hplaces
    obtain ⟨name, hname⟩ := Option.isSome_iff_exists.1 hq
    obtain ⟨_, hisName, hplace⟩ := artifactAt?_eq hname
    rw [List.filterMap_cons_some (by rw [hname]; rfl), List.map_cons, ih hplaces,
      place_join _ hisName, ← hplace]

theorem readArtifact_ok_iff {path : Text} {a : Artifact} :
    (do .ofExcept (Artifact.ofText (← .textOf path)) : Stage Artifact) s = (.ok a, t) ↔
      ArtifactIn s path a ∧ s = t := by
  constructor
  · intro h
    obtain ⟨text, u, htext, h⟩ := Stage.bind_ok h
    obtain ⟨hread, rfl⟩ := Stage.textOf_ok htext
    obtain ⟨hartifact, rfl⟩ := Stage.ofExcept_ok h
    exact ⟨⟨text, hread, hartifact⟩, rfl⟩
  · rintro ⟨⟨text, hread, hartifact⟩, rfl⟩
    rw [Stage.bind_of_ok (Stage.textOf_of_ok hread), hartifact]
    rfl

/-- All files with the extension are read as artifacts, of which there must be one. -/
theorem artifacts_ok_iff {artifacts : List Artifact} :
    p.artifacts s = (.ok artifacts, t) ↔ s.isDirectory p.config.intermediateDir ∧
      (∃ entries, s.list p.config.intermediateDir = .ok entries) ∧
      List.Forall₂ (ArtifactIn s) (p.artifactPaths s) artifacts ∧ artifacts ≠ [] ∧ s = t := by
  have heach {entries : List (Text × Node)} (hlist : s.list p.config.intermediateDir = .ok entries)
      (found : List Artifact) (u : Store) :
      Stage.each (fun e : Text × Node => do .ofExcept (Artifact.ofText (← .textOf e.1)))
        (entriesWith "json" p.config.intermediateDir entries) s = (.ok found, u) ↔
      List.Forall₂ (ArtifactIn s) (p.artifactPaths s) found ∧ s = u := by
    rw [Stage.each_ok_iff fun hread => (readArtifact_ok_iff.1 hread).2, ← map_fst_entriesWith hlist,
      List.forall₂_map_left_iff]
    simp only [readArtifact_ok_iff, and_true]
  unfold Project.artifacts
  constructor
  · intro h
    obtain ⟨_, _, hstore, h⟩ := Stage.bind_ok h
    cases hstore
    split at h
    · next hdir =>
      obtain ⟨entries, u, hlist, h⟩ := Stage.bind_ok h
      obtain ⟨found, v, hfound, h⟩ := Stage.bind_ok h
      split at h
      · cases h
      next hne =>
      obtain ⟨rfl, rfl⟩ := Stage.pure_ok h
      obtain ⟨hentries, rfl⟩ := Stage.list_ok hlist
      obtain ⟨hall, rfl⟩ := (heach hentries _ _).1 hfound
      exact ⟨hdir, ⟨entries, hentries⟩, hall, by simpa using hne, rfl⟩
    · cases h
  · rintro ⟨hdir, ⟨entries, hentries⟩, hall, hne, rfl⟩
    rw [Stage.bind_of_ok (rfl : Stage.store s = (.ok s, s)), if_pos hdir,
      Stage.bind_of_ok (Stage.list_of_ok hentries),
      Stage.bind_of_ok ((heach hentries artifacts s).2 ⟨hall, rfl⟩), if_neg (by simpa using hne)]
    rfl

/-- Artifacts are read from all places at which something stands that is read as one. -/
theorem artifacts_ok {artifacts : List Artifact} (h : p.artifacts s = (.ok artifacts, t)) :
    List.Forall₂ (ArtifactAt s) (p.artifactPlaces s) artifacts ∧ s = t := by
  obtain ⟨_, _, hall, _, rfl⟩ := artifacts_ok_iff.1 h
  refine ⟨?_, rfl⟩
  rw [← map_place_artifactPaths, List.forall₂_map_left_iff]
  refine hall.imp ?_
  rintro path a ⟨text, hread, ha⟩
  exact ⟨text, (Store.read_eq_ok_iff.1 hread).2, ha⟩

/-- Something stands at the places of artifacts, and at no others that could be. -/
theorem mem_artifactPlaces_iff {q : Text} :
    q ∈ p.artifactPlaces s ↔ (p.artifactAt? q).isSome ∧ (s.at? q).isSome := by
  rw [artifactPlaces, List.mem_filter, and_comm]
  refine and_congr_right fun hq => ?_
  obtain ⟨name, hname⟩ := Option.isSome_iff_exists.1 hq
  rw [Store.at?_eq_get? (Store.fixed?_named (by simp) hname), Option.isSome_iff_exists]
  constructor
  · intro hmem
    obtain ⟨e, he, rfl⟩ := List.mem_map.1 hmem
    exact ⟨e.2, TextMap.mem_entries.1 he⟩
  · rintro ⟨node, hnode⟩
    exact List.mem_map.2 ⟨(q, node), TextMap.mem_entries.2 hnode, rfl⟩

/-- A place at which a text stands is read from, if it can be. -/
theorem mem_artifactPlaces {q : Text} (hq : (p.artifactAt? q).isSome) (h : (s.textAt? q).isSome) :
    q ∈ p.artifactPlaces s := by
  refine mem_artifactPlaces_iff.2 ⟨hq, ?_⟩
  rw [Store.textAt?] at h
  cases hnode : s.at? q with
  | none => rw [hnode] at h; cases h
  | some node => rfl

theorem sorted_artifactPlaces (s : Store) : (p.artifactPlaces s).Pairwise (· < ·) :=
  (List.pairwise_map.2 s.nodes.sorted).filter _

/-- Two stores with the same texts where artifacts are read give the same artifacts. -/
theorem artifacts_eq {artifacts artifacts' : List Artifact} {t' : Store}
    (h : p.artifacts s = (.ok artifacts, t)) (h' : p.artifacts s' = (.ok artifacts', t'))
    (hsame : ∀ q, (p.artifactAt? q).isSome → s'.textAt? q = s.textAt? q) :
    artifacts' = artifacts := by
  obtain ⟨hall, _⟩ := artifacts_ok h
  obtain ⟨hall', _⟩ := artifacts_ok h'
  have htext {u : Store} {found : List Artifact}
      (hfound : List.Forall₂ (ArtifactAt u) (p.artifactPlaces u) found) {q : Text}
      (hq : q ∈ p.artifactPlaces u) : (p.artifactAt? q).isSome ∧ (u.textAt? q).isSome := by
    obtain ⟨a, _, text, hread, _⟩ := exists_of_mem_right hfound.flip hq
    exact ⟨(List.mem_filter.1 hq).2, by rw [hread]; rfl⟩
  have hplaces : p.artifactPlaces s' = p.artifactPlaces s := by
    refine (sorted_artifactPlaces s').eq_of_mem_iff (sorted_artifactPlaces s) fun q =>
      ⟨fun hq => ?_, fun hq => ?_⟩
    · obtain ⟨hname, hsome⟩ := htext hall' hq
      exact mem_artifactPlaces hname (hsame q hname ▸ hsome)
    · obtain ⟨hname, hsome⟩ := htext hall hq
      exact mem_artifactPlaces hname (by rwa [hsame q hname])
  have hunique : Relator.RightUnique (ArtifactAt s) := by
    rintro q a b ⟨text, htext, ha⟩ ⟨text', htext', hb⟩
    obtain rfl := Option.some.inj (htext.symm.trans htext')
    exact Except.ok.inj (ha.symm.trans hb)
  rw [hplaces] at hall'
  have hnamed := (List.forall₂_and_left _ _).2
    ⟨fun q (hq : q ∈ p.artifactPlaces s) => (List.mem_filter.1 hq).2, hall'⟩
  have hsecond : List.Forall₂ (ArtifactAt s) (p.artifactPlaces s) artifacts' := by
    refine hnamed.imp ?_
    rintro q a ⟨hname, text, htext, ha⟩
    exact ⟨text, hsame q hname ▸ htext, ha⟩
  exact hunique.forall₂ hsecond hall

/-- A store that goes on to grow gives the same artifacts, as long as nothing comes and no text is
changed where artifacts are read. -/
theorem artifacts_again {artifacts : List Artifact} (h : p.artifacts s = (.ok artifacts, s'))
    (hgrown : s.Extends t)
    (hsame : ∀ q, (p.artifactAt? q).isSome → t.textAt? q = s.textAt? q ∧
      ((t.at? q).isSome → (s.at? q).isSome)) : p.artifacts t = (.ok artifacts, t) := by
  obtain ⟨hdir, ⟨entries, hentries⟩, hall, hne, rfl⟩ := artifacts_ok_iff.1 h
  have hplaces : p.artifactPlaces t = p.artifactPlaces s := by
    refine (sorted_artifactPlaces t).eq_of_mem_iff (sorted_artifactPlaces s) fun q => ?_
    rw [mem_artifactPlaces_iff, mem_artifactPlaces_iff]
    exact and_congr_right fun hq => ⟨(hsame q hq).2, hgrown.isSome⟩
  refine artifacts_ok_iff.2 ⟨hgrown.isDirectory_path hdir, hgrown.list hentries, ?_, hne, rfl⟩
  have hread : ∀ path ∈ p.artifactPaths s, (p.artifactAt? (place path)).isSome := fun path hpath =>
    (mem_artifactPlaces_iff.1 (map_place_artifactPaths s ▸ List.mem_map_of_mem hpath)).1
  rw [artifactPaths, hplaces, ← artifactPaths]
  refine ((List.forall₂_and_left _ _).2 ⟨hread, hall⟩).imp ?_
  rintro path a ⟨hpath, text, htext, ha⟩
  exact ⟨text, hgrown.read_same htext (hsame _ hpath).1, ha⟩

end Project

/-! ## What the sources are

The sources of a site are the files with the extension of a source that stand in the directory of
the sources. Each is known by its stem, and stores with the same files there have the same sources.
-/

open Store

namespace Project

variable (p : Project)

def sourceName (stem : Text) : Text := stem ++ '.' :: ['t', 'e', 'x']

def sourcePath (stem : Text) : Text := join p.config.sourceDir (sourceName stem)

/-- A file with the name of a source stands directly in the directory of the sources. -/
structure IsSource (s : Store) (stem : Text) : Prop where
  ne_nil : stem ≠ []
  slash : '/' ∉ stem
  file : (s.at? (join (place p.config.sourceDir) (sourceName stem))).any Node.isFile

def sourceAt? (q : Text) : Option Text := namedAt? p.config.sourceDir "tex" q

def sourcePlaces (s : Store) : List Text :=
  ((s.nodes.entries.filter fun e => e.2.isFile).map Prod.fst).filter fun q => (p.sourceAt? q).isSome

variable {p} {s s' t : Store} {paths : List Text}

/-! ### Names of sources -/

theorem splitName_sourceName {stem : Text} (hne : stem ≠ []) :
    splitName (sourceName stem) = (stem, some ("tex" : Text)) := by
  rw [sourceName, splitName_append hne (by decide)]
  simp

theorem isName_sourceName {stem : Text} (hne : stem ≠ []) (hslash : '/' ∉ stem) :
    IsName (sourceName stem) :=
  isName_of_extension (congrArg Prod.snd (splitName_sourceName hne)) (by simp)
    (by simpa [sourceName] using hslash)

theorem place_sourcePath {stem : Text} (hne : stem ≠ []) (hslash : '/' ∉ stem) :
    place (p.sourcePath stem) = join (place p.config.sourceDir) (sourceName stem) :=
  place_join _ (isName_sourceName hne hslash)

/-- What stands where a source can stand has the name of one. -/
theorem sourceAt?_eq {q name : Text} (h : p.sourceAt? q = some name) : ∃ stem, stem ≠ [] ∧
    '/' ∉ stem ∧ name = sourceName stem ∧ q = join (place p.config.sourceDir) name := by
  obtain ⟨hext, hisName, hplace⟩ := namedAt?_eq (by simp) h
  obtain ⟨hne, hsplit⟩ := splitName_eq hext
  refine ⟨(splitName name).1, hne, fun hmem => hisName.slash ?_, ?_, hplace⟩
  · rw [hsplit]
    exact List.mem_append_left _ hmem
  · rwa [Text.ofString_eq] at hsplit

/-- The stem of a source is the stem of its path. -/
theorem stem_sourcePath {stem : Text} (hne : stem ≠ []) (hslash : '/' ∉ stem) :
    Path.stem (p.sourcePath stem) = stem := by
  have hname := isName_sourceName hne hslash
  have hfile : fileName? (p.sourcePath stem) = some (sourceName stem) :=
    fileName?_eq (by rw [sourcePath, steps_join _ hname]; simp) hname.not_dots
  rw [Path.stem, hfile, Option.map_some, splitName_sourceName hne]
  rfl

/-! ### The listing -/

theorem sources_ok (h : p.sources s = (.ok paths, t)) :
    paths = (p.sourcePlaces s).filterMap (fun q => (p.sourceAt? q).map (join p.config.sourceDir)) ∧
      s = t := by
  obtain ⟨entries, u, hlist, h⟩ := Stage.bind_ok h
  obtain ⟨hentries, rfl⟩ := Stage.list_ok hlist
  obtain ⟨rfl, rfl⟩ := Stage.pure_ok h
  refine ⟨?_, rfl⟩
  rw [Store.list_ok hentries, entriesWith_list, sourcePlaces, List.filterMap_filter,
    List.filterMap_map, List.filterMap_filter, List.filter_filterMap, List.map_filterMap]
  congr 1
  funext e
  change _ = if e.2.isFile then if (p.sourceAt? e.1).isSome then
    (p.sourceAt? e.1).map (join p.config.sourceDir) else none else none
  change (((p.sourceAt? e.1).map fun name => (join p.config.sourceDir name, e.2)).filter
    fun e => e.2.isFile).map Prod.fst = _
  cases p.sourceAt? e.1 with
  | none => simp
  | some name => cases hfile : e.2.isFile <;> simp [Option.filter_some, hfile]

theorem sorted_sourcePlaces (s : Store) : (p.sourcePlaces s).Pairwise (· < ·) :=
  (List.pairwise_map.2 (s.nodes.sorted.filter _)).filter _

theorem mem_sourcePlaces {q : Text} :
    q ∈ p.sourcePlaces s ↔ (p.sourceAt? q).isSome ∧ (s.at? q).any Node.isFile := by
  rw [sourcePlaces, List.mem_filter, and_comm]
  refine and_congr_right fun hq => ?_
  obtain ⟨name, hname⟩ := Option.isSome_iff_exists.1 hq
  rw [at?_eq_get? (fixed?_named (by simp) hname), Option.any_eq_true]
  constructor
  · intro hmem
    obtain ⟨e, he, rfl⟩ := List.mem_map.1 hmem
    obtain ⟨he, hfile⟩ := List.mem_filter.1 he
    exact ⟨e.2, TextMap.mem_entries.1 he, hfile⟩
  · rintro ⟨node, hnode, hfile⟩
    exact List.mem_map.2 ⟨(q, node), List.mem_filter.2 ⟨TextMap.mem_entries.2 hnode, hfile⟩, rfl⟩

/-- The paths of the sources are those of the stems with a source. -/
theorem mem_sources (h : p.sources s = (.ok paths, t)) {path : Text} :
    path ∈ paths ↔ ∃ stem, p.IsSource s stem ∧ path = p.sourcePath stem := by
  rw [(sources_ok h).1, List.mem_filterMap]
  constructor
  · rintro ⟨q, hq, hpath⟩
    obtain ⟨_, hfile⟩ := mem_sourcePlaces.1 hq
    obtain ⟨name, hname, rfl⟩ := Option.map_eq_some_iff.1 hpath
    obtain ⟨stem, hne, hslash, rfl, rfl⟩ := sourceAt?_eq hname
    exact ⟨stem, ⟨hne, hslash, hfile⟩, rfl⟩
  · rintro ⟨stem, hsource, rfl⟩
    have hname : p.sourceAt? (join (place p.config.sourceDir) (sourceName stem)) =
        some (sourceName stem) :=
      namedAt?_join (congrArg Prod.snd (splitName_sourceName hsource.ne_nil))
        (isName_sourceName hsource.ne_nil hsource.slash)
    exact ⟨_, mem_sourcePlaces.2 ⟨by rw [hname]; rfl, hsource.file⟩, by rw [hname]; rfl⟩

/-- No two sources have the same stem. -/
theorem nodup_stems (h : p.sources s = (.ok paths, t)) : (paths.map Path.stem).Nodup := by
  have hplaces : (p.sourcePlaces s).Nodup := Text.nodup_of_ascending (sorted_sourcePlaces s)
  have hpaths : paths.Nodup := by
    rw [(sources_ok h).1]
    refine hplaces.filterMap fun q q' path hq hq' => ?_
    have hplace {q : Text} (hq : path ∈ (p.sourceAt? q).map (join p.config.sourceDir)) :
        q = place path := by
      obtain ⟨name, hname, rfl⟩ := Option.map_eq_some_iff.1 hq
      obtain ⟨stem, hne, hslash, rfl, hjoin⟩ := sourceAt?_eq hname
      rw [hjoin, place_join _ (isName_sourceName hne hslash)]
    rw [hplace hq, hplace hq']
  refine hpaths.map_on fun path hpath path' hpath' heq => ?_
  obtain ⟨stem, hsource, rfl⟩ := (mem_sources h).1 hpath
  obtain ⟨stem', hsource', rfl⟩ := (mem_sources h).1 hpath'
  rw [stem_sourcePath hsource.ne_nil hsource.slash,
    stem_sourcePath hsource'.ne_nil hsource'.slash] at heq
  rw [heq]

end Project

end TexCatalog
