import TexCatalog.Proofs.GrowingStores
import TexCatalog.Proofs.RecordCoverage
import TexCatalog.Proofs.WalkAppend
import TexCatalog.Site.Project

/-!
# Steady readers

While a walk goes on, directories and artifacts are added to the files. A reader is steady if it
does not see this: its answers are a function of what it is given, and it leaves the files as they
are. The reader for the source language is steady from any files on. With a steady reader, a page is
walked at any time as it would have been at first.
-/

namespace TexCatalog

open TexCatalog.Path

namespace Project

variable (p : Project)

def artifactPlace (stem : Text) : Text := place (p.artifactPath stem)

/-- What stood goes on to stand, and nothing is new but artifacts and directories. -/
structure Keeps (s t : Store) : Prop where
  grown : s.Extends t
  others {place : Text} : (∀ stem, place ≠ p.artifactPlace stem) →
    t.at? place = s.at? place ∨ s.at? place = none ∧ t.at? place = some .directory

/-- With files `t` the reader answers by `f`, and leaves them as they are. -/
def AnswersBy (f : Text → Except Failure (List Block)) (t : Store) : Prop :=
  ∀ text, p.reader.read text t = (f text, t)

def ReadsBy (f : Text → Except Failure (List Block)) (s : Store) : Prop :=
  ∀ t, p.Keeps s t → p.AnswersBy f t

variable {p}

theorem readsBy_builtin (h : p.config.reader = .builtin) (s : Store) :
    p.ReadsBy (fun text => .ok (Source.readBlocks text)) s := by
  intro t _ text
  have hreader : p.reader = sourceReader := by
    unfold reader
    rw [h]
  rw [hreader]
  rfl

def plain : Project := ⟨{}, ∅, ⟨2024, 5, 1⟩⟩

theorem Keeps.refl (s : Store) : p.Keeps s s :=
  ⟨.refl s, fun _ => .inl rfl⟩

theorem Keeps.addDirectories {s t u : Store} (h : p.Keeps s t) (h' : t.AddsDirectories u) :
    p.Keeps s u := by
  refine ⟨h.grown.trans h'.extends, fun {place} hplace => ?_⟩
  rcases h'.places place with heq | ⟨hnone, hdir⟩
  · rw [heq]
    exact h.others hplace
  · rcases h.others hplace with heq | ⟨_, hdir'⟩
    · exact .inr ⟨heq ▸ hnone, hdir⟩
    · rw [hdir'] at hnone
      cases hnone

theorem Keeps.write {s t u : Store} {stem text : Text} (h : p.Keeps s t)
    (h' : t.Writes u (p.artifactPlace stem) text) : p.Keeps s u := by
  refine ⟨h.grown.trans h'.extends, fun {place} hplace => ?_⟩
  rw [h'.others (hplace stem)]
  exact h.others hplace

/-! ### Walked pages -/

/-- A page is walked with any files as with others, if the reader answers the same. -/
theorem walkText_steady {f : Text → Except Failure (List Block)} {s t : Store}
    (hs : p.AnswersBy f s) (ht : p.AnswersBy f t) (stem source : Text) :
    p.walkText stem source t = ((p.walkText stem source s).1, t) := by
  let ctx : WalkContext := ⟨stem, p.reader, p.bibliography⟩
  have hread (text : Text) : (ctx.read text).StillOn (p.AnswersBy f) := by
    intro u v hu hv
    change Walk.ofStage (p.reader.read text) u = _
    simp only [Walk.ofStage, WalkContext.read, ctx, hu text, hv text]
  have hstill : (walkPage Form.vocabulary ctx source).StillOn (p.AnswersBy f) :=
    Walk.stillOn_bind (hread _) fun blocks => walkBlocks_stillOn hread blocks
  have hpage := hstill t s ht hs
  change (walkPage Form.vocabulary ctx source).finish stem t =
    (((walkPage Form.vocabulary ctx source).finish stem s).1, t)
  simp only [Walk.finish, hpage]
  rcases walkPage Form.vocabulary ctx source s with ⟨r | r, notes, u⟩ <;> rfl

theorem walkText_stem {stem source : Text} {page : Walked} {s : Store}
    (h : (p.walkText stem source s).1 = .ok page) : page.artifact.record.stem = stem := by
  change ((walkPage Form.vocabulary ⟨stem, p.reader, p.bibliography⟩ source).finish stem s).1 = _
    at h
  unfold Walk.finish at h
  rcases hwalk : walkPage Form.vocabulary ⟨stem, p.reader, p.bibliography⟩ source s with
    ⟨r | r, notes, u⟩
  · rw [hwalk] at h
    cases h
  · rw [hwalk] at h
    cases h
    rfl

/-! ### Stems and artifacts -/

def artifactName (stem : Text) : Text := stem ++ '.' :: ['j', 's', 'o', 'n']

theorem isName_artifactName {stem : Text} (h : '/' ∉ stem) : IsName (artifactName stem) := by
  refine ⟨by simp [artifactName], fun hdots => ?_, by simpa [artifactName] using h⟩
  simp only [isDots, Bool.or_eq_true, beq_iff_eq] at hdots
  rcases hdots with hdot | hdot
  all_goals
    have hlength := congrArg List.length hdot
    simp [artifactName] at hlength

theorem artifactPlace_eq {stem : Text} (h : '/' ∉ stem) :
    p.artifactPlace stem = join (place p.config.intermediateDir) (artifactName stem) := by
  have hname : stem ++ (".json" : Text) = artifactName stem := by simp [artifactName]
  rw [artifactPlace, artifactPath, hname, place_join _ (isName_artifactName h)]

theorem artifactPlace_inj {stem stem' : Text} (h : '/' ∉ stem) (h' : '/' ∉ stem')
    (heq : p.artifactPlace stem = p.artifactPlace stem') : stem = stem' := by
  rw [artifactPlace_eq h, artifactPlace_eq h'] at heq
  exact List.append_cancel_right (join_inj (isName_artifactName h) (isName_artifactName h') heq)

/-- No artifact is written into a sink. -/
theorem artifactPlace_not_sink {s : Store} (hs : s.Sound) {stem : Text} (h : '/' ∉ stem) :
    s.at? (p.artifactPlace stem) ≠ some .sink := by
  intro hsink
  have hname := lastName_join (place p.config.intermediateDir) (isName_artifactName h)
  rw [← artifactPlace_eq h, hs.at?_sink hsink] at hname
  have hlast := congrArg List.getLast? hname
  rw [artifactName, List.getLast?_append_of_ne_nil _ (by simp)] at hlast
  exact absurd hlast (by simp only [Text.ofString_eq]; decide)

/-- The stem of a file that is read is not empty. -/
theorem stem_ne_nil {s : Store} (hs : s.Sound) {path text : Text}
    (h : s.read path = .ok text) : Path.stem path ≠ [] := by
  obtain ⟨name, hname, hisName, _⟩ := hs.fileName_read h
  rw [Path.stem, hname]
  change (splitName name).1 ≠ []
  unfold splitName
  split
  · exact hisName.ne_nil
  · split
    · exact hisName.ne_nil
    · next hne => exact hne

/-- A source that stands where the artifact of a page does has the stem of that page. -/
theorem stem_eq_of_artifactPlace {s : Store} (hs : s.Sound) {path text stem : Text}
    (h : s.read path = .ok text) (hne : stem ≠ []) (hslash : '/' ∉ stem)
    (hplace : place path = p.artifactPlace stem) : Path.stem path = stem := by
  obtain ⟨name, hname, _, hlast⟩ := hs.fileName_read h
  rw [hplace, artifactPlace_eq hslash, lastName_join _ (isName_artifactName hslash)] at hlast
  rw [Path.stem, hname]
  change (splitName name).1 = stem
  rw [← hlast, artifactName, splitName_append hne (by decide)]

end Project

end TexCatalog
