import TexCatalog.Proofs.PathPlaces
import TexCatalog.Proofs.SiteIndexes

/-!
# Growing stores

No stage takes anything away. Directories are created where nothing stood, and a file is written
where no directory stands, so what could be reached stays within reach: a path that leads somewhere
goes on to lead there, and a text that is written is read back.
-/

namespace TexCatalog

def Node.text? : Node → Option Text
  | .file text _ => some text
  | .sink => some []
  | .binary .. | .directory => none

namespace Store

open TexCatalog.Path Text

def fixed? (place : Text) : Option Node := empty.at? place

theorem at?_eq (s : Store) (place : Text) :
    s.at? place = (fixed? place).or (s.nodes.get? place) := by
  unfold fixed? at?
  split
  · rfl
  · split
    · rfl
    · rfl

theorem at?_eq_get? {place : Text} (hplace : fixed? place = none) (s : Store) :
    s.at? place = s.nodes.get? place := by
  rw [at?_eq, hplace, Option.none_or]

theorem fixed?_cases (place : Text) : fixed? place = none ∨ fixed? place = some .directory ∨
    fixed? place = some .sink ∧ place = ("/dev/null" : Text) := by
  unfold fixed? at?
  split
  · exact .inr (.inl rfl)
  · split
    · next h => exact .inr (.inr ⟨rfl, h⟩)
    · exact .inl rfl

theorem at?_insert (s : Store) {place : Text} (hplace : fixed? place = none) (node : Node)
    (other : Text) :
    (s.insert place node).at? other = if other = place then some node else s.at? other := by
  rw [at?_eq, at?_eq, insert, TextMap.get?_insert]
  by_cases h : other = place
  · subst h
    rw [if_pos rfl, if_pos rfl, hplace]
    rfl
  · rw [if_neg h, if_neg (Ne.symm h)]

def textAt? (s : Store) (place : Text) : Option Text := (s.at? place).bind Node.text?

/-! ### Where paths lead -/

theorem step_eq_ok_iff {s : Store} {place part q : Text} : s.step place part = .ok q ↔
    (s.at? place).any Node.isDirectory ∧ q = onward place part ∧
      (isDots part ∨ ¬isLongName part ∧ (s.at? (join place part)).isSome) := by
  unfold step onward isDots
  by_cases hdir : (s.at? place).any Node.isDirectory
  · by_cases hdot : part = ['.']
    · simpa [hdir, hdot] using eq_comm
    · by_cases hdots : part = ['.', '.']
      · simpa [hdir, hdots] using eq_comm
      · by_cases hlong : isLongName part
        · simp [hdir, hdot, hdots, hlong]
        · by_cases hsome : (s.at? (join place part)).isSome
          · simpa [hdir, hdot, hdots, hlong, hsome] using eq_comm
          · simp [hdir, hdot, hdots, hlong, hsome]
  · simp [hdir]

theorem foldlM_step_place {s : Store} {parts : List Text} {p q : Text}
    (h : parts.foldlM s.step p = .ok q) : q = parts.foldl onward p := by
  induction parts generalizing p with
  | nil => cases h; rfl
  | cons part parts ih =>
    rw [List.foldlM_cons] at h
    cases hstep : s.step p part with
    | error fault => rw [hstep] at h; cases h
    | ok r =>
      rw [hstep] at h
      rw [List.foldl_cons, ← (step_eq_ok_iff.1 hstep).2.1]
      exact ih h

theorem approach_ok {s : Store} {path dir name : Text} (h : s.approach path = .ok (dir, name)) :
    (steps path).dropLast.foldlM s.step (origin path) = .ok dir ∧
      name = (steps path).getLast?.getD ['.'] ∧ (s.at? dir).any Node.isDirectory := by
  unfold approach at h
  split at h
  · cases h
  split at h
  · cases h
  split at h
  · cases h
  split at h
  · cases h
  next hdir =>
  split at h
  · next hdirectory =>
    cases h
    exact ⟨hdir, rfl, hdirectory⟩
  · cases h

theorem approach_isPlace {s : Store} {path dir name : Text}
    (h : s.approach path = .ok (dir, name)) : IsPlace dir := by
  rw [foldlM_step_place (approach_ok h).1]
  exact (isPlace_origin path).foldl_onward fun part hpart =>
    mem_steps ((List.dropLast_sublist _).subset hpart)

theorem approach_isName {s : Store} {path dir name : Text}
    (h : s.approach path = .ok (dir, name)) (hdots : ¬isDots name) : IsName name := by
  obtain ⟨_, hlast, _⟩ := approach_ok h
  have hmem : name ∈ steps path := by
    cases hsteps : (steps path).getLast? with
    | none =>
      rw [hsteps] at hlast
      subst hlast
      exact absurd rfl hdots
    | some last =>
      rw [hsteps] at hlast
      subst hlast
      exact List.mem_of_getLast? hsteps
  exact ⟨(mem_steps hmem).1, hdots, (mem_steps hmem).2⟩

theorem approach_place {s : Store} {path dir name : Text}
    (h : s.approach path = .ok (dir, name)) : onward dir name = place path := by
  obtain ⟨hdir, rfl, _⟩ := approach_ok h
  rw [foldlM_step_place hdir, place]
  rcases List.eq_nil_or_concat (steps path) with hnil | ⟨front, last, hlast⟩
  · rw [hnil]
    rfl
  · simp [hlast]

theorem locate_place {s : Store} {path q : Text} (h : s.locate path = .ok q) : q = place path := by
  unfold locate at h
  split at h
  · cases h
  next dir name happroach =>
  split at h
  · cases h
  next r hstep =>
  split at h
  · cases h
  · cases h
    rw [(step_eq_ok_iff.1 hstep).2.1, approach_place happroach]

/-- A file is read at the place of its path, if the path can be followed. -/
theorem read_eq_ok_iff {s : Store} {path text : Text} : s.read path = .ok text ↔
    s.locate path = .ok (place path) ∧ s.textAt? (place path) = some text := by
  unfold read textAt?
  cases hlocate : s.locate path with
  | error fault => simp
  | ok q =>
    obtain rfl := locate_place hlocate
    dsimp only
    rcases hnode : s.at? (place path) with _ | (_ | _ | _ | _) <;> simp [Node.text?]

theorem placeFor_ok {s : Store} {path q : Text} (h : s.placeFor path = .ok q) :
    q = place path ∧ ¬(s.at? q).any Node.isDirectory ∧ ∃ dir name,
      s.approach path = .ok (dir, name) ∧ IsName name ∧ ¬isLongName name ∧ ¬endsOpen path := by
  unfold placeFor at h
  split at h
  · cases h
  next dir name happroach =>
  split at h
  · cases h
  next hdots =>
  split at h
  · cases h
  next hlong =>
  split at h
  · cases h
  next hdirectory =>
  cases h
  rw [not_or] at hdots
  have hname := approach_isName happroach hdots.1
  exact ⟨by rw [← approach_place happroach, onward_name hname], hdirectory, dir, name, happroach,
    hname, hlong, hdots.2⟩

/-! ### Sound stores -/

/-- Whatever a store holds stands in a directory, and only the system has a sink. -/
structure Sound (s : Store) : Prop where
  sink (place : Text) : s.nodes.get? place ≠ some .sink
  held {place : Text} {node : Node} : s.nodes.get? place = some node →
    (s.at? (above place)).any Node.isDirectory

theorem sound_of_entries {s : Store} (h : ∀ e ∈ s.nodes.entries,
    e.2 ≠ .sink ∧ (s.at? (above e.1)).any Node.isDirectory) : s.Sound :=
  ⟨fun _ hsink => (h _ (TextMap.mem_of_find hsink)).1 rfl,
    fun hnode => (h _ (TextMap.mem_of_find hnode)).2⟩

section

variable {s : Store} (h : s.Sound)

include h

theorem Sound.at?_sink {place : Text} (hsink : s.at? place = some .sink) :
    place = ("/dev/null" : Text) := by
  rw [at?_eq] at hsink
  rcases fixed?_cases place with hnone | hdir | ⟨_, hplace⟩
  · rw [hnone] at hsink
    exact absurd hsink (h.sink place)
  · rw [hdir] at hsink
    cases hsink
  · exact hplace

theorem Sound.not_sink {place : Text} (hlast : place.getLast? ≠ some 'l') :
    s.at? place ≠ some .sink := by
  intro hsink
  rw [h.at?_sink hsink] at hlast
  exact hlast (by simp)

/-- What stands at a place stands in a directory. -/
theorem Sound.above {place : Text} (hsome : (s.at? place).isSome) :
    (s.at? (above place)).any Node.isDirectory := by
  have hfixed {q : Text} (hq : fixed? q = some .directory) : (s.at? q).any Node.isDirectory := by
    rw [at?_eq, hq]
    rfl
  have haround {q : Text} (hq : isAround q) : fixed? q = some .directory :=
    if_pos (.inr (.inl hq))
  rw [at?_eq] at hsome
  cases hplace : fixed? place with
  | none =>
    rw [hplace, Option.none_or] at hsome
    obtain ⟨node, hnode⟩ := Option.isSome_iff_exists.1 hsome
    exact h.held hnode
  | some node =>
    refine hfixed ?_
    unfold fixed? Store.at? at hplace
    split at hplace
    · next hdir =>
      rcases hdir with rfl | hdir | hdir
      · exact haround (by decide)
      · refine haround ?_
        have hne : place ≠ [] := by
          rintro rfl
          exact absurd hdir (by decide)
        rw [Path.above, if_neg hne, if_pos hdir, isAround, split_cut, List.all_append]
        exact Bool.and_eq_true_iff.2 ⟨hdir, by decide⟩
      · exact (by decide +kernel : ∀ q ∈ systemDirectories, fixed? (Path.above q) = some .directory)
          place (List.contains_iff_mem.1 hdir)
    · split at hplace
      · next hnull =>
        rw [hnull]
        decide +kernel
      · cases hplace

/-- A new entry of a directory. -/
theorem Sound.insert {dir name : Text} {node : Node} (hdir : IsPlace dir) (hname : IsName name)
    (hdirectory : (s.at? dir).any Node.isDirectory) (hfixed : fixed? (join dir name) = none)
    (hsink : node ≠ .sink)
    (hkeep : node.isDirectory ∨ ¬(s.at? (join dir name)).any Node.isDirectory) :
    (s.insert (join dir name) node).Sound := by
  have hstays {place : Text} (hplace : (s.at? place).any Node.isDirectory) :
      ((s.insert (join dir name) node).at? place).any Node.isDirectory := by
    rw [at?_insert s hfixed]
    split
    · next heq =>
      rw [heq] at hplace
      exact hkeep.resolve_right (not_not_intro hplace)
    · exact hplace
  refine ⟨fun place => ?_, fun {place other} hother => ?_⟩
  · rw [Store.insert, TextMap.get?_insert]
    split
    · exact fun heq => hsink (Option.some.inj heq)
    · exact h.sink place
  · rw [Store.insert, TextMap.get?_insert] at hother
    split at hother
    · next heq =>
      rw [← heq, above_join hdir hname]
      exact hstays hdirectory
    · exact hstays (h.held hother)

end

/-- The path of a file that is read ends with the name of the file. -/
theorem Sound.fileName_read {s : Store} (h : s.Sound) {path text : Text}
    (hread : s.read path = .ok text) :
    ∃ name, fileName? path = some name ∧ IsName name ∧ lastName (place path) = name := by
  obtain ⟨hlocate, htext⟩ := read_eq_ok_iff.1 hread
  have hfile : ¬(s.at? (place path)).any Node.isDirectory := by
    intro hdir
    obtain ⟨node, hnode, hdirectory⟩ := (Option.any_eq_true _ _).1 hdir
    rw [textAt?, hnode] at htext
    cases node <;> simp [Node.isDirectory, Node.text?] at hdirectory htext
  unfold locate at hlocate
  split at hlocate
  · cases hlocate
  next dir part happroach =>
  obtain ⟨_, hlast, hdirectory⟩ := approach_ok happroach
  have hplace := approach_place happroach
  have hdots : ¬isDots part := by
    intro hdots
    simp only [isDots, Bool.or_eq_true, beq_iff_eq] at hdots
    rcases hdots with rfl | rfl
    · exact hfile (hplace ▸ hdirectory)
    · refine hfile (hplace ▸ h.above ?_)
      obtain ⟨node, hnode, _⟩ := (Option.any_eq_true _ _).1 hdirectory
      rw [hnode]
      rfl
  have hname := approach_isName happroach hdots
  rw [onward_name hname] at hplace
  refine ⟨part, fileName?_eq ?_ hdots, hname, hplace ▸ lastName_join dir hname⟩
  cases hsteps : (steps path).getLast? with
  | none =>
    rw [hsteps] at hlast
    subst hlast
    exact absurd rfl hdots
  | some last =>
    rw [hsteps] at hlast
    rw [hlast]
    rfl

/-! ### Growth -/

/-- What stands goes on to stand: directories are still directories and texts are texts, perhaps
others. -/
structure Extends (s t : Store) : Prop where
  stands {place : Text} {node : Node} : s.at? place = some node → ∃ node',
    t.at? place = some node' ∧ node'.isDirectory = node.isDirectory ∧
      (node.text?.isSome → node'.text?.isSome)
  sound : s.Sound → t.Sound

theorem Extends.refl (s : Store) : s.Extends s :=
  ⟨fun h => ⟨_, h, rfl, id⟩, id⟩

theorem Extends.trans {s t u : Store} (h : s.Extends t) (h' : t.Extends u) : s.Extends u := by
  refine ⟨fun hnode => ?_, fun hs => h'.sound (h.sound hs)⟩
  obtain ⟨node', hnode', hdir, htext⟩ := h.stands hnode
  obtain ⟨node'', hnode'', hdir', htext'⟩ := h'.stands hnode'
  exact ⟨node'', hnode'', hdir'.trans hdir, fun hsome => htext' (htext hsome)⟩

section

variable {s t : Store} (h : s.Extends t)

include h

theorem Extends.isDirectory {place : Text} (hdir : (s.at? place).any Node.isDirectory) :
    (t.at? place).any Node.isDirectory := by
  obtain ⟨node, hnode, hnodedir⟩ := (Option.any_eq_true _ _).1 hdir
  obtain ⟨node', hnode', hsame, _⟩ := h.stands hnode
  exact (Option.any_eq_true _ _).2 ⟨node', hnode', hsame.trans hnodedir⟩

theorem Extends.isSome {place : Text} (hsome : (s.at? place).isSome) : (t.at? place).isSome := by
  obtain ⟨node, hnode⟩ := Option.isSome_iff_exists.1 hsome
  obtain ⟨node', hnode', _⟩ := h.stands hnode
  rw [hnode']
  rfl

theorem Extends.textAt? {place : Text} (hsome : (s.textAt? place).isSome) :
    (t.textAt? place).isSome := by
  unfold Store.textAt? at hsome ⊢
  cases hnode : s.at? place with
  | none => rw [hnode] at hsome; cases hsome
  | some node =>
    obtain ⟨node', hnode', _, htext⟩ := h.stands hnode
    rw [hnode] at hsome
    rw [hnode']
    exact htext hsome

theorem Extends.step {place part q : Text} (hstep : s.step place part = .ok q) :
    t.step place part = .ok q := by
  rw [step_eq_ok_iff] at hstep ⊢
  exact ⟨h.isDirectory hstep.1, hstep.2.1,
    hstep.2.2.imp_right fun hname => ⟨hname.1, h.isSome hname.2⟩⟩

theorem Extends.foldlM_step {parts : List Text} {p q : Text}
    (hparts : parts.foldlM s.step p = .ok q) : parts.foldlM t.step p = .ok q := by
  induction parts generalizing p with
  | nil => exact hparts
  | cons part parts ih =>
    rw [List.foldlM_cons] at hparts ⊢
    cases hstep : s.step p part with
    | error fault => rw [hstep] at hparts; cases hparts
    | ok r =>
      rw [hstep] at hparts
      rw [h.step hstep]
      exact ih hparts

theorem Extends.approach {path dir name : Text} (happroach : s.approach path = .ok (dir, name)) :
    t.approach path = .ok (dir, name) := by
  obtain ⟨hdir, rfl, hdirectory⟩ := approach_ok happroach
  unfold Store.approach at happroach ⊢
  rw [hdir] at happroach
  rw [h.foldlM_step hdir]
  dsimp only at happroach ⊢
  rw [if_pos hdirectory] at happroach
  rwa [if_pos (h.isDirectory hdirectory)]

theorem Extends.locate {path q : Text} (hlocate : s.locate path = .ok q) :
    t.locate path = .ok q := by
  unfold Store.locate at hlocate ⊢
  split at hlocate
  · cases hlocate
  next dir name happroach =>
  split at hlocate
  · cases hlocate
  next r hstep =>
  rw [h.approach happroach]
  dsimp only
  rw [h.step hstep]
  dsimp only
  split at hlocate
  · cases hlocate
  · next hopen =>
    cases hlocate
    rw [if_neg]
    rintro ⟨hends, hdir⟩
    refine hopen ⟨hends, ?_⟩
    cases hsdir : (s.at? q).any Node.isDirectory with
    | false => rfl
    | true => rw [h.isDirectory hsdir] at hdir; cases hdir

theorem Extends.isDirectory_path {path : Text} (hdir : s.isDirectory path) :
    t.isDirectory path := by
  unfold Store.isDirectory node? at hdir ⊢
  cases hlocate : s.locate path with
  | error fault => rw [hlocate] at hdir; cases hdir
  | ok q =>
    rw [hlocate] at hdir
    rw [h.locate hlocate]
    exact h.isDirectory hdir

/-- A text that can be read can be read later, perhaps another one. -/
theorem Extends.read {path text : Text} (hread : s.read path = .ok text) :
    ∃ text', t.read path = .ok text' := by
  obtain ⟨hlocate, htext⟩ := read_eq_ok_iff.1 hread
  obtain ⟨text', htext'⟩ := Option.isSome_iff_exists.1
    (h.textAt? (Option.isSome_iff_exists.2 ⟨text, htext⟩))
  exact ⟨text', read_eq_ok_iff.2 ⟨h.locate hlocate, htext'⟩⟩

end

/-- A text that is left as it is goes on to be read. -/
theorem Extends.read_same {s t : Store} (h : s.Extends t) {path text : Text}
    (hread : s.read path = .ok text) (hsame : t.textAt? (place path) = s.textAt? (place path)) :
    t.read path = .ok text := by
  obtain ⟨hlocate, htext⟩ := read_eq_ok_iff.1 hread
  exact read_eq_ok_iff.2 ⟨h.locate hlocate, hsame.trans htext⟩

/-! ### Directories -/

/-- The stores differ in directories only, which the second one has where nothing stood. -/
structure AddsDirectories (s t : Store) : Prop where
  places (place : Text) :
    t.at? place = s.at? place ∨ s.at? place = none ∧ t.at? place = some .directory
  sound : s.Sound → t.Sound

theorem AddsDirectories.refl (s : Store) : s.AddsDirectories s := ⟨fun _ => .inl rfl, id⟩

theorem AddsDirectories.trans {s t u : Store} (h : s.AddsDirectories t)
    (h' : t.AddsDirectories u) : s.AddsDirectories u := by
  refine ⟨fun place => ?_, fun hs => h'.sound (h.sound hs)⟩
  rcases h'.places place with heq' | ⟨hnone, hdir⟩
  · rw [heq']
    exact h.places place
  · rcases h.places place with heq | ⟨_, hdir'⟩
    · exact .inr ⟨heq ▸ hnone, hdir⟩
    · rw [hdir'] at hnone
      cases hnone

theorem AddsDirectories.extends {s t : Store} (h : s.AddsDirectories t) : s.Extends t := by
  refine ⟨fun {place node} hnode => ?_, h.sound⟩
  rcases h.places place with heq | ⟨hnone, _⟩
  · exact ⟨node, heq.trans hnode, rfl, id⟩
  · rw [hnone] at hnode
    cases hnode

theorem AddsDirectories.textAt? {s t : Store} (h : s.AddsDirectories t) (place : Text) :
    t.textAt? place = s.textAt? place := by
  unfold Store.textAt?
  rcases h.places place with heq | ⟨hnone, hdir⟩
  · rw [heq]
  · rw [hnone, hdir]
    rfl

theorem createDirectory_adds {s t : Store} {path : Text} (h : s.createDirectory path = .ok t) :
    s.AddsDirectories t := by
  unfold createDirectory at h
  split at h
  · cases h
  next dir name happroach =>
  split at h
  · cases h
  next hdots =>
  split at h
  · cases h
  split at h
  · cases h
  next hnone =>
  cases h
  have hplace : s.at? (join dir name) = none := by simpa using hnone
  have hfixed : fixed? (join dir name) = none := by
    rw [at?_eq, Option.or_eq_none_iff] at hplace
    exact hplace.1
  refine ⟨fun other => ?_, fun hs => hs.insert (approach_isPlace happroach)
    (approach_isName happroach hdots) (approach_ok happroach).2.2 hfixed (by simp) (.inl rfl)⟩
  rw [at?_insert s hfixed]
  by_cases hother : other = join dir name
  · subst hother
    rw [if_pos rfl]
    exact .inr ⟨hplace, rfl⟩
  · rw [if_neg hother]
    exact .inl rfl

theorem createWithin_adds (path : Text) (holders : List Text) (s : Store) :
    s.AddsDirectories (createWithin path holders s).2 := by
  fun_induction createWithin path holders s with
  | case1 path holders s t h => exact createDirectory_adds h
  | case2 path s holder more _ fault t hmore ih =>
    rw [hmore] at ih
    exact ih
  | case3 path s holder more _ t hmore t' h ih =>
    rw [hmore] at ih
    exact ih.trans (createDirectory_adds h)
  | case4 path s holder more _ t hmore fault h ih =>
    rw [hmore] at ih
    exact ih
  | case5 => exact .refl _

/-- Whatever comes of it, nothing but directories is created. -/
theorem createDirectories_adds (s : Store) (path : Text) :
    s.AddsDirectories (s.createDirectories path).2 := by
  unfold createDirectories
  split
  · exact .refl s
  · exact createWithin_adds path _ s

/-! ### Files -/

/-- The stores differ in one file only, whose text has been written where no directory stands, or
has been lost in a sink. -/
structure Writes (s t : Store) (place text : Text) : Prop where
  others {other : Text} : other ≠ place → t.at? other = s.at? other
  not_directory : ¬(s.at? place).any Node.isDirectory
  here : s.at? place = some .sink ∧ t.at? place = some .sink ∨
    s.at? place ≠ some .sink ∧ ∃ executable, t.at? place = some (.file text executable)
  sound : s.Sound → t.Sound

theorem write_ok {s t : Store} {path text : Text} (h : s.write path text = .ok t) :
    s.Writes t (place path) text := by
  unfold write writeNode at h
  cases hplace : s.placeFor path with
  | error fault => rw [hplace] at h; cases h
  | ok q =>
    obtain ⟨rfl, hdirectory, dir, name, happroach, hname, _⟩ := placeFor_ok hplace
    rw [hplace] at h
    change Except.ok _ = _ at h
    injection h with h
    dsimp only at h
    split at h
    · next hsink =>
      subst h
      exact ⟨fun _ => rfl, hdirectory, .inl ⟨hsink, hsink⟩, id⟩
    · next hsink =>
      have hfixed : fixed? (place path) = none := by
        rcases fixed?_cases (place path) with hnone | hdir | ⟨hfixed, _⟩
        · exact hnone
        · rw [at?_eq, hdir] at hdirectory
          exact absurd rfl hdirectory
        · rw [at?_eq, hfixed] at hsink
          exact absurd rfl hsink
      subst h
      refine ⟨fun hother => ?_, hdirectory, .inr ⟨hsink, ?_⟩, fun hs => ?_⟩
      · rw [at?_insert s hfixed, if_neg hother]
      · exact ⟨_, by rw [at?_insert s hfixed, if_pos rfl]⟩
      · rw [← approach_place happroach, onward_name hname] at hfixed hdirectory ⊢
        exact hs.insert (approach_isPlace happroach) hname (approach_ok happroach).2.2 hfixed
          (by simp) (.inr hdirectory)

theorem Writes.extends {s t : Store} {q text : Text} (h : s.Writes t q text) : s.Extends t := by
  refine ⟨fun {other node} hnode => ?_, h.sound⟩
  by_cases hother : other = q
  · subst hother
    rcases h.here with ⟨hsink, hsink'⟩ | ⟨_, executable, hfile⟩
    · rw [hsink] at hnode
      cases hnode
      exact ⟨_, hsink', rfl, id⟩
    · refine ⟨_, hfile, ?_, fun _ => rfl⟩
      have hdir := h.not_directory
      rw [hnode] at hdir
      exact (Bool.eq_false_iff.2 hdir).symm
  · exact ⟨node, (h.others hother).trans hnode, rfl, id⟩

theorem Writes.textAt? {s t : Store} {q text other : Text} (h : s.Writes t q text)
    (hother : other ≠ q) : t.textAt? other = s.textAt? other := by
  rw [Store.textAt?, Store.textAt?, h.others hother]

/-- What is written to a path can be read there, unless it is lost in a sink. -/
theorem read_write {s t : Store} {path text : Text} (h : s.write path text = .ok t) :
    ∃ text', t.read path = .ok text' ∧ (s.at? (place path) ≠ some .sink → text' = text) := by
  have hwrites := write_ok h
  unfold write writeNode at h
  cases hplace : s.placeFor path with
  | error fault => rw [hplace] at h; cases h
  | ok q =>
    obtain ⟨rfl, _, dir, name, happroach, hname, hlong, hopen⟩ := placeFor_ok hplace
    have hhere : ∃ text', t.textAt? (place path) = some text' ∧
        (s.at? (place path) ≠ some .sink → text' = text) := by
      unfold Store.textAt?
      rcases hwrites.here with ⟨hsink, hsink'⟩ | ⟨_, executable, hfile⟩
      · exact ⟨[], by rw [hsink']; rfl, fun hne => absurd hsink hne⟩
      · exact ⟨text, by rw [hfile]; rfl, fun _ => rfl⟩
    obtain ⟨text', htext', heq⟩ := hhere
    refine ⟨text', read_eq_ok_iff.2 ⟨?_, htext'⟩, heq⟩
    have hthere : (t.at? (join dir name)).isSome := by
      rw [← onward_name hname, approach_place happroach]
      rcases hwrites.here with ⟨_, hsink'⟩ | ⟨_, executable, hfile⟩
      · rw [hsink']; rfl
      · rw [hfile]; rfl
    have hstep : t.step dir name = .ok (place path) := by
      rw [step_eq_ok_iff]
      exact ⟨hwrites.extends.isDirectory (approach_ok happroach).2.2,
        (approach_place happroach).symm, .inr ⟨hlong, hthere⟩⟩
    unfold locate
    rw [hwrites.extends.approach happroach]
    dsimp only
    rw [hstep]
    dsimp only
    rw [if_neg fun hends => hopen hends.1]

end Store

end TexCatalog
