import TexCatalog.Proofs.GrowingStores

/-!
# Changes of a store

What a stage does to the files is a list of changes: directories that are created and texts that are
written. The list is run again on the store that it led to. Every directory is there now, and every
place gets the texts that it got before, the last of which it has already: the second run succeeds
and leaves the store as it is.
-/

namespace TexCatalog

open TexCatalog.Path

inductive Change where
  | directory (path : Text)
  | file (path text : Text)
  deriving DecidableEq, Repr

def written : List Change → Text → Option Text
  | [], _ => none
  | .directory _ :: more, q => written more q
  | .file path text :: more, q => (written more q).or (if place path = q then some text else none)

theorem written_append (front back : List Change) (q : Text) :
    written (front ++ back) q = (written back q).or (written front q) := by
  induction front with
  | nil => simp [written]
  | cons c front ih =>
    cases c with
    | directory path => exact ih
    | file path text => rw [List.cons_append, written, written, ih, Option.or_assoc]

theorem written_eq_none_iff {log : List Change} {q : Text} :
    written log q = none ↔ ∀ path text, .file path text ∈ log → place path ≠ q := by
  induction log with
  | nil => simp [written]
  | cons c more ih =>
    cases c with
    | directory path => simpa [written] using ih
    | file path text =>
      simp only [written, Option.or_eq_none_iff, ih, List.mem_cons, Change.file.injEq]
      constructor
      · rintro ⟨hmore, hhere⟩ path' text' (⟨rfl, rfl⟩ | hmem)
        · simpa using hhere
        · exact hmore path' text' hmem
      · intro h
        exact ⟨fun path' text' hmem => h path' text' (.inr hmem),
          if_neg (h path text (.inl ⟨rfl, rfl⟩))⟩

theorem mem_of_written {log : List Change} {q text : Text} (h : written log q = some text) :
    ∃ path, .file path text ∈ log ∧ place path = q := by
  induction log with
  | nil => cases h
  | cons c more ih =>
    cases c with
    | directory path =>
      obtain ⟨path, hmem, hplace⟩ := ih h
      exact ⟨path, List.mem_cons_of_mem _ hmem, hplace⟩
    | file path new =>
      rw [written] at h
      cases hmore : written more q with
      | some later =>
        rw [hmore] at h
        cases h
        obtain ⟨path, hmem, hplace⟩ := ih hmore
        exact ⟨path, List.mem_cons_of_mem _ hmem, hplace⟩
      | none =>
        rw [hmore, Option.none_or, Option.ite_none_right_eq_some] at h
        obtain ⟨hplace, heq⟩ := h
        cases heq
        exact ⟨path, List.mem_cons_self .., hplace⟩

/-- If only one text is written to a place, it is the one that stands there in the end. -/
theorem written_eq_some {log : List Change} {path text : Text} (hmem : .file path text ∈ log)
    (honly : ∀ other new, .file other new ∈ log → place other = place path → new = text) :
    written log (place path) = some text := by
  cases hwritten : written log (place path) with
  | none => exact absurd rfl (written_eq_none_iff.1 hwritten path text hmem)
  | some new =>
    obtain ⟨other, hother, hplace⟩ := mem_of_written hwritten
    rw [honly other new hother hplace]

/-- The order of changes does not matter at a place where they write one text only. -/
theorem written_of_perm {log log' : List Change} (h : log.Perm log') {q : Text}
    (honly : ∀ {path path' text text'}, .file path text ∈ log' → .file path' text' ∈ log' →
      place path = q → place path' = q → text = text') : written log q = written log' q := by
  cases hwritten : written log' q with
  | none =>
    rw [written_eq_none_iff] at hwritten ⊢
    exact fun path text hmem => hwritten path text (h.mem_iff.1 hmem)
  | some text =>
    obtain ⟨path, hmem, rfl⟩ := mem_of_written hwritten
    rw [written_eq_some hmem fun other new hother hplace => honly hother hmem hplace rfl]
      at hwritten
    rw [← hwritten]
    exact written_eq_some (h.mem_iff.2 hmem) fun other new hother hplace =>
      honly (h.mem_iff.1 hother) hmem hplace rfl

namespace Store

/-! ### Directories that are there -/

theorem createDirectory_isDirectory {s t : Store} {path : Text}
    (h : s.createDirectory path = .ok t) : t.isDirectory path := by
  have hextends := (createDirectory_adds h).extends
  unfold createDirectory at h
  split at h
  · cases h
  next dir name happroach =>
  split at h
  · cases h
  next hdots =>
  split at h
  · cases h
  next hlong =>
  split at h
  · cases h
  next hnone =>
  cases h
  have hfixed : fixed? (join dir name) = none := by
    have hplace : s.at? (join dir name) = none := by simpa using hnone
    rw [at?_eq, Option.or_eq_none_iff] at hplace
    exact hplace.1
  have hhere : (s.insert (join dir name) .directory).at? (join dir name) = some .directory := by
    rw [at?_insert s hfixed, if_pos rfl]
  have hstep : (s.insert (join dir name) .directory).step dir name = .ok (join dir name) := by
    rw [step_eq_ok_iff, onward_name (approach_isName happroach hdots)]
    exact ⟨hextends.isDirectory (approach_ok happroach).2.2, rfl, .inr ⟨hlong, by rw [hhere]; rfl⟩⟩
  unfold isDirectory node? locate
  rw [hextends.approach happroach]
  simp [hstep, hhere, Node.isDirectory]

theorem createWithin_isDirectory {path : Text} {holders : List Text} {s t : Store}
    (h : createWithin path holders s = (.ok (), t)) : t.isDirectory path := by
  unfold createWithin at h
  split at h
  · next hcreate =>
    cases h
    exact createDirectory_isDirectory hcreate
  · split at h
    · cases h
    · split at h
      · next hcreate =>
        cases h
        exact createDirectory_isDirectory hcreate
      · split at h
        · next hdir => cases h; exact hdir
        · cases h
  · split at h
    · next hdir => cases h; exact hdir
    · cases h

theorem createWithin_again {s : Store} {path : Text} (h : s.isDirectory path)
    (holders : List Text) : createWithin path holders s = (.ok (), s) := by
  have hexists : s.createDirectory path = .error .exists := by
    unfold isDirectory node? locate at h
    unfold createDirectory
    cases happroach : s.approach path with
    | error fault => simp [happroach] at h
    | ok found =>
      obtain ⟨dir, name⟩ := found
      by_cases hdots : isDots name
      · simp [hdots]
      · cases hstep : s.step dir name with
        | error fault => simp [happroach, hstep] at h
        | ok q =>
          have hthere := (step_eq_ok_iff.1 hstep).2.2.resolve_left hdots
          simp [hdots, hthere.1, hthere.2]
  unfold createWithin
  simp [hexists, h]

/-- What has been created is not created again in a store that has gone on to grow. -/
theorem createDirectories_again {s t s' : Store} {path : Text}
    (h : s.createDirectories path = (.ok (), t)) (hextends : t.Extends s') :
    s'.createDirectories path = (.ok (), s') := by
  unfold createDirectories at h ⊢
  split at h
  · next hnil => rw [if_pos hnil]
  · next hnil =>
    rw [if_neg hnil]
    exact createWithin_again (hextends.isDirectory_path (createWithin_isDirectory h)) _

/-! ### Texts that are there -/

def put (s : Store) (q text : Text) : Store :=
  match s.at? q with
  | some .directory | some .sink => s
  | old => s.insert q (.file text (old.any Node.isExecutable))

theorem write_of_placeFor {s : Store} {path q : Text} (h : s.placeFor path = .ok q) (text : Text) :
    s.write path text = .ok (s.put q text) := by
  obtain ⟨_, hfree, _⟩ := placeFor_ok h
  unfold write writeNode put
  rw [h]
  refine congrArg Except.ok ?_
  rcases hnode : s.at? q with _ | (_ | _ | _ | _)
  case some.directory =>
    rw [hnode] at hfree
    exact absurd rfl hfree
  all_goals simp only [hnode]

/-- What has been written can be written again to a store that has gone on to grow. -/
theorem write_again {s t s' : Store} {path text : Text} (h : s.write path text = .ok t)
    (hextends : t.Extends s') : s'.write path text = .ok (s'.put (place path) text) := by
  have hwrites := write_ok h
  have hgrown := hwrites.extends.trans hextends
  have hfile : ∀ node, t.at? (place path) = some node → node.isDirectory = false := by
    rcases hwrites.here with ⟨_, hsink⟩ | ⟨_, executable, hfile⟩
    · rw [hsink]
      rintro _ ⟨⟩
      rfl
    · rw [hfile]
      rintro _ ⟨⟩
      rfl
  have hfree : (s'.at? (place path)).any Node.isDirectory = false := by
    obtain ⟨node, hnode⟩ : ∃ node, t.at? (place path) = some node := by
      rcases hwrites.here with ⟨_, hsink⟩ | ⟨_, executable, hfile⟩
      · exact ⟨_, hsink⟩
      · exact ⟨_, hfile⟩
    obtain ⟨node', hnode', hdir, _⟩ := hextends.stands hnode
    rw [hnode', Option.any_some, hdir, hfile node hnode]
  cases hplace : s.placeFor path with
  | error fault =>
    rw [write, writeNode, hplace] at h
    cases h
  | ok q =>
    obtain ⟨rfl, _, dir, name, happroach, hname, hlong, hopen⟩ := placeFor_ok hplace
    have hjoin : join dir name = place path := by
      rw [← onward_name hname, approach_place happroach]
    refine write_of_placeFor ?_ text
    unfold placeFor
    rw [hgrown.approach happroach]
    simp [hname.not_dots, hlong, hopen, hjoin, hfree]

/-! ### Lists of changes -/

def After : List Change → Store → Store → Prop
  | [], s, t => s = t
  | .directory path :: more, s, t =>
    ∃ u, s.createDirectories path = (.ok (), u) ∧ After more u t
  | .file path text :: more, s, t => ∃ u, s.write path text = .ok u ∧ After more u t

theorem after_append {front back : List Change} {s t : Store} :
    After (front ++ back) s t ↔ ∃ u, After front s u ∧ After back u t := by
  induction front generalizing s with
  | nil => simp [After]
  | cons c front ih =>
    cases c with
    | directory path => simp only [List.cons_append, After, ih]; tauto
    | file path text => simp only [List.cons_append, After, ih]; tauto

def Stays (s t : Store) (q : Text) : Prop :=
  t.at? q = s.at? q ∨ s.at? q = none ∧ t.at? q = some .directory

theorem Stays.trans {s t u : Store} {q : Text} (h : s.Stays t q) (h' : t.Stays u q) :
    s.Stays u q := by
  rcases h' with heq' | ⟨hnone', hdir'⟩
  · exact h.imp heq'.trans (.imp_right heq'.trans)
  · rcases h with heq | ⟨_, hdir⟩
    · exact .inr ⟨heq ▸ hnone', hdir'⟩
    · rw [hdir] at hnone'
      cases hnone'

theorem Stays.at? {s t : Store} {q : Text} {node : Node} (h : s.Stays t q)
    (hnode : s.at? q = some node) : t.at? q = some node := by
  rcases h with heq | ⟨hnone, _⟩
  · rw [heq, hnode]
  · rw [hnone] at hnode
    cases hnode

theorem Stays.textAt? {s t : Store} {q : Text} (h : s.Stays t q) : t.textAt? q = s.textAt? q := by
  unfold Store.textAt?
  rcases h with heq | ⟨hnone, hdir⟩
  · rw [heq]
  · rw [hnone, hdir]
    rfl

theorem Stays.isFile {s t : Store} {q : Text} (h : s.Stays t q) :
    (t.at? q).any Node.isFile = (s.at? q).any Node.isFile := by
  rcases h with heq | ⟨hnone, hdir⟩
  · rw [heq]
  · rw [hnone, hdir]
    rfl

structure ChangesTo (log : List Change) (s t : Store) : Prop where
  grown : s.Extends t
  /-- What has been written stands there, unless it is lost in a sink. -/
  texts {q text : Text} : written log q = some text →
    t.at? q = some .sink ∨ ∃ executable, t.at? q = some (.file text executable)
  others {q : Text} : written log q = none → s.Stays t q

theorem ChangesTo.textAt? {log : List Change} {s t : Store} (h : ChangesTo log s t) {q text : Text}
    (hwritten : written log q = some text) (hsink : t.at? q ≠ some .sink) :
    t.textAt? q = some text := by
  obtain ⟨executable, hfile⟩ := (h.texts hwritten).resolve_left hsink
  rw [Store.textAt?, hfile]
  rfl

theorem After.changes {log : List Change} {s t : Store} (h : After log s t) :
    ChangesTo log s t := by
  induction log generalizing s with
  | nil =>
    obtain rfl := h
    exact ⟨.refl s, nofun, fun _ => .inl rfl⟩
  | cons c more ih =>
    cases c with
    | directory path =>
      obtain ⟨u, hcreate, hmore⟩ := h
      have hadds := createDirectories_adds s path
      rw [hcreate] at hadds
      obtain ⟨hgrown, htexts, hothers⟩ := ih hmore
      exact ⟨hadds.extends.trans hgrown, htexts, fun hq => .trans (hadds.places _) (hothers hq)⟩
    | file path text =>
      obtain ⟨u, hwrite, hmore⟩ := h
      have hwrites := write_ok hwrite
      obtain ⟨hgrown, htexts, hothers⟩ := ih hmore
      refine ⟨hwrites.extends.trans hgrown, fun {q new} hq => ?_, fun {q} hq => ?_⟩
      · rw [written] at hq
        cases hbehind : written more q with
        | some later =>
          rw [hbehind] at hq
          cases hq
          exact htexts hbehind
        | none =>
          rw [hbehind, Option.none_or, Option.ite_none_right_eq_some] at hq
          obtain ⟨rfl, heq⟩ := hq
          cases heq
          rcases hwrites.here with ⟨_, hsink⟩ | ⟨_, executable, hfile⟩
          · exact .inl ((hothers hbehind).at? hsink)
          · exact .inr ⟨executable, (hothers hbehind).at? hfile⟩
      · rw [written, Option.or_eq_none_iff, ite_eq_right_iff] at hq
        have hne : q ≠ place path := fun heq => by cases hq.2 heq.symm
        exact .trans (.inl (hwrites.others hne)) (hothers hq.1)

def putAll : List Change → Store → Store
  | [], s => s
  | .directory _ :: more, s => putAll more s
  | .file path text :: more, s => putAll more (s.put (place path) text)

/-- Changes can be made again to a store that has gone on to grow. Only texts are changed then. -/
theorem After.again {log : List Change} {s t s' : Store} (h : After log s t)
    (hextends : t.Extends s') : After log s' (putAll log s') := by
  induction log generalizing s s' with
  | nil => rfl
  | cons c more ih =>
    cases c with
    | directory path =>
      obtain ⟨u, hcreate, hmore⟩ := h
      exact ⟨s', createDirectories_again hcreate (hmore.changes.grown.trans hextends),
        ih hmore hextends⟩
    | file path text =>
      obtain ⟨u, hwrite, hmore⟩ := h
      have hagain := write_again hwrite (hmore.changes.grown.trans hextends)
      exact ⟨_, hagain, ih hmore (hextends.trans (write_ok hagain).extends)⟩

/-- A directory among the changes is there from then on. -/
theorem After.directory_again {log : List Change} {s t s' : Store} {path : Text} (h : After log s t)
    (hmem : .directory path ∈ log) (hextends : t.Extends s') :
    s'.createDirectories path = (.ok (), s') := by
  obtain ⟨front, back, rfl⟩ := List.append_of_mem hmem
  obtain ⟨u, _, v, hcreate, hback⟩ := after_append.1 h
  exact createDirectories_again hcreate (hback.changes.grown.trans hextends)

/-- A text among the changes can be written again in a store that has gone on to grow. -/
theorem After.write_again {log : List Change} {s t s' : Store} {path text : Text}
    (h : After log s t) (hmem : .file path text ∈ log) (hextends : t.Extends s') :
    s'.write path text = .ok (s'.put (place path) text) := by
  obtain ⟨front, back, rfl⟩ := List.append_of_mem hmem
  obtain ⟨u, _, v, hwrite, hback⟩ := after_append.1 h
  exact Store.write_again hwrite (hback.changes.grown.trans hextends)

theorem After.readable {log : List Change} {s t : Store} {path text : Text} (h : After log s t)
    (hmem : .file path text ∈ log) : ∃ now, t.read path = .ok now := by
  obtain ⟨front, back, rfl⟩ := List.append_of_mem hmem
  obtain ⟨u, _, v, hwrite, hback⟩ := after_append.1 h
  obtain ⟨_, hread, _⟩ := read_write hwrite
  exact hback.changes.grown.read hread

theorem After.read {log : List Change} {s t : Store} {path text : Text} (h : After log s t)
    (hmem : .file path text ∈ log) (hwritten : written log (place path) = some text)
    (hsink : t.at? (place path) ≠ some .sink) : t.read path = .ok text := by
  obtain ⟨now, hnow⟩ := h.readable hmem
  obtain ⟨hlocate, htext⟩ := read_eq_ok_iff.1 hnow
  exact read_eq_ok_iff.2 ⟨hlocate, h.changes.textAt? hwritten hsink⟩

/-- Without directories among the changes, nothing is new but what is written. -/
theorem After.files {log : List Change} {s t : Store} (h : After log s t)
    (hfiles : ∀ path, .directory path ∉ log) {q : Text} (hq : written log q = none) :
    t.at? q = s.at? q := by
  induction log generalizing s with
  | nil => rw [show s = t from h]
  | cons c more ih =>
    cases c with
    | directory path => exact absurd (List.mem_cons_self ..) (hfiles path)
    | file path text =>
      obtain ⟨u, hwrite, hmore⟩ := h
      rw [written, Option.or_eq_none_iff, ite_eq_right_iff] at hq
      have hne : q ≠ place path := fun heq => by cases hq.2 heq.symm
      rw [ih hmore (fun path hmem => hfiles path (List.mem_cons_of_mem _ hmem)) hq.1,
        (write_ok hwrite).others hne]

end Store

end TexCatalog
