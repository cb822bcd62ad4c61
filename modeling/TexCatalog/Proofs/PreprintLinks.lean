import TexCatalog.Bibliography.Reference
import TexCatalog.Proofs.BibtexSpelling

/-!
# Links to preprints

The preprint identifier in a link is the shortest text behind the first mark of the archive that an
extension, a query or a fragment may follow up to the end of the link. So all links to one preprint
have one identifier, and the link that an entry gets from its identifier leads to itself.
-/

namespace TexCatalog.Bibliography

open Text Bibtex

/-! ### The identifier at the start of a rest -/

def EndsPath (suffix : Text) : Prop := ∀ c ∈ suffix.head?, c = '?' ∨ c = '#'

def extensions : List Text := [[], ".pdf"]

/-- The text may be the identifier at the start of a rest: behind it are an extension or none, and a
query, a fragment or nothing. -/
structure Admits (rest id : Text) : Prop where
  ne_nil : id ≠ []
  chars : ∀ c ∈ id, ¬endsIdentifier c
  behind : ∃ extension ∈ extensions, ∃ suffix, EndsPath suffix ∧ rest = id ++ extension ++ suffix

theorem extension_chars {extension : Text} (h : extension ∈ extensions) :
    ∀ c ∈ extension, ¬endsIdentifier c := by
  rcases List.mem_pair.1 h with rfl | rfl <;> simp [endsIdentifier, Char.isBlank]

/-- The run of characters of identifiers ends where the path does. -/
theorem run_of_endsPath {run suffix : Text} (hrun : ∀ c ∈ run, ¬endsIdentifier c)
    (hsuffix : EndsPath suffix) :
    (run ++ suffix).takeWhile (fun c => !endsIdentifier c) = run ∧
      (run ++ suffix).dropWhile (fun c => !endsIdentifier c) = suffix := by
  have hin : ∀ c ∈ run, (!endsIdentifier c) = true := fun c hc => by simpa using hrun c hc
  have hout : ∀ c ∈ suffix.head?, ¬(!endsIdentifier c) = true := by
    intro c hc
    rcases hsuffix c hc with rfl | rfl <;> decide
  exact ⟨takeWhile_append_stop hin hout, dropWhile_append_stop hin hout⟩

/-- A run without its extension, unless it has nothing in front of it. -/
def dropExtension (run : Text) : Text :=
  match dropEnd? ".pdf" run with
  | some (c :: id) => c :: id
  | _ => run

theorem dropExtension_append {id : Text} (h : id ≠ []) : dropExtension (id ++ ".pdf") = id := by
  obtain ⟨c, more, rfl⟩ := List.exists_cons_of_ne_nil h
  rw [dropExtension, dropEnd?_eq_some_iff.2 rfl]

/-- There is an extension behind what is left of a run, or nothing. -/
theorem dropExtension_eq (run : Text) :
    run = dropExtension run ∨ run = dropExtension run ++ ".pdf" := by
  rw [dropExtension]
  split
  · next c id hdrop => exact .inr (dropEnd?_eq_some_iff.1 hdrop)
  · exact .inl rfl

theorem dropExtension_ne_nil {run : Text} (h : run ≠ []) : dropExtension run ≠ [] := by
  rw [dropExtension]
  split
  · exact List.cons_ne_nil _ _
  · exact h

theorem length_dropExtension_le_run (run : Text) : (dropExtension run).length ≤ run.length := by
  rcases dropExtension_eq run with h | h
  · exact (congrArg List.length h).ge
  · rw [congrArg List.length h, List.length_append]
    exact Nat.le_add_right ..

theorem linkIdentifier?_run {run suffix : Text} (hne : run ≠ [])
    (hrun : ∀ c ∈ run, ¬endsIdentifier c) (hsuffix : EndsPath suffix) :
    linkIdentifier? (run ++ suffix) = some (dropExtension run) := by
  obtain ⟨htake, hdrop⟩ := run_of_endsPath hrun hsuffix
  rw [linkIdentifier?, htake, hdrop, dropExtension]
  have hread : (match dropEnd? ".pdf" run with
      | some (c :: id) => some (c :: id)
      | _ => some run) = some (match dropEnd? ".pdf" run with
      | some (c :: id) => c :: id
      | _ => run) := by
    split <;> rfl
  cases suffix with
  | nil => exact (if_neg (by simpa using hne)).trans hread
  | cons c suffix =>
    have hc : (c == '?' || c == '#') = true := by simpa using hsuffix c rfl
    exact (if_neg (by simpa [hc] using hne)).trans hread

theorem exists_run_of_linkIdentifier? {s id : Text} (h : linkIdentifier? s = some id) :
    ∃ run suffix, s = run ++ suffix ∧ run ≠ [] ∧ (∀ c ∈ run, ¬endsIdentifier c) ∧
      EndsPath suffix := by
  refine ⟨_, _, (List.takeWhile_append_dropWhile (p := fun c => !endsIdentifier c)).symm, ?_,
    fun c hc => by simpa using List.mem_takeWhile_imp hc, ?_⟩
  · intro hnone
    simp [linkIdentifier?, hnone] at h
  · intro c hc
    by_contra hother
    obtain ⟨more, hdrop⟩ := List.head?_eq_some_iff.1 hc
    simp [linkIdentifier?, hdrop, not_or.1 hother] at h

/-- What may be the identifier is the run of its characters, or the run up to an extension. -/
theorem Admits.run {run suffix id : Text} (h : Admits (run ++ suffix) id)
    (hrun : ∀ c ∈ run, ¬endsIdentifier c) (hsuffix : EndsPath suffix) :
    ∃ extension ∈ extensions, run = id ++ extension := by
  obtain ⟨extension, hextension, rest, hrest, heq⟩ := h.behind
  have hchars : ∀ c ∈ id ++ extension, ¬endsIdentifier c := by
    intro c hc
    exact (List.mem_append.1 hc).elim (h.chars c) (extension_chars hextension c)
  refine ⟨extension, hextension, ?_⟩
  rw [← (run_of_endsPath hrun hsuffix).1, heq, (run_of_endsPath hchars hrest).1]

section

variable {run suffix : Text} (hne : run ≠ []) (hrun : ∀ c ∈ run, ¬endsIdentifier c)
  (hsuffix : EndsPath suffix)

include hne hrun hsuffix

theorem admits_dropExtension : Admits (run ++ suffix) (dropExtension run) where
  ne_nil := dropExtension_ne_nil hne
  chars c hc := by
    refine hrun c ?_
    rcases dropExtension_eq run with h | h
    · rwa [h]
    · rw [h]
      exact List.mem_append_left _ hc
  behind := by
    rcases dropExtension_eq run with h | h
    · exact ⟨[], by simp [extensions], suffix, hsuffix, by rw [List.append_nil, ← h]⟩
    · exact ⟨".pdf", by simp [extensions], suffix, hsuffix, by rw [← h]⟩

omit hne in
theorem length_dropExtension_le {id : Text} (h : Admits (run ++ suffix) id) :
    (dropExtension run).length ≤ id.length := by
  obtain ⟨extension, hextension, hcut⟩ := h.run hrun hsuffix
  rcases List.mem_pair.1 hextension with rfl | rfl
  · rw [List.append_nil] at hcut
    rw [← hcut]
    exact length_dropExtension_le_run run
  · rw [hcut, dropExtension_append h.ne_nil]

end

/-- The identifier is the shortest text that may be it. -/
theorem linkIdentifier?_eq_some_iff {s id : Text} : linkIdentifier? s = some id ↔
    Admits s id ∧ ∀ other, Admits s other → id.length ≤ other.length := by
  constructor
  · intro h
    obtain ⟨run, suffix, rfl, hne, hrun, hsuffix⟩ := exists_run_of_linkIdentifier? h
    rw [linkIdentifier?_run hne hrun hsuffix, Option.some.injEq] at h
    subst h
    exact ⟨admits_dropExtension hne hrun hsuffix, fun _ => length_dropExtension_le hrun hsuffix⟩
  · rintro ⟨hid, hleast⟩
    obtain ⟨extension, hextension, suffix, hsuffix, rfl⟩ := hid.behind
    have hrun : ∀ c ∈ id ++ extension, ¬endsIdentifier c := fun c hc =>
      (List.mem_append.1 hc).elim (hid.chars c) (extension_chars hextension c)
    have hne : id ++ extension ≠ [] := List.append_ne_nil_of_left_ne_nil hid.ne_nil extension
    rw [linkIdentifier?_run hne hrun hsuffix, Option.some.injEq]
    rcases List.mem_pair.1 hextension with rfl | rfl
    · rw [List.append_nil] at hleast hrun hne ⊢
      rcases dropExtension_eq id with h | h
      · exact h.symm
      · have hlong := hleast _ (admits_dropExtension hne hrun hsuffix)
        have hlength := congrArg List.length h
        have hmark : (".pdf" : Text).length = 4 := by simp
        rw [List.length_append] at hlength
        omega
    · exact dropExtension_append hid.ne_nil

/-! ### The mark of the archive -/

def archive : Text := "arxiv.org/"

def archivePaths : List Text := ["abs/", "pdf/"]

/-- The rest behind a mark of the archive at the start of a text. -/
def behindMark? (s : Text) : Option Text :=
  (("arxiv.org/abs/" : Text).isPrefixOf? s).or (("arxiv.org/pdf/" : Text).isPrefixOf? s)

theorem identifierInLink?_cons (c : Char) (s : Text) : identifierInLink? (c :: s) =
    ((behindMark? (c :: s)).bind linkIdentifier?).or (identifierInLink? s) := by
  rw [identifierInLink?, behindMark?]
  split
  · next id h => rw [h, Option.some_or]
  · next h => rw [h, Option.none_or]

theorem marks_eq : ("arxiv.org/abs/" : Text) = archive ++ "abs/" ∧
    ("arxiv.org/pdf/" : Text) = archive ++ "pdf/" := by
  simp [archive]

theorem behindMark?_mark {path : Text} (h : path ∈ archivePaths) (rest : Text) :
    behindMark? (archive ++ path ++ rest) = some rest := by
  rw [behindMark?, marks_eq.1, marks_eq.2]
  rcases List.mem_pair.1 h with rfl | rfl
  · rw [isPrefixOf?_eq_some.2 rfl, Option.some_or]
  · have hother : (archive ++ "abs/").isPrefixOf? (archive ++ "pdf/" ++ rest) = none := by
      rw [isPrefixOf?_eq_none, List.append_assoc, List.prefix_append_right_inj]
      simp
    rw [hother, Option.none_or, isPrefixOf?_eq_some.2 rfl]

theorem behindMark?_eq_none {s : Text} (h : ¬archive <+: s) : behindMark? s = none := by
  have hnone (path : Text) : (archive ++ path).isPrefixOf? s = none :=
    isPrefixOf?_eq_none.2 fun hmark => h ((List.prefix_append archive path).trans hmark)
  rw [behindMark?, marks_eq.1, marks_eq.2, hnone, hnone, Option.none_or]

/-- The name of the archive does not overlap with itself. -/
theorem not_prefix_of_not_infix {c : Char} {front : Text} (h : ¬archive <:+: c :: front)
    (s : Text) : ¬archive <+: c :: (front ++ (archive ++ s)) := by
  obtain ⟨more, harchive, hlater⟩ : ∃ more, archive = 'a' :: more ∧ 'a' ∉ more :=
    ⟨"rxiv.org/", by simp [archive], by simp⟩
  rw [harchive] at h ⊢
  rw [List.cons_append, List.cons_prefix_cons, prefix_append_cons_iff hlater]
  rintro ⟨rfl, hmore⟩
  exact h ((List.prefix_cons_inj 'a').2 hmore).isInfix

/-- What stands in front of the first mark does not matter. -/
theorem identifierInLink?_mark {front path rest id : Text} (hfront : ¬archive <:+: front)
    (hpath : path ∈ archivePaths) (hrest : linkIdentifier? rest = some id) :
    identifierInLink? (front ++ (archive ++ path ++ rest)) = some id := by
  induction front with
  | nil =>
    have hmark := behindMark?_mark hpath rest
    obtain ⟨c, s, hcons⟩ : ∃ c s, archive ++ path ++ rest = c :: s :=
      ⟨'a', _, by simp [archive]; rfl⟩
    rw [hcons] at hmark
    rw [List.nil_append, hcons, identifierInLink?_cons, hmark, Option.bind_some, hrest,
      Option.some_or]
  | cons c front ih =>
    have hnone := not_prefix_of_not_infix hfront (path ++ rest)
    rw [List.append_assoc] at ih ⊢
    rw [List.cons_append, identifierInLink?_cons, behindMark?_eq_none hnone, Option.bind_none,
      Option.none_or]
    exact ih fun h => hfront (h.trans (List.suffix_cons c front).isInfix)

/-! ### Links to one preprint -/

structure IsPreprint (id : Text) : Prop where
  ne_nil : id ≠ []
  chars : ∀ c ∈ id, ¬c.isBlank ∧ c ≠ '?' ∧ c ≠ '#'
  no_extension : ¬(".pdf" : Text) <:+ id

/-- With an extension or without one, no shorter text may be the identifier. -/
theorem IsPreprint.linkIdentifier? {id extension suffix : Text} (h : IsPreprint id)
    (hextension : extension ∈ extensions) (hsuffix : EndsPath suffix) :
    linkIdentifier? (id ++ extension ++ suffix) = some id := by
  have hchars : ∀ c ∈ id, ¬endsIdentifier c := fun c hc => by
    simpa [endsIdentifier, and_assoc] using h.chars c hc
  have hrun : ∀ c ∈ id ++ extension, ¬endsIdentifier c := fun c hc =>
    (List.mem_append.1 hc).elim (hchars c) (extension_chars hextension c)
  refine linkIdentifier?_eq_some_iff.2
    ⟨⟨h.ne_nil, hchars, extension, hextension, suffix, hsuffix, rfl⟩, fun other hother => ?_⟩
  obtain ⟨extension', hextension', hcut⟩ := hother.run hrun hsuffix
  rcases List.mem_pair.1 hextension' with rfl | rfl
  · rw [List.append_nil] at hcut
    rw [← hcut, List.length_append]
    exact Nat.le_add_right ..
  · rcases List.mem_pair.1 hextension with rfl | rfl
    · rw [List.append_nil] at hcut
      exact absurd ⟨other, hcut.symm⟩ h.no_extension
    · rw [List.append_cancel_right hcut]

/-- A way to write the link to a preprint. -/
structure LinkSpelling where
  front : Text
  path : Text
  extension : Text
  suffix : Text

namespace LinkSpelling

def spell (l : LinkSpelling) (id : Text) : Text :=
  l.front ++ (archive ++ l.path ++ (id ++ l.extension ++ l.suffix))

structure WellFormed (l : LinkSpelling) : Prop where
  front : ¬archive <:+: l.front
  path : l.path ∈ archivePaths
  extension : l.extension ∈ extensions
  suffix : EndsPath l.suffix

def canonical : LinkSpelling where
  front := "https://"
  path := "abs/"
  extension := []
  suffix := []

theorem canonical_wellFormed : canonical.WellFormed where
  front := by simp [canonical, archive, List.infix_cons_iff]
  path := List.mem_cons_self ..
  extension := List.mem_cons_self ..
  suffix := by simp [canonical, EndsPath]

theorem spell_canonical (id : Text) : canonical.spell id = "https://arxiv.org/abs/" ++ id := by
  simp [canonical, spell, archive]

end LinkSpelling

theorem arxivId?_of_url {e : Entry} {l : LinkSpelling} {id : Text} (hl : l.WellFormed)
    (hid : IsPreprint id) (harxiv : e.arxiv = none) (hurl : e.url = some (l.spell id)) :
    arxivId? e = some id := by
  have hlink : identifierInLink? (l.spell id) = some id :=
    identifierInLink?_mark hl.front hl.path (hid.linkIdentifier? hl.extension hl.suffix)
  rw [arxivId?, harxiv, hurl, Option.bind_some, hlink]
  rfl

theorem linkTarget?_of_arxivId? {e : Entry} {id : Text} (hdoi : e.doi = none)
    (h : arxivId? e = some id) : linkTarget? e = some ("https://arxiv.org/abs/" ++ id) := by
  rw [linkTarget?, hdoi, h]

/-- However the link to a preprint is written, the entry has the preprint's identifier and, without
another identifier of its own, links to the preprint in one way; a link written that way stays. -/
theorem links_to_one_preprint {e : Entry} {l : LinkSpelling} {id : Text} (hl : l.WellFormed)
    (hid : IsPreprint id) (harxiv : e.arxiv = none) (hurl : e.url = some (l.spell id)) :
    arxivId? e = some id ∧
      (e.doi = none → linkTarget? e = some ("https://arxiv.org/abs/" ++ id)) ∧
      ∀ again : Entry, again.arxiv = none → again.doi = none →
        again.url = some ("https://arxiv.org/abs/" ++ id) → linkTarget? again = again.url := by
  have hfound := arxivId?_of_url hl hid harxiv hurl
  refine ⟨hfound, fun hdoi => linkTarget?_of_arxivId? hdoi hfound, fun again harxiv hdoi hurl => ?_⟩
  rw [← LinkSpelling.spell_canonical] at hurl
  rw [linkTarget?_of_arxivId? hdoi
    (arxivId?_of_url LinkSpelling.canonical_wellFormed hid harxiv hurl), hurl,
    LinkSpelling.spell_canonical]

/-- A link to the file of a preprint, with a query and the name of the archive in its fragment. -/
def queriedLink : LinkSpelling where
  front := "see http://www."
  path := "pdf/"
  extension := ".pdf"
  suffix := "?context=words#arxiv.org/abs/1"

/-- The identifier has dots, a slash and a name that begins like the extension. -/
theorem links_to_one_preprint_queriedLink :
    queriedLink.WellFormed ∧ IsPreprint "words.pdfs/0101010v1.2" ∧
      linkTarget? { url := some (queriedLink.spell "words.pdfs/0101010v1.2")
                    note := some "arXiv:12" } =
        some "https://arxiv.org/abs/words.pdfs/0101010v1.2" := by
  have hl : queriedLink.WellFormed :=
    ⟨by simp [queriedLink, archive, List.infix_cons_iff], by simp [queriedLink, archivePaths],
      by simp [queriedLink, extensions], by simp [queriedLink, EndsPath]⟩
  have hid : IsPreprint "words.pdfs/0101010v1.2" :=
    ⟨by simp, by simp [Char.isBlank], by decide +kernel⟩
  have htarget := (links_to_one_preprint
    (e := { url := some (queriedLink.spell "words.pdfs/0101010v1.2"), note := some "arXiv:12" })
    hl hid rfl rfl).2.1 rfl
  refine ⟨hl, hid, htarget.trans ?_⟩
  simp

end TexCatalog.Bibliography
