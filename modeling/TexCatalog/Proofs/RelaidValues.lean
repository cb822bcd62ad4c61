import Mathlib.Data.List.Forall2
import TexCatalog.Proofs.BibtexSpelling

/-!
# Values laid out anew

The blanks in a braced value may be laid out in any way: tabs and line breaks, one or many, make no
difference to the entries that are read. Author lists are the one exception. They are divided before
the blanks are made even, so a run of blanks next to the word `and` between two names keeps its
space there.
-/

namespace TexCatalog.Bibliography

namespace Bibtex

open Text

/-! ### Two files -/

/-- The second value is the first one, or a run of blanks in its braces is laid out anew. In an
author list the division does not tell the two runs apart. -/
inductive WrittenValue.Relaid (isAuthors : Prop) : WrittenValue → WrittenValue → Prop
  | same (v : WrittenValue) : Relaid isAuthors v v
  | run {x g g' y : Text} : IsRun g → IsRun g' → (isAuthors → SplitAlike x g g' y) →
      Relaid isAuthors (.braced (x ++ (g ++ y))) (.braced (x ++ (g' ++ y)))

def WrittenField.Relaid (f f' : WrittenField) : Prop :=
  ∃ v, f.value.Relaid (lower f.name = ("author" : Text)) v ∧ f' = { f with value := v }

def WrittenEntry.Relaid (e e' : WrittenEntry) : Prop :=
  ∃ fs, List.Forall₂ WrittenField.Relaid e.fields fs ∧ e' = { e with fields := fs }

inductive WrittenItem.Relaid : WrittenItem → WrittenItem → Prop
  | entry {e e' : WrittenEntry} : e.Relaid e' → Relaid (.entry e) (.entry e')
  | directive (d : WrittenDirective) : Relaid (.directive d) (.directive d)

def WrittenFile.Relaid (file file' : WrittenFile) : Prop :=
  List.Forall₂ (fun i i' => i.1 = i'.1 ∧ i.2.Relaid i'.2) file.items file'.items ∧
    file.last = file'.last

/-! ### Both are well-formed -/

theorem Balanced.relaid {x g g' y : Text} (hg : IsRun g) (hg' : IsRun g')
    (h : Balanced (x ++ (g ++ y))) : Balanced (x ++ (g' ++ y)) := by
  have hlevel := level_blanks hg.2
  refine ⟨fun {t} ht => ?_, by simpa [hlevel, level_blanks hg'.2] using h.whole⟩
  obtain ⟨r, hr⟩ := ht
  rcases List.append_eq_append_iff.1 hr with ⟨s, rfl, _⟩ | ⟨s, rfl, hs⟩
  · exact h.front ⟨s ++ (g ++ y), by simp⟩
  · rcases List.append_eq_append_iff.1 hs with ⟨u, rfl, rfl⟩ | ⟨u, hu, _⟩
    · have hfront : x ++ (g ++ u) <+: x ++ (g ++ (u ++ r)) := ⟨r, by simp⟩
      simpa [hlevel, level_blanks hg'.2] using h.front hfront
    · have hblank : ∀ c ∈ s, c.isBlank := fun c hc => hg'.2 c (hu ▸ List.mem_append_left u hc)
      simpa [level_blanks hblank] using h.front (List.prefix_append x _)

theorem WrittenValue.Relaid.wellFormed {isAuthors : Prop} {v v' : WrittenValue}
    (h : v.Relaid isAuthors v') (hv : v.WellFormed) : v'.WellFormed := by
  cases h with
  | same => exact hv
  | run hg hg' _ => exact Balanced.relaid hg hg' hv

theorem WrittenField.Relaid.wellFormed {f f' : WrittenField} (h : f.Relaid f')
    (hf : f.WellFormed) : f'.WellFormed := by
  obtain ⟨v, hv, rfl⟩ := h
  exact { hf with value := hv.wellFormed hf.value }

theorem forall_mem_of_forall₂ {α : Type} {r : α → α → Prop} {p : α → Prop}
    (hr : ∀ a b, r a b → p a → p b) {l l' : List α} (h : List.Forall₂ r l l')
    (hl : ∀ a ∈ l, p a) : ∀ b ∈ l', p b := by
  induction h with
  | nil => exact hl
  | cons hab _ ih =>
    rw [List.forall_mem_cons] at hl ⊢
    exact ⟨hr _ _ hab hl.1, ih hl.2⟩

theorem WrittenEntry.Relaid.wellFormed {e e' : WrittenEntry} (h : e.Relaid e')
    (he : e.WellFormed) : e'.WellFormed := by
  obtain ⟨fs, hfs, rfl⟩ := h
  refine { he with fields := ?_, trailing := fun htrailing hnil => ?_ }
  · exact forall_mem_of_forall₂ (fun _ _ hff' hf => hff'.wellFormed hf) hfs he.fields
  · subst hnil
    exact he.trailing htrailing (List.forall₂_nil_right_iff.1 hfs)

theorem WrittenItem.Relaid.wellFormed {i i' : WrittenItem} (h : i.Relaid i')
    (hi : i.WellFormed) : i'.WellFormed := by
  cases h with
  | entry he => exact he.wellFormed hi
  | directive => exact hi

theorem WrittenFile.Relaid.wellFormed {file file' : WrittenFile} (h : file.Relaid file')
    (hfile : file.WellFormed) : file'.WellFormed := by
  refine ⟨forall_mem_of_forall₂ ?_ h.1 hfile.items, h.2 ▸ hfile.last⟩
  rintro ⟨gap, i⟩ ⟨_, i'⟩ ⟨rfl, hitem⟩ ⟨hgap, hends, hi⟩
  exact ⟨hgap, hends, hitem.wellFormed hi⟩

/-! ### Both are read alike -/

def SameValue (name v v' : Text) : Prop :=
  cleanValue v = cleanValue v' ∧ (name = ("author" : Text) → authorsOfList v = authorsOfList v')

def SameFields (m m' : TextMap Text) : Prop :=
  ∀ name, Option.Rel (SameValue name) (m.get? name) (m'.get? name)

structure RawEntry.Alike (raw raw' : RawEntry) : Prop where
  type : raw.type = raw'.type
  key : raw.key = raw'.key
  fields : SameFields raw.fields raw'.fields

theorem SameFields.insert {m m' : TextMap Text} (h : SameFields m m') {name v v' : Text}
    (hv : SameValue name v v') : SameFields (m.insert name v) (m'.insert name v') := by
  intro other
  rw [TextMap.get?_insert, TextMap.get?_insert]
  by_cases hname : name = other
  · subst hname
    rw [if_pos rfl, if_pos rfl]
    exact .some hv
  · rw [if_neg hname, if_neg hname]
    exact h other

theorem WrittenField.Relaid.read {f f' : WrittenField} (h : f.Relaid f') :
    f.read.1 = f'.read.1 ∧ SameValue f.read.1 f.read.2 f'.read.2 := by
  obtain ⟨v, hv, rfl⟩ := h
  refine ⟨rfl, ?_⟩
  unfold WrittenField.read
  generalize f.value = w at hv
  cases hv with
  | same => exact ⟨rfl, fun _ => rfl⟩
  | run hg hg' hsplit =>
    exact ⟨cleanValue_run hg hg' _ _, fun hauthor => authorsOfList_run hg hg' (hsplit hauthor)⟩

theorem SameFields.foldl {fs fs' : List WrittenField} (h : List.Forall₂ WrittenField.Relaid fs fs')
    {m m' : TextMap Text} (hm : SameFields m m') :
    SameFields ((fs.map WrittenField.read).foldl (fun m f => m.insert f.1 f.2) m)
      ((fs'.map WrittenField.read).foldl (fun m f => m.insert f.1 f.2) m') := by
  induction h generalizing m m' with
  | nil => exact hm
  | cons hf _ ih =>
    obtain ⟨hname, hvalue⟩ := hf.read
    refine ih ?_
    dsimp only
    rw [← hname]
    exact hm.insert hvalue

theorem WrittenEntry.Relaid.read {e e' : WrittenEntry} (h : e.Relaid e') :
    e.read.Alike e'.read := by
  obtain ⟨fs, hfs, rfl⟩ := h
  exact ⟨rfl, rfl, SameFields.foldl hfs fun _ => .none⟩

theorem WrittenItem.Relaid.read? {i i' : WrittenItem} (h : i.Relaid i') :
    Option.Rel RawEntry.Alike i.read? i'.read? := by
  cases h with
  | entry he => exact .some he.read
  | directive => exact .none

theorem RawEntry.Alike.toEntry {raw raw' : RawEntry} (h : raw.Alike raw') :
    raw.toEntry = raw'.toEntry := by
  have hfield : raw.field? = raw'.field? := by
    funext name
    have hname := h.fields name
    unfold RawEntry.field?
    generalize raw.fields.get? name = o, raw'.fields.get? name = o' at hname
    cases hname with
    | some hv => rw [Option.map_some, Option.map_some, hv.1]
    | none => rfl
  have hauthors : raw.authors = raw'.authors := by
    have hname := h.fields ("author" : Text)
    unfold RawEntry.authors
    generalize raw.fields.get? _ = o, raw'.fields.get? _ = o' at hname
    cases hname with
    | some hv => exact hv.2 rfl
    | none => rfl
  have hdescribe : raw.describe = raw'.describe := by
    funext authors
    simp only [RawEntry.describe, hfield, h.type, h.key]
  rw [RawEntry.toEntry, RawEntry.toEntry, hauthors, hdescribe]

theorem toEntries_alike {raws raws' : List RawEntry} (h : List.Forall₂ RawEntry.Alike raws raws') :
    toEntries raws = toEntries raws' := by
  induction h with
  | nil => rfl
  | cons hraw _ ih => rw [toEntries, toEntries, hraw.toEntry, ih]

theorem WrittenFile.Relaid.read {file file' : WrittenFile} (h : file.Relaid file') :
    List.Forall₂ RawEntry.Alike file.read file'.read := by
  obtain ⟨items, last⟩ := file
  obtain ⟨items', last'⟩ := file'
  obtain ⟨hitems, -⟩ := h
  unfold WrittenFile.read
  dsimp only at hitems ⊢
  induction hitems with
  | nil => exact .nil
  | cons hi _ ih =>
    have hread := hi.2.read?
    rw [List.filterMap_cons, List.filterMap_cons]
    revert hread
    generalize WrittenItem.read? _ = o, WrittenItem.read? _ = o'
    rintro (hraw | _)
    · exact .cons hraw ih
    · exact ih

end Bibtex

open Bibtex

/-- A well-formed text may have the blanks in its braced values laid out anew, in an author list so
that the spaces around the word `and` stay as they are. -/
theorem ofBibtex_relaid {file file' : WrittenFile} (hfile : file.WellFormed)
    (h : file.Relaid file') : ofBibtex file.spell = ofBibtex file'.spell := by
  rw [ofBibtex, ofBibtex, scan_spell hfile, scan_spell (h.wellFormed hfile)]
  dsimp only
  rw [toEntries_alike h.read]

/-- A text with one entry, whose author list and title have the given runs of blanks in them. -/
def onePaper (authorRun titleRun : Text) : WrittenFile where
  items := [({ comments := [(" ", " see @misc")], text := "notes " }, .entry {
    type := "Article", afterType := " ", beforeKey := "", key := "fernley:1", afterKey := "",
    fields := [
      { before := "\n  ", name := "Author", beforeMark := " ", afterMark := " ",
        value := .braced ("\x7bThe Round\nTable\x7d and" ++ (authorRun ++ ("Fernley, Ida" : Text))),
        after := "" },
      { before := "\n  ", name := "title", beforeMark := "", afterMark := "",
        value := .braced ("On {Crooked}" ++ (titleRun ++ ("Paths" : Text))), after := " " },
      { before := " ", name := "year", beforeMark := "", afterMark := "\t", value := .bare "1901",
        after := "" }],
    trailing := true, closing := "\n" })]
  last := { comments := [], text := "% end" }

theorem ofBibtex_relaid_onePaper :
    (onePaper "  " " ").WellFormed ∧ (onePaper "  " " ").Relaid (onePaper " \n\t" "\n\n  ") ∧
      ofBibtex (onePaper "  " " ").spell = ofBibtex (onePaper " \n\t" "\n\n  ").spell := by
  have hwell : (onePaper "  " " ").WellFormed := by
    have hauthors : Balanced (("\x7bThe Round\nTable\x7d and" : Text) ++
        (("  " : Text) ++ ("Fernley, Ida" : Text))) := by decide +kernel
    have htitle : Balanced (("On {Crooked}" : Text) ++ ((" " : Text) ++ ("Paths" : Text))) := by
      decide +kernel
    have hyear : IsWord Text.isAlphanumeric ("1901" : Text) := by decide +kernel
    refine ⟨List.forall_mem_singleton.2 ⟨by decide +kernel, by decide +kernel, ?_⟩,
      by decide +kernel⟩
    refine ⟨by decide +kernel, by decide +kernel, by decide +kernel, by decide +kernel,
      by decide +kernel, by decide +kernel, ?_, fun _ => List.cons_ne_nil _ _, by decide +kernel⟩
    refine List.forall_mem_cons.2 ⟨⟨?_, ?_, ?_, ?_, hauthors, ?_⟩,
      List.forall_mem_cons.2 ⟨⟨?_, ?_, ?_, ?_, htitle, ?_⟩,
        List.forall_mem_singleton.2 ⟨?_, ?_, ?_, ?_, hyear, ?_⟩⟩⟩
    all_goals decide +kernel
  have hrelaid : (onePaper "  " " ").Relaid (onePaper " \n\t" "\n\n  ") := by
    refine ⟨.cons ⟨rfl, .entry ⟨_, ?_, rfl⟩⟩ .nil, rfl⟩
    refine .cons ⟨_, .run (by decide +kernel) (by decide +kernel) fun _ => ?_, rfl⟩
      (.cons ⟨_, .run (by decide +kernel) (by decide +kernel) fun h => ?_, rfl⟩
        (.cons ⟨_, .same _, rfl⟩ .nil))
    · refine ⟨iff_of_false (not_hasWide ?_) (not_hasWide ?_), ?_, ?_, ?_⟩ <;> decide +kernel
    · exact absurd h (by decide +kernel)
  exact ⟨hwell, hrelaid, ofBibtex_relaid hwell hrelaid⟩

end TexCatalog.Bibliography
