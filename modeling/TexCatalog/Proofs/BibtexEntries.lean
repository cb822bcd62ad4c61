import Mathlib.Data.List.Forall2
import TexCatalog.Proofs.BibtexSpelling

/-!
# BibTeX entry by entry

A well-formed text is read entry by entry. Each entry means in the text what it means alone: its
type, its key and the last value that it gives under each name, in whatever order its fields stand.
Of the entries with one key the last one counts.
-/

namespace TexCatalog

namespace TextMap

variable {α : Type}

theorem find_append (k : Text) (a b : List (Text × α)) :
    find k (a ++ b) = (find k a).or (find k b) := by
  induction a with
  | nil => rfl
  | cons e more ih =>
    rw [List.cons_append, find, find, ih]
    split <;> rfl

/-- Of the entries with one key the last one counts, and all of them before those there were. -/
theorem get?_foldl_insert_last (entries : List (Text × α)) (m : TextMap α) (k : Text) :
    (entries.foldl (fun m e => m.insert e.1 e.2) m).get? k =
      (find k entries.reverse).or (m.get? k) := by
  obtain ⟨behind, rfl⟩ : ∃ behind, entries = List.reverse behind :=
    ⟨entries.reverse, entries.reverse_reverse.symm⟩
  rw [List.foldl_reverse, List.reverse_reverse]
  induction behind with
  | nil => rfl
  | cons e more ih =>
    rw [List.foldr_cons, get?_insert, ih, find]
    split <;> rfl

end TextMap

namespace Bibliography

namespace Bibtex

open Text

/-! ### Entries -/

def WrittenField.last? (name : Text) (fields : List WrittenField) : Option Text :=
  TextMap.find name (fields.map WrittenField.read).reverse

theorem WrittenField.last?_append (name : Text) (front back : List WrittenField) :
    last? name (front ++ back) = (last? name back).or (last? name front) := by
  rw [last?, last?, last?, List.map_append, List.reverse_append, TextMap.find_append]

theorem WrittenField.last?_cons (name : Text) (f : WrittenField) (back : List WrittenField) :
    last? name (f :: back) =
      (last? name back).or (if lower f.name = name then some f.value.text else none) :=
  last?_append name [f] back

namespace WrittenEntry

def lastValue? (e : WrittenEntry) (name : Text) : Option Text := WrittenField.last? name e.fields

/-- Entries of the same type and key with the same last values. -/
structure SaysSame (e e' : WrittenEntry) : Prop where
  type : lower e.type = lower e'.type
  key : e.key = e'.key
  values (name : Text) : e.lastValue? name = e'.lastValue? name

theorem SaysSame.symm {e e' : WrittenEntry} (h : e.SaysSame e') : e'.SaysSame e :=
  ⟨h.type.symm, h.key.symm, fun name => (h.values name).symm⟩

/-- Fields of different names may change places. -/
theorem SaysSame.swap (e : WrittenEntry) {f g : WrittenField} (hname : lower f.name ≠ lower g.name)
    (front back : List WrittenField) :
    SaysSame { e with fields := front ++ f :: g :: back }
      { e with fields := front ++ g :: f :: back } := by
  refine ⟨rfl, rfl, fun name => ?_⟩
  simp only [lastValue?, WrittenField.last?_append, WrittenField.last?_cons]
  by_cases hf : lower f.name = name
  · have hg : ¬lower g.name = name := fun hg => hname (hf.trans hg.symm)
    rw [if_neg hg, Option.or_none, Option.or_none]
  · rw [if_neg hf, Option.or_none, Option.or_none]

/-- A field may be left out if a later one has its name. -/
theorem SaysSame.leaveOut (e : WrittenEntry) {f g : WrittenField} {back : List WrittenField}
    (hg : g ∈ back) (hname : lower g.name = lower f.name) (front : List WrittenField) :
    SaysSame { e with fields := front ++ f :: back } { e with fields := front ++ back } := by
  refine ⟨rfl, rfl, fun name => ?_⟩
  obtain ⟨before, behind, rfl⟩ := List.append_of_mem hg
  simp only [lastValue?, WrittenField.last?_append, WrittenField.last?_cons, hname]
  by_cases hf : lower f.name = name
  · rw [if_pos hf, if_pos hf]
    simp only [Option.or_assoc, Option.some_or]
  · rw [if_neg hf, if_neg hf, Option.or_none]

theorem get?_read (e : WrittenEntry) (name : Text) :
    e.read.fields.get? name = e.lastValue? name :=
  (TextMap.get?_foldl_insert_last _ ∅ name).trans Option.or_none

theorem SaysSame.read {e e' : WrittenEntry} (h : e.SaysSame e') : e.read = e'.read := by
  have hfields : e.read.fields = e'.read.fields := TextMap.ext_get? fun name => by
    rw [get?_read, get?_read, h.values]
  exact RawEntry.mk.injEq .. ▸ ⟨h.type, h.key, hfields⟩

theorem breaksOff_read (e : WrittenEntry) :
    e.read.BreaksOff ↔ ∃ v ∈ e.lastValue? "author", HasWide 0 v := by
  unfold RawEntry.BreaksOff
  rw [get?_read]
  rfl

def alone (e : WrittenEntry) : WrittenFile where
  items := [({ comments := [], text := [] }, .entry e)]
  last := { comments := [], text := [] }

theorem spell_alone (e : WrittenEntry) : e.alone.spell = e.spell := by
  simp [alone, WrittenFile.spell, Gap.spell, WrittenItem.spell]

theorem WellFormed.alone {e : WrittenEntry} (h : e.WellFormed) : e.alone.WellFormed := by
  have hgap : Gap.WellFormed ⟨[], []⟩ ∧ Gap.Ends ⟨[], []⟩ := by decide
  exact ⟨List.forall_mem_singleton.2 ⟨hgap.1, hgap.2, h⟩, hgap.1⟩

end WrittenEntry

/-! ### Files -/

def WrittenItem.getEntry : WrittenItem → Option WrittenEntry
  | entry e => some e
  | directive _ => none

namespace WrittenFile

def entries (file : WrittenFile) : List WrittenEntry := file.items.filterMap (·.2.getEntry)

def last? (file : WrittenFile) (key : Text) : Option WrittenEntry :=
  file.entries.reverse.find? (·.key = key)

theorem read_eq_entries (file : WrittenFile) : file.read = file.entries.map WrittenEntry.read := by
  rw [read, entries, List.map_filterMap]
  congr
  funext i
  cases i.2 <;> rfl

end WrittenFile

theorem toEntries_forall₂ {raws : List RawEntry} {entries : List Entry}
    (h : toEntries raws = .ok entries) :
    List.Forall₂ (fun raw entry => raw.toEntry = .ok entry) raws entries := by
  induction raws generalizing entries with
  | nil =>
    cases h
    exact .nil
  | cons raw more ih =>
    rw [toEntries] at h
    split at h
    · cases h
    · next entry hentry =>
      cases hmore : toEntries more with
      | error e => rw [hmore] at h; cases h
      | ok rest =>
        rw [hmore] at h
        cases h
        exact .cons hentry (ih hmore)

theorem id_of_toEntry {raw : RawEntry} {entry : Entry} (h : raw.toEntry = .ok entry) :
    entry.id = raw.key := by
  rcases toEntry_outcome raw with ⟨_, he⟩ | ⟨_, authors, he⟩
  · rw [he] at h
    cases h
  · rw [he] at h
    cases h
    rfl

/-- The first of the written entries with a key has the meaning that stands first under it. -/
theorem find_of_forall₂ {written : List WrittenEntry} {entries : List Entry}
    (h : List.Forall₂ (fun e entry => e.read.toEntry = .ok entry) written entries) (key : Text) :
    Option.Rel (fun e entry => e.key = key ∧ e.read.toEntry = .ok entry)
      (written.find? (·.key = key)) (TextMap.find key (entries.map fun e => (e.id, e))) := by
  induction h with
  | nil => exact .none
  | @cons e entry _ _ hentry _ ih =>
    have hid : entry.id = e.key := id_of_toEntry hentry
    rw [List.map_cons, TextMap.find, List.find?_cons, hid]
    by_cases hkey : e.key = key
    · rw [if_pos hkey, decide_eq_true hkey]
      exact .some ⟨hkey, hentry⟩
    · rw [if_neg hkey, decide_eq_false hkey]
      exact ih

end Bibtex

open Bibtex

theorem ofBibtex_eq_ok {file : WrittenFile} (h : file.WellFormed) {entries : List Entry}
    (he : toEntries (file.entries.map WrittenEntry.read) = .ok entries) :
    ofBibtex file.spell = .ok (ofEntries entries) := by
  rw [ofBibtex, scan_spell h, file.read_eq_entries, he]
  exact if_neg fun hnone => hnone.2 rfl

/-- A well-formed text whose author lists have no wide characters outside braces is read to a map of
the keys of its entries. Under each key is what the last entry with that key gives if it is read
alone, and every entry gives the same that has the same type, the same key and the same last values.
-/
theorem ofBibtex_spell {file : WrittenFile} (h : file.WellFormed)
    (hauthors : ∀ e ∈ file.entries, ∀ v ∈ e.lastValue? "author", ¬HasWide 0 v) :
    ∃ bib, ofBibtex file.spell = .ok bib ∧
      (∀ key, file.last? key = none → bib.get? key = none) ∧
      ∀ key e, file.last? key = some e → ∃ entry, bib.get? key = some entry ∧
        ∀ e' : WrittenEntry, e'.WellFormed → e'.SaysSame e →
          ofBibtex e'.spell = .ok (.ofList [(key, entry)]) := by
  rcases toEntries_outcome (file.entries.map WrittenEntry.read) with
    ⟨⟨raw, hraw, hbreaks⟩, _⟩ | ⟨_, entries, he, _⟩
  · obtain ⟨e, hmem, rfl⟩ := List.mem_map.1 hraw
    obtain ⟨v, hv, hwide⟩ := e.breaksOff_read.1 hbreaks
    exact absurd hwide (hauthors e hmem v hv)
  refine ⟨ofEntries entries, ofBibtex_eq_ok h he, ?_⟩
  have hmeans : List.Forall₂ (fun e entry => e.read.toEntry = .ok entry) file.entries.reverse
      entries.reverse := List.rel_reverse (List.forall₂_map_left_iff.1 (toEntries_forall₂ he))
  have hget (key : Text) : (ofEntries entries).get? key =
      TextMap.find key (entries.reverse.map fun e => (e.id, e)) := by
    rw [List.map_reverse]
    exact (TextMap.get?_foldl_insert_last _ ∅ key).trans Option.or_none
  have hlast (key : Text) : Option.Rel (fun e entry => e.key = key ∧ e.read.toEntry = .ok entry)
      (file.last? key) ((ofEntries entries).get? key) :=
    hget key ▸ find_of_forall₂ hmeans key
  refine ⟨fun key hnone => ?_, fun key e hsome => ?_⟩
  · have hkey := hlast key
    rw [hnone] at hkey
    generalize (ofEntries entries).get? key = found at hkey
    cases hkey
    rfl
  · have hkey := hlast key
    rw [hsome] at hkey
    generalize (ofEntries entries).get? key = found at hkey
    cases hkey with
    | @some _ entry hmean =>
      obtain ⟨rfl, hentry⟩ := hmean
      refine ⟨entry, rfl, fun e' he' hsame => ?_⟩
      have hread : toEntries (e'.alone.entries.map WrittenEntry.read) = .ok [entry] := by
        change toEntries [e'.read] = _
        rw [hsame.read, toEntries, hentry]
        rfl
      have hkey : e.key = entry.id := (id_of_toEntry hentry).symm
      rw [← e'.spell_alone, ofBibtex_eq_ok he'.alone hread, hkey]
      rfl

def tightField (name : Text) (value : WrittenValue) : WrittenField where
  before := []
  name := name
  beforeMark := []
  afterMark := []
  value := value
  after := []

def secondEdition (fields : List WrittenField) : WrittenEntry where
  type := "BOOK"
  afterType := " "
  beforeKey := ""
  key := "writer:1"
  afterKey := ""
  fields := fields
  trailing := true
  closing := "\n"

/-- The title has a quotation mark that is escaped, and the year a group with an at sign. -/
def editionFields : List WrittenField :=
  [tightField "title" (.quoted ['a', '\\', '"', '@']),
    tightField "year" (.braced "1907, @\x7bcorrected\x7d"), tightField "author" (.bare "Writer")]

def earlierYear : WrittenField := tightField "Year" (.bare "1901")

/-- Two editions under one key, with a comment and other text between them. The second one gives its
year twice. -/
def twoEditions : WrittenFile where
  items := [
    ({ comments := [], text := "Books " }, .entry (secondEdition editionFields)),
    ({ comments := [], text := ", then " }, .directive {
      type := "Comment", afterType := "", body := "@book\x7bwriter:1,\x7d" }),
    ({ comments := [], text := "" },
      .entry (secondEdition (earlierYear :: editionFields)))]
  last := { comments := [], text := " and no more." }

theorem tightField_wellFormed {name : Text} {value : WrittenValue} (hname : IsWord isFieldChar name)
    (hvalue : value.WellFormed) : (tightField name value).WellFormed := by
  refine ⟨?_, hname, ?_, ?_, hvalue, ?_⟩
  all_goals exact fun c hc => absurd hc List.not_mem_nil

/-- The two editions are written in words and groups. -/
theorem twoEditions_texts :
    (∀ word ∈ [("BOOK" : Text), "Comment", "Writer", "1901"], IsWord Text.isAlphanumeric word) ∧
      (∀ name ∈ [("title" : Text), "year", "author", "Year"], IsWord isFieldChar name) ∧
      IsWord isKeyChar "writer:1" ∧ ¬isDirective (Text.lower "BOOK") ∧
      isDirective (Text.lower "Comment") ∧
      Balanced "1907, @\x7bcorrected\x7d" ∧ Balanced "@book\x7bwriter:1,\x7d" := by
  decide +kernel

theorem secondEdition_wellFormed {fields : List WrittenField} (hne : fields ≠ [])
    (hfields : ∀ f ∈ fields, f.WellFormed) : (secondEdition fields).WellFormed := by
  obtain ⟨hwords, -, hkey, hbook, -⟩ := twoEditions_texts
  exact {
    type := hwords _ (by simp [secondEdition])
    type_lower := hbook
    afterType := by simp [secondEdition, Text.IsLayout, Char.isLayout]
    beforeKey := by simp [secondEdition, Text.IsLayout]
    key := hkey
    afterKey := by simp [secondEdition, Text.IsLayout]
    fields := hfields
    trailing := fun _ => hne
    closing := by simp [secondEdition, Text.IsLayout, Char.isLayout] }

theorem editionFields_wellFormed : ∀ f ∈ editionFields, f.WellFormed := by
  obtain ⟨hwords, hnames, -, -, -, hyear, -⟩ := twoEditions_texts
  have htitle : Unquoted ['a', '\\', '"', '@'] :=
    .plain (by decide) (by decide) (.escape '"' (.plain (by decide) (by decide) .nil))
  have hauthor : (WrittenValue.bare "Writer").WellFormed := hwords _ (by simp)
  refine List.forall_mem_cons.2 ⟨tightField_wellFormed (hnames _ (by simp)) htitle,
    List.forall_mem_cons.2 ⟨tightField_wellFormed (hnames _ (by simp)) hyear,
      List.forall_mem_singleton.2 (tightField_wellFormed (hnames _ (by simp)) hauthor)⟩⟩

theorem twoEditions_wellFormed : twoEditions.WellFormed := by
  obtain ⟨hwords, hnames, -, -, hdirective, -, hgroup⟩ := twoEditions_texts
  have hword : (WrittenValue.bare "1901").WellFormed := hwords _ (by simp)
  have hyear : earlierYear.WellFormed := tightField_wellFormed (hnames _ (by simp)) hword
  have hfirst := secondEdition_wellFormed (List.cons_ne_nil _ _) editionFields_wellFormed
  have hsecond := secondEdition_wellFormed (List.cons_ne_nil earlierYear editionFields)
    (List.forall_mem_cons.2 ⟨hyear, editionFields_wellFormed⟩)
  have hcomment : WrittenDirective.WellFormed {
      type := "Comment", afterType := "", body := "@book\x7bwriter:1,\x7d" } :=
    ⟨hwords _ (by simp), hdirective, by simp [Text.IsLayout], hgroup⟩
  have hgap {text : Text} (htext : '@' ∉ text) : Gap.WellFormed { comments := [], text } :=
    ⟨List.forall_mem_nil _, htext⟩
  have hends {text : Text} (htext : (Text.trimStart text).head? ≠ some '%') :
      Gap.Ends { comments := [], text } := htext
  refine ⟨List.forall_mem_cons.2 ⟨⟨hgap (by simp), hends (by simp [Text.trimStart, Char.isBlank]),
      hfirst⟩,
    List.forall_mem_cons.2 ⟨⟨hgap (by simp), hends (by simp [Text.trimStart, Char.isBlank]),
      hcomment⟩,
      List.forall_mem_singleton.2 ⟨hgap (by simp), hends (by simp [Text.trimStart]), hsecond⟩⟩⟩,
    hgap (by simp)⟩

/-- The second edition counts, and means the same alone and with one year. -/
theorem ofBibtex_spell_twoEditions : twoEditions.WellFormed ∧ ∃ bib entry,
    ofBibtex twoEditions.spell = .ok bib ∧ bib.get? "writer:1" = some entry ∧
      ofBibtex (secondEdition editionFields).spell = .ok (.ofList [("writer:1", entry)]) := by
  have hnarrow : ∀ e ∈ twoEditions.entries, ∀ v ∈ e.lastValue? "author", ¬HasWide 0 v := by
    have hall : ∀ e ∈ twoEditions.entries, ∀ v ∈ e.lastValue? "author",
        v.all fun c => c.utf8Size = 1 := by decide +kernel
    exact fun e he v hv => not_hasWide (hall e he v hv)
  have hlast : twoEditions.last? "writer:1" = some (secondEdition (earlierYear :: editionFields)) :=
    List.find?_cons_of_pos (by decide +kernel)
  have hsame : (secondEdition (earlierYear :: editionFields)).SaysSame
      (secondEdition editionFields) :=
    .leaveOut (secondEdition []) (List.mem_cons_of_mem _ (List.mem_cons_self ..))
      (by decide +kernel) []
  obtain ⟨bib, hbib, _, hkeys⟩ := ofBibtex_spell twoEditions_wellFormed hnarrow
  obtain ⟨entry, hentry, halone⟩ := hkeys "writer:1" _ hlast
  have hsecond := halone _
    (secondEdition_wellFormed (List.cons_ne_nil _ _) editionFields_wellFormed) hsame.symm
  exact ⟨twoEditions_wellFormed, bib, entry, hbib, hentry, hsecond⟩

end Bibliography

end TexCatalog
