import Mathlib.Data.List.Nodup
import TexCatalog.Proofs.Findings
import TexCatalog.Site.Merge
import TexCatalog.Site.Sitemap

/-!
# The indexes of a site

What merging the records of pages with stems of their own gives, look-up by look-up: the first page
in the order of stems keeps a label and the last one keeps a structured record. The problems found
follow from the two indexes, each of them once and in the order of the names. None of it depends on
the order in which the pages come.
-/

namespace TexCatalog

namespace TextMap

variable {α β : Type}

theorem get?_ofList {entries : List (Text × α)} (h : entries.Pairwise (·.1 ≠ ·.1)) (k : Text) :
    (ofList entries).get? k = find k entries :=
  (get?_foldl_insert h empty k).trans Option.or_none

theorem find_map_key {f : Text → α} {items : List Text} {k : Text} :
    find k (items.map fun i => (i, f i)) = if k ∈ items then some (f k) else none := by
  induction items with
  | nil => rfl
  | cons i more ih =>
    rw [List.map_cons, find, ih]
    by_cases hik : i = k
    · subst hik
      simp
    · simp [hik, Ne.symm hik]

theorem find_map_value {f : α → β} {entries : List (Text × α)} {k : Text} :
    find k (entries.map fun e => (e.1, f e.2)) = (find k entries).map f := by
  induction entries with
  | nil => rfl
  | cons e more ih =>
    obtain ⟨l, v⟩ := e
    rw [List.map_cons, find, find, ih]
    split <;> rfl

theorem mem_of_find {entries : List (Text × α)} {k : Text} {v : α} (h : find k entries = some v) :
    (k, v) ∈ entries := by
  induction entries with
  | nil => cases h
  | cons e more ih =>
    obtain ⟨l, w⟩ := e
    rw [find] at h
    split at h
    · next hl =>
      subst hl
      cases h
      exact List.mem_cons_self ..
    · exact List.mem_cons_of_mem _ (ih h)

theorem find_of_mem {entries : List (Text × α)} (hs : entries.Pairwise (·.1 ≠ ·.1)) {k : Text}
    {v : α} (h : (k, v) ∈ entries) : find k entries = some v := by
  induction entries with
  | nil => cases h
  | cons e more ih =>
    obtain ⟨l, w⟩ := e
    rw [List.pairwise_cons] at hs
    rw [find]
    rcases List.mem_cons.1 h with he | h
    · cases he
      exact if_pos rfl
    · rw [if_neg (hs.1 (k, v) h)]
      exact ih hs.2 h

theorem mem_entries {m : TextMap α} {k : Text} {v : α} :
    (k, v) ∈ m.entries ↔ m.get? k = some v :=
  ⟨find_of_mem (keys_ne m.sorted), mem_of_find⟩

/-- A map does not depend on the order in which its entries come. -/
theorem ofList_of_perm {entries : List (Text × α)} {m : TextMap α} (h : entries.Perm m.entries) :
    ofList entries = m := by
  have hkeys : entries.Pairwise (·.1 ≠ ·.1) :=
    (h.pairwise_iff fun {_ _} hne => hne.symm).2 (keys_ne m.sorted)
  apply ext_get?
  intro k
  rw [get?_ofList hkeys]
  apply Option.ext
  intro v
  have hfind : find k entries = some v ↔ (k, v) ∈ entries := ⟨mem_of_find, find_of_mem hkeys⟩
  rw [hfind, h.mem_iff, mem_entries]

theorem mem_keys {m : TextMap α} {k : Text} : k ∈ m.keys ↔ m.contains k := by
  unfold keys contains
  rw [List.mem_map, Option.isSome_iff_exists]
  constructor
  · rintro ⟨⟨l, v⟩, hmem, rfl⟩
    exact ⟨v, mem_entries.1 hmem⟩
  · rintro ⟨v, hv⟩
    exact ⟨(k, v), mem_entries.2 hv, rfl⟩

theorem keys_sorted (m : TextMap α) : m.keys.Pairwise (· < ·) := by
  unfold keys
  rw [List.pairwise_map]
  exact m.sorted

end TextMap

namespace Text

variable {α : Type} {key : α → Text} {items : List α}

theorem insertBy_perm (key : α → Text) (a : α) (items : List α) :
    (insertBy key a items).Perm (a :: items) := by
  induction items with
  | nil => exact .refl _
  | cons b more ih =>
    unfold insertBy
    split
    · exact (ih.cons b).trans (.swap ..)
    · exact .refl _

theorem sortBy_perm (key : α → Text) (items : List α) : (sortBy key items).Perm items := by
  induction items with
  | nil => exact .refl _
  | cons a more ih => exact (insertBy_perm ..).trans (ih.cons a)

theorem mem_sortBy {a : α} : a ∈ sortBy key items ↔ a ∈ items := (sortBy_perm key items).mem_iff

theorem insertBy_pairwise (a : α) (h : items.Pairwise fun a b => ¬ key b < key a) :
    (insertBy key a items).Pairwise fun a b => ¬ key b < key a := by
  induction items with
  | nil => exact List.pairwise_singleton ..
  | cons b more ih =>
    obtain ⟨hb, hmore⟩ := List.pairwise_cons.1 h
    unfold insertBy
    split
    · next hlt =>
      refine List.pairwise_cons.2 ⟨fun c hc => ?_, ih hmore⟩
      rcases List.mem_cons.1 ((insertBy_perm key a more).mem_iff.1 hc) with rfl | hc
      · exact List.lt_asymm hlt
      · exact hb c hc
    · next hnot =>
      refine List.pairwise_cons.2 ⟨fun c hc => ?_, h⟩
      rcases List.mem_cons.1 hc with rfl | hc
      · exact hnot
      · exact List.not_lt.2 (List.le_trans (List.not_lt.1 hnot) (List.not_lt.1 (hb c hc)))

theorem sortBy_pairwise (key : α → Text) (items : List α) :
    (sortBy key items).Pairwise fun a b => ¬ key b < key a := by
  induction items with
  | nil => exact .nil
  | cons a more ih => exact insertBy_pairwise a ih

/-- Items with keys of their own stand in strictly ascending order once they are sorted. -/
theorem sortBy_ascending (h : items.Pairwise fun a b => key a ≠ key b) :
    (sortBy key items).Pairwise fun a b => key a < key b := by
  have hne : (sortBy key items).Pairwise fun a b => key a ≠ key b :=
    (sortBy_perm key items).symm.pairwise h fun hab => hab.symm
  refine ((sortBy_pairwise key items).and hne).imp fun {a b} hab => ?_
  rcases Std.lt_trichotomy (key a) (key b) with hlt | heq | hgt
  · exact hlt
  · exact absurd heq hab.2
  · exact absurd hgt hab.1

theorem nodup_of_ascending {items : List Text} (h : items.Pairwise (· < ·)) : items.Nodup := by
  refine h.imp ?_
  rintro t _ hlt rfl
  exact List.lt_irrefl t hlt

/-- Sorting forgets the order in which items came that their keys tell apart. -/
theorem sortBy_eq_of_perm {items' : List α} (hperm : items'.Perm items)
    (hkey : ∀ a ∈ items, ∀ b ∈ items, key a = key b → a = b) :
    sortBy key items' = sortBy key items := by
  refine List.Perm.eq_of_pairwise ?_ (sortBy_pairwise key items') (sortBy_pairwise key items)
    ((sortBy_perm ..).trans (hperm.trans (sortBy_perm ..).symm))
  intro a b ha hb hab hba
  refine hkey a (hperm.mem_iff.1 (mem_sortBy.1 ha)) b (mem_sortBy.1 hb) ?_
  rcases Std.lt_trichotomy (key a) (key b) with hlt | heq | hgt
  · exact absurd hlt hba
  · exact heq
  · exact absurd hgt hab

end Text

/-- What the first item gives for which there is something, where all items stand in the order of an
asymmetric relation. -/
theorem findSome?_eq_some_of_pairwise {α β : Type} {r : α → α → Prop} {f : α → Option β}
    {items : List α} (h : items.Pairwise r) (hr : ∀ a b, r a b → ¬ r b a) {b : β} :
    items.findSome? f = some b ↔
      ∃ a ∈ items, f a = some b ∧ ∀ c ∈ items, (f c).isSome → ¬ r c a := by
  constructor
  · intro hb
    obtain ⟨front, a, rest, rfl, ha, hfront⟩ := List.findSome?_eq_some_iff.1 hb
    obtain ⟨_, hrest, _⟩ := List.pairwise_append.1 h
    refine ⟨a, by simp, ha, fun c hc hsome hca => ?_⟩
    rcases List.mem_append.1 hc with hc | hc
    · rw [hfront c hc] at hsome
      cases hsome
    · rcases List.mem_cons.1 hc with rfl | hc
      · exact hr _ _ hca hca
      · exact hr _ _ hca ((List.pairwise_cons.1 hrest).1 c hc)
  · rintro ⟨a, hmem, ha, hfirst⟩
    obtain ⟨front, rest, rfl⟩ := List.append_of_mem hmem
    obtain ⟨_, _, hfront⟩ := List.pairwise_append.1 h
    refine List.findSome?_eq_some_iff.2 ⟨front, a, rest, rfl, ha, fun c hc => ?_⟩
    cases hfc : f c with
    | none => rfl
    | some d =>
      have hsome : (f c).isSome := hfc ▸ rfl
      exact absurd (hfront c hc a (List.mem_cons_self ..))
        (hfirst c (List.mem_append_left _ hc) hsome)

namespace Merged

theorem get?_pageLabels (page : PageRecord) (label : Text) :
    (pageLabels page).get? label =
      if page.labels.contains label then some (labelEntry page label) else none := by
  have hkeys : (page.labels.items.map fun label => (label, labelEntry page label)).Pairwise
      (·.1 ≠ ·.1) := by
    apply TextMap.keys_ne
    rw [List.pairwise_map]
    exact page.labels.sorted
  refine (TextMap.get?_ofList hkeys label).trans (TextMap.find_map_key.trans ?_)
  simp [TextSet.contains]

/-- The first page that defines a label gives its entry. -/
theorem get?_labelIndex (pages : List PageRecord) (label : Text) :
    (labelIndex pages).get? label = pages.findSome? fun page =>
      if page.labels.contains label then some (labelEntry page label) else none := by
  induction pages with
  | nil => rfl
  | cons page more ih =>
    rw [labelIndex, TextMap.get?_union, get?_pageLabels, ih, List.findSome?_cons]
    split <;> rfl

theorem get?_pageRecords (page : PageRecord) (id : Text) :
    (pageRecords page).get? id =
      (page.records.get? id).map fun fields => fields.insert pageField page.stem := by
  have hkeys : (page.records.entries.map fun e =>
      (e.1, e.2.insert pageField page.stem)).Pairwise (·.1 ≠ ·.1) := by
    apply TextMap.keys_ne
    rw [List.pairwise_map]
    exact page.records.sorted
  exact (TextMap.get?_ofList hkeys id).trans
    (TextMap.find_map_value (f := fun fields => TextMap.insert fields pageField page.stem))

def recordOwner? (pages : List PageRecord) (id : Text) : Option (PageRecord × Fields) :=
  pages.reverse.findSome? fun page => (page.records.get? id).map fun fields => (page, fields)

/-- The last page that defines a structured record gives its fields. -/
theorem get?_recordIndex (pages : List PageRecord) (id : Text) :
    (recordIndex pages).get? id =
      (recordOwner? pages id).map fun owner => owner.2.insert pageField owner.1.stem := by
  induction pages with
  | nil => rfl
  | cons page more ih =>
    rw [recordIndex, TextMap.get?_union, get?_pageRecords, ih]
    unfold recordOwner?
    rw [List.reverse_cons, List.findSome?_append, Option.map_or, List.findSome?_singleton,
      Option.map_map]
    rfl

def IsFirst (pages : List PageRecord) (defines : PageRecord → Prop) (page : PageRecord) : Prop :=
  page ∈ pages ∧ defines page ∧ ∀ other ∈ pages, defines other → ¬ other.stem < page.stem

def IsLast (pages : List PageRecord) (defines : PageRecord → Prop) (page : PageRecord) : Prop :=
  page ∈ pages ∧ defines page ∧ ∀ other ∈ pages, defines other → ¬ page.stem < other.stem

/-- The entry of a label that stands on a page: the title is that of the first section with its
name, or else that of the page. -/
def entryOn (page : PageRecord) (label : Text) : LabelEntry where
  page := page.stem
  href := page.stem ++ ".htm#" ++ label
  title := match page.sections.find? fun s => s.id = label with
    | some s => s.title
    | none => page.displayTitle

def sharedLabel (label : Text) (stems : List Text) : Diagnostic :=
  ⟨.error, [], "duplicate label " ++ label ++ " defined on pages " ++ Text.join ", " stems⟩

def Lacks (fields : Fields) (name : Text) : Prop :=
  ∀ value, fields.get? name = some value → Text.isBlank value

instance (fields : Fields) (name : Text) : Decidable (Lacks fields name) :=
  match h : fields.get? name with
  | none => .isTrue fun value hv => by rw [h] at hv; cases hv
  | some value =>
    if hb : Text.isBlank value then
      .isTrue fun other ho => by rw [h] at ho; cases ho; exact hb
    else .isFalse fun hl => hb (hl value h)

/-- The errors in a structured record of a page: there is no label of its name, or it lacks one of
the fields that every record has. -/
def recordErrors (labelled : Bool) (id : Text) (stem : Text) (fields : Fields) : Diagnostics :=
  (if labelled then []
    else [⟨.error, stem, "record " ++ id ++ " has no corresponding label"⟩]) ++
  (([("Name" : Text), "Category", "Year", "Rating"].filter fun name => Lacks fields name).map
    fun name => ⟨.error, stem,
      "record " ++ id ++ " on page " ++ stem ++ " is missing required field " ++ name⟩)

/-- The indexes and the problems are exactly those of the pages. -/
structure Exact (pages : List PageRecord) (merged : Merged) : Prop where
  /-- A name is a key of the label index if it is a label of some page. -/
  keys (label : Text) : label ∈ merged.labels.keys ↔ ∃ page ∈ pages, label ∈ page.labels
  label (label : Text) (entry : LabelEntry) : merged.labels.get? label = some entry ↔
    ∃ page, IsFirst pages (label ∈ ·.labels) page ∧ entry = entryOn page label
  ids (id : Text) : id ∈ merged.records.keys ↔ ∃ page ∈ pages, id ∈ page.records.keys
  /-- The last page that defines a record gives its fields, with its stem among them. -/
  record {id : Text} {page : PageRecord} {fields : Fields} :
    IsLast pages (id ∈ ·.records.keys) page → page.records.get? id = some fields →
    ∃ stamped, merged.records.get? id = some stamped ∧
      ∀ name, stamped.get? name = if name = "page" then some page.stem else fields.get? name
  /-- One error for each label of several pages, in the order of the labels, and then the errors in
  the records, in the order of their names. -/
  diagnostics : ∃ (shared : List (Text × List Text)) (records : List (Text × PageRecord × Fields)),
    shared.Pairwise (·.1 < ·.1) ∧
    (∀ label stems, (label, stems) ∈ shared ↔ 2 ≤ stems.length ∧ stems.Pairwise (· < ·) ∧
      ∀ stem, stem ∈ stems ↔ ∃ page ∈ pages, page.stem = stem ∧ label ∈ page.labels) ∧
    records.Pairwise (·.1 < ·.1) ∧
    (∀ id page fields, (id, page, fields) ∈ records ↔
      IsLast pages (id ∈ ·.records.keys) page ∧ page.records.get? id = some fields) ∧
    merged.diagnostics = shared.map (fun e => sharedLabel e.1 e.2) ++ records.flatMap fun e =>
      recordErrors (merged.labels.contains e.1) e.1 e.2.1.stem e.2.2

section

variable {pages : List PageRecord} (hpages : pages.Pairwise fun a b => a.stem < b.stem)

include hpages

theorem get?_labelIndex_eq_some {label : Text} {entry : LabelEntry} :
    (labelIndex pages).get? label = some entry ↔
      ∃ page, IsFirst pages (label ∈ ·.labels) page ∧ entry = entryOn page label := by
  have hasymm (a b : PageRecord) (hab : a.stem < b.stem) : ¬ b.stem < a.stem :=
    fun hba => List.lt_irrefl _ (List.lt_trans hab hba)
  have hentry (page : PageRecord) : labelEntry page label = entryOn page label := by
    unfold labelEntry entryOn PageRecord.sectionTitle?
    congr 1
    · simp [PageRecord.href, PageRecord.fileName]
    · have hsame : (fun s : PageSection => s.id == label) = fun s => decide (s.id = label) := by
        funext s
        by_cases hs : s.id = label <;> simp [hs]
      rw [hsame]
      cases page.sections.find? fun s => decide (s.id = label) <;> rfl
  rw [get?_labelIndex, findSome?_eq_some_of_pairwise hpages hasymm]
  simp only [IsFirst, Option.ite_none_right_eq_some, Option.some.injEq, TextSet.contains_iff,
    Option.isSome_ite, hentry]
  constructor
  · rintro ⟨page, hpage, ⟨hlabel, rfl⟩, hfirst⟩
    exact ⟨page, ⟨hpage, hlabel, hfirst⟩, rfl⟩
  · rintro ⟨page, ⟨hpage, hlabel, hfirst⟩, rfl⟩
    exact ⟨page, hpage, ⟨hlabel, rfl⟩, hfirst⟩

theorem recordOwner?_eq_some {id : Text} {page : PageRecord} {fields : Fields} :
    recordOwner? pages id = some (page, fields) ↔
      IsLast pages (id ∈ ·.records.keys) page ∧ page.records.get? id = some fields := by
  have hasymm (a b : PageRecord) (hab : b.stem < a.stem) : ¬ a.stem < b.stem :=
    fun hba => List.lt_irrefl _ (List.lt_trans hab hba)
  have hreverse : pages.reverse.Pairwise fun a b => b.stem < a.stem :=
    List.pairwise_reverse.2 hpages
  unfold recordOwner?
  rw [findSome?_eq_some_of_pairwise hreverse hasymm]
  simp only [IsLast, List.mem_reverse, Option.map_eq_some_iff, Prod.mk.injEq, Option.isSome_map,
    TextMap.mem_keys, TextMap.contains]
  constructor
  · rintro ⟨page, hpage, ⟨fields, hfields, rfl, rfl⟩, hlast⟩
    exact ⟨⟨hpage, hfields ▸ rfl, hlast⟩, hfields⟩
  · rintro ⟨⟨hpage, _, hlast⟩, hfields⟩
    exact ⟨page, hpage, ⟨fields, hfields, rfl, rfl⟩, hlast⟩

theorem owners_ascending (label : Text) : (owners pages label).Pairwise (· < ·) := by
  unfold owners
  rw [List.pairwise_map]
  exact hpages.filter _

omit hpages in
theorem mem_owners {label stem : Text} :
    stem ∈ owners pages label ↔ ∃ page ∈ pages, page.stem = stem ∧ label ∈ page.labels := by
  simp only [owners, List.mem_map, List.mem_filter, TextSet.contains_iff]
  constructor
  · rintro ⟨page, ⟨hpage, hlabel⟩, hstem⟩
    exact ⟨page, hpage, hstem, hlabel⟩
  · rintro ⟨page, hpage, hstem, hlabel⟩
    exact ⟨page, ⟨hpage, hlabel⟩, hstem⟩

omit hpages in
theorem mem_keys_labelIndex {label : Text} :
    label ∈ (labelIndex pages).keys ↔ ∃ page ∈ pages, label ∈ page.labels := by
  rw [TextMap.mem_keys, TextMap.contains, get?_labelIndex, List.findSome?_isSome_iff]
  simp [TextSet.contains_iff]

omit hpages in
theorem mem_keys_recordIndex {id : Text} :
    id ∈ (recordIndex pages).keys ↔ ∃ page ∈ pages, id ∈ page.records.keys := by
  rw [TextMap.mem_keys, TextMap.contains, get?_recordIndex, Option.isSome_map]
  unfold recordOwner?
  rw [List.findSome?_isSome_iff]
  simp [TextMap.mem_keys, TextMap.contains]

def sharedLabels (pages : List PageRecord) : List (Text × List Text) :=
  ((labelIndex pages).keys.filter fun label => 1 < (owners pages label).length).map
    fun label => (label, owners pages label)

theorem mem_sharedLabels {label : Text} {stems : List Text} :
    (label, stems) ∈ sharedLabels pages ↔ 2 ≤ stems.length ∧ stems.Pairwise (· < ·) ∧
      ∀ stem, stem ∈ stems ↔ ∃ page ∈ pages, page.stem = stem ∧ label ∈ page.labels := by
  simp only [sharedLabels, List.mem_map, List.mem_filter, decide_eq_true_eq, Prod.mk.injEq]
  constructor
  · rintro ⟨label, ⟨_, hseveral⟩, rfl, rfl⟩
    exact ⟨hseveral, owners_ascending hpages label, fun _ => mem_owners⟩
  · rintro ⟨hseveral, hsorted, hstems⟩
    have howners : owners pages label = stems :=
      TextSet.eq_of_sorted (owners_ascending hpages label) hsorted fun stem =>
        mem_owners.trans (hstems stem).symm
    obtain ⟨stem, hstem⟩ :=
      List.exists_mem_of_length_pos (Nat.lt_of_lt_of_le Nat.zero_lt_two hseveral)
    obtain ⟨page, hpage, _, hlabel⟩ := (hstems stem).1 hstem
    exact ⟨label, ⟨mem_keys_labelIndex.2 ⟨page, hpage, hlabel⟩, howners ▸ hseveral⟩, rfl, howners⟩

omit hpages in
theorem checkOwners_all :
    (labelIndex pages).keys.flatMap (checkOwners pages) =
      (sharedLabels pages).map fun e => sharedLabel e.1 e.2 := by
  unfold sharedLabels
  induction (labelIndex pages).keys with
  | nil => rfl
  | cons label more ih =>
    rw [List.flatMap_cons, ih, checkOwners, List.filter_cons]
    by_cases hseveral : 1 < (owners pages label).length
    · simp [hseveral, sharedLabel]
    · simp [hseveral]

omit hpages in
/-- The stem of the page is none of the fields that a record must have. -/
theorem checkRecord_stamped (labels : LabelIndex) (id stem : Text) (fields : Fields) :
    checkRecord labels id (fields.insert pageField stem) =
      recordErrors (labels.contains id) id stem fields := by
  have hpage : ((fields.insert pageField stem).get? pageField).getD [] = stem := by
    rw [TextMap.get?_insert, if_pos rfl]
    rfl
  have hfield : ∀ name ∈ requiredFields,
      (!hasField (fields.insert pageField stem) name) = decide (Lacks fields name) := by
    intro name hname
    have hne : pageField ≠ name := by
      rintro rfl
      exact absurd hname (by decide_cbv)
    unfold hasField
    rw [TextMap.get?_insert, if_neg hne]
    cases hvalue : fields.get? name with
    | none => simp [Lacks, hvalue]
    | some value => simp [Lacks, hvalue]
  unfold checkRecord recordErrors
  simp only [hpage]
  rw [List.filter_congr hfield]
  rfl

def listedRecords (pages : List PageRecord) : List (Text × PageRecord × Fields) :=
  (recordIndex pages).entries.filterMap fun e =>
    (recordOwner? pages e.1).map fun owner => (e.1, owner)

omit hpages in
theorem listedRecords_ascending : (listedRecords pages).Pairwise (·.1 < ·.1) := by
  unfold listedRecords
  rw [List.pairwise_filterMap]
  refine (recordIndex pages).sorted.imp fun {a b} hab c hc d hd => ?_
  obtain ⟨_, _, rfl⟩ := Option.map_eq_some_iff.1 hc
  obtain ⟨_, _, rfl⟩ := Option.map_eq_some_iff.1 hd
  exact hab

theorem mem_listedRecords {id : Text} {page : PageRecord} {fields : Fields} :
    (id, page, fields) ∈ listedRecords pages ↔
      IsLast pages (id ∈ ·.records.keys) page ∧ page.records.get? id = some fields := by
  rw [← recordOwner?_eq_some hpages]
  simp only [listedRecords, List.mem_filterMap, Option.map_eq_some_iff, Prod.mk.injEq]
  constructor
  · rintro ⟨e, _, owner, howner, rfl, rfl⟩
    exact howner
  · intro howner
    have hstamped : (recordIndex pages).get? id = some (fields.insert pageField page.stem) := by
      rw [get?_recordIndex, howner]
      rfl
    exact ⟨(id, _), TextMap.mem_entries.2 hstamped, _, howner, rfl, rfl⟩

omit hpages in
theorem checkRecord_all :
    ((recordIndex pages).entries.flatMap fun e => checkRecord (labelIndex pages) e.1 e.2) =
      (listedRecords pages).flatMap fun e =>
        recordErrors ((labelIndex pages).contains e.1) e.1 e.2.1.stem e.2.2 := by
  unfold listedRecords
  have hentries : ∀ e ∈ (recordIndex pages).entries,
      (recordIndex pages).get? e.1 = some e.2 := fun e he => TextMap.mem_entries.1 he
  generalize (recordIndex pages).entries = entries at hentries
  induction entries with
  | nil => rfl
  | cons e more ih =>
    have he := hentries e (List.mem_cons_self ..)
    rw [get?_recordIndex] at he
    obtain ⟨owner, howner, hstamped⟩ := Option.map_eq_some_iff.1 he
    rw [List.flatMap_cons, ih fun e he => hentries e (List.mem_cons_of_mem _ he),
      List.filterMap_cons, howner, ← hstamped, checkRecord_stamped]
    rfl

theorem ofSorted_exact : Exact pages (ofSorted pages) where
  keys _ := mem_keys_labelIndex
  label _ _ := get?_labelIndex_eq_some hpages
  ids _ := mem_keys_recordIndex
  record {id page fields} hlast hfields := by
    have howner := (recordOwner?_eq_some hpages).2 ⟨hlast, hfields⟩
    refine ⟨fields.insert pageField page.stem, ?_, fun name => ?_⟩
    · change (recordIndex pages).get? id = _
      rw [get?_recordIndex, howner]
      rfl
    · rw [TextMap.get?_insert]
      simp only [pageField, eq_comm]
  diagnostics := by
    refine ⟨sharedLabels pages, listedRecords pages, ?_, fun _ _ => mem_sharedLabels hpages,
      listedRecords_ascending, fun _ _ _ => mem_listedRecords hpages, ?_⟩
    · unfold sharedLabels
      rw [List.pairwise_map]
      exact (labelIndex pages).keys_sorted.filter _
    · change check pages = _
      rw [check, checkOwners_all, checkRecord_all]
      rfl

end

end Merged

/-- Merging pages with stems of their own gives exactly the indexes and the problems of the pages,
in whatever order they come. -/
theorem merge_exact (pages : List PageRecord) (h : (pages.map (·.stem)).Nodup) :
    Merged.Exact pages (merge pages) := by
  have hexact : Merged.Exact (Text.sortBy (·.stem) pages) (merge pages) :=
    Merged.ofSorted_exact (Text.sortBy_ascending (List.pairwise_map.1 h))
  have hlast (c : PageRecord → Prop) (page : PageRecord) :
      Merged.IsLast (Text.sortBy (·.stem) pages) c page ↔ Merged.IsLast pages c page := by
    simp only [Merged.IsLast, Text.mem_sortBy]
  exact {
    keys := by simpa only [Text.mem_sortBy] using hexact.keys
    label := by simpa only [Merged.IsFirst, Text.mem_sortBy] using hexact.label
    ids := by simpa only [Text.mem_sortBy] using hexact.ids
    record := fun hpage => hexact.record ((hlast _ _).2 hpage)
    diagnostics := by simpa only [hlast, Text.mem_sortBy] using hexact.diagnostics }

/-- Two pages with a label in common, and a record on one of them that lacks its rating. -/
def sharingPages : List PageRecord :=
  [{ stem := "b", labels := .singleton "x"
     records := TextMap.ofList [("x", TextMap.ofList
      [("Name", "X"), ("Category", "classical"), ("Year", "1901"), ("Rating", " ")])] },
   { stem := "a", labels := .singleton "x", title := some "First" }]

/-- The page with the first stem keeps the label, though it comes last. -/
theorem merge_exact_sharingPages :
    (sharingPages.map (·.stem)).Nodup ∧ Merged.Exact sharingPages (merge sharingPages) ∧
      (merge sharingPages).labels.get? "x" = some ⟨"a", "a.htm#x", "First"⟩ := by
  have hstems : (sharingPages.map (·.stem)).Nodup := by decide +kernel
  have hexact := merge_exact sharingPages hstems
  refine ⟨hstems, hexact, (hexact.label _ _).2 ⟨_, ⟨List.mem_of_getElem? (i := 1) rfl, ?_, ?_⟩, ?_⟩⟩
  · exact TextSet.mem_singleton.2 rfl
  · intro other hother _
    simp only [sharingPages, List.mem_cons, List.not_mem_nil, or_false] at hother
    rcases hother with rfl | rfl <;> decide +kernel
  · decide +kernel

/-- Merging pages with stems of their own forgets the order in which they came, and the sitemap
forgets the order in which its files are listed. -/
theorem merge_of_perm (pages pages' : List PageRecord) (hstems : (pages.map (·.stem)).Nodup)
    (hperm : pages'.Perm pages) :
    merge pages' = merge pages ∧ ∀ (files files' : List Text) (baseUrl date : Text),
      files'.Perm files → Sitemap.print files' baseUrl date = Sitemap.print files baseUrl date := by
  constructor
  · have hsort : Text.sortBy (·.stem) pages' = Text.sortBy (·.stem) pages :=
      Text.sortBy_eq_of_perm hperm fun _ ha _ hb => List.inj_on_of_nodup_map hstems ha hb
    rw [merge, merge, hsort]
  · intro files files' baseUrl date hfiles
    have hsort : Text.sort files' = Text.sort files :=
      Text.sortBy_eq_of_perm hfiles fun _ _ _ _ heq => heq
    rw [Sitemap.print, Sitemap.print, hsort]

/-- The pages that share a label give the same site the other way round. -/
theorem merge_of_perm_sharingPages :
    (sharingPages.map (·.stem)).Nodup ∧ sharingPages.reverse.Perm sharingPages ∧
      merge sharingPages.reverse = merge sharingPages ∧
      Sitemap.print ["b.htm", "a.htm"] [] "2024-05-01" =
        Sitemap.print ["a.htm", "b.htm"] [] "2024-05-01" := by
  have hstems : (sharingPages.map (·.stem)).Nodup := by decide +kernel
  have hperm : sharingPages.reverse.Perm sharingPages := List.reverse_perm _
  obtain ⟨hmerge, hsitemap⟩ := merge_of_perm sharingPages sharingPages.reverse hstems hperm
  exact ⟨hstems, hperm, hmerge, hsitemap _ _ _ _ (List.Perm.swap ..)⟩

end TexCatalog
