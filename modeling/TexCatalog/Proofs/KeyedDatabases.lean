import Mathlib.Data.List.Perm.Basic
import TexCatalog.Bibliography.Csl
import TexCatalog.Proofs.BibtexEntries
import TexCatalog.Proofs.JsonText
import TexCatalog.Proofs.SiteIndexes

/-!
# Keyed databases

In every database an entry stands under its own identifier, and of the entries with one identifier
the last one counts. So it does not matter whether a CSL-JSON database lists its entries or has them
under their identifiers, which then need not be given a second time.
-/

namespace TexCatalog

namespace Bibliography

/-! ### Entries under their identifiers -/

def Keyed (b : Bibliography) : Prop := ∀ key entry, b.get? key = some entry → entry.id = key

def KeepsLast (b : Bibliography) (entries : List Entry) : Prop :=
  ∀ key, b.get? key = entries.reverse.find? (·.id = key)

theorem find_id (entries : List Entry) (key : Text) :
    TextMap.find key (entries.map fun e => (e.id, e)) = entries.find? (·.id = key) := by
  induction entries with
  | nil => rfl
  | cons e more ih =>
    rw [List.map_cons, TextMap.find, List.find?_cons, ih]
    by_cases he : e.id = key
    · rw [if_pos he, decide_eq_true he]
    · rw [if_neg he, decide_eq_false he]

theorem keepsLast_ofEntries (entries : List Entry) : KeepsLast (ofEntries entries) entries := by
  intro key
  rw [ofEntries, TextMap.ofList, ← find_id, List.map_reverse]
  exact (TextMap.get?_foldl_insert_last _ ∅ key).trans Option.or_none

theorem KeepsLast.keyed {b : Bibliography} {entries : List Entry} (h : KeepsLast b entries) :
    b.Keyed := by
  intro key entry hget
  rw [h key] at hget
  simpa using List.find?_some hget

theorem keyed_ofEntries (entries : List Entry) : (ofEntries entries).Keyed :=
  (keepsLast_ofEntries entries).keyed

/-- A database in which entries stand under their identifiers is that of its entries. -/
theorem ofEntries_entries {b : Bibliography} (h : b.Keyed) :
    ofEntries (b.entries.map Prod.snd) = b := by
  have hids : b.entries.map (fun e => (e.2.id, e.2)) = b.entries := by
    conv_rhs => rw [← List.map_id b.entries]
    refine List.map_congr_left fun e he => ?_
    obtain ⟨key, entry⟩ := e
    have hfind := TextMap.find_of_mem (TextMap.keys_ne b.sorted) he
    exact congrArg (·, entry) (h key entry hfind)
  apply TextMap.ext_get?
  intro key
  rw [ofEntries, List.map_map]
  change (TextMap.ofList (b.entries.map fun e => (e.2.id, e.2))).get? key = _
  rw [hids, TextMap.get?_ofList (TextMap.keys_ne b.sorted)]
  rfl

/-- The order of entries with identifiers of their own does not count. -/
theorem ofEntries_perm {entries entries' : List Entry} (hperm : entries.Perm entries')
    (hids : (entries.map (·.id)).Nodup) : ofEntries entries = ofEntries entries' := by
  have hkeys {entries : List Entry} (hids : (entries.map (·.id)).Nodup) :
      (entries.map fun e => (e.id, e)).Pairwise (·.1 ≠ ·.1) := by
    rw [List.pairwise_map]
    exact List.pairwise_map.1 hids
  have hids' : (entries'.map (·.id)).Nodup := (hperm.map _).nodup_iff.1 hids
  apply TextMap.ext_get?
  intro key
  ext entry
  rw [ofEntries, ofEntries, TextMap.get?_ofList (hkeys hids), TextMap.get?_ofList (hkeys hids')]
  constructor
  · intro hfind
    exact TextMap.find_of_mem (hkeys hids') ((hperm.map _).mem_iff.1 (TextMap.mem_of_find hfind))
  · intro hfind
    exact TextMap.find_of_mem (hkeys hids) ((hperm.map _).mem_iff.2 (TextMap.mem_of_find hfind))

/-! ### Reading lists -/

section

variable {α β : Type} {f : α → Option β}

theorem mapM_eq_some_iff {items : List α} {results : List β} :
    items.mapM f = some results ↔ List.Forall₂ (fun a b => f a = some b) items results := by
  induction items generalizing results with
  | nil =>
    rw [List.mapM_nil, List.forall₂_nil_left_iff]
    exact ⟨fun h => (Option.some.inj h).symm, fun h => congrArg some h.symm⟩
  | cons a items ih =>
    rw [List.mapM_cons, List.forall₂_cons_left_iff]
    simp only [Option.bind_eq_bind, Option.bind_eq_some_iff, ih]
    constructor
    · rintro ⟨b, hb, more, hmore, heq⟩
      exact ⟨b, more, hb, hmore, (Option.some.inj heq).symm⟩
    · rintro ⟨b, more, hb, hmore, rfl⟩
      exact ⟨b, hb, more, hmore, rfl⟩

theorem mapM_congr {g : α → Option β} {items : List α} (h : ∀ a ∈ items, f a = g a) :
    items.mapM f = items.mapM g := by
  induction items with
  | nil => rfl
  | cons a items ih =>
    obtain ⟨ha, hitems⟩ := List.forall_mem_cons.1 h
    rw [List.mapM_cons, List.mapM_cons, ha, ih hitems]

theorem exists_mapM_iff {items : List α} :
    (∃ results, items.mapM f = some results) ↔ ∀ a ∈ items, ∃ b, f a = some b := by
  induction items with
  | nil => simp
  | cons a items ih =>
    rw [List.forall_mem_cons, ← ih, List.mapM_cons]
    simp only [Option.bind_eq_bind, Option.bind_eq_some_iff]
    constructor
    · rintro ⟨_, b, hb, more, hmore, _⟩
      exact ⟨⟨b, hb⟩, more, hmore⟩
    · rintro ⟨⟨b, hb⟩, more, hmore⟩
      exact ⟨_, b, hb, more, hmore, rfl⟩

theorem mapM_perm {items items' : List α} (hperm : items.Perm items') {results : List β}
    (h : items.mapM f = some results) :
    ∃ results', items'.mapM f = some results' ∧ results'.Perm results := by
  obtain ⟨results', hresults', hperm'⟩ :=
    List.perm_comp_forall₂ hperm.symm (mapM_eq_some_iff.1 h)
  exact ⟨results', mapM_eq_some_iff.2 hresults', hperm'⟩

end

namespace Csl

/-! ### Entries in CSL-JSON -/

def ownId? (members : List (Text × Json)) : Option Text :=
  (uniqueMember? ["id"] members).bind text?

def without (name : Text) (members : List (Text × Json)) : List (Text × Json) :=
  members.filter fun m => m.1 ≠ name

structure Item where
  members : List (Text × Json)
  id : Text
  own : ownId? members = some id

namespace Item

def toJson (e : Item) : Json := .obj e.members

/-- The member of an object has the entry under its identifier, which is left in it or taken out. -/
def StandsIn (m : Text × Json) (e : Item) : Prop :=
  m = (e.id, .obj e.members) ∨ m = (e.id, .obj (without "id" e.members))

def read? (e : Item) : Option Entry := readEntry [] e.toJson

end Item

theorem uniqueMember?_without (name : Text) (members : List (Text × Json)) :
    uniqueMember? [name] (without name members) = some none := by
  have hnone : (without name members).filter (fun m => [name].contains m.1) = [] := by
    rw [without, List.filter_filter, List.filter_eq_nil_iff]
    simp
  rw [uniqueMember?, hnone]

theorem uniqueMember?_without_of_notMem {name : Text} {names : List Text} (h : name ∉ names)
    (members : List (Text × Json)) :
    uniqueMember? names (without name members) = uniqueMember? names members := by
  have hsame : (without name members).filter (fun m => names.contains m.1) =
      members.filter fun m => names.contains m.1 := by
    rw [without, List.filter_filter]
    refine List.filter_congr fun m _ => ?_
    by_cases hm : m.1 = name
    · simp [hm, h]
    · simp [hm]
  rw [uniqueMember?, uniqueMember?, hsame]

/-- The names of the fields behind the identifier. -/
theorem exists_fieldNames_eq : ∃ more : List (List Text), fieldNames = [("id" : Text)] :: more ∧
    ∀ names ∈ more, ("id" : Text) ∉ names :=
  ⟨fieldNames.tail, rfl, by simp [fieldNames]⟩

/-- The identifier is read first, and the other fields do not depend on it. -/
theorem readEntry_congr {key key' : Text} {members members' : List (Text × Json)}
    {first first' : Option Json} (hfirst : uniqueMember? ["id"] members = some first)
    (hfirst' : uniqueMember? ["id"] members' = some first')
    (hid : (text? first).getD key = (text? first').getD key')
    (hmore : ∀ names, ("id" : Text) ∉ names →
      uniqueMember? names members = uniqueMember? names members') :
    readEntry key (.obj members) = readEntry key' (.obj members') := by
  obtain ⟨more, hnames, hother⟩ := exists_fieldNames_eq
  have hrest : more.mapM (fun names => uniqueMember? names members) =
      more.mapM fun names => uniqueMember? names members' :=
    mapM_congr fun names hn => hmore names (hother names hn)
  rw [readEntry, readEntry, readFields, readFields, hnames, List.mapM_cons, List.mapM_cons, hfirst,
    hfirst', hrest]
  cases more.mapM fun names => uniqueMember? names members' with
  | none => rfl
  | some fields =>
    simp only [Option.bind_eq_bind, Option.bind_some, Option.pure_def]
    split
    · next hfields =>
      cases hfields
      rw [hid]
    · next hno =>
      split
      · next hfields =>
        cases hfields
        exact absurd hno (by simp)
      · rfl

theorem id_of_readEntry {key : Text} {members : List (Text × Json)} {first : Option Json}
    {entry : Entry} (hfirst : uniqueMember? ["id"] members = some first)
    (h : readEntry key (.obj members) = some entry) : entry.id = (text? first).getD key := by
  obtain ⟨more, hnames, _⟩ := exists_fieldNames_eq
  rw [readEntry, readFields, hnames, List.mapM_cons, hfirst] at h
  simp only [Option.bind_eq_bind, Option.bind_some, Option.bind_eq_some_iff] at h
  obtain ⟨_, ⟨fields, _, hfields⟩, hread⟩ := h
  cases hfields
  split at hread
  · next heq =>
    cases heq
    obtain ⟨authors, _, hentry⟩ := Option.bind_eq_some_iff.1 hread
    cases hentry
    rfl
  · cases hread

namespace Item

variable {e : Item}

theorem exists_ownMember (e : Item) :
    ∃ first, uniqueMember? ["id"] e.members = some first ∧ text? first = some e.id :=
  Option.bind_eq_some_iff.1 e.own

theorem readEntry_whole (e : Item) (key : Text) : readEntry key (.obj e.members) = e.read? := by
  obtain ⟨first, hfirst, hid⟩ := e.exists_ownMember
  exact readEntry_congr hfirst hfirst (by rw [hid, Option.getD_some, Option.getD_some])
    fun _ _ => rfl

theorem readEntry_bare (e : Item) : readEntry e.id (.obj (without "id" e.members)) = e.read? := by
  obtain ⟨first, hfirst, hid⟩ := e.exists_ownMember
  exact readEntry_congr (uniqueMember?_without "id" e.members) hfirst (by rw [hid]; rfl)
    fun _ hnames => uniqueMember?_without_of_notMem hnames e.members

theorem id_of_read? {entry : Entry} (h : e.read? = some entry) : entry.id = e.id := by
  obtain ⟨first, hfirst, hid⟩ := e.exists_ownMember
  rw [id_of_readEntry hfirst h, hid, Option.getD_some]

theorem ids_of_reads {items : List Item} {entries : List Entry}
    (h : List.Forall₂ (fun e entry => e.read? = some entry) items entries) :
    entries.map (·.id) = items.map (·.id) := by
  induction h with
  | nil => rfl
  | cons hentry _ ih => rw [List.map_cons, List.map_cons, ih, id_of_read? hentry]

/-- Left in or taken out, the identifier is that under which the entry stands. -/
theorem StandsIn.readEntry {m : Text × Json} (h : e.StandsIn m) :
    readEntry m.1 m.2 = e.read? ∧ m.1 = e.id := by
  rcases h with rfl | rfl
  · exact ⟨e.readEntry_whole e.id, rfl⟩
  · exact ⟨e.readEntry_bare, rfl⟩

end Item

theorem read_arr (entries : List Item) :
    read (.arr (entries.map Item.toJson)) = (entries.mapM Item.read?).map ofEntries := by
  rw [read, List.mapM_map]
  change (entries.mapM Item.read?).bind (fun results => some (ofEntries results)) = _
  cases entries.mapM Item.read? <;> rfl

theorem readMembers_of_standsIn {members : List (Text × Json)} {entries : List Item}
    (h : List.Forall₂ (fun m e => e.StandsIn m) members entries) :
    readMembers members = (entries.mapM Item.read?).map (·.map fun entry => (entry.id, entry)) := by
  induction h with
  | nil => rfl
  | @cons m e members entries hm _ ih =>
    obtain ⟨hread, hkey⟩ := hm.readEntry
    rw [readMembers, List.mapM_cons, ih, hread, hkey]
    cases hentry : e.read? with
    | none => rfl
    | some entry =>
      rw [← Item.id_of_read? hentry]
      cases entries.mapM Item.read? <;> rfl

theorem read_obj {members : List (Text × Json)} {entries : List Item}
    (h : List.Forall₂ (fun m e => e.StandsIn m) members entries) :
    read (.obj members) = (entries.mapM Item.read?).map ofEntries := by
  rw [read, readMembers_of_standsIn h]
  cases entries.mapM Item.read? with
  | none => rfl
  | some results => exact congrArg some (ofEntries_entries (keyed_ofEntries results))

/-- The order of the entries counts neither for the database nor for whether there is one. -/
theorem read_perm {entries entries' : List Item} (hperm : entries.Perm entries')
    (hids : (entries.map (·.id)).Nodup) :
    (entries.mapM Item.read?).map ofEntries = (entries'.mapM Item.read?).map ofEntries := by
  cases hread : entries.mapM Item.read? with
  | none =>
    cases hread' : entries'.mapM Item.read? with
    | none => rfl
    | some results' =>
      obtain ⟨results, hresults, _⟩ := mapM_perm hperm.symm hread'
      rw [hread] at hresults
      cases hresults
  | some results =>
    obtain ⟨results', hread', hresults⟩ := mapM_perm hperm hread
    rw [← Item.ids_of_reads (mapM_eq_some_iff.1 hread)] at hids
    rw [hread', Option.map_some, Option.map_some, ofEntries_perm hresults.symm hids]

theorem exists_ofEntries_of_read {j : Json} {b : Bibliography} (h : read j = some b) :
    ∃ entries, b = ofEntries entries := by
  cases j with
  | obj members =>
    obtain ⟨keyed, _, hb⟩ := Option.bind_eq_some_iff.1 h
    exact ⟨_, (Option.some.inj hb).symm⟩
  | arr items =>
    obtain ⟨entries, _, hb⟩ := Option.bind_eq_some_iff.1 h
    exact ⟨entries, (Option.some.inj hb).symm⟩
  | _ => cases h

end Csl

/-! ### Databases from texts -/

/-- The shape of a text is looked at behind its syntax. -/
theorem ofCsl_of_toJson {s : Text} {j : Json}
    (h : (Json.draft Json.maxDepth s).1.toJson = .ok j) :
    ofCsl s = match Csl.read j with
      | none => .error (.json .shape)
      | some b =>
        if Json.endsWith (Json.draft Json.maxDepth s).2 then .ok b
        else .error (.json .syntactic) := by
  have hbind : ((Except.ok j : Json.Decoded Json) >>= fun j =>
      (Csl.read j).elim (.error .shape) .ok) = (Csl.read j).elim (.error .shape) .ok := rfl
  rw [ofCsl, Json.readText, h, hbind]
  cases Csl.read j <;> rfl

theorem ofCsl_of_parse? {s : Text} {j : Json} (h : Json.parse? s = some j) :
    ofCsl s = (Csl.read j).elim (.error (.json .shape)) .ok := by
  rw [Json.parse?, Json.parseWithin?] at h
  split at h
  · cases h
  · next hj =>
    split at h
    · next hend =>
      cases h
      rw [ofCsl_of_toJson hj]
      simp only [hend, if_true]
      cases Csl.read j <;> rfl
    · cases h

theorem exists_parse?_of_ofCsl {s : Text} {b : Bibliography} (h : ofCsl s = .ok b) :
    ∃ j, Json.parse? s = some j ∧ Csl.read j = some b := by
  cases hj : (Json.draft Json.maxDepth s).1.toJson with
  | error e =>
    rw [ofCsl, Json.readText, hj] at h
    cases h
  | ok j =>
    rw [ofCsl_of_toJson hj] at h
    split at h
    · cases h
    · next b' hread =>
      split at h
      · next hend =>
        cases h
        refine ⟨j, ?_, hread⟩
        simp only [Json.parse?, Json.parseWithin?, hj, hend, if_true]
      · cases h

theorem exists_toEntries_of_ofBibtex {s : Text} {b : Bibliography} (h : ofBibtex s = .ok b) :
    ∃ entries, Bibtex.toEntries (Bibtex.scan s).1 = .ok entries ∧ b = ofEntries entries := by
  rw [ofBibtex] at h
  split at h
  · cases h
  · next entries hentries =>
    split at h
    · cases h
    · exact ⟨entries, hentries, (Except.ok.inj h).symm⟩

/-- A list of entries with identifiers of their own is read as an object that has them under these,
in any order and with or without the identifiers inside. In every database an entry stands under its
identifier, and it is the last one that the input has with it. -/
theorem layouts_agree_and_keep_last :
    (∀ (entries listed : List Csl.Item) (members : List (Text × Json)) (s t : Text),
      (entries.map (·.id)).Nodup → listed.Perm entries →
      List.Forall₂ Csl.Item.StandsIn members listed →
      Json.parse? s = some (.arr (entries.map Csl.Item.toJson)) →
      Json.parse? t = some (.obj members) →
      ofCsl s = ofCsl t ∧ ((∃ b, ofCsl s = .ok b) ↔ ∀ e ∈ entries, ∃ entry, e.read? = some entry)) ∧
    (∀ (s : Text) (b : Bibliography), ofCsl s = .ok b ∨ ofBibtex s = .ok b → b.Keyed) ∧
    (∀ (s : Text) (items : List Json) (b : Bibliography), Json.parse? s = some (.arr items) →
      ofCsl s = .ok b → ∃ entries, b.KeepsLast entries ∧
        List.Forall₂ (fun item entry => Csl.readEntry [] item = some entry) items entries) ∧
    (∀ (s : Text) (b : Bibliography), ofBibtex s = .ok b → ∃ entries, b.KeepsLast entries ∧
      List.Forall₂ (fun raw entry => raw.toEntry = .ok entry) (Bibtex.scan s).1 entries) ∧
    ∀ entries, (ofEntries entries).Keyed ∧ (ofEntries entries).KeepsLast entries := by
  refine ⟨?_, ?_, ?_, ?_, fun entries => ⟨keyed_ofEntries entries, keepsLast_ofEntries entries⟩⟩
  · intro entries listed members s t hids hperm hmembers hs ht
    rw [ofCsl_of_parse? hs, ofCsl_of_parse? ht, Csl.read_arr, Csl.read_obj hmembers,
      Csl.read_perm hperm.symm hids]
    refine ⟨rfl, ?_⟩
    have hreadable : (∃ results, listed.mapM Csl.Item.read? = some results) ↔
        ∀ e ∈ entries, ∃ entry, e.read? = some entry := by
      rw [exists_mapM_iff]
      exact forall_congr' fun e => imp_congr_left hperm.mem_iff
    rw [← hreadable]
    cases listed.mapM Csl.Item.read? <;> simp
  · rintro s b (hcsl | hbibtex)
    · obtain ⟨j, _, hread⟩ := exists_parse?_of_ofCsl hcsl
      obtain ⟨entries, rfl⟩ := Csl.exists_ofEntries_of_read hread
      exact keyed_ofEntries entries
    · obtain ⟨entries, _, rfl⟩ := exists_toEntries_of_ofBibtex hbibtex
      exact keyed_ofEntries entries
  · intro s items b hs hb
    obtain ⟨j, hj, hread⟩ := exists_parse?_of_ofCsl hb
    rw [hs] at hj
    cases hj
    obtain ⟨entries, hentries, hb⟩ := Option.bind_eq_some_iff.1 hread
    cases hb
    exact ⟨entries, keepsLast_ofEntries entries, mapM_eq_some_iff.1 hentries⟩
  · intro s b hb
    obtain ⟨entries, hentries, rfl⟩ := exists_toEntries_of_ofBibtex hb
    exact ⟨entries, keepsLast_ofEntries entries, Bibtex.toEntries_forall₂ hentries⟩

def numberedItem : Csl.Item where
  members := [("id", .num (.int 7)), ("title", .str "Seven")]
  id := "7"
  own := by decide +kernel

def namedItem : Csl.Item where
  members := [("title", .str "Named"), ("id", .str "b")]
  id := "b"
  own := by decide +kernel

/-- The same database as an array and as an object in another order, which gives one identifier in
the entry too and the other one only as a name. -/
theorem layouts_agree_and_keep_last_numberedItem : ∃ b,
    ofCsl (Json.pretty (.arr [numberedItem.toJson, namedItem.toJson])) = .ok b ∧
    ofCsl (Json.pretty (.obj [("b", .obj namedItem.members),
      ("7", .obj (Csl.without "id" numberedItem.members))])) = .ok b ∧ b.Keyed := by
  have hlisted : Json.parse? (Json.pretty (.arr [numberedItem.toJson, namedItem.toJson])) =
      some (.arr [numberedItem.toJson, namedItem.toJson]) := by
    apply Json.parse?_pretty
    · simp [Json.Fits, Json.ItemsFit, Json.MembersFit, Csl.Item.toJson, numberedItem, namedItem,
        Json.Number.Fits, UInt64.size]
    · decide +kernel
  have hkeyed : Json.parse? (Json.pretty (.obj [("b", .obj namedItem.members),
      ("7", .obj (Csl.without "id" numberedItem.members))])) =
      some (.obj [("b", .obj namedItem.members),
        ("7", .obj (Csl.without "id" numberedItem.members))]) := by
    apply Json.parse?_pretty
    · simp [Json.Fits, Json.MembersFit, Csl.without, numberedItem, namedItem]
    · decide +kernel
  obtain ⟨hlayouts, hkeys, -⟩ := layouts_agree_and_keep_last
  obtain ⟨hsame, hreads⟩ := hlayouts [numberedItem, namedItem] [namedItem, numberedItem]
    [("b", .obj namedItem.members), ("7", .obj (Csl.without "id" numberedItem.members))] _ _
    (by decide +kernel) (.swap ..) (.cons (.inl rfl) (.cons (.inr rfl) .nil)) hlisted hkeyed
  have hreadable : ∀ e ∈ [numberedItem, namedItem], ∃ entry, e.read? = some entry := by
    have hsome : numberedItem.read?.isSome ∧ namedItem.read?.isSome := by decide +kernel
    exact List.forall_mem_cons.2 ⟨Option.isSome_iff_exists.1 hsome.1,
      List.forall_mem_singleton.2 (Option.isSome_iff_exists.1 hsome.2)⟩
  obtain ⟨b, hb⟩ := hreads.2 hreadable
  exact ⟨b, hb, hsame ▸ hb, hkeys _ b (.inl hb)⟩

end Bibliography

end TexCatalog
