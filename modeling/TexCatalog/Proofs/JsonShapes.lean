import TexCatalog.Json.Read
import TexCatalog.Proofs.JsonText
import TexCatalog.Proofs.SiteIndexes

/-!
# Typed values come back from their texts

A reader of a shape gets a value back from the JSON in which it is written: the value itself as long
as no array or object in it stands inside too many others, and a fault of the text otherwise. There
is one lemma for each shape, so what is written in several shapes is read back by their lemmas.
-/

namespace TexCatalog.Json

def bounded (nesting depth : Nat) (a : α) : Decoded α :=
  if nesting ≤ depth then .ok a else .error .syntactic

@[simp] theorem bounded_zero (depth : Nat) (a : α) : bounded 0 depth a = .ok a :=
  if_pos (Nat.zero_le depth)

@[simp] theorem bounded_bind (m n depth : Nat) (a : α) (g : α → β) :
    (bounded m depth a >>= fun a => bounded n depth (g a)) = bounded (max m n) depth (g a) := by
  simp only [bounded, Nat.max_le]
  by_cases hm : m ≤ depth
  · simp [hm, bind, Except.bind]
  · simp [hm, bind, Except.bind]

theorem bounded_bind_ok (m depth : Nat) (a : α) (g : α → β) :
    (bounded m depth a >>= fun a => Except.ok (g a)) = bounded m depth (g a) := by
  simpa using bounded_bind m 0 depth a g

theorem ok_bind (a : α) (g : α → Decoded β) : (Except.ok a >>= g) = g a := rfl

/-- The reader gets the value back from the JSON. -/
structure Reads (f : Draft → Decoded α) (j : Json) (a : α) : Prop where
  fits : j.Fits
  eq_bounded (depth : Nat) : f (j.limited depth) = bounded j.nesting depth a

namespace Reads

variable {α β γ : Type} {f : Draft → Decoded α} {g : Draft → Decoded β} {h : Draft → Decoded γ}
  {i j k : Json} {a : α} {b : β} {c : γ}

/-- What is read from a file is the value, or the fault that the text is nested too deep. -/
theorem readText_eq (hf : Reads f j a) :
    readText f (pretty j) =
      if j.nesting ≤ maxDepth then .ok a else .error (.json .syntactic) := by
  rw [readText, draft_pretty maxDepth hf.fits, hf.eq_bounded, bounded]
  by_cases hn : j.nesting ≤ maxDepth
  · simp [hn, endsWith, dropSpace]
  · simp [hn]

theorem map (hf : Reads f j a) (put : α → β) :
    Reads (fun d => do return put (← f d)) j (put a) where
  fits := hf.fits
  eq_bounded depth := by
    rw [hf.eq_bounded]
    exact bounded_bind_ok _ depth a put

theorem text (t : Text) : Reads Draft.text (.str t) t := ⟨trivial, fun _ => (bounded_zero _ t).symm⟩

theorem intWithin {low high n : Int} (hn : low ≤ n ∧ n ≤ high) (hfits : (Number.int n).Fits) :
    Reads (Draft.intWithin low high) (Json.int n) n where
  fits := hfits
  eq_bounded depth := by
    rw [Json.int, limited, Draft.intWithin, if_pos hn, nesting, bounded_zero]
    all_goals nofun

/-- What is inside an array may be nested one level less than the array. -/
theorem ofItems {items : List Json} (hfits : ItemsFit items)
    (hdeep : ∀ ds, f (.deep (.arr ds)) = .error .syntactic)
    (hitems : ∀ depth, f (.arr (limitedItems depth items)) = bounded (itemsNesting items) depth a) :
    Reads f (.arr items) a where
  fits := hfits
  eq_bounded depth := by
    rw [limited, nesting]
    cases depth with
    | zero => simp [Draft.inside, hdeep, bounded]
    | succ depth =>
      simp only [Draft.inside, Nat.add_sub_cancel, hitems, bounded, Nat.add_le_add_iff_right]

theorem ofMembers {members : List (Text × Json)} (hfits : MembersFit members)
    (hdeep : ∀ ds, f (.deep (.obj ds)) = .error .syntactic)
    (hmembers : ∀ depth,
      f (.obj (limitedMembers depth members)) = bounded (membersNesting members) depth a) :
    Reads f (.obj members) a where
  fits := hfits
  eq_bounded depth := by
    rw [limited, nesting]
    cases depth with
    | zero => simp [Draft.inside, hdeep, bounded]
    | succ depth =>
      simp only [Draft.inside, Nat.add_sub_cancel, hmembers, bounded, Nat.add_le_add_iff_right]

theorem pair (hf : Reads f i a) (hg : Reads g j b) :
    Reads (Draft.pair f g) (.arr [i, j]) (a, b) := by
  refine ofItems ⟨hf.fits, hg.fits, trivial⟩ (fun ds => rfl) fun depth => ?_
  change (f (i.limited depth) >>= fun a => g (j.limited depth) >>= fun b => Except.ok (a, b)) = _
  rw [hf.eq_bounded, hg.eq_bounded]
  simp only [bounded_bind_ok, bounded_bind, itemsNesting, Nat.max_zero]

theorem triple (hf : Reads f i a) (hg : Reads g j b) (hh : Reads h k c) :
    Reads (Draft.triple f g h) (.arr [i, j, k]) (a, b, c) := by
  refine ofItems ⟨hf.fits, hg.fits, hh.fits, trivial⟩ (fun ds => rfl) fun depth => ?_
  change (f (i.limited depth) >>= fun a => g (j.limited depth) >>= fun b =>
    h (k.limited depth) >>= fun c => Except.ok (a, b, c)) = _
  rw [hf.eq_bounded, hg.eq_bounded, hh.eq_bounded]
  simp only [bounded_bind_ok, bounded_bind, itemsNesting, Nat.max_zero]

theorem itemsFit {write : α → Json} {as : List α} (h : ∀ a ∈ as, Reads f (write a) a) :
    ItemsFit (as.map write) := by
  induction as with
  | nil => trivial
  | cons a as ih =>
    rw [List.forall_mem_cons] at h
    exact ⟨h.1.fits, ih h.2⟩

theorem each {write : α → Json} {as : List α} (h : ∀ a ∈ as, Reads f (write a) a) (depth : Nat) :
    Draft.each f (limitedItems depth (as.map write)) =
      bounded (itemsNesting (as.map write)) depth as := by
  induction as with
  | nil => exact (bounded_zero depth []).symm
  | cons a as ih =>
    rw [List.forall_mem_cons] at h
    simp only [List.map_cons, limitedItems, Draft.each, h.1.eq_bounded, ih h.2, itemsNesting]
    change (_ >>= fun a => _ >>= fun as => Except.ok (a :: as)) = _
    simp only [bounded_bind_ok, bounded_bind]

theorem list {write : α → Json} {as : List α} (h : ∀ a ∈ as, Reads f (write a) a) :
    Reads (Draft.list f) (ofList write as) as :=
  ofItems (itemsFit h) (fun _ => rfl) fun depth => each h depth

theorem optionText (t : Text) : Reads (Draft.option Draft.text) (.str t) (some t) where
  fits := trivial
  eq_bounded depth := (bounded_zero depth (some t)).symm

theorem textSet (s : TextSet) : Reads Draft.textSet (ofTextSet s) s := by
  have hs : TextSet.ofList s.items = s := TextSet.ext_mem fun t =>
    TextSet.mem_foldl_insert.trans (or_iff_right (TextSet.not_mem_empty t))
  have hlist : Reads (Draft.list Draft.text) (ofTextSet s) s.items := list fun t _ => text t
  have hset := hlist.map TextSet.ofList
  rwa [hs] at hset

theorem membersFit {write : α → Json} {entries : List (Text × α)}
    (h : ∀ e ∈ entries, Reads f (write e.2) e.2) :
    MembersFit (entries.map fun e => (e.1, write e.2)) := by
  induction entries with
  | nil => trivial
  | cons e entries ih =>
    rw [List.forall_mem_cons] at h
    exact ⟨h.1.fits, ih h.2⟩

theorem eachMember {write : α → Json} {entries : List (Text × α)}
    (h : ∀ e ∈ entries, Reads f (write e.2) e.2) (depth : Nat) :
    Draft.eachMember f (limitedMembers depth (entries.map fun e => (e.1, write e.2))) =
      bounded (membersNesting (entries.map fun e => (e.1, write e.2))) depth entries := by
  induction entries with
  | nil => exact (bounded_zero depth []).symm
  | cons e entries ih =>
    rw [List.forall_mem_cons] at h
    simp only [List.map_cons, limitedMembers, Draft.eachMember, h.1.eq_bounded, ih h.2,
      membersNesting]
    change (_ >>= fun a => _ >>= fun as => Except.ok ((e.1, a) :: as)) = _
    simp only [bounded_bind_ok, bounded_bind]

theorem textMap {write : α → Json} {m : TextMap α}
    (h : ∀ e ∈ m.entries, Reads f (write e.2) e.2) :
    Reads (Draft.textMap f) (ofTextMap write m) m := by
  have hkeys : m.entries.Pairwise (·.1 ≠ ·.1) := by
    refine m.sorted.imp fun {d e} hlt heq => ?_
    rw [heq] at hlt
    exact List.lt_irrefl _ hlt
  have hm : TextMap.ofList m.entries = m := TextMap.ext_get? fun k => TextMap.get?_ofList hkeys k
  refine ofMembers (membersFit h) (fun _ => rfl) fun depth => ?_
  rw [Draft.textMap, eachMember h]
  change (_ >>= fun entries => Except.ok (TextMap.ofList entries)) = _
  rw [bounded_bind_ok, hm]

end Reads

/-! ## Records -/

/-- Put one after another, the members make the first record into the second. -/
inductive Puts (fields : List (RecordField α)) : α → List (Text × Json) → α → Prop where
  | nil (a : α) : Puts fields a [] a
  | cons {a b c : α} {field : RecordField α} {j : Json} {more : List (Text × Json)}
      (hfield : field ∈ fields) (hput : Reads (field.put · a) j b) (hmore : Puts fields b more c) :
      Puts fields a ((field.name, j) :: more) c

namespace Puts

variable {α : Type} {fields : List (RecordField α)} {a b c : α} {members : List (Text × Json)}

theorem membersFit (h : Puts fields a members b) : MembersFit members := by
  induction h with
  | nil => trivial
  | cons _ hput _ ih => exact ⟨hput.fits, ih⟩

theorem find?_name {field : RecordField α} (hnames : (fields.map (·.name)).Nodup)
    (h : field ∈ fields) : fields.find? (·.name == field.name) = some field := by
  induction fields with
  | nil => simp at h
  | cons f more ih =>
    rw [List.map_cons, List.nodup_cons] at hnames
    rcases List.mem_cons.1 h with rfl | h
    · simp
    · have hne : f.name ≠ field.name := fun heq => hnames.1 (heq ▸ List.mem_map_of_mem h)
      rw [List.find?_cons_of_neg (by simpa using hne), ih hnames.2 h]

theorem putMembers (h : Puts fields a members b) {seen : List Text} (depth : Nat)
    (hnames : (fields.map (·.name)).Nodup) (hseen : ∀ name ∈ members.map Prod.fst, name ∉ seen)
    (hnodup : (members.map Prod.fst).Nodup)
    (hall : ∀ f ∈ fields, f.optional = true ∨ f.name ∈ seen ∨ f.name ∈ members.map Prod.fst) :
    Draft.putMembers fields seen a (limitedMembers depth members) =
      bounded (membersNesting members) depth b := by
  induction h generalizing seen with
  | nil a =>
    have hthere : (fields.all fun f => f.optional || seen.contains f.name) = true := by
      simpa using hall
    rw [limitedMembers, Draft.putMembers, if_pos hthere, membersNesting, bounded_zero]
  | @cons a b c field j more hfield hput hmore ih =>
    simp only [List.map_cons, List.nodup_cons, List.forall_mem_cons] at hseen hnodup
    have hfresh : seen.contains field.name = false := by simpa using hseen.1
    have hseen' : ∀ n ∈ more.map Prod.fst, n ∉ field.name :: seen := by
      intro n hn hmem
      rcases List.mem_cons.1 hmem with rfl | hmem
      · exact hnodup.1 hn
      · exact hseen.2 n hn hmem
    have hall' : ∀ f ∈ fields,
        f.optional = true ∨ f.name ∈ field.name :: seen ∨ f.name ∈ more.map Prod.fst := by
      intro f hf
      have := hall f hf
      grind
    have hrest := ih hseen' hnodup.2 hall'
    simp only [limitedMembers, Draft.putMembers, find?_name hnames hfield, hfresh,
      Bool.false_eq_true, if_false, membersNesting]
    rw [hput.eq_bounded]
    simp only [bounded] at hrest ⊢
    by_cases hj : j.nesting ≤ depth
    · simp only [hj, hrest, bind, Except.bind, Nat.max_le, if_true, true_and]
    · simp only [hj, bind, Except.bind, Nat.max_le, if_false, false_and]

end Puts

/-- A record is read back if its members are fields of it, in their order, and none is missing. -/
theorem Reads.record {fields : List (RecordField α)} {blank a : α} {members : List (Text × Json)}
    (hnames : (fields.map (·.name)).Nodup)
    (horder : (members.map Prod.fst).Sublist (fields.map (·.name)))
    (hall : ∀ f ∈ fields, f.optional = true ∨ f.name ∈ members.map Prod.fst)
    (h : Puts fields blank members a) :
    Reads (Draft.record fields blank) (.obj members) a :=
  ofMembers h.membersFit (fun _ => rfl) fun depth =>
    h.putMembers depth hnames (by simp) (hnames.sublist horder) (by simpa using hall)

/-! ## Tagged alternatives -/

section alternatives

variable {κ : Type} {tags : List (Text × κ)} {tag : Text} {kind : κ}

theorem Draft.tagged_content (h : Draft.named tags tag = .ok kind) (r : Draft.Reading) (c : Draft) :
    ∃ hc, Draft.tagged tags r (.obj [(.str ['t'], .str tag), (.str ['c'], c)]) =
      .ok { kind, content := some ⟨c, hc⟩, reading := r, behind := .ok () } := by
  refine ⟨by simp; omega, ?_⟩
  simp [Draft.tagged, Draft.nextPart, Draft.noPart, Draft.tag, h, ok_bind]
  rfl

theorem Draft.tagged_bare (h : Draft.named tags tag = .ok kind) (r : Draft.Reading) :
    Draft.tagged tags r (.obj [(.str ['t'], .str tag)]) =
      .ok { kind, content := none, reading := r, behind := .ok () } := by
  simp [Draft.tagged, Draft.nextPart, Draft.tag, h]

variable {α : Type} {f body : Draft → Decoded α} {j : Json} {a : α}

/-- An alternative is read back if its content is. -/
theorem Reads.tagged (hdeep : ∀ ds, f (.deep (.obj ds)) = .error .syntactic)
    (hcontent : ∀ c, f (.obj [(.str ['t'], .str tag), (.str ['c'], c)]) = body c)
    (hbody : Reads body j a) : Reads f (Json.tagged tag j) a := by
  refine .ofMembers ⟨trivial, hbody.fits, trivial⟩ hdeep fun depth => ?_
  simp only [limitedMembers, limited, Text.ofString_eq, String.reduceToList, membersNesting,
    nesting, Nat.zero_max, Nat.max_zero]
  rw [hcontent, hbody.eq_bounded]

theorem Reads.bare (hdeep : ∀ ds, f (.deep (.obj ds)) = .error .syntactic)
    (hbare : f (.obj [(.str ['t'], .str tag)]) = .ok a) : Reads f (Json.plainTag tag) a := by
  refine .ofMembers ⟨trivial, trivial⟩ hdeep fun depth => ?_
  simpa [limitedMembers, limited, membersNesting, nesting] using hbare

theorem Reads.plainTag (h : Draft.named tags tag = .ok kind) (r : Draft.Reading) :
    Reads (Draft.plainTag tags r) (Json.plainTag tag) kind := by
  refine .bare (fun _ => rfl) ?_
  simp [Draft.plainTag, Draft.plainTagAmong, Draft.choice, h, ok_bind]

end alternatives

end TexCatalog.Json
