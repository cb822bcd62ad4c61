import TexCatalog.Text.Basic

/-!
# Maps from texts

A map from texts is the list of its entries in ascending order of their keys by code point. Two
maps with the same look-ups are equal.
-/

namespace TexCatalog

/-- A finite map from texts. -/
structure TextMap (α : Type) where
  entries : List (Text × α)
  sorted : entries.Pairwise (·.1 < ·.1)

namespace TextMap

variable {α : Type}

def empty : TextMap α := ⟨[], .nil⟩

instance : EmptyCollection (TextMap α) := ⟨empty⟩

instance : Inhabited (TextMap α) := ⟨empty⟩

def find (key : Text) : List (Text × α) → Option α
  | [] => none
  | (k, v) :: more => if k = key then some v else find key more

/-- Put an entry in its place among entries in ascending order; it replaces one with its key. -/
def insertInto (key : Text) (value : α) : List (Text × α) → List (Text × α)
  | [] => [(key, value)]
  | (k, v) :: more =>
    if key < k then (key, value) :: (k, v) :: more
    else if key = k then (key, value) :: more
    else (k, v) :: insertInto key value more

theorem mem_insertInto {key : Text} {value : α} {entries : List (Text × α)} {e : Text × α}
    (h : e ∈ insertInto key value entries) : e = (key, value) ∨ e ∈ entries := by
  induction entries with
  | nil => simpa [insertInto] using h
  | cons f more ih =>
    obtain ⟨k, v⟩ := f
    unfold insertInto at h
    split at h
    · simpa using h
    · split at h
      · rcases List.mem_cons.1 h with rfl | h
        · exact .inl rfl
        · exact .inr (List.mem_cons_of_mem _ h)
      · rcases List.mem_cons.1 h with rfl | h
        · exact .inr (List.mem_cons_self ..)
        · exact (ih h).imp_right (List.mem_cons_of_mem _)

theorem sorted_insertInto (key : Text) (value : α) {entries : List (Text × α)}
    (h : entries.Pairwise (·.1 < ·.1)) : (insertInto key value entries).Pairwise (·.1 < ·.1) := by
  induction entries with
  | nil => simp [insertInto]
  | cons f more ih =>
    obtain ⟨k, v⟩ := f
    rw [List.pairwise_cons] at h
    unfold insertInto
    split
    · next hlt =>
      refine List.pairwise_cons.2 ⟨fun e he => ?_, List.pairwise_cons.2 h⟩
      rcases List.mem_cons.1 he with rfl | he
      · exact hlt
      · exact List.lt_trans hlt (h.1 e he)
    · next hlt =>
      split
      · next heq => exact List.pairwise_cons.2 ⟨fun e he => heq ▸ h.1 e he, h.2⟩
      · next hne =>
        refine List.pairwise_cons.2 ⟨fun e he => ?_, ih h.2⟩
        rcases mem_insertInto he with rfl | he
        · rcases Std.lt_trichotomy key k with h' | h' | h'
          · exact absurd h' hlt
          · exact absurd h' hne
          · exact h'
        · exact h.1 e he

def insert (m : TextMap α) (key : Text) (value : α) : TextMap α :=
  ⟨insertInto key value m.entries, sorted_insertInto key value m.sorted⟩

def get? (m : TextMap α) (key : Text) : Option α := find key m.entries

def contains (m : TextMap α) (key : Text) : Bool := (m.get? key).isSome

def keys (m : TextMap α) : List Text := m.entries.map Prod.fst

def size (m : TextMap α) : Nat := m.entries.length

def isEmpty (m : TextMap α) : Bool := m.entries.isEmpty

def ofList (entries : List (Text × α)) : TextMap α :=
  entries.foldl (fun m e => m.insert e.1 e.2) empty

def union (m n : TextMap α) : TextMap α := n.entries.foldl (fun m e => m.insert e.1 e.2) m

theorem find_insertInto {key k : Text} {value : α} {entries : List (Text × α)} :
    find k (insertInto key value entries) = if key = k then some value else find k entries := by
  induction entries with
  | nil => simp [insertInto, find]
  | cons f more ih =>
    obtain ⟨l, v⟩ := f
    unfold insertInto
    split
    · simp [find]
    · split
      · next heq => subst heq; simp only [find]; split <;> rfl
      · next hne =>
        simp only [find, ih]
        split
        · next h => subst h; simp [hne]
        · rfl

theorem get?_insert {m : TextMap α} {key k : Text} {value : α} :
    (m.insert key value).get? k = if key = k then some value else m.get? k :=
  find_insertInto

theorem get?_empty (k : Text) : (empty : TextMap α).get? k = none := rfl

theorem find_eq_none {key : Text} {entries : List (Text × α)}
    (h : ∀ e ∈ entries, e.1 ≠ key) : find key entries = none := by
  induction entries with
  | nil => rfl
  | cons f more ih =>
    obtain ⟨k, v⟩ := f
    simp only [find, if_neg (h (k, v) (List.mem_cons_self ..))]
    exact ih fun e he => h e (List.mem_cons_of_mem _ he)

theorem find_cons_self {key : Text} {value : α} {more : List (Text × α)} :
    find key ((key, value) :: more) = some value := by
  simp [find]

theorem eq_of_sorted {a b : List (Text × α)} (ha : a.Pairwise (·.1 < ·.1))
    (hb : b.Pairwise (·.1 < ·.1)) (h : ∀ k, find k a = find k b) : a = b := by
  have behind {k : Text} {v : α} {more : List (Text × α)} {key : Text}
      (hs : ∀ e ∈ more, k < e.1) (hk : key < k) : find key ((k, v) :: more) = none := by
    refine find_eq_none fun e he => ?_
    rcases List.mem_cons.1 he with rfl | he
    · rintro rfl
      exact List.lt_irrefl _ hk
    · rintro rfl
      exact List.lt_irrefl _ (List.lt_trans hk (hs e he))
  have absent {k : Text} {more : List (Text × α)} (hs : ∀ e ∈ more, k < e.1) :
      find k more = none := by
    refine find_eq_none fun e he => ?_
    rintro rfl
    exact List.lt_irrefl _ (hs e he)
  induction a generalizing b with
  | nil =>
    cases b with
    | nil => rfl
    | cons f more => have := h f.1; simp [find] at this
  | cons f more ih =>
    cases b with
    | nil => have := h f.1; simp [find] at this
    | cons g more' =>
      obtain ⟨k, v⟩ := f
      obtain ⟨l, w⟩ := g
      rw [List.pairwise_cons] at ha hb
      have hk : k = l := by
        rcases Std.lt_trichotomy k l with hlt | heq | hlt
        · have := h k
          rw [find_cons_self, behind hb.1 hlt] at this
          exact absurd this (by simp)
        · exact heq
        · have := h l
          rw [find_cons_self, behind ha.1 hlt] at this
          exact absurd this (by simp)
      subst hk
      have hv := h k
      rw [find_cons_self, find_cons_self, Option.some.injEq] at hv
      subst hv
      congr 1
      refine ih ha.2 hb.2 fun key => ?_
      by_cases hkey : k = key
      · subst hkey
        rw [absent ha.1, absent hb.1]
      · have := h key
        simpa [find, hkey] using this

/-- Maps are determined by their look-ups. -/
theorem ext_get? {m n : TextMap α} (h : ∀ k, m.get? k = n.get? k) : m = n := by
  obtain ⟨a, ha⟩ := m
  obtain ⟨b, hb⟩ := n
  congr
  exact eq_of_sorted ha hb h

end TextMap

end TexCatalog
