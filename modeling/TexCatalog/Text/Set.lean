import TexCatalog.Text.Basic

/-!
# Sets of texts

A set of texts is the list of its members in ascending order by code point. Two sets with the same
members are equal.
-/

namespace TexCatalog

structure TextSet where
  items : List Text
  sorted : items.Pairwise (· < ·)

namespace TextSet

instance : Membership Text TextSet := ⟨fun s t => t ∈ s.items⟩

def empty : TextSet := ⟨[], .nil⟩

instance : EmptyCollection TextSet := ⟨empty⟩

instance : Inhabited TextSet := ⟨empty⟩

def insertInto (t : Text) : List Text → List Text
  | [] => [t]
  | u :: more => if t < u then t :: u :: more else if t = u then u :: more else
      u :: insertInto t more

theorem mem_insertInto {t u : Text} {items : List Text} :
    u ∈ insertInto t items ↔ u = t ∨ u ∈ items := by
  induction items with
  | nil => simp [insertInto]
  | cons v more ih =>
    unfold insertInto
    split
    · simp
    · split
      · simp_all
      · simp only [List.mem_cons, ih]
        grind

theorem sorted_insertInto (t : Text) {items : List Text} (h : items.Pairwise (· < ·)) :
    (insertInto t items).Pairwise (· < ·) := by
  induction items with
  | nil => simp [insertInto]
  | cons v more ih =>
    rw [List.pairwise_cons] at h
    unfold insertInto
    split
    · next hlt =>
      refine List.pairwise_cons.2 ⟨fun u hu => ?_, List.pairwise_cons.2 h⟩
      rcases List.mem_cons.1 hu with rfl | hu
      · exact hlt
      · exact List.lt_trans hlt (h.1 u hu)
    · next hlt =>
      split
      · exact List.pairwise_cons.2 h
      · next hne =>
        refine List.pairwise_cons.2 ⟨fun u hu => ?_, ih h.2⟩
        rcases mem_insertInto.1 hu with rfl | hu
        · rcases Std.lt_trichotomy u v with h' | h' | h'
          · exact absurd h' hlt
          · exact absurd h' hne
          · exact h'
        · exact h.1 u hu

def insert (s : TextSet) (t : Text) : TextSet :=
  ⟨insertInto t s.items, sorted_insertInto t s.sorted⟩

def singleton (t : Text) : TextSet := ⟨[t], by simp⟩

def ofList (items : List Text) : TextSet := items.foldl insert empty

def union (s t : TextSet) : TextSet := t.items.foldl insert s

def contains (s : TextSet) (t : Text) : Bool := s.items.contains t

def isEmpty (s : TextSet) : Bool := s.items.isEmpty

theorem mem_iff {s : TextSet} {t : Text} : t ∈ s ↔ t ∈ s.items := Iff.rfl

@[simp] theorem not_mem_empty (t : Text) : ¬ t ∈ empty := by
  simp [empty, mem_iff]

@[simp] theorem mem_insert {s : TextSet} {t u : Text} : u ∈ s.insert t ↔ u = t ∨ u ∈ s :=
  mem_insertInto

@[simp] theorem mem_singleton {t u : Text} : u ∈ singleton t ↔ u = t := by
  simp [singleton, mem_iff]

theorem mem_foldl_insert {s : TextSet} {items : List Text} {u : Text} :
    u ∈ items.foldl insert s ↔ u ∈ s ∨ u ∈ items := by
  induction items generalizing s with
  | nil => simp
  | cons t more ih => grind [mem_insert]

@[simp] theorem mem_union {s t : TextSet} {u : Text} : u ∈ s.union t ↔ u ∈ s ∨ u ∈ t :=
  mem_foldl_insert

theorem contains_iff {s : TextSet} {t : Text} : s.contains t = true ↔ t ∈ s :=
  List.contains_iff_mem

theorem eq_of_sorted {a b : List Text} (ha : a.Pairwise (· < ·)) (hb : b.Pairwise (· < ·))
    (h : ∀ u, u ∈ a ↔ u ∈ b) : a = b := by
  induction a generalizing b with
  | nil =>
    cases b with
    | nil => rfl
    | cons v more => exact absurd ((h v).2 (List.mem_cons_self ..)) (by simp)
  | cons u more ih =>
    cases b with
    | nil => exact absurd ((h u).1 (List.mem_cons_self ..)) (by simp)
    | cons v more' =>
      rw [List.pairwise_cons] at ha hb
      have huv : u = v := by
        have hu := (h u).1 (List.mem_cons_self ..)
        have hv := (h v).2 (List.mem_cons_self ..)
        rcases List.mem_cons.1 hu with hu | hu
        · exact hu
        · rcases List.mem_cons.1 hv with hv | hv
          · exact hv.symm
          · exact absurd (List.lt_trans (ha.1 v hv) (hb.1 u hu)) (List.lt_irrefl u)
      subst huv
      congr 1
      refine ih ha.2 hb.2 fun w => ⟨fun hw => ?_, fun hw => ?_⟩
      · rcases List.mem_cons.1 ((h w).1 (List.mem_cons_of_mem _ hw)) with rfl | hw'
        · exact absurd (ha.1 w hw) (List.lt_irrefl w)
        · exact hw'
      · rcases List.mem_cons.1 ((h w).2 (List.mem_cons_of_mem _ hw)) with rfl | hw'
        · exact absurd (hb.1 w hw) (List.lt_irrefl w)
        · exact hw'

/-- Sets are determined by their members. -/
theorem ext_mem {s t : TextSet} (h : ∀ u, u ∈ s ↔ u ∈ t) : s = t := by
  obtain ⟨a, ha⟩ := s
  obtain ⟨b, hb⟩ := t
  congr
  exact eq_of_sorted ha hb h

end TextSet

end TexCatalog
