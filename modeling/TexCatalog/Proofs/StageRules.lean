import Mathlib.Data.List.Forall2
import TexCatalog.Store.Stage

/-!
# Rules for stages

What a stage that succeeds tells about the steps it is made of. There is one rule for each
operation.
-/

namespace TexCatalog

namespace Stage

variable {α β : Type} {s t : Store}

theorem bind_ok {x : Stage α} {f : α → Stage β} {b : β} (h : (x >>= f) s = (.ok b, t)) :
    ∃ a u, x s = (.ok a, u) ∧ f a u = (.ok b, t) := by
  change Stage.bind x f s = _ at h
  unfold Stage.bind at h
  rcases hx : x s with ⟨e | a, u⟩
  · rw [hx] at h
    cases h
  · rw [hx] at h
    exact ⟨a, u, rfl, h⟩

theorem pure_ok {a b : α} (h : (Pure.pure a : Stage α) s = (.ok b, t)) : a = b ∧ s = t := by
  cases h
  exact ⟨rfl, rfl⟩

theorem ofExcept_ok {x : Except Failure α} {a : α} (h : ofExcept x s = (.ok a, t)) :
    x = .ok a ∧ s = t := by
  cases h
  exact ⟨rfl, rfl⟩

theorem textOf_ok {path text : Text} (h : textOf path s = (.ok text, t)) :
    s.read path = .ok text ∧ s = t := by
  unfold textOf at h
  cases hread : s.read path with
  | error fault => rw [hread] at h; cases h
  | ok other => rw [hread] at h; cases h; exact ⟨rfl, rfl⟩

theorem list_ok {path : Text} {entries : List (Text × Node)} (h : list path s = (.ok entries, t)) :
    s.list path = .ok entries ∧ s = t := by
  unfold list at h
  cases hlist : s.list path with
  | error fault => rw [hlist] at h; cases h
  | ok other => rw [hlist] at h; cases h; exact ⟨rfl, rfl⟩

theorem createDirectories_ok {path : Text} (h : createDirectories path s = (.ok (), t)) :
    s.createDirectories path = (.ok (), t) := by
  unfold createDirectories at h
  rcases hcreate : s.createDirectories path with ⟨fault | ⟨⟩, u⟩
  · rw [hcreate] at h; cases h
  · rw [hcreate] at h; cases h; rfl

theorem write_ok {path text : Text} (h : write path text s = (.ok (), t)) :
    s.write path text = .ok t := by
  unfold write change at h
  dsimp only at h
  cases hwrite : s.write path text with
  | error fault => rw [hwrite] at h; cases h
  | ok u => rw [hwrite] at h; cases h; rfl

/-! ### What succeeds in its parts -/

theorem bind_of_ok {x : Stage α} {a : α} (h : x s = (.ok a, t)) (f : α → Stage β) :
    (x >>= f) s = f a t := by
  change Stage.bind x f s = _
  rw [Stage.bind, h]

theorem ofExcept_of_ok {x : Except Failure α} {a : α} (h : x = .ok a) :
    ofExcept x s = (.ok a, s) :=
  congrArg (Prod.mk · s) h

theorem textOf_of_ok {path text : Text} (h : s.read path = .ok text) :
    textOf path s = (.ok text, s) := by
  rw [textOf, h]
  rfl

theorem list_of_ok {path : Text} {entries : List (Text × Node)} (h : s.list path = .ok entries) :
    list path s = (.ok entries, s) := by
  rw [list, h]
  rfl

theorem createDirectories_of_ok {path : Text} (h : s.createDirectories path = (.ok (), t)) :
    createDirectories path s = (.ok (), t) := by
  rw [createDirectories, h]
  rfl

theorem write_of_ok {path text : Text} (h : s.write path text = .ok t) :
    write path text s = (.ok (), t) := by
  unfold write change
  dsimp only
  rw [h]

/-! ### Stages for many items -/

theorem each_cons (f : α → Stage β) (a : α) (more : List α) :
    each f (a :: more) = (do return (← f a) :: (← each f more)) := by
  funext s
  change _ = Stage.bind (f a) _ s
  unfold Stage.bind each
  rcases hf : f a s with ⟨e | b, u⟩
  · rw [row_cons_error hf]
    rfl
  · rw [row_cons_ok hf]
    change ((gather (row f more u).1).map (b :: ·), (row f more u).2) =
      Stage.bind (each f more) _ u
    unfold Stage.bind each
    rcases row f more u with ⟨outcomes, v⟩
    cases hgather : gather outcomes <;> simp only [hgather] <;> rfl

/-- What leaves the files as they are for each item does so for all. -/
theorem each_of_still {f : α → Stage β} {items : List α} {bs : List β}
    (h : List.Forall₂ (fun a b => f a s = (.ok b, s)) items bs) : each f items s = (.ok bs, s) := by
  induction h with
  | nil => rfl
  | cons hb _ ih =>
    rw [each_cons, bind_of_ok hb, bind_of_ok ih]
    rfl

/-- What only looks at the files is done for each item with the same ones. -/
theorem each_ok_iff {f : α → Stage β} (hf : ∀ {a b s t}, f a s = (.ok b, t) → s = t)
    {items : List α} {bs : List β} : each f items s = (.ok bs, t) ↔
      List.Forall₂ (fun a b => f a s = (.ok b, s)) items bs ∧ s = t := by
  refine ⟨fun h => ?_, fun ⟨h, heq⟩ => heq ▸ each_of_still h⟩
  induction items generalizing bs with
  | nil =>
    cases h
    exact ⟨.nil, rfl⟩
  | cons a more ih =>
    rw [each_cons] at h
    obtain ⟨b, u, hb, h⟩ := bind_ok h
    obtain rfl := hf hb
    obtain ⟨bs, v, hbs, h⟩ := bind_ok h
    obtain ⟨rfl, rfl⟩ := pure_ok h
    obtain ⟨hall, rfl⟩ := ih hbs
    exact ⟨.cons hb hall, rfl⟩

/-- What succeeds for all items does so for the first one and then for the others. -/
theorem row_cons_isOk {f : α → Stage β} {a : α} {more : List α} {outcomes : List (Except Failure β)}
    (h : row f (a :: more) s = (outcomes, t)) (hok : outcomes.all (·.isOk)) :
    ∃ b u rest, f a s = (.ok b, u) ∧ row f more u = (rest, t) ∧ rest.all (·.isOk) ∧
      outcomes = .ok b :: rest := by
  rcases hf : f a s with ⟨e | b, u⟩
  · rw [row_cons_error hf] at h
    cases h
    cases hok
  · rw [row_cons_ok hf] at h
    cases h
    exact ⟨b, u, _, rfl, rfl, hok, rfl⟩

/-- What succeeds for items one behind the other succeeds for the first ones. -/
theorem isOk_row_take {f : α → Stage β} {first second : List α}
    (h : (row f (first ++ second) s).1.all (·.isOk)) : (row f first s).1.all (·.isOk) := by
  induction first generalizing s with
  | nil => rfl
  | cons a more ih =>
    obtain ⟨b, u, rest, ha, hrest, hok, _⟩ := row_cons_isOk rfl h
    rw [row_cons_ok ha, List.all_cons, Bool.and_eq_true]
    exact ⟨rfl, ih (hrest ▸ hok)⟩

/-- What succeeds in a row succeeds in batches. -/
theorem batches_of_row {f : α → Stage β} (halvings : Nat) {items : List α}
    (h : (row f items s).1.all (·.isOk)) : batches f halvings items s = row f items s := by
  refine batches_eq_row f halvings items s ?_
  fun_induction batches f halvings items s with
  | case1 => exact h
  | case2 halvings items s hs first hany ih =>
    rw [← List.take_append_drop (items.length / 2) items] at h
    exact ih (isOk_row_take h)
  | case3 halvings items s hs first hany left second ih1 ih2 =>
    have hwhole := h
    rw [← List.take_append_drop (items.length / 2) items] at h
    have htake := isOk_row_take h
    have hfirst : first = row f (items.take (items.length / 2)) s :=
      batches_eq_row _ _ _ _ (ih1 htake)
    rw [row_append f _ _ s htake, List.all_append, Bool.and_eq_true, ← hfirst] at h
    rw [List.all_append, Bool.and_eq_true]
    exact ⟨ih1 htake, ih2 h.2⟩

/-- What succeeds for each item succeeds in batches. -/
theorem eachInBatches_of_each {f : α → Stage β} {items : List α} {bs : List β}
    (h : each f items s = (.ok bs, t)) : eachInBatches f items s = (.ok bs, t) := by
  have hrow := h
  unfold each at hrow
  rcases hitems : row f items s with ⟨outcomes, u⟩
  rw [hitems] at hrow
  have hok : (row f items s).1.all (·.isOk) := by
    rw [hitems]
    exact isOk_of_gather (congrArg Prod.fst hrow)
  unfold eachInBatches
  rw [batches_of_row 3 hok]
  exact h

end Stage

end TexCatalog
