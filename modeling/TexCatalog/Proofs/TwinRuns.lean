import Mathlib.Data.Set.Image
import TexCatalog.Proofs.GrowingStores
import TexCatalog.Proofs.StageRules

/-!
# Twin runs

A stage is run on two stores. What it gives, and what it writes, depends only on what it reads: if
the stores have the same texts where it reads, and both runs succeed, then the results are equal,
and the paths that are written lead to the same texts.
-/

namespace TexCatalog

open TexCatalog.Path

namespace Stage

variable {α β : Type} {P : Store → Store → Prop}

/-- Run on two stores that `P` relates, a stage gives the same if it succeeds with both, and the
stores that it leaves are related by `Q`. -/
def Alike (P : Store → Store → Prop) (x : Stage α) (Q : α → Store → Store → Prop) : Prop :=
  ∀ ⦃s s' t t' : Store⦄ ⦃a a' : α⦄, P s s' → x s = (.ok a, t) → x s' = (.ok a', t') →
    a' = a ∧ Q a t t'

theorem alike_pure {Q : α → Store → Store → Prop} {a : α} (h : ∀ s s', P s s' → Q a s s') :
    Alike P (Pure.pure a) Q := by
  intro s s' t t' b b' hP hs hs'
  obtain ⟨rfl, rfl⟩ := pure_ok hs
  obtain ⟨rfl, rfl⟩ := pure_ok hs'
  exact ⟨rfl, h _ _ hP⟩

theorem alike_bind {x : Stage α} {f : α → Stage β} {R : α → Store → Store → Prop}
    {Q : β → Store → Store → Prop} (hx : Alike P x R) (hf : ∀ a, Alike (R a) (f a) Q) :
    Alike P (x >>= f) Q := by
  intro s s' t t' b b' hP hs hs'
  obtain ⟨a, u, ha, hb⟩ := bind_ok hs
  obtain ⟨a', u', ha', hb'⟩ := bind_ok hs'
  obtain ⟨rfl, hR⟩ := hx hP ha ha'
  exact hf a' hR hb hb'

theorem alike_ofExcept (x : Except Failure α) :
    Alike P (.ofExcept x) fun _ => P := by
  intro s s' t t' a a' hP hs hs'
  obtain ⟨ha, rfl⟩ := ofExcept_ok hs
  obtain ⟨ha', rfl⟩ := ofExcept_ok hs'
  exact ⟨Except.ok.inj (ha'.symm.trans ha), hP⟩

theorem Alike.weaken {x : Stage α} {Q R : α → Store → Store → Prop} (h : Alike P x Q)
    (hR : ∀ a s s', Q a s s' → R a s s') : Alike P x R := by
  intro s s' t t' a a' hP hs hs'
  obtain ⟨heq, hQ⟩ := h hP hs hs'
  exact ⟨heq, hR _ _ _ hQ⟩

/-- What is done for each item adds a path to what the stores have in common. -/
theorem alike_each_adding {J : Set Text → Store → Store → Prop} {f : α → Stage β} {g : α → Text}
    {items : List α} (h : ∀ a ∈ items, ∀ W, Alike (J W) (f a) fun _ => J (W ∪ {g a}))
    (W : Set Text) :
    Alike (J W) (each f items) fun _ => J (W ∪ {path | ∃ a ∈ items, g a = path}) := by
  induction items generalizing W with
  | nil =>
    refine alike_pure fun s s' hJ => ?_
    simpa using hJ
  | cons a more ih =>
    obtain ⟨ha, hmore⟩ := List.forall_mem_cons.1 h
    rw [each_cons]
    refine alike_bind (ha W) fun b => alike_bind (ih hmore (W ∪ {g a})) fun bs =>
      alike_pure fun s s' hJ => ?_
    have hunion : W ∪ {path | ∃ a' ∈ a :: more, g a' = path} =
        W ∪ {g a} ∪ {path | ∃ a' ∈ more, g a' = path} := by
      ext path
      simp only [Set.mem_union, Set.mem_singleton_iff, Set.mem_ofPred_eq, List.exists_mem_cons_iff,
        or_assoc, eq_comm (a := path)]
    rwa [hunion]

theorem alike_each {f : α → Stage β} {items : List α}
    (h : ∀ a ∈ items, Alike P (f a) fun _ => P) : Alike P (each f items) fun _ => P :=
  alike_each_adding (J := fun _ => P) (g := fun _ => []) (fun a ha _ => h a ha) ∅

theorem Alike.inBatches {f : α → Stage β} {items : List α} {Q : List β → Store → Store → Prop}
    (h : Alike P (each f items) Q) : Alike P (eachInBatches f items) Q := by
  intro s s' t t' bs bs' hP hs hs'
  rw [eachInBatches_eq_each (congrArg Prod.fst hs)] at hs
  rw [eachInBatches_eq_each (congrArg Prod.fst hs')] at hs'
  exact h hP hs hs'

end Stage

namespace Store

open Stage

/-- Two sound stores have the same texts at the places in `A`, and the paths in `W` can be read with
both and give the same. -/
structure Twins (A W : Set Text) (s s' : Store) : Prop where
  sound : s.Sound ∧ s'.Sound
  same {q : Text} : q ∈ A → s'.textAt? q = s.textAt? q
  read {path : Text} : path ∈ W → ∃ text, s.read path = .ok text ∧ s'.read path = .ok text

variable {A W : Set Text}

/-- The places at which twin stores have the same texts. -/
theorem Twins.textAt? {s s' : Store} (h : Twins A W s s') {q : Text}
    (hq : q ∈ A ∨ ∃ path ∈ W, place path = q) : s'.textAt? q = s.textAt? q := by
  rcases hq with hq | ⟨path, hpath, rfl⟩
  · exact h.same hq
  · obtain ⟨text, hread, hread'⟩ := h.read hpath
    rw [(read_eq_ok_iff.1 hread).2, (read_eq_ok_iff.1 hread').2]

theorem Twins.mono {s s' : Store} {V : Set Text} (h : Twins A W s s') (hV : V ⊆ W) :
    Twins A V s s' :=
  ⟨h.sound, h.same, fun hpath => h.read (hV hpath)⟩

/-- Twin stores grow alike if the texts that they have in common stay so. -/
theorem Twins.extends {s s' t t' : Store} (h : Twins A W s s') (ht : s.Extends t)
    (ht' : s'.Extends t')
    (hsame : ∀ q, s'.textAt? q = s.textAt? q → t'.textAt? q = t.textAt? q) : Twins A W t t' := by
  refine ⟨h.sound.imp ht.sound ht'.sound, fun hq => hsame _ (h.same hq), fun hpath => ?_⟩
  obtain ⟨text, hread, hread'⟩ := h.read hpath
  obtain ⟨new, hnew⟩ := ht.read hread
  obtain ⟨new', hnew'⟩ := ht'.read hread'
  have hplace := hsame _ (h.textAt? (.inr ⟨_, hpath, rfl⟩))
  rw [(read_eq_ok_iff.1 hnew).2, (read_eq_ok_iff.1 hnew').2] at hplace
  cases hplace
  exact ⟨_, hnew, hnew'⟩

theorem twins_textOf {path : Text} (hpath : place path ∈ A ∨ path ∈ W) :
    Alike (Twins A W) (.textOf path) fun _ => Twins A W := by
  intro s s' t t' text text' h hs hs'
  obtain ⟨hread, rfl⟩ := textOf_ok hs
  obtain ⟨hread', rfl⟩ := textOf_ok hs'
  have hsame := h.textAt? (hpath.imp_right fun hmem => ⟨path, hmem, rfl⟩)
  rw [(read_eq_ok_iff.1 hread).2, (read_eq_ok_iff.1 hread').2] at hsame
  exact ⟨Option.some.inj hsame, h⟩

theorem twins_createDirectories (path : Text) :
    Alike (Twins A W) (.createDirectories path) fun _ => Twins A W := by
  intro s s' t t' _ _ h hs hs'
  have hadds := createDirectories_adds s path
  have hadds' := createDirectories_adds s' path
  rw [createDirectories_ok hs] at hadds
  rw [createDirectories_ok hs'] at hadds'
  exact ⟨rfl, h.extends hadds.extends hadds'.extends fun q hq => by
    rw [hadds.textAt?, hadds'.textAt?, hq]⟩

/-- A sink belongs to the system, so both of two sound stores have it. -/
theorem Sound.at?_sink_iff {s s' : Store} (h : s.Sound) (h' : s'.Sound) (q : Text) :
    s.at? q = some .sink ↔ s'.at? q = some .sink := by
  have hnull (u : Store) : u.at? ("/dev/null" : Text) = some .sink := by
    rw [at?_eq, (by cbv : fixed? ("/dev/null" : Text) = some .sink)]
    rfl
  constructor
  · intro hsink
    rw [h.at?_sink hsink, hnull]
  · intro hsink
    rw [h'.at?_sink hsink, hnull]

theorem twins_write (path text : Text) :
    Alike (Twins A W) (.write path text) fun _ => Twins A (W ∪ {path}) := by
  intro s s' t t' _ _ h hs hs'
  have hwrites := write_ok (Stage.write_ok hs)
  have hwrites' := write_ok (Stage.write_ok hs')
  have hhere : t'.textAt? (place path) = t.textAt? (place path) := by
    have hsink := h.sound.1.at?_sink_iff h.sound.2 (place path)
    rcases hwrites.here, hwrites'.here with
      ⟨⟨hs, ht⟩ | ⟨hs, executable, ht⟩, ⟨hs', ht'⟩ | ⟨hs', executable', ht'⟩⟩
    · rw [Store.textAt?, Store.textAt?, ht, ht']
    · exact absurd (hsink.1 hs) hs'
    · exact absurd (hsink.2 hs') hs
    · rw [Store.textAt?, Store.textAt?, ht, ht']
      rfl
  have htwins : Twins A W t t' := h.extends hwrites.extends hwrites'.extends fun q hq => by
    by_cases hplace : q = place path
    · rw [hplace, hhere]
    · rw [hwrites.textAt? hplace, hwrites'.textAt? hplace, hq]
  refine ⟨rfl, htwins.sound, htwins.same, fun {other} hother => ?_⟩
  rcases hother with hother | rfl
  · exact htwins.read hother
  · obtain ⟨new, hnew, _⟩ := read_write (Stage.write_ok hs)
    obtain ⟨new', hnew', _⟩ := read_write (Stage.write_ok hs')
    rw [(read_eq_ok_iff.1 hnew).2, (read_eq_ok_iff.1 hnew').2] at hhere
    cases hhere
    exact ⟨_, hnew, hnew'⟩

theorem twins_writeInside (path text : Text) :
    Alike (Twins A W) (.writeInside path text) fun _ => Twins A (W ∪ {path}) := by
  unfold Stage.writeInside
  split
  · exact alike_bind (twins_createDirectories _) fun _ => twins_write path text
  · exact twins_write path text

end Store

end TexCatalog
