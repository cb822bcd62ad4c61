import TexCatalog.Proofs.FormRelations

/-!
# Walking one part behind another

A walk that reads page source itself uses no files, and no step of it sees the notes of an earlier
one. So the walk of two lists of blocks, one behind the other, is made of the walks of the two.
-/

namespace TexCatalog

namespace Walk

def Still {α : Type} (x : Walk α) : Prop := ∀ s t, x s = ((x t).1, (x t).2.1, s)

/-- A step to which all files of a class are the same, and that does not change them. -/
def StillOn {α : Type} (K : Store → Prop) (x : Walk α) : Prop :=
  ∀ s t, K s → K t → x s = ((x t).1, (x t).2.1, s)

variable {α β : Type} {K : Store → Prop}

theorem stillOn_bind {x : Walk α} {f : α → Walk β} (hx : x.StillOn K)
    (hf : ∀ a, (f a).StillOn K) : (x >>= f).StillOn K := by
  intro s t hs ht
  rcases hxt : x t with ⟨r, m, t'⟩
  have hxs : x s = (r, m, s) := by rw [hx s t hs ht, hxt]
  have ht' : t' = t := by
    have hself := hx t t ht ht
    rw [hxt] at hself
    cases hself
    rfl
  subst ht'
  cases r with
  | error e => rw [bind_error hxs, bind_error hxt]
  | ok a =>
    rw [bind_ok hxs, bind_ok hxt]
    simp only [hf a s t' hs ht]

/-- Stillness as a relation, under which a step is related to itself alone. -/
theorem stillOn_congruence (bib : Bibliography) (K : Store → Prop) :
    Congruence bib fun {_} x y => x = y ∧ x.StillOn K where
  pure a := ⟨rfl, fun _ _ _ _ => rfl⟩
  bind hxy hfg := by
    obtain ⟨rfl, hx⟩ := hxy
    have hf := funext fun a => (hfg a).1
    subst hf
    exact ⟨rfl, stillOn_bind hx fun a => (hfg a).2⟩
  note f := ⟨rfl, fun _ _ _ _ => rfl⟩
  report d := ⟨rfl, fun _ _ _ _ => rfl⟩
  label _ := ⟨rfl, fun _ _ _ _ => rfl⟩

end Walk

/-- The walk of a tree is still where the reader is. -/
theorem walkBlocks_stillOn {ctx : WalkContext} {K : Store → Prop}
    (hread : ∀ text, (ctx.read text).StillOn K) (blocks : List Block) :
    (walkBlocks ctx.stem (.full Form.vocabulary ctx) blocks).StillOn K :=
  have hK := Walk.stillOn_congruence ctx.bibliography K
  (walkBlocks_related hK
    (full_related hK (Form.vocabulary_related hK) fun text => ⟨rfl, hread text⟩) blocks fun _ _ _ _ => trivial).2

section

variable (stem : Text) (bib : Bibliography) (a b : List Block)

def walkAll (blocks : List Block) : Walk (List Block) :=
  walkBlocks stem (.full Form.vocabulary (sourceContext stem bib)) blocks

theorem walkAll_still : (walkAll stem bib a).Still :=
  have hread (text : Text) : ((sourceContext stem bib).read text).StillOn fun _ => True :=
    fun _ _ _ _ => rfl
  fun s t => walkBlocks_stillOn hread a s t trivial trivial

theorem walkAll_append :
    walkAll stem bib (a ++ b) =
      walkAll stem bib a >>= fun p => walkAll stem bib b >>= fun q => pure (p ++ q) := by
  induction a with
  | nil =>
    have hnil : walkAll stem bib [] = pure [] := by
      unfold walkAll
      rw [walkBlocks]
    rw [hnil, pure_bind]
    simp
  | cons block more ih =>
    have hcons (rest : List Block) : walkAll stem bib (block :: rest) =
        walkBlock stem (.full Form.vocabulary (sourceContext stem bib)) block >>= fun p =>
          walkAll stem bib rest >>= fun q => pure (p ++ q) := by
      unfold walkAll
      rw [walkBlocks]
    rw [List.cons_append, hcons, hcons, ih]
    simp only [bind_assoc, pure_bind, List.append_assoc]

end

/-- The page `z` is that of two parts, `x` in front of `y`. -/
structure Walked.Joins (x y z : Walked) : Prop where
  stem : z.artifact.record.stem = x.artifact.record.stem
  blocks : z.artifact.blocks = x.artifact.blocks ++ y.artifact.blocks
  diagnostics : z.diagnostics = x.diagnostics ++ y.diagnostics
  labels (t : Text) : t ∈ z.artifact.record.labels ↔
    t ∈ x.artifact.record.labels ∨ t ∈ y.artifact.record.labels
  citations (t : Text) : t ∈ z.artifact.record.citations ↔
    t ∈ x.artifact.record.citations ∨ t ∈ y.artifact.record.citations
  urls (t : Text) : t ∈ z.artifact.record.urls ↔
    t ∈ x.artifact.record.urls ∨ t ∈ y.artifact.record.urls
  todos : z.artifact.record.todos = x.artifact.record.todos ++ y.artifact.record.todos
  sections : z.artifact.record.sections = x.artifact.record.sections ++ y.artifact.record.sections
  records (id : Text) : z.artifact.record.records.get? id =
    (y.artifact.record.records.get? id).or (x.artifact.record.records.get? id)
  title : z.artifact.record.title = y.artifact.record.title.or x.artifact.record.title
  description : z.artifact.record.description =
    y.artifact.record.description.or x.artifact.record.description
  keywords : z.artifact.record.keywords = y.artifact.record.keywords.or x.artifact.record.keywords
  css : z.artifact.record.css = match y.artifact.record.css with
    | none => x.artifact.record.css
    | some rules => (x.artifact.record.appendCss rules).css

theorem Walked.joins_of_combine (stem : Text) (p q : List Block) (m n : Notes) :
    Walked.Joins ⟨⟨{ m.findings with stem }, p⟩, m.diagnostics⟩
      ⟨⟨{ n.findings with stem }, q⟩, n.diagnostics⟩
      ⟨⟨{ (m.combine n).findings with stem }, p ++ q⟩, (m.combine n).diagnostics⟩ where
  stem := rfl
  blocks := rfl
  diagnostics := rfl
  labels _ := TextSet.mem_union
  citations _ := TextSet.mem_union
  urls _ := TextSet.mem_union
  todos := rfl
  sections := rfl
  records id := TextMap.get?_union _ _ id
  title := rfl
  description := rfl
  keywords := rfl
  css := by
    change Findings.joinCss m.findings.css n.findings.css = _
    cases n.findings.css with
    | none => cases m.findings.css <;> rfl
    | some rules => rfl

/-- The walk of one part behind another is made of the walks of the two, from whatever files, and
fails where one of them does. -/
theorem walkDocument_append (stem : Text) (bib : Bibliography) (a b : List Block) (files : Store) :
    match (walkDocument (sourceContext stem bib) a files).1,
        (walkDocument (sourceContext stem bib) b files).1 with
    | .ok x, .ok y => ∃ z,
      walkDocument (sourceContext stem bib) (a ++ b) files = (.ok z, files) ∧ Walked.Joins x y z
    | .ok _, .error e => walkDocument (sourceContext stem bib) (a ++ b) files = (.error e, files)
    | .error e, _ => walkDocument (sourceContext stem bib) (a ++ b) files = (.error e, files) := by
  have hdoc (blocks : List Block) : walkDocument (sourceContext stem bib) blocks =
      (walkAll stem bib blocks).finish stem := rfl
  simp only [hdoc]
  have hx := walkAll_still stem bib a files files
  have hy := walkAll_still stem bib b files files
  rcases ha : walkAll stem bib a files with ⟨r, m, s⟩
  rcases hb : walkAll stem bib b files with ⟨r', n, t⟩
  rw [ha] at hx
  rw [hb] at hy
  cases hx
  cases hy
  have happend := congrFun (walkAll_append stem bib a b) files
  cases r with
  | error e =>
    rw [Walk.bind_error ha] at happend
    simp only [Walk.finish, ha, happend]
  | ok p =>
    rw [Walk.bind_ok ha] at happend
    cases r' with
    | error e =>
      rw [Walk.bind_error hb] at happend
      simp only [Walk.finish, ha, hb, happend]
    | ok q =>
      rw [Walk.bind_ok hb] at happend
      simp only [Walk.finish, ha, hb, happend]
      have hjoins := Walked.joins_of_combine stem p q m n
      refine ⟨_, rfl, ?_⟩
      change Walked.Joins _ _ ⟨⟨{ (m.combine (n.combine {})).findings with stem }, p ++ q⟩,
        (m.combine (n.combine {})).diagnostics⟩
      rw [Notes.combine_empty]
      exact hjoins

end TexCatalog
