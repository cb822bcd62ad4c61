import TexCatalog.Proofs.FormRelations

/-!
# Cards without the notes of their descriptions

A topic card shows the plain text of its description only, but what is found while the description
is walked stays in the record of the page. Here is the walk that forgets it. It gives the same tree.
-/

namespace TexCatalog

namespace Walk

variable {α β : Type}

def silent (x : Walk α) : Walk α := fun s => ((x s).1, {}, (x s).2.2)

theorem ensures_silent (x : Walk α) : x.silent.Ensures fun _ n => n = {} := by
  intro s a n t h
  exact (congrArg (fun r => r.2.1) h).symm

def Alike (x y : Walk α) : Prop := ∀ s, (x s).1 = (y s).1 ∧ (x s).2.2 = (y s).2.2

theorem alike_refl (x : Walk α) : Alike x x := fun _ => ⟨rfl, rfl⟩

theorem alike_silent {x y : Walk α} (h : Alike x y) : Alike x y.silent := h

theorem alike_bind {x y : Walk α} {f g : α → Walk β} (hxy : Alike x y)
    (hfg : ∀ a, Alike (f a) (g a)) : Alike (x >>= f) (y >>= g) := by
  intro s
  obtain ⟨hvalue, hfiles⟩ := hxy s
  rcases hx : x s with ⟨r, m, t⟩
  rcases hy : y s with ⟨r', m', t'⟩
  rw [hx, hy] at hvalue hfiles
  cases hvalue
  cases hfiles
  cases r with
  | error e =>
    rw [bind_error hx, bind_error hy]
    exact ⟨rfl, rfl⟩
  | ok a =>
    rw [bind_ok hx, bind_ok hy]
    exact hfg a t

theorem alike_congruence (bib : Bibliography) : Congruence bib Alike where
  pure _ := alike_refl _
  bind := alike_bind
  note _ := alike_refl _
  report _ := alike_refl _
  label _ := alike_refl _

end Walk

namespace Form

def cardPattern : Pattern := (Pattern.command ["topiccard"]).withArgs 3

def quietCard (ctx : FormContext) (inv : Invocation) : Walk (Option (List Inline)) :=
  let id := inv.arg 0
  if id = [] then return none
  else do
    let title ← ctx.inlines (inv.arg 1)
    let description ← (ctx.inlines (inv.arg 2)).silent
    return some [card id title description]

def quiet (form : Form Inline) : Form Inline :=
  if form.pattern = cardPattern then ⟨cardPattern, quietCard⟩ else form

def quietVocabulary : Vocabulary := ⟨blockForms, inlineForms.map quiet⟩

theorem expand_of_card {form : Form Inline} (h : form ∈ inlineForms)
    (hcard : form.pattern = cardPattern) : form.expand = topicCard := by
  simp only [inlineForms, List.mem_cons, List.not_mem_nil, or_false] at h
  rcases h with rfl | rfl | rfl | rfl | rfl | rfl | rfl | rfl | rfl | rfl | rfl | rfl | rfl | rfl
  all_goals first | rfl | exact absurd hcard (by decide_cbv)

open Walk

theorem quietCard_alike {bib : Bibliography} {asks : Text → Prop} {c d : FormContext}
    (hc : FormContext.Related bib Alike asks c d) {inv : Invocation} (hinv : inv.Within asks) :
    Alike (topicCard c inv) (quietCard d inv) := by
  unfold topicCard quietCard
  simp only
  split
  · exact alike_refl _
  · refine alike_bind (hc.inlines (hinv.arg 1)) fun title => ?_
    exact alike_bind (alike_silent (hc.inlines (hinv.arg 2))) fun description => alike_refl _

theorem quietVocabulary_alike (bib : Bibliography) :
    Vocabulary.Related bib Alike vocabulary quietVocabulary where
  blocks hc := blockForms_related (alike_congruence bib) hc
  inlines := by
    intro asks c d hc
    change List.Forall₂ (Form.Related Alike asks c d) inlineForms (inlineForms.map quiet)
    rw [List.forall₂_map_right_iff]
    have hforms := inlineForms_related (alike_congruence bib) hc
    rw [List.forall₂_same] at hforms ⊢
    intro form hform
    unfold quiet
    split
    · next hcard =>
      refine ⟨hcard, fun inv hinv => ?_⟩
      rw [expand_of_card hform hcard]
      exact quietCard_alike hc hinv
    · exact hforms form hform

end Form

def walkQuiet (ctx : WalkContext) (source : Text) : Stage Walked :=
  (walkPage Form.quietVocabulary ctx source).finish ctx.stem

/-- Quiet topic cards change nothing but the record of a page and the problems found on it. -/
theorem walkQuiet_alike {ctx : WalkContext} {source : Text} {files files' : Store} {page : Walked}
    (h : walkSource ctx source files = (.ok page, files')) :
    ∃ quiet, walkQuiet ctx source files = (.ok quiet, files') ∧
      quiet.artifact.blocks = page.artifact.blocks := by
  have halike : Walk.Alike (walkPage Form.vocabulary ctx source)
      (walkPage Form.quietVocabulary ctx source) := by
    have hfull := full_related (Walk.alike_congruence ctx.bibliography)
      (Form.quietVocabulary_alike ctx.bibliography) fun text => Walk.alike_refl (ctx.read text)
    refine Walk.alike_bind (Walk.alike_refl _) fun blocks => ?_
    exact walkBlocks_related (Walk.alike_congruence ctx.bibliography) hfull blocks
      fun _ _ _ _ => trivial
  obtain ⟨hvalue, hfiles⟩ := halike files
  unfold walkSource Walk.finish at h
  unfold walkQuiet Walk.finish
  rcases hx : walkPage Form.vocabulary ctx source files with ⟨r, m, t⟩
  rcases hy : walkPage Form.quietVocabulary ctx source files with ⟨r', n, t'⟩
  rw [hx] at h
  rw [hx, hy] at hvalue hfiles
  cases hvalue
  cases hfiles
  cases r with
  | error e => cases h
  | ok blocks =>
    cases h
    exact ⟨_, rfl, rfl⟩

end TexCatalog
