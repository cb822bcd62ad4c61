import TexCatalog.Proofs.BalancedBodies
import TexCatalog.Proofs.WalkLabels

/-!
# Forms in any order

The forms of a kind share no names, and no command has the name under which environments begin. So
at most one form of a kind matches a text, and it does not matter in which order the forms are
tried, also where the one that matches declines.
-/

namespace TexCatalog

namespace Pattern

variable {p q : Pattern} {text s : Text} {inv inv' : Invocation}

def words (p : Pattern) : List Text :=
  match p.kind with
  | .command => p.names
  | .environment => ["begin"]

def Apart (p q : Pattern) : Prop :=
  if p.kind = q.kind then ∀ name ∈ p.names, name ∉ q.names else ∀ word ∈ p.words, word ∉ q.words

instance (p q : Pattern) : Decidable (p.Apart q) :=
  inferInstanceAs (Decidable (if p.kind = q.kind then ∀ name ∈ p.names, name ∉ q.names
    else ∀ word ∈ p.words, word ∉ q.words))

theorem match?_word (h : p.match? text = some inv) :
    ∃ word rest, Source.commandName? (Text.trim text) = some (word, rest) ∧ word ∈ p.words := by
  have hname := match?_name h
  unfold match? at h
  unfold words
  cases hkind : p.kind with
  | command =>
    rw [hkind] at h
    obtain ⟨name, rest, _, hword, _, _, _, rfl⟩ := matchCommand?_iff.1 h
    exact ⟨name, rest, hword, hname⟩
  | environment =>
    rw [hkind] at h
    obtain ⟨e, rest, _, he, _⟩ := matchEnvironment?_iff.1 h
    obtain ⟨rest, hword⟩ := Source.commandName?_of_environment he
    exact ⟨_, rest, hword, List.mem_singleton.2 rfl⟩

/-- Matches of patterns of one kind have the same name. -/
theorem match?_same_name (hkind : p.kind = q.kind) (hp : p.match? text = some inv)
    (hq : q.match? text = some inv') : inv.name = inv'.name := by
  unfold match? at hp hq
  rw [← hkind] at hq
  cases hkind : p.kind with
  | command =>
    rw [hkind] at hp hq
    obtain ⟨name, rest, _, hname, _, _, _, rfl⟩ := matchCommand?_iff.1 hp
    obtain ⟨name', rest', _, hname', _, _, _, rfl⟩ := matchCommand?_iff.1 hq
    rw [hname, Option.some.injEq] at hname'
    exact congrArg Prod.fst hname'
  | environment =>
    rw [hkind] at hp hq
    obtain ⟨e, rest, _, he, _, _, _, rfl⟩ := matchEnvironment?_iff.1 hp
    obtain ⟨e', rest', _, he', _, _, _, rfl⟩ := matchEnvironment?_iff.1 hq
    rw [he] at he'
    cases he'
    rfl

/-- Of two patterns that are apart at most one matches a text. -/
theorem Apart.match? (h : p.Apart q) (text : Text) :
    p.match? text = none ∨ q.match? text = none := by
  rw [or_iff_not_imp_left, ← ne_eq, Option.ne_none_iff_exists']
  rintro ⟨inv, hp⟩
  rw [Option.eq_none_iff_forall_ne_some]
  intro inv' hq
  unfold Apart at h
  split at h
  · next hkind =>
    have hname := match?_name hq
    rw [← match?_same_name hkind hp hq] at hname
    exact h inv.name (match?_name hp) hname
  · obtain ⟨word, rest, hword, hmem⟩ := match?_word hp
    obtain ⟨word', rest', hword', hmem'⟩ := match?_word hq
    rw [hword] at hword'
    cases hword'
    exact h word hmem hmem'

end Pattern

namespace Form

variable {Kind : Type} {forms others : List (Form Kind)} {form : Form Kind} {c : FormContext}
  {text : Text}

def Exclusive (f g : Form Kind) : Prop :=
  ∀ text, f.pattern.match? text = none ∨ g.pattern.match? text = none

theorem Exclusive.symm {f g : Form Kind} (h : Exclusive f g) : Exclusive g f :=
  fun text => (h text).symm

theorem blockForms_exclusive : blockForms.Pairwise Exclusive := by
  have hapart : blockForms.Pairwise fun f g => f.pattern.Apart g.pattern := by decide +kernel
  exact hapart.imp fun h => h.match?

theorem inlineForms_exclusive : inlineForms.Pairwise Exclusive := by
  have hapart : inlineForms.Pairwise fun f g => f.pattern.Apart g.pattern := by decide +kernel
  exact hapart.imp fun h => h.match?

def matchesText (text : Text) (form : Form Kind) : Bool := (form.pattern.match? text).isSome

theorem matchesText_eq_false : form.matchesText text = false ↔ form.pattern.match? text = none := by
  rw [matchesText, Option.isSome_eq_false_iff, Option.isNone_iff_eq_none]

theorem countP_matchesText_le_one (h : forms.Pairwise Exclusive) (text : Text) :
    forms.countP (·.matchesText text) ≤ 1 := by
  induction forms with
  | nil => exact Nat.zero_le _
  | cons form more ih =>
    rw [List.pairwise_cons] at h
    cases hform : form.matchesText text with
    | false =>
      rw [List.countP_cons_of_neg (by simp [hform])]
      exact ih h.2
    | true =>
      have hnone : more.countP (·.matchesText text) = 0 := by
        rw [List.countP_eq_zero]
        intro g hg
        rcases h.1 g hg text with hmatch | hmatch
        · rw [matchesText_eq_false.2 hmatch] at hform
          cases hform
        · simp [matchesText_eq_false.2 hmatch]
      rw [List.countP_cons_of_pos hform, hnone]

theorem expandFirst_cons_of_none (h : form.pattern.match? text = none) :
    expandFirst c text (form :: forms) = expandFirst c text forms := by
  rw [expandFirst, h]

theorem expandFirst_of_none (h : ∀ form ∈ forms, form.pattern.match? text = none) :
    expandFirst c text forms = pure none := by
  induction forms with
  | nil => rfl
  | cons form more ih =>
    rw [List.forall_mem_cons] at h
    rw [expandFirst_cons_of_none h.1, ih h.2]

/-- The form that matches a text decides about it, as no other form is there to try. -/
theorem expandFirst_of_match {inv : Invocation} (h : forms.Pairwise Exclusive)
    (hform : form ∈ forms) (hmatch : form.pattern.match? text = some inv) :
    expandFirst c text forms = form.expand c inv := by
  induction forms with
  | nil => cases hform
  | cons first more ih =>
    rw [List.pairwise_cons] at h
    rcases List.mem_cons.1 hform with rfl | hform
    · have hothers (g : Form Kind) (hg : g ∈ more) : g.pattern.match? text = none := by
        refine (h.1 g hg text).resolve_left ?_
        simp [hmatch]
      rw [expandFirst, hmatch]
      simp only [expandFirst_of_none hothers]
      refine Eq.trans (congrArg _ (funext fun nodes? => ?_)) (bind_pure _)
      cases nodes? <;> rfl
    · have hfirst : first.pattern.match? text = none := by
        refine (h.1 form hform text).resolve_right ?_
        simp [hmatch]
      rw [expandFirst_cons_of_none hfirst, ih h.2 hform]

/-- What the form that matches ensures is ensured, if it holds where no form matches. -/
theorem expandFirst_ensures {P : Option (List Kind) → Notes → Prop} (h : forms.Pairwise Exclusive)
    (hnone : P none {}) (hforms : ∀ form ∈ forms, ∀ inv, (form.expand c inv).Ensures P) :
    (expandFirst c text forms).Ensures P := by
  by_cases hmatch : ∃ form ∈ forms, ∃ inv, form.pattern.match? text = some inv
  · obtain ⟨form, hform, inv, hinv⟩ := hmatch
    rw [expandFirst_of_match h hform hinv]
    exact hforms form hform inv
  · have hnothing (form : Form Kind) (hform : form ∈ forms) : form.pattern.match? text = none :=
      Option.eq_none_iff_forall_ne_some.2 fun inv hinv => hmatch ⟨form, hform, inv, hinv⟩
    rw [expandFirst_of_none hnothing]
    exact Walk.ensures_pure hnone

/-- Forms of which at most one matches expand a text in whatever order they are tried. -/
theorem expandFirst_perm (hperm : others.Perm forms) (h : forms.Pairwise Exclusive) :
    expandFirst c text others = expandFirst c text forms := by
  have hothers : others.Pairwise Exclusive := hperm.symm.pairwise h fun hfg => hfg.symm
  by_cases hmatch : ∃ form ∈ forms, ∃ inv, form.pattern.match? text = some inv
  · obtain ⟨form, hform, inv, hinv⟩ := hmatch
    rw [expandFirst_of_match h hform hinv,
      expandFirst_of_match hothers (hperm.mem_iff.2 hform) hinv]
  · have hnone (form : Form Kind) (hform : form ∈ forms) : form.pattern.match? text = none :=
      Option.eq_none_iff_forall_ne_some.2 fun inv hinv => hmatch ⟨form, hform, inv, hinv⟩
    rw [expandFirst_of_none hnone,
      expandFirst_of_none fun form hform => hnone form (hperm.mem_iff.1 hform)]

end Form

namespace Expander

section

variable {v w : Vocabulary} (hblocks : ∀ c text,
    Form.expandFirst c text v.blocks = Form.expandFirst c text w.blocks)
  (hinlines : ∀ c text, Form.expandFirst c text v.inlines = Form.expandFirst c text w.inlines)

include hblocks hinlines

theorem ofInner_congr (ctx : WalkContext) (inner : Expander) :
    ofInner v ctx inner = ofInner w ctx inner := by
  have hinline : expandInline v ctx inner = expandInline w ctx inner := by
    funext text
    unfold expandInline
    rw [hinlines]
  have hblock : expandBlock v ctx inner = expandBlock w ctx inner := by
    funext text
    unfold expandBlock
    rw [hblocks, hinline]
  rw [ofInner, ofInner, hblock, hinline]

theorem ofDepth_congr (ctx : WalkContext) (depth : Nat) :
    ofDepth v ctx depth = ofDepth w ctx depth := by
  induction depth with
  | zero => rfl
  | succ depth ih => rw [ofDepth, ofDepth, ih, ofInner_congr hblocks hinlines]

/-- Vocabularies that expand every text alike have the same expander. -/
theorem full_congr (ctx : WalkContext) : full v ctx = full w ctx := by
  unfold full
  simp only [ofDepth_congr hblocks hinlines]

end

end Expander

/-- At most one form of each kind matches a text, and the forms expand every text in the same way in
whatever order they are tried: the nodes, what is noted and what is reported are the same, in every
context, and so they are for the walk of a page. -/
theorem forms_in_any_order {blocks : List (Form Block)} {inlines : List (Form Inline)}
    (hblocks : blocks.Perm Form.blockForms) (hinlines : inlines.Perm Form.inlineForms) :
    (∀ text, Form.blockForms.countP (·.matchesText text) ≤ 1 ∧
        Form.inlineForms.countP (·.matchesText text) ≤ 1) ∧
      (∀ c text, Form.expandFirst c text blocks = Form.expandFirst c text Form.blockForms ∧
        Form.expandFirst c text inlines = Form.expandFirst c text Form.inlineForms) ∧
      ∀ ctx, Expander.full ⟨blocks, inlines⟩ ctx = Expander.full Form.vocabulary ctx := by
  have hblock (c : FormContext) (text : Text) :
      Form.expandFirst c text blocks = Form.expandFirst c text Form.blockForms :=
    Form.expandFirst_perm hblocks Form.blockForms_exclusive
  have hinline (c : FormContext) (text : Text) :
      Form.expandFirst c text inlines = Form.expandFirst c text Form.inlineForms :=
    Form.expandFirst_perm hinlines Form.inlineForms_exclusive
  refine ⟨fun text => ⟨?_, ?_⟩, fun c text => ⟨hblock c text, hinline c text⟩, fun ctx => ?_⟩
  · exact Form.countP_matchesText_le_one Form.blockForms_exclusive text
  · exact Form.countP_matchesText_le_one Form.inlineForms_exclusive text
  · exact Expander.full_congr hblock hinline ctx

/-- The forms may be tried from the last to the first. -/
theorem forms_in_any_order_reversed : Form.blockForms.reverse.Perm Form.blockForms ∧
    Form.inlineForms.reverse.Perm Form.inlineForms ∧
    ∀ ctx, Expander.full ⟨Form.blockForms.reverse, Form.inlineForms.reverse⟩ ctx =
      Expander.full Form.vocabulary ctx :=
  ⟨List.reverse_perm _, List.reverse_perm _,
    (forms_in_any_order (List.reverse_perm _) (List.reverse_perm _)).2.2⟩

end TexCatalog
