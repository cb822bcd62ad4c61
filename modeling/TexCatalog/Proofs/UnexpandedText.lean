import TexCatalog.Proofs.FormOrder
import TexCatalog.Proofs.SurvivingMacros

/-!
# Text that no form expands

A form that declines a match declines it at once, before anything is asked, noted or reported. So a
text that no form expands costs one warning and nothing else: its node stays, and neither what the
walk has found so far nor the files are touched.
-/

namespace TexCatalog

open Walk

abbrev Walk.Builds {Kind : Type} (x : Walk (Option (List Kind))) : Prop :=
  x.Ensures fun nodes? _ => nodes?.isSome

theorem Walk.builds_pure {Kind : Type} (nodes : List Kind) :
    Walk.Builds (Pure.pure (some nodes)) := ensures_pure rfl

theorem Walk.builds_bind {α Kind : Type} {x : Walk α} {f : α → Walk (Option (List Kind))}
    (h : ∀ a, (f a).Builds) : (x >>= f).Builds :=
  ensures_bind (P := fun _ _ => True) (fun _ _ _ _ _ => trivial) fun a _ _ => h a

namespace Form

def Resolute {Kind : Type} (expand : FormContext → Walk (Option (List Kind))) : Prop :=
  (∀ c, expand c = Pure.pure none) ∨ ∀ c, (expand c).Builds

section

variable {Kind : Type} {expand : FormContext → Walk (Option (List Kind))} {p : Prop} [Decidable p]

theorem resolute_unless (h : ∀ c, (expand c).Builds) :
    Resolute fun c => if p then Pure.pure none else expand c := by
  split
  · exact .inl fun _ => rfl
  · exact .inr h

theorem resolute_if (h : ∀ c, (expand c).Builds) :
    Resolute fun c => if p then expand c else Pure.pure none := by
  split
  · exact .inr h
  · exact .inl fun _ => rfl

end

theorem inlineForms_resolute : ∀ form ∈ inlineForms, ∀ inv,
    Resolute fun c => form.expand c inv := by
  intro form hform inv
  simp only [inlineForms, List.mem_cons, List.not_mem_nil, or_false] at hform
  rcases hform with rfl | rfl | rfl | rfl | rfl | rfl | rfl | rfl | rfl | rfl | rfl | rfl | rfl |
    rfl
  case _ => exact .inr fun _ => builds_bind fun _ => builds_pure _
  case _ => exact .inr fun _ => builds_pure _
  case _ => exact resolute_unless fun _ => builds_pure _
  case _ => exact .inr fun _ => builds_pure _
  case _ => exact .inr fun _ => builds_bind fun _ => builds_pure _
  case _ => exact resolute_unless fun _ => builds_bind fun _ => builds_pure _
  case _ => exact resolute_unless fun _ => builds_pure _
  case _ => exact resolute_unless fun _ => builds_pure _
  case _ => exact .inr fun _ => builds_bind fun _ => builds_pure _
  case _ =>
    exact resolute_unless fun _ => builds_bind fun _ => builds_bind fun _ => builds_pure _
  case _ => exact .inr fun _ => builds_bind fun _ => builds_pure _
  case _ => exact .inr fun _ => builds_bind fun _ => builds_pure _
  case _ =>
    exact resolute_unless fun _ => builds_bind fun _ => builds_bind fun _ => builds_pure _
  case _ => exact .inr fun _ => builds_bind fun _ => builds_pure _

theorem blockForms_resolute : ∀ form ∈ blockForms, ∀ inv,
    Resolute fun c => form.expand c inv := by
  intro form hform inv
  simp only [blockForms, List.mem_cons, List.not_mem_nil, or_false] at hform
  rcases hform with rfl | rfl | rfl | rfl | rfl | rfl | rfl | rfl | rfl | rfl | rfl | rfl | rfl
  case _ => exact .inr fun _ => builds_pure _
  case _ => exact .inr fun _ => builds_bind fun _ => builds_bind fun _ => builds_pure _
  case _ => exact .inr fun _ => builds_bind fun _ => builds_pure _
  case _ => exact resolute_if fun _ => builds_pure _
  case _ => exact .inr fun _ => builds_bind fun _ => builds_pure _
  case _ => exact .inr fun _ => builds_bind fun _ => builds_bind fun _ => builds_pure _
  case _ =>
    exact resolute_unless fun _ => builds_bind fun _ => builds_bind fun _ => builds_pure _
  case _ => exact resolute_unless fun _ => builds_bind fun _ => builds_pure _
  case _ => exact .inr fun _ => builds_bind fun _ => builds_pure _
  case _ => exact .inr fun _ => builds_bind fun _ => builds_bind fun _ => builds_pure _
  case _ => exact .inr fun _ => builds_pure _
  case _ => exact .inr fun _ => builds_pure _
  case _ => exact .inr fun _ => builds_pure _

section

variable {Kind : Type} {forms : List (Form Kind)}
  (hforms : ∀ form ∈ forms, ∀ inv, Resolute fun c => form.expand c inv) {text : Text}

include hforms

/-- All forms decline a text at once, in every context, or one of them builds something. -/
theorem expandFirst_resolute : Resolute fun c => expandFirst c text forms := by
  induction forms with
  | nil => exact .inl fun _ => rfl
  | cons form more ih =>
    have ih := ih fun form hform => hforms form (List.mem_cons_of_mem _ hform)
    cases hmatch : form.pattern.match? text with
    | none =>
      simp only [expandFirst, hmatch]
      exact ih
    | some inv =>
      simp only [expandFirst, hmatch]
      rcases hforms form (List.mem_cons_self ..) inv with hdeclines | hbuilds
      · simp only [hdeclines, pure_bind]
        exact ih
      · refine .inr fun c => ensures_bind (hbuilds c) fun nodes? _ hsome => ?_
        cases nodes? with
        | none => cases hsome
        | some nodes => exact builds_pure nodes

/-- A text that is not expanded once is expanded in no context. -/
theorem passed_of_unexpanded {c : FormContext} {files : Store}
    (h : (expandFirst c text forms files).1 = .ok none) : Passed forms text := by
  have hresolute : Resolute fun c => expandFirst c text forms := expandFirst_resolute hforms
  rcases hresolute with hpassed | hbuilds
  · exact hpassed
  · rcases hrun : expandFirst c text forms files with ⟨r, n, t⟩
    rw [hrun] at h
    cases h
    cases hbuilds c hrun

end

end Form

namespace Walk

variable {α : Type}

/-- Whatever has been done before, the step gives a value, reports one problem, finds nothing and
leaves the files as they are. -/
def OnlyReports (x : Walk α) (a : α) (d : Diagnostic) (files : Store) : Prop :=
  ∀ {β : Type} {earlier : Walk β} {start : Store} {b : β} {before : Notes},
    earlier start = (.ok b, before, files) → (earlier >>= fun _ => x) start =
      (.ok a, { before with diagnostics := before.diagnostics ++ [d] }, files)

theorem onlyReports_of_eq {x : Walk α} {a : α} {d : Diagnostic} {files : Store}
    (h : x files = (.ok a, { diagnostics := [d] }, files)) : x.OnlyReports a d files := by
  intro β earlier start b before hearlier
  rw [bind_ok hearlier, h]
  simp only [Notes.combine, Findings.combine_empty]

end Walk

def WalkContext.seenFrom (ctx : WalkContext) (text : Text) : FormContext :=
  Expander.formContext ctx (.ofDepth Form.vocabulary ctx (ctx.reader.levels text - 1))

/-- The page source that a block consists of, as a raw block or as the only node of a paragraph. -/
def Block.source? : Block → Option Text
  | .raw format text => if format.isTex then some text else none
  | .para content => loneRaw? content
  | _ => none

theorem walkBlock_of_source {stem : Text} {forms : Expander} {block : Block} {text : Text}
    (h : block.source? = some text) : walkBlock stem forms block = forms.block text := by
  cases block with
  | raw format t =>
    rw [Block.source?] at h
    rw [walkBlock]
    split at h
    · next htex =>
      cases h
      rw [if_pos htex]
    · cases h
  | para content =>
    rw [Block.source?] at h
    rw [walkBlock, h]
  | _ => cases h

section

variable (ctx : WalkContext) {text : Text} {files : Store}

theorem full_inline_of_passed (h : Form.Passed Form.inlineForms text) :
    (Expander.full Form.vocabulary ctx).inline text = Pure.pure none := by
  unfold Expander.full
  simp only
  cases ctx.reader.levels text with
  | zero => rfl
  | succ depth =>
    change Form.expandFirst _ text Form.inlineForms >>= _ = _
    rw [h, pure_bind]

theorem full_block_of_passed (hinlines : Form.Passed Form.inlineForms text)
    (hblocks : Form.Passed Form.blockForms text) :
    (Expander.full Form.vocabulary ctx).block text = (Expander.idle ctx.stem).block text := by
  unfold Expander.full
  simp only
  cases ctx.reader.levels text with
  | zero => rfl
  | succ depth =>
    change (Form.expandFirst _ text Form.blockForms >>= _) = _
    rw [hblocks, pure_bind]
    change ((Form.expandFirst _ text Form.inlineForms >>= _) >>= _) = _
    rw [hinlines, pure_bind, pure_bind]

/-- A text that no form of running text expands stays in its node with one warning; where a block
consists of it and no form of blocks expands it either, the block becomes the raw block of the text,
with one warning. Nothing else that is found or reported on the page changes. -/
theorem unexpanded_text_left (hinlines :
      (Form.expandFirst (ctx.seenFrom text) text Form.inlineForms files).1 = .ok none) :
    (∀ format : Format, format.isTex →
      (walkInline ctx.stem (.full Form.vocabulary ctx) (.raw format text)).OnlyReports
        [.raw format text]
        ⟨.warning, ctx.stem, "unrecognized inline macro: " ++ excerpt text⟩ files) ∧
    ((Form.expandFirst (ctx.seenFrom text) text Form.blockForms files).1 = .ok none →
      ∀ block : Block, block.source? = some text →
        (walkBlock ctx.stem (.full Form.vocabulary ctx) block).OnlyReports [.raw .tex text]
          ⟨.warning, ctx.stem, "unrecognized block macro: " ++ excerpt text⟩ files) := by
  have hnone := Form.passed_of_unexpanded Form.inlineForms_resolute hinlines
  constructor
  · intro format htex
    apply onlyReports_of_eq
    rw [walkInline, if_pos htex, walkRaw, full_inline_of_passed ctx hnone, pure_bind]
    rfl
  · intro hblocks block hsource
    have hpassed := Form.passed_of_unexpanded Form.blockForms_resolute hblocks
    apply onlyReports_of_eq
    rw [walkBlock_of_source hsource, full_block_of_passed ctx hnone hpassed]
    rfl

end

/-- A block that would be filled in from the data of the site, of a kind that there is not. -/
def unknownSpecial : Text := "\\specialblock\x7bgallery\x7d"

/-- The form for special blocks matches an unknown one and declines it, and the block stays. -/
theorem unexpanded_text_left_unknownSpecial :
    let ctx := sourceContext "page" ∅
    (∃ form ∈ Form.blockForms, (form.pattern.match? unknownSpecial).isSome) ∧
      (Form.expandFirst (ctx.seenFrom unknownSpecial) unknownSpecial Form.inlineForms .empty).1 =
        .ok none ∧
      (Form.expandFirst (ctx.seenFrom unknownSpecial) unknownSpecial Form.blockForms .empty).1 =
        .ok none ∧
      (walkBlock "page" (.full Form.vocabulary ctx) (.raw .tex unknownSpecial)).OnlyReports
        [.raw .tex unknownSpecial]
        ⟨.warning, "page", "unrecognized block macro: " ++ excerpt unknownSpecial⟩ .empty := by
  intro ctx
  have hmatch : ((Pattern.command ["specialblock"]).withArgs 1).match? unknownSpecial =
      some ⟨"specialblock", false, none, ["gallery"], [], unknownSpecial⟩ := by decide +kernel
  have hform : ⟨(Pattern.command ["specialblock"]).withArgs 1, Form.specialBlock⟩ ∈
      Form.blockForms := by simp [Form.blockForms]
  have hnone : ∀ form ∈ Form.inlineForms, form.pattern.match? unknownSpecial = none := by
    decide +kernel
  have hinlines : (Form.expandFirst (ctx.seenFrom unknownSpecial) unknownSpecial
      Form.inlineForms .empty).1 = .ok none := by
    rw [Form.expandFirst_of_none hnone]
    rfl
  have hdeclines : Form.specialBlock (ctx.seenFrom unknownSpecial)
      ⟨"specialblock", false, none, ["gallery"], [], unknownSpecial⟩ = Pure.pure none :=
    if_neg (by decide +kernel)
  have hblocks : (Form.expandFirst (ctx.seenFrom unknownSpecial) unknownSpecial
      Form.blockForms .empty).1 = .ok none := by
    have hfirst : Form.expandFirst (ctx.seenFrom unknownSpecial) unknownSpecial Form.blockForms =
        Pure.pure none :=
      (Form.expandFirst_of_match Form.blockForms_exclusive hform hmatch).trans hdeclines
    rw [hfirst]
    rfl
  refine ⟨⟨_, hform, by rw [hmatch]; rfl⟩, hinlines, hblocks, ?_⟩
  exact (unexpanded_text_left ctx hinlines).2 hblocks (.raw .tex unknownSpecial)
    (if_pos Format.isTex_tex)

end TexCatalog
