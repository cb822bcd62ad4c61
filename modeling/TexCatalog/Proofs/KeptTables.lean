import TexCatalog.Proofs.BalancedBodies
import TexCatalog.Proofs.LayoutProblems
import TexCatalog.Proofs.NodeOrigins
import TexCatalog.Proofs.RecordCoverage
import TexCatalog.Proofs.TrimmedText

/-!
# Tables that the walk keeps

The forms for tables keep the source of what they match, and the layout of a page takes it apart
with a parser of its own. The two agree: whatever a form for tables matches is laid out.
-/

namespace TexCatalog

namespace Source

theorem star_of_none {s : Text} (h : (star s).1 = false) : (star s).2 = s := by
  unfold star at h ⊢
  split at h
  · rfl
  · split at h
    · cases h
    · next hc => rw [if_neg hc]

end Source

namespace Pattern

theorem splitStar_of_none {name : Text} (h : (splitStar name).2 = false) :
    (splitStar name).1 = name := by
  unfold splitStar at h ⊢
  split at h
  · cases h
  · rfl

variable {p : Pattern}

theorem accepts_plain (hp : p.starred = false) {name : Text} {starred : Bool}
    (h : p.accepts name starred) : name ∈ p.names ∧ starred = false := by
  simpa [hp] using accepts_iff.1 h

/-- A pattern with one argument and no optional group takes the first group in braces. -/
theorem spacedBraced?_of_arguments (hoptional : p.optional = .forbidden) (hargs : p.args = 1)
    {s : Text} {a : Arguments} (h : p.arguments? s = some a) :
    ∃ v, Source.spacedBraced? s = some (v, a.rest) := by
  simp only [arguments?, hoptional, hargs, optionalGroup?, braceGroups?] at h
  obtain ⟨⟨args, rest⟩, hgroups, rfl⟩ := Option.map_eq_some_iff.1 h
  split at hgroups
  · cases hgroups
  · next v r hv =>
    cases hgroups
    exact ⟨v, hv⟩

end Pattern

namespace Grid

/-- A text is laid out if the text without blanks around it has a table body. -/
theorem exists_ofText? {s : Text} (h : (body? (Text.trim s)).isSome) :
    ∃ grid, ofText? s = some grid := by
  obtain ⟨p, hp⟩ := Option.isSome_iff_exists.1 h
  exact ⟨⟨p.1, readRows p.2⟩, by rw [ofText?, hp]; rfl⟩

section

variable {p : Pattern} {text : Text} {inv : Invocation}

theorem exists_of_environment (hkind : p.kind = .environment) (hstar : p.starred = false)
    (h : p.match? text = some inv)
    (hbody : ∀ (e : Source.Environment) (a : Pattern.Arguments), e.name ∈ p.names →
      p.arguments? e.body = some a → (ofEnvironment? e).isSome) :
    ∃ grid, ofText? inv.source = some grid := by
  simp only [Pattern.match?, hkind] at h
  obtain ⟨e, rest, a, he, haccepts, ha, hblank, rfl⟩ := Pattern.matchEnvironment?_iff.1 h
  obtain ⟨hname, hplain⟩ := Pattern.accepts_plain hstar haccepts
  rw [Pattern.splitStar_of_none hplain] at hname
  apply exists_ofText?
  rw [Text.trim_trim]
  simp only [body?, he, if_pos hblank]
  exact hbody e a hname ha

theorem exists_of_command (hkind : p.kind = .command) (hstar : p.starred = false)
    (hnames : p.names = [Kind.ytab.name]) (hoptional : p.optional = .forbidden) (hargs : p.args = 1)
    (h : p.match? text = some inv) : ∃ grid, ofText? inv.source = some grid := by
  simp only [Pattern.match?, hkind] at h
  obtain ⟨name, after, a, hcommand, haccepts, ha, hblank, rfl⟩ := Pattern.matchCommand?_iff.1 h
  obtain ⟨hname, hplain⟩ := Pattern.accepts_plain hstar haccepts
  obtain rfl : name = Kind.ytab.name := by simpa [hnames] using hname
  rw [Source.star_of_none hplain] at ha
  obtain ⟨v, hv⟩ := Pattern.spacedBraced?_of_arguments hoptional hargs ha
  have hnone : Source.environment? (Text.trim text) = none :=
    Source.environment?_of_commandName hcommand (by simp [Kind.name])
  apply exists_ofText?
  rw [Text.trim_trim]
  simp only [body?, hnone, ofCommand?, hcommand, hv, if_true, if_pos hblank]
  rfl

end

end Grid

namespace Format

theorem isTable_table : Format.table.isTable = true := by simp [isTable, table]

theorem eq_table_of_isTable {format : Format} (h : format.isTable = true) : format = .table := by
  cases format
  simpa [isTable, table] using h

end Format

namespace Form

def blankContext : FormContext where
  stem := []
  bibliography := ∅
  plainText _ := return []
  blocks _ := return []
  inlines _ := return []

def blankInvocation : Invocation := ⟨[], false, none, [], [], []⟩

def keepsTable (form : Form Block) : Bool :=
  match (form.expand blankContext blankInvocation .empty).1 with
  | .ok (some [.raw format _]) => format.isTable
  | _ => false

def keepsInlineTable (form : Form Inline) : Bool :=
  match (form.expand blankContext blankInvocation .empty).1 with
  | .ok (some [.span _ [.raw format _]]) => format.isTable
  | _ => false

section

variable {p : Pattern}

/-- The forms that keep tables, by their patterns. -/
theorem tableForms_patterns :
    (blockForms.filter keepsTable).map (·.pattern) =
      [(Pattern.environment ["ytableau"]).withOptional .allowed,
        (Pattern.environment ["array", "rtabular"]).withArgs 1,
        (Pattern.command ["ytab"]).withArgs 1] ∧
    (inlineForms.filter keepsInlineTable).map (·.pattern) =
      [(Pattern.command ["ytab"]).withArgs 1] := by decide +kernel

theorem pattern_of_table (h : ⟨p, table⟩ ∈ blockForms) :
    p = (Pattern.environment ["ytableau"]).withOptional .allowed ∨
      p = (Pattern.environment ["array", "rtabular"]).withArgs 1 ∨
      p = (Pattern.command ["ytab"]).withArgs 1 := by
  have hkept : p ∈ (blockForms.filter keepsTable).map (·.pattern) :=
    List.mem_map.2 ⟨_, List.mem_filter.2 ⟨h, Format.isTable_table⟩, rfl⟩
  simpa only [tableForms_patterns.1, List.mem_cons, List.not_mem_nil, or_false] using hkept

theorem pattern_of_inlineTable (h : ⟨p, inlineTable⟩ ∈ inlineForms) :
    p = (Pattern.command ["ytab"]).withArgs 1 := by
  have hkept : p ∈ (inlineForms.filter keepsInlineTable).map (·.pattern) :=
    List.mem_map.2 ⟨_, List.mem_filter.2 ⟨h, Format.isTable_table⟩, rfl⟩
  simpa only [tableForms_patterns.2, List.mem_singleton] using hkept

variable {text : Text} {inv : Invocation}

theorem exists_grid_of_ytab (h : ((Pattern.command ["ytab"]).withArgs 1).match? text = some inv) :
    ∃ grid, Grid.ofText? inv.source = some grid :=
  Grid.exists_of_command rfl rfl rfl rfl rfl h

/-- What a form for tables on their own lines matches is laid out. -/
theorem exists_grid_of_table (hp : ⟨p, table⟩ ∈ blockForms) (h : p.match? text = some inv) :
    ∃ grid, Grid.ofText? inv.source = some grid := by
  rcases pattern_of_table hp with rfl | rfl | rfl
  · refine Grid.exists_of_environment rfl rfl h fun e a hname _ => ?_
    have hname : e.name = Grid.Kind.ytableau.name := List.mem_singleton.1 hname
    simp [Grid.ofEnvironment?, hname]
  · refine Grid.exists_of_environment rfl rfl h fun e a hname ha => ?_
    obtain ⟨v, hv⟩ := Pattern.spacedBraced?_of_arguments rfl rfl ha
    have hname : e.name = Grid.Kind.array.name ∨ e.name = Grid.Kind.rtabular.name :=
      List.mem_pair.1 hname
    rcases hname with hname | hname <;>
      simp [Grid.ofEnvironment?, hname, hv, Grid.Kind.name]
  · exact exists_grid_of_ytab h

/-- What the form for tables in running text matches is laid out. -/
theorem exists_grid_of_inlineTable (hp : ⟨p, inlineTable⟩ ∈ inlineForms)
    (h : p.match? text = some inv) : ∃ grid, Grid.ofText? inv.source = some grid := by
  rw [pattern_of_inlineTable hp] at h
  exact exists_grid_of_ytab h

end

end Form

def TreeNode.table? : TreeNode → Option Text
  | .inline (.raw format t) => if format.isTable then some t else none
  | .block (.raw format t) => if format.isTable then some t else none
  | _ => none

theorem RawOrigin.exists_grid {tables : Pattern → Prop} {texts : Text → Prop} {format : Format}
    {t : Text} (h : RawOrigin tables texts format t) (hformat : format.isTable = true)
    (htables : ∀ p text inv, tables p → p.match? text = some inv →
      ∃ grid, Grid.ofText? inv.source = some grid) : ∃ grid, Grid.ofText? t = some grid := by
  cases h with
  | tex htex _ =>
    rw [Format.eq_table_of_isTable hformat, Format.isTex_table] at htex
    cases htex
  | table hp _ hmatch => exact htables _ _ _ hp hmatch

/-- A table in the tree of a page is laid out, whatever the site. -/
theorem TreeNode.HasOrigin.exists_grid {bib : Bibliography} {texts : Text → Prop} {node : TreeNode}
    (h : node.HasOrigin bib texts) {t : Text} (ht : node.table? = some t) :
    ∃ grid, Grid.ofText? t = some grid := by
  unfold TreeNode.table? at ht
  split at ht
  · obtain ⟨hformat, ht⟩ := Option.ite_none_right_eq_some.1 ht
    cases ht
    exact RawOrigin.exists_grid h hformat fun _ _ _ => Form.exists_grid_of_inlineTable
  · obtain ⟨hformat, ht⟩ := Option.ite_none_right_eq_some.1 ht
    cases ht
    exact RawOrigin.exists_grid h hformat fun _ _ _ => Form.exists_grid_of_table
  · cases ht

theorem TreeNode.problems_of_table {node : TreeNode} {t : Text} (ht : node.table? = some t)
    (hgrid : ∃ grid, Grid.ofText? t = some grid) (ctx : LayoutContext) :
    node.problems ctx = [] := by
  obtain ⟨grid, hgrid⟩ := hgrid
  unfold TreeNode.table? at ht
  split at ht
  all_goals first
    | cases ht
    | obtain ⟨hformat, ht⟩ := Option.ite_none_right_eq_some.1 ht
      cases ht
      simp [TreeNode.problems, Layout.rawProblems, Layout.tableProblems, hformat, hgrid]

/-- Nodes that have no problems do not count. -/
theorem problems_filter {ctx : LayoutContext} {keep : TreeNode → Bool} {nodes : List TreeNode}
    (h : ∀ node ∈ nodes, keep node = false → node.problems ctx = []) :
    problems ctx (nodes.filter keep) = problems ctx nodes := by
  induction nodes with
  | nil => rfl
  | cons node more ih =>
    rw [List.forall_mem_cons] at h
    by_cases hkeep : keep node = true
    · rw [List.filter_cons_of_pos hkeep, problems_cons, problems_cons, ih h.2]
    · rw [List.filter_cons_of_neg hkeep, problems_cons, ih h.2,
        h.1 (Bool.eq_false_iff.2 hkeep), List.nil_append]

/-- Whatever a form for tables matches is laid out. So every table in the tree of a page is, and the
problems that are found on the page are those of its other nodes. -/
theorem kept_tables_laid_out :
    (∀ (p : Pattern) (text : Text) (inv : Invocation),
      ⟨p, Form.table⟩ ∈ Form.blockForms ∨ ⟨p, Form.inlineTable⟩ ∈ Form.inlineForms →
      p.match? text = some inv → ∃ grid, Grid.ofText? inv.source = some grid) ∧
    ∀ (stem source : Text) (bib : Bibliography) (files files' : Store) (page : Walked),
      walkSource (sourceContext stem bib) source files = (.ok page, files') →
      (∀ node ∈ blockNodes page.artifact.blocks, ∀ t, node.table? = some t →
        ∃ grid, Grid.ofText? t = some grid) ∧
      ∀ site, (Document.body site page.artifact).2 =
        problems (site.layoutContext page.artifact.record.stem)
          ((shownBlocks page.artifact.blocks).filter (·.table?.isNone)) := by
  refine ⟨fun p text inv hp h => ?_, fun stem source bib files files' page h => ?_⟩
  · exact hp.elim (fun hp => Form.exists_grid_of_table hp h)
      fun hp => Form.exists_grid_of_inlineTable hp h
  · have htables : ∀ node ∈ blockNodes page.artifact.blocks, ∀ t, node.table? = some t →
        ∃ grid, Grid.ofText? t = some grid := fun node hnode t ht =>
      TreeNode.HasOrigin.exists_grid (((walkPage_origins stem bib source).finish h).2 node hnode) ht
    refine ⟨htables, fun site => ?_⟩
    rw [Document.body_problems]
    refine (problems_filter fun node hnode hkeep => ?_).symm
    obtain ⟨t, ht⟩ := Option.isSome_iff_exists.1 (Option.isNone_eq_false_iff.1 hkeep)
    exact TreeNode.problems_of_table ht
      (htables node ((shownBlocks_sublist _).subset hnode) t ht) _

def keptTable : Text := "\\ytab\x7b1 & 2\x7d"

/-- The table is laid out, and no problem is found on a page with nothing else. -/
theorem kept_tables_laid_out_keptTable :
    (∃ inv, ((Pattern.command ["ytab"]).withArgs 1).match? keptTable = some inv ∧
      ∃ grid, Grid.ofText? inv.source = some grid) ∧
    ∃ page files', walkSource (sourceContext "p" ∅) keptTable .empty = (.ok page, files') ∧
      (blockNodes page.artifact.blocks).any (·.table?.isSome) ∧
      ∀ site, (Document.body site page.artifact).2 = [] := by
  have hwalk : (match (walkSource (sourceContext "p" ∅) keptTable .empty).1 with
    | .ok page => (blockNodes page.artifact.blocks).any (·.table?.isSome) &&
        ((shownBlocks page.artifact.blocks).filter (·.table?.isNone)).isEmpty
    | .error _ => false) = true := by decide +kernel
  constructor
  · have hmatch : ((Pattern.command ["ytab"]).withArgs 1).match? keptTable =
        some ⟨"ytab", false, none, ["1 & 2"], [], keptTable⟩ := by decide +kernel
    refine ⟨_, hmatch, ?_⟩
    exact kept_tables_laid_out.1 _ keptTable _ (.inl (by simp [Form.blockForms])) hmatch
  · rcases hpage : walkSource (sourceContext "p" ∅) keptTable .empty with ⟨r, files'⟩
    rw [hpage] at hwalk
    cases r with
    | error e => cases hwalk
    | ok page =>
      rw [Bool.and_eq_true, List.isEmpty_iff] at hwalk
      refine ⟨page, files', rfl, hwalk.1, fun site => ?_⟩
      rw [(kept_tables_laid_out.2 "p" keptTable ∅ .empty files' page hpage).2 site, hwalk.2,
        problems_nil]

end TexCatalog
