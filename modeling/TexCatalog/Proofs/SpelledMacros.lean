import TexCatalog.Proofs.CommandTexts

/-!
# Macros in running text

A macro, which is a command that running text has no node for, with its star and its groups, comes
back from running text as a raw node with its own text. Its name and its groups end in front of what
may stand behind it, and inside an argument its groups close the braces that they open. So the nodes
around it are those that are read without it. Canonical running text is the case without macros.
-/

namespace TexCatalog

namespace Source

open Text

inductive IsGroup : Text → Prop
  | brackets {t : Text} : Bracketed t → Closed t → IsGroup ('[' :: (t ++ [']']))
  | braces {t : Text} : Closed t → IsGroup ('{' :: (t ++ ['}']))

inductive IsMacro : Text → Prop
  | command {name : Text} (starred : Bool) (parts : List Text) : name ≠ [] →
    (∀ c ∈ name, c.isAlpha) → name ≠ "begin" → name ∉ nativeCommands → (∀ g ∈ parts, IsGroup g) →
    IsMacro ('\\' :: (name ++ (stars starred ++ parts.flatten)))

mutual

def spellNode : Inline → Text
  | .raw _ t => t
  | .styled style content => spellCommand (styleCommand style) (spellNodes content)
  | .link _ content target =>
    spellCommand "href" target.url ++ '{' :: (spellNodes content ++ ['}'])
  | node => spellInline node

def spellNodes : List Inline → Text
  | [] => []
  | node :: more => spellNode node ++ spellNodes more

end

section

variable {p : Place} {node : Inline} {nodes : List Inline}

theorem Place.Leaf.spellNode_eq (h : p.Leaf node) : spellNode node = spellInline node := by
  cases h <;> rfl

theorem CanonicalInlines.spellNodes_eq (h : CanonicalInlines p nodes) :
    spellNodes nodes = spellInlines nodes := by
  induction h with
  | nil => rw [spellNodes, spellInlines]
  | leaf hleaf _ _ ih => rw [spellNodes, spellInlines, hleaf.spellNode_eq, ih]
  | styled _ _ _ _ ihcontent ih =>
    rw [spellNodes, spellInlines, spellNode, spellInline, ihcontent, ih]
  | link _ _ _ _ _ ihcontent ih =>
    rw [spellNodes, spellInlines, spellNode, spellInline, ihcontent, ih]

end

/-- Running text with macros that can be read again from its spelling. Directly behind a macro
stands no plain text. -/
inductive MacroInlines : Place → List Inline → Prop
  | nil {p : Place} : MacroInlines p []
  | leaf {p : Place} {node : Inline} {more : List Inline} : p.Leaf node → p.Meets node more →
    MacroInlines p more → MacroInlines p (node :: more)
  | styled {p : Place} (style : Style) {content more : List Inline} :
    MacroInlines p.argument content → p.Meets (.styled style content) more →
    MacroInlines p more → MacroInlines p (.styled style content :: more)
  | link {p : Place} {url : Text} {content more : List Inline} : Closed url → p.Admits '}' url →
    MacroInlines p.argument content → p.Meets (.link .empty content ⟨url, []⟩) more →
    MacroInlines p more → MacroInlines p (.link .empty content ⟨url, []⟩ :: more)
  | command {p : Place} {u : Text} {more : List Inline} : IsMacro u →
    (∀ t, more.head? ≠ some (.text t)) → MacroInlines p more → MacroInlines p (.raw .tex u :: more)

/-! ### Groups -/

section

variable {g u r : Text} {parts : List Text}

theorem IsGroup.group? (h : IsGroup g) (r : Text) : group? (g ++ r) = some (g, r) := by
  cases h with
  | @brackets t hbrackets =>
    have hread := hbrackets.bracketed? r
    rw [List.cons_append, List.append_assoc, List.singleton_append, Source.group?, hread]
    rfl
  | @braces t hclosed =>
    have hnone : bracketed? ('{' :: (t ++ '}' :: r)) = none := by simp [bracketed?]
    rw [List.cons_append, List.append_assoc, List.singleton_append, Source.group?, hnone,
      hclosed.braced?]
    rfl

theorem IsGroup.head (h : IsGroup g) (r : Text) :
    ∀ c ∈ (g ++ r).head?, c ∈ ['[', '{'] := by
  cases h with
  | _ =>
    rintro _ ⟨rfl⟩
    decide

theorem IsGroup.passesBraces (h : IsGroup g) : PassesBraces g := by
  cases h with
  | brackets _ hclosed =>
    exact .cons (by simp) (hclosed.passesBraces.append (.of_plain (by simp)))
  | braces hclosed => exact hclosed.passesBraces.group

/-- What plain text ends in front of does not go on with a command. -/
theorem EndsRun.not_command (hr : EndsRun r) :
    ∀ c ∈ r.head?, ¬c.isAlpha ∧ c ∉ ['*', '[', '{'] := by
  intro c hc
  rcases hr c hc with hblank | hmark
  · refine ⟨not_isAlpha_of_isBlank hblank, fun hmem => ?_⟩
    simp only [List.mem_cons, List.not_mem_nil, or_false] at hmem
    rcases hmem with rfl | rfl | rfl <;> exact absurd hblank (by decide)
  · simp only [ofString_eq, String.reduceToList, List.mem_cons, List.not_mem_nil,
      or_false] at hmark
    rcases hmark with rfl | rfl <;> decide

theorem EndsRun.group? (hr : EndsRun r) : group? r = none := by
  cases r with
  | nil => rfl
  | cons c r =>
    have hc := (hr.not_command c rfl).2
    simp only [List.mem_cons, List.not_mem_nil, or_false, not_or] at hc
    simp [Source.group?, bracketed?, Source.braced?, hc]

theorem groups_of_none (h : group? r = none) : groups r = ([], r) := by
  rw [groups]
  split <;> simp_all

theorem groups_of_some {s : Text} (h : group? s = some (g, r)) : groups s = onto g (groups r) := by
  rw [groups]
  split <;> simp_all

/-- The groups behind a command are its own, as far as they go. -/
theorem groups_flatten (h : ∀ g ∈ parts, IsGroup g) (hr : EndsRun r) :
    groups (parts.flatten ++ r) = (parts.flatten, r) := by
  induction parts with
  | nil =>
    rw [List.flatten_nil, List.nil_append, groups_of_none hr.group?]
  | cons g parts ih =>
    obtain ⟨hg, hparts⟩ := List.forall_mem_cons.1 h
    rw [List.flatten_cons, List.append_assoc, groups_of_some (hg.group? _), ih hparts]
    rfl

theorem parts_head (h : ∀ g ∈ parts, IsGroup g) (hr : EndsRun r) :
    ∀ c ∈ (parts.flatten ++ r).head?, ¬c.isAlpha ∧ c ≠ '*' := by
  cases parts with
  | nil =>
    intro c hc
    obtain ⟨halpha, hmark⟩ := hr.not_command c hc
    refine ⟨halpha, ?_⟩
    rintro rfl
    exact hmark (by decide)
  | cons g parts =>
    rw [List.flatten_cons, List.append_assoc]
    intro c hc
    have hmark := (h g (List.mem_cons_self ..)).head _ c hc
    simp only [List.mem_cons, List.not_mem_nil, or_false] at hmark
    rcases hmark with rfl | rfl <;> decide

/-! ### Macros -/

/-- A macro is read as far as it goes, whatever may stand behind it. -/
theorem IsMacro.next? (h : IsMacro u) (hr : EndsRun r) :
    Token.next? (u ++ r) = some (.nodes [.raw .tex u], r) := by
  cases h with
  | @command name starred parts hne hletters hbegin hnative hparts =>
    obtain ⟨hname, hstar⟩ := commandName?_starred starred hne hletters (parts_head hparts hr)
    have hraw : rawCommand? ('\\' :: (name ++ (stars starred ++ (parts.flatten ++ r)))) =
        some ('\\' :: (name ++ (stars starred ++ parts.flatten)), r) := by
      simp only [rawCommand?, hname, hstar, groups_flatten hparts hr]
      simp [onto, stars]
    rw [List.cons_append, List.append_assoc, List.append_assoc]
    exact next?_rawCommand hname hbegin hnative hraw

theorem IsMacro.passesBraces (h : IsMacro u) : PassesBraces u := by
  cases h with
  | @command name starred parts hne hletters _ _ hparts =>
    obtain ⟨c, more, rfl⟩ := List.exists_cons_of_ne_nil hne
    have hname : PassesBraces ('\\' :: c :: more) :=
      (PassesBraces.escaped c).append
        (.of_letters fun d hd => hletters d (List.mem_cons_of_mem c hd))
    have hstars : PassesBraces (stars starred) := by
      cases starred with
      | true => exact .of_plain (by simp [stars])
      | false => exact .nil
    have hgroups : PassesBraces parts.flatten := by
      clear hletters
      induction parts with
      | nil => exact .nil
      | cons g parts ih =>
        obtain ⟨hg, hparts⟩ := List.forall_mem_cons.1 hparts
        rw [List.flatten_cons]
        exact hg.passesBraces.append (ih hparts)
    exact hname.append (hstars.append hgroups)

theorem IsMacro.starts (h : IsMacro u) : ∃ s, u = '\\' :: s := by
  cases h with
  | command => exact ⟨_, rfl⟩

end

/-! ### Running text -/

section

variable {p : Place} {node : Inline} {more nodes : List Inline}

theorem MacroInlines.beginsAs (h : MacroInlines p nodes) : BeginsAs nodes (spellNodes nodes) := by
  cases h with
  | nil => rw [spellNodes, BeginsAs]
  | leaf hleaf =>
    obtain ⟨c, s, hspell, hstarts⟩ := hleaf.starts
    rw [spellNodes, hleaf.spellNode_eq, hspell]
    exact ⟨c, _, rfl, hstarts⟩
  | styled =>
    rw [spellNodes, spellNode]
    exact ⟨'\\', _, rfl, by simp [Starts]⟩
  | link =>
    rw [spellNodes, spellNode]
    exact ⟨'\\', _, rfl, by simp [Starts]⟩
  | command hu =>
    obtain ⟨s, rfl⟩ := hu.starts
    rw [spellNodes, spellNode]
    exact ⟨'\\', _, rfl, by simp [Starts]⟩

/-- In an argument, running text with macros closes the braces that it opens. -/
theorem MacroInlines.passesBraces (h : MacroInlines p nodes) (hp : p.grouped) :
    PassesBraces (spellNodes nodes) := by
  induction h with
  | nil =>
    rw [spellNodes]
    exact .nil
  | leaf hleaf _ _ ih =>
    rw [spellNodes, hleaf.spellNode_eq]
    exact (hleaf.passesBraces hp).append (ih hp)
  | styled style _ _ _ ihcontent ih =>
    rw [spellNodes, spellNode]
    exact (PassesBraces.command (styleCommand_mem style) (ihcontent rfl)).append (ih hp)
  | link hurl _ _ _ _ ihcontent ih =>
    rw [spellNodes, spellNode]
    refine .append (.append (.command (by simp [inlineCommands]) hurl.passesBraces) ?_) (ih hp)
    exact (ihcontent rfl).group
  | command hu _ _ ih =>
    rw [spellNodes, spellNode]
    exact hu.passesBraces.append (ih hp)

theorem MacroInlines.normalize_eq (h : MacroInlines p nodes) : normalize nodes = nodes := by
  induction h with
  | nil => rfl
  | leaf _ hmeets _ ih => exact hmeets.normalize_cons ih
  | styled _ _ hmeets _ _ ih => exact hmeets.normalize_cons ih
  | link _ _ _ hmeets _ _ ih => exact hmeets.normalize_cons ih
  | @command p u more _ _ _ ih =>
    have hmeets : p.Meets (.raw .tex u) more := fun _ _ => trivial
    exact hmeets.normalize_cons ih

theorem MacroInlines.fragments_eq (h : MacroInlines p nodes) :
    fragments (spellNodes nodes) = nodes := by
  induction h with
  | nil =>
    rw [spellNodes]
    exact fragments_nil
  | leaf hleaf hmeets hmore ih =>
    rw [spellNodes, hleaf.spellNode_eq, fragments_nodes (hleaf.next?_eq hmeets hmore.beginsAs), ih]
    rfl
  | styled style hcontent _ _ ihcontent ih =>
    rw [spellNodes, spellNode,
      fragments_nested (next?_styled (hcontent.passesBraces rfl) _ style), readInlines, ihcontent,
      hcontent.normalize_eq, ih]
    rfl
  | link hurl _ hcontent _ _ ihcontent ih =>
    rw [spellNodes, spellNode,
      fragments_nested (next?_link (hcontent.passesBraces rfl) _ hurl.passesBraces),
      readInlines, ihcontent, hcontent.normalize_eq, ih]
    rfl
  | command hu hnext hmore ih =>
    rw [spellNodes, spellNode, fragments_nodes (hu.next? (hmore.beginsAs.endsRun hnext)), ih]
    rfl

/-- Running text with macros is read from its spelling. -/
theorem readInlines_spellNodes (h : MacroInlines p nodes) :
    readInlines (spellNodes nodes) = nodes := by
  rw [readInlines, h.fragments_eq, h.normalize_eq]

end

/-- Macros inside of arguments. The brackets of the second macro hold a bracket in braces. -/
def nestedMacros : List Inline :=
  [.styled .emphasis [.text "a", .space, .raw .tex "\\cite[p.~3]\x7bk\x7d"], .space,
    .link .empty [.raw .tex "\\see*[\x7b]\x7d]"] ⟨"u", []⟩, .raw .tex "\\dots", .math .inline "x"]

theorem readInlines_spellNodes_nestedMacros : MacroInlines ⟨false, false, false⟩ nestedMacros ∧
    readInlines (spellNodes nestedMacros) = nestedMacros := by
  have hcite : IsMacro "\\cite[p.~3]\x7bk\x7d" := by
    have hspelled : ("\\cite[p.~3]\x7bk\x7d" : Text) = '\\' :: ("cite" ++ (stars false ++
        ['[' :: ("p.~3" ++ [']']), '{' :: ("k" ++ ['}'])].flatten)) := by decide +kernel
    rw [hspelled]
    refine .command _ _ (by simp) (by simp) (by simp) (by decide +kernel) ?_
    rw [List.forall_mem_cons, List.forall_mem_singleton]
    constructor
    · exact .brackets (by decide +kernel) (by decide +kernel)
    · exact .braces (by decide +kernel)
  have hsee : IsMacro "\\see*[\x7b]\x7d]" := by
    have hspelled : ("\\see*[\x7b]\x7d]" : Text) = '\\' :: ("see" ++ (stars true ++
        ['[' :: ("\x7b]\x7d" ++ [']'])].flatten)) := by decide +kernel
    rw [hspelled]
    refine .command _ _ (by simp) (by simp) (by simp) (by decide +kernel) ?_
    rw [List.forall_mem_singleton]
    exact .brackets (by decide +kernel) (by decide +kernel)
  have hdots : IsMacro "\\dots" := by
    have hspelled : ("\\dots" : Text) = '\\' :: (("dots" : Text) ++
        (stars false ++ ([] : List Text).flatten)) := by decide +kernel
    rw [hspelled]
    exact .command _ _ (by simp) (by simp) (by simp) (by decide +kernel) (List.forall_mem_nil _)
  have hmeets {p : Place} {node : Inline} : p.Meets node [] := by simp [Place.Meets]
  have hword {p : Place} : p.Leaf (.text "a") := .word (by decide +kernel)
  have hmath : Place.Leaf ⟨false, false, false⟩ (.math .inline "x") :=
    .math (by simp) (by decide +kernel) (by simp) ⟨by simp, by simp⟩
  have hnested : MacroInlines ⟨false, false, false⟩ nestedMacros := by
    refine .styled _ ?_ (by simp [Place.Meets, Place.MayMeet]) ?_
    · refine .leaf hword (by simp [Place.Meets, Place.MayMeet]) ?_
      exact .leaf .space (by simp [Place.Meets, Place.MayMeet]) (.command hcite (by simp) .nil)
    · refine .leaf .space (by simp [Place.Meets, Place.MayMeet]) ?_
      refine .link (by decide +kernel) ⟨by simp, by simp⟩
        (.command hsee (by simp) .nil) (by simp [Place.Meets, Place.MayMeet]) ?_
      exact .command hdots (by simp) (.leaf hmath hmeets .nil)
  exact ⟨hnested, readInlines_spellNodes hnested⟩

/-! ### Running text without macros -/

section

variable {p : Place} {node : Inline} {more nodes : List Inline}

theorem CanonicalInlines.withMacros (h : CanonicalInlines p nodes) : MacroInlines p nodes := by
  induction h with
  | nil => exact .nil
  | leaf hleaf hmeets _ ih => exact .leaf hleaf hmeets ih
  | styled style _ hmeets _ ihcontent ih => exact .styled style ihcontent hmeets ih
  | link hurl hadmits _ hmeets _ ihcontent ih => exact .link hurl hadmits ihcontent hmeets ih

theorem CanonicalInlines.beginsAs (h : CanonicalInlines p nodes) :
    BeginsAs nodes (spellInlines nodes) := by
  rw [← h.spellNodes_eq]
  exact h.withMacros.beginsAs

theorem CanonicalInlines.passesBraces (h : CanonicalInlines p nodes) (hp : p.grouped) :
    PassesBraces (spellInlines nodes) := by
  rw [← h.spellNodes_eq]
  exact h.withMacros.passesBraces hp

/-- Running text is read from its spelling. -/
theorem readInlines_spellInlines (h : CanonicalInlines p nodes) :
    readInlines (spellInlines nodes) = nodes := by
  rw [readInlines, ← h.spellNodes_eq, h.withMacros.fragments_eq, h.withMacros.normalize_eq]

end

end Source

end TexCatalog
