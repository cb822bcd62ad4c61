import TexCatalog.Proofs.BalancedBodies
import TexCatalog.Proofs.PageMarkup
import TexCatalog.Proofs.TrimmedText

/-!
# Filled templates

The slots of a template are found once, from the left and apart from each other, before anything is
put in. So a filled template is the template with its slots replaced and the rest kept, whatever the
values are, and a page shows its body as it is, also where the body spells a slot.
-/

namespace TexCatalog

namespace Template

def IsSlot (name spelling : Text) : Prop :=
  name ≠ [] ∧ (∀ c ∈ name, isNameChar c) ∧ ∃ before after : Text,
    (∀ c ∈ before, c.isBlank) ∧ (∀ c ∈ after, c.isBlank) ∧
    spelling = slotOpening ++ before ++ name ++ after ++ slotClosing

structure Part where
  gap : Text
  name : Text
  spelling : Text

def Part.fill (values : TextMap Text) (p : Part) : Text :=
  p.gap ++ (values.get? p.name).getD p.spelling

/-- A text is cut at its slots: each part has the leftmost slot of what is left by the parts in
front of it, and no slot stands in the text behind the last part. -/
inductive CutAtSlots : Text → List Part → Text → Prop
  | last {s : Text} (hnone : ∀ name spelling, IsSlot name spelling → ¬spelling <:+: s) :
      CutAtSlots s [] s
  | next {s rest last : Text} {p : Part} {parts : List Part}
      (hs : s = p.gap ++ (p.spelling ++ rest)) (hslot : IsSlot p.name p.spelling)
      (hleft : ∀ front name spelling back, IsSlot name spelling →
        s = front ++ (spelling ++ back) → p.gap.length ≤ front.length)
      (more : CutAtSlots rest parts last) : CutAtSlots s (p :: parts) last

/-! ### The slot at a place -/

theorem not_isBlank_of_isNameChar {c : Char} (h : isNameChar c) : ¬c.isBlank := by
  rw [isNameChar, Bool.or_eq_true, beq_iff_eq] at h
  rcases h with hletter | rfl
  · exact fun hblank => Source.not_isAlpha_of_isBlank hblank hletter
  · decide

theorem not_isNameChar_of_isBlank {c : Char} (h : c.isBlank) : ¬isNameChar c :=
  fun hname => not_isBlank_of_isNameChar hname h

/-- A slot at the start of a text is read off it, and nothing else is. -/
theorem slot?_eq_some_iff {s name rest : Text} :
    slot? s = some (name, rest) ↔ ∃ spelling, IsSlot name spelling ∧ s = spelling ++ rest := by
  constructor
  · intro h
    simp only [slot?, Option.bind_eq_bind, Option.bind_eq_some_iff] at h
    obtain ⟨inner, hinner, behind, hbehind, hname⟩ := h
    split at hname
    · cases hname
    · next hne =>
      cases hname
      rw [Text.isPrefixOf?_eq_some] at hinner hbehind
      refine ⟨_, ⟨hne, fun c hc => List.mem_takeWhile_imp hc,
        inner.takeWhile Char.isBlank, ((Text.trimStart inner).dropWhile isNameChar).takeWhile
          Char.isBlank, fun c hc => List.mem_takeWhile_imp hc,
        fun c hc => List.mem_takeWhile_imp hc, rfl⟩, ?_⟩
      have hafter : ((Text.trimStart inner).dropWhile isNameChar).takeWhile Char.isBlank ++
          (slotClosing ++ rest) = (Text.trimStart inner).dropWhile isNameChar := by
        rw [← hbehind]
        exact List.takeWhile_append_dropWhile
      simp only [List.append_assoc, hafter, List.takeWhile_append_dropWhile]
      rw [hinner, Text.trimStart, List.takeWhile_append_dropWhile]
  · rintro ⟨spelling, ⟨hne, hname, before, after, hbefore, hafter, rfl⟩, rfl⟩
    have hopened : slotOpening.isPrefixOf?
        (slotOpening ++ before ++ name ++ after ++ slotClosing ++ rest) =
          some (before ++ (name ++ (after ++ (slotClosing ++ rest)))) := by
      rw [Text.isPrefixOf?_eq_some]
      simp only [List.append_assoc]
    have hstart : Text.trimStart (before ++ (name ++ (after ++ (slotClosing ++ rest)))) =
        name ++ (after ++ (slotClosing ++ rest)) := by
      obtain ⟨c, more, rfl⟩ := List.exists_cons_of_ne_nil hne
      rw [Text.trimStart_blanks hbefore]
      exact List.dropWhile_cons_of_neg
        (not_isBlank_of_isNameChar (hname c (List.mem_cons_self ..)))
    obtain ⟨c, more, hmore, hc⟩ : ∃ c more, after ++ (slotClosing ++ rest) = c :: more ∧
        ¬isNameChar c := by
      cases after with
      | nil => exact ⟨'}', '}' :: rest, rfl, by decide⟩
      | cons c after =>
        exact ⟨c, _, rfl, not_isNameChar_of_isBlank (hafter c (List.mem_cons_self ..))⟩
    have htake : (name ++ (after ++ (slotClosing ++ rest))).takeWhile isNameChar = name := by
      rw [hmore]
      exact Source.takeWhile_append_cons hname hc
    have hdrop : (name ++ (after ++ (slotClosing ++ rest))).dropWhile isNameChar =
        after ++ (slotClosing ++ rest) := by
      rw [hmore]
      exact Source.dropWhile_append_cons hname hc
    have hclosing : Text.trimStart (slotClosing ++ rest) = slotClosing ++ rest :=
      List.dropWhile_cons_of_neg (by decide)
    have hclosed : slotClosing.isPrefixOf? (slotClosing ++ rest) = some rest :=
      Text.isPrefixOf?_eq_some.2 rfl
    simp only [slot?, hopened, hstart, htake, hdrop, Text.trimStart_blanks hafter, hclosing,
      hclosed, Option.bind_eq_bind, Option.bind_some, if_neg hne]

theorem slot?_eq_none_iff {s : Text} :
    slot? s = none ↔ ∀ name spelling, IsSlot name spelling → ¬spelling <+: s := by
  rw [Option.eq_none_iff_forall_ne_some]
  constructor
  · rintro h name spelling hslot ⟨rest, rfl⟩
    exact h (name, rest) (slot?_eq_some_iff.2 ⟨spelling, hslot, rfl⟩)
  · rintro h ⟨name, rest⟩ hsome
    obtain ⟨spelling, hslot, rfl⟩ := slot?_eq_some_iff.1 hsome
    exact h name spelling hslot (List.prefix_append ..)

theorem IsSlot.ne_nil {name spelling : Text} (h : IsSlot name spelling) : spelling ≠ [] := by
  obtain ⟨_, _, before, after, _, _, rfl⟩ := h
  simp [slotOpening]

/-- One slot only stands at a place. -/
theorem IsSlot.unique {name name' spelling spelling' rest rest' : Text}
    (h : IsSlot name spelling) (h' : IsSlot name' spelling')
    (heq : spelling ++ rest = spelling' ++ rest') :
    name = name' ∧ spelling = spelling' ∧ rest = rest' := by
  have hread : slot? (spelling ++ rest) = some (name, rest) :=
    slot?_eq_some_iff.2 ⟨spelling, h, rfl⟩
  rw [slot?_eq_some_iff.2 ⟨spelling', h', heq⟩] at hread
  cases hread
  exact ⟨rfl, List.append_cancel_right heq, rfl⟩

/-! ### The cut of a template -/

theorem CutAtSlots.unique {s last last' : Text} {parts parts' : List Part}
    (h : CutAtSlots s parts last) (h' : CutAtSlots s parts' last') :
    parts' = parts ∧ last' = last := by
  induction h generalizing parts' with
  | last hnone =>
    cases h' with
    | last => exact ⟨rfl, rfl⟩
    | next hs hslot =>
      subst hs
      exact absurd (List.infix_append' ..) (hnone _ _ hslot)
  | @next s rest last p parts hs hslot hleft _ ih =>
    cases h' with
    | last hnone =>
      subst hs
      exact absurd (List.infix_append' ..) (hnone _ _ hslot)
    | @next _ rest' _ p' parts' hs' hslot' hleft' more' =>
      have hlength : p.gap.length = p'.gap.length :=
        Nat.le_antisymm (hleft _ _ _ _ hslot' hs') (hleft' _ _ _ _ hslot hs)
      obtain ⟨hgap, hback⟩ := List.append_inj (hs.symm.trans hs') hlength
      obtain ⟨hname, hspelling, rfl⟩ := hslot.unique hslot' hback
      obtain ⟨rfl, rfl⟩ := ih more'
      obtain ⟨gap, name, spelling⟩ := p
      cases hgap
      cases hname
      cases hspelling
      exact ⟨rfl, rfl⟩

def Part.pieces (p : Part) : List Piece := p.gap.map .char ++ [.slot p.name p.spelling]

/-- A character in front of a text that begins no slot goes to the first gap. -/
theorem CutAtSlots.char {c : Char} {s last : Text} {parts : List Part}
    (hnone : slot? (c :: s) = none) (h : CutAtSlots s parts last) :
    ∃ parts' last', CutAtSlots (c :: s) parts' last' ∧
      parts'.flatMap Part.pieces ++ last'.map .char =
        .char c :: (parts.flatMap Part.pieces ++ last.map .char) := by
  rw [slot?_eq_none_iff] at hnone
  cases h with
  | last hmore =>
    refine ⟨[], c :: s, .last fun name spelling hslot hinfix => ?_, rfl⟩
    rcases List.infix_cons_iff.1 hinfix with hhere | hlater
    · exact hnone name spelling hslot hhere
    · exact hmore name spelling hslot hlater
  | @next _ rest _ p parts hs hslot hleft more =>
    refine ⟨⟨c :: p.gap, p.name, p.spelling⟩ :: parts, last,
      .next (congrArg (c :: ·) hs) hslot ?_ more, rfl⟩
    intro front name spelling back hother hcut
    cases front with
    | nil => exact absurd ⟨back, hcut.symm⟩ (hnone name spelling hother)
    | cons d front => exact Nat.succ_le_succ (hleft front name spelling back hother (by
        simpa using (List.cons.inj hcut).2))

/-- The pieces of a template are those of its cut. -/
theorem exists_cutAtSlots (s : Text) : ∃ parts last, CutAtSlots s parts last ∧
    pieces s = parts.flatMap Part.pieces ++ last.map .char := by
  fun_induction pieces s with
  | case1 =>
    refine ⟨[], [], .last fun name spelling hslot hinfix => ?_, rfl⟩
    exact hslot.ne_nil (List.infix_nil.1 hinfix)
  | case2 c s name rest hslot ih =>
    obtain ⟨parts, last, hcut, hpieces⟩ := ih
    obtain ⟨spelling, hspelling, hs⟩ := slot?_eq_some_iff.1 hslot
    have htake : (c :: s).take ((c :: s).length - rest.length) = spelling := by
      rw [hs, List.length_append, Nat.add_sub_cancel, List.take_left]
    refine ⟨⟨[], name, spelling⟩ :: parts, last,
      .next hs hspelling (fun _ _ _ _ _ _ => Nat.zero_le _) hcut, ?_⟩
    rw [htake, hpieces]
    rfl
  | case3 c s hnone ih =>
    obtain ⟨parts, last, hcut, hpieces⟩ := ih
    obtain ⟨parts', last', hcut', hpieces'⟩ := hcut.char hnone
    exact ⟨parts', last', hcut', by rw [hpieces, hpieces']⟩

/-! ### Values in the slots -/

theorem flatMap_fill_char (values : TextMap Text) (s : Text) :
    (s.map Piece.char).flatMap (Piece.fill values) = s := by
  induction s with
  | nil => rfl
  | cons c s ih => exact congrArg (c :: ·) ih

theorem Part.flatMap_fill_pieces (values : TextMap Text) (p : Part) :
    p.pieces.flatMap (Piece.fill values) = p.fill values := by
  rw [Part.pieces, List.flatMap_append, flatMap_fill_char, List.flatMap_singleton]
  rfl

theorem any_hasName_char (name s : Text) :
    (s.map Piece.char).any (Piece.hasName name) = false := by
  simp [Piece.hasName]

section

variable {t : Template} {parts : List Part} {last : Text}
  (hpieces : pieces t.source = parts.flatMap Part.pieces ++ last.map .char)

include hpieces

theorem fill_of_pieces (values : TextMap Text) :
    t.fill values = parts.flatMap (Part.fill values) ++ last := by
  rw [fill, hpieces, List.flatMap_append, flatMap_fill_char, List.flatMap_assoc]
  simp only [Part.flatMap_fill_pieces]

theorem hasSlot_of_pieces (name : Text) : t.hasSlot name = true ↔ ∃ p ∈ parts, p.name = name := by
  rw [hasSlot, hpieces, List.any_append, any_hasName_char, Bool.or_false, List.any_flatMap]
  simp [Part.pieces, Piece.hasName]

end

section

variable (values : TextMap Text) (name : Text) {a b : Text}

theorem length_fill_le (h : a.length ≤ b.length) (p : Part) :
    (p.fill (values.insert name a)).length ≤ (p.fill (values.insert name b)).length := by
  simp only [Part.fill, TextMap.get?_insert]
  split
  · simpa using h
  · exact le_rfl

theorem length_flatMap_fill_le (h : a.length ≤ b.length) (parts : List Part) :
    (parts.flatMap (Part.fill (values.insert name a))).length ≤
      (parts.flatMap (Part.fill (values.insert name b))).length := by
  induction parts with
  | nil => exact le_rfl
  | cons p parts ih =>
    rw [List.flatMap_cons, List.flatMap_cons, List.length_append, List.length_append]
    exact Nat.add_le_add (length_fill_le values name h p) ih

/-- Longer values make no part shorter. So where the whole text is the same, each part is. -/
theorem fill_eq_of_flatMap_fill_eq (h : a.length ≤ b.length) {parts : List Part}
    (heq : parts.flatMap (Part.fill (values.insert name a)) =
      parts.flatMap (Part.fill (values.insert name b))) :
    ∀ p ∈ parts, p.fill (values.insert name a) = p.fill (values.insert name b) := by
  induction parts with
  | nil => simp
  | cons p parts ih =>
    rw [List.flatMap_cons, List.flatMap_cons] at heq
    have hlength := congrArg List.length heq
    rw [List.length_append, List.length_append] at hlength
    have hp := length_fill_le values name h p
    have hparts := length_flatMap_fill_le values name h parts
    obtain ⟨hhere, hmore⟩ := List.append_inj heq (by omega)
    exact List.forall_mem_cons.2 ⟨hhere, ih hmore⟩

/-- A template shows which value the slots of a name have just where it has such slots. -/
theorem exists_name_iff_fill_ne (h : a ≠ b) (parts : List Part) (last : Text) :
    (∃ p ∈ parts, p.name = name) ↔
      parts.flatMap (Part.fill (values.insert name a)) ++ last ≠
        parts.flatMap (Part.fill (values.insert name b)) ++ last := by
  constructor
  · rintro ⟨p, hp, rfl⟩ heq
    have hparts := List.append_cancel_right heq
    have hfill : p.fill (values.insert p.name a) = p.fill (values.insert p.name b) := by
      rcases Nat.le_total a.length b.length with hle | hle
      · exact fill_eq_of_flatMap_fill_eq values p.name hle hparts p hp
      · exact (fill_eq_of_flatMap_fill_eq values p.name hle hparts.symm p hp).symm
    apply h
    simpa [Part.fill, TextMap.get?_insert] using hfill
  · intro hne
    by_contra hnone
    refine hne (congrArg (· ++ last) (List.flatMap_congr fun p hp => ?_))
    have hname : name ≠ p.name := fun hname => hnone ⟨p, hp, hname.symm⟩
    simp [Part.fill, TextMap.get?_insert, hname]

end

/-- A value is in the filled template as it is. -/
theorem infix_fill {t : Template} {values : TextMap Text} {name value : Text}
    (hslot : t.hasSlot name = true) (hvalue : values.get? name = some value) :
    value <:+: t.fill values := by
  obtain ⟨piece, hpiece, hname⟩ := List.any_eq_true.1 hslot
  have hvalue : piece.fill values = value := by
    cases piece with
    | char c => cases hname
    | slot n spelling =>
      rw [Piece.hasName, beq_iff_eq] at hname
      rw [hname]
      simp only [Piece.fill, hvalue, Option.getD_some]
  rw [← hvalue, fill, List.flatMap_def]
  exact List.infix_of_mem_flatten (List.mem_map_of_mem hpiece)

theorem ofText_eq_ok_iff {path s : Text} {t : Template} :
    ofText path s = .ok t ↔ t = ⟨s⟩ ∧ t.hasSlot "body" = true := by
  rw [ofText]
  split
  · next h =>
    rw [Except.ok.injEq]
    exact ⟨fun heq => ⟨heq.symm, heq ▸ h⟩, fun heq => heq.1.symm⟩
  · next h =>
    refine ⟨nofun, fun heq => absurd (heq.1 ▸ heq.2) h⟩

end Template

namespace Document

theorem text_of_make {site : SiteContext} {a : Artifact} {d : Document} (h : make site a = .ok d) :
    ∃ references, d.text = site.template.fill (slots site a references) := by
  unfold make at h
  split at h
  · cases h
  · next references _ =>
    cases h
    exact ⟨references, rfl⟩

end Document

namespace Template

open Html

/-- A template is filled in one pass: it is cut at its slots in one way, whatever is put in, and the
filled template has the values in place of the slots and all else as it was. It has slots of a name
just when the values of that name show, and a page whose template can be read shows its body. -/
theorem filled_in_one_pass (t : Template) : ∃ parts last,
    (∀ parts' last', CutAtSlots t.source parts' last' ↔ parts' = parts ∧ last' = last) ∧
    (∀ values, t.fill values = parts.flatMap (Part.fill values) ++ last) ∧
    (∀ (name : Text) (values : TextMap Text) (a b : Text), a ≠ b → (t.hasSlot name = true ↔
      t.fill (values.insert name a) ≠ t.fill (values.insert name b))) ∧
    ∀ path site artifact document, ofText path t.source = .ok site.template →
      Document.make site artifact = .ok document →
      printAll (Document.body site artifact).1 <:+: document.text := by
  obtain ⟨parts, last, hcut, hpieces⟩ := exists_cutAtSlots t.source
  have hfill := fill_of_pieces hpieces
  refine ⟨parts, last, fun parts' last' => ?_, hfill, ?_, ?_⟩
  · constructor
    · exact fun h => hcut.unique h
    · rintro ⟨rfl, rfl⟩
      exact hcut
  · intro name values a b hne
    rw [hasSlot_of_pieces hpieces, hfill, hfill]
    exact exists_name_iff_fill_ne values name hne parts last
  · intro path site artifact document hread hmake
    obtain ⟨references, htext⟩ := Document.text_of_make hmake
    rw [htext]
    exact infix_fill (ofText_eq_ok_iff.1 hread).2
      (Document.get?_slots_body site artifact references)

/-- A site with the title of a page in front of its body. -/
def titledSite : SiteContext :=
  { Document.bareSite with template := ⟨"\x7b\x7b title \x7d\x7d: " ++ slot "body"⟩ }

/-- A page whose title spells the slot of the body, and whose body spells the slot of the title. -/
def spellingPage : Artifact where
  record := { stem := "p", title := some (slot "body") }
  blocks := [.para [.text (slot "title")]]

/-- The page shows both slots that its texts spell, and the template shows what its title is. -/
theorem filled_in_one_pass_spellingPage :
    titledSite.template.fill (TextMap.insert ∅ "title" "a") ≠
      titledSite.template.fill (TextMap.insert ∅ "title" "b") ∧
    ∃ d, Document.make titledSite spellingPage = .ok d ∧
      d.text = slot "body" ++ ": <p>" ++ slot "title" ++ "</p>\n" ∧
      printAll (Document.body titledSite spellingPage).1 <:+: d.text := by
  have htext : (match Document.make titledSite spellingPage with
    | .ok d => decide (d.text = slot "body" ++ ": <p>" ++ slot "title" ++ "</p>\n")
    | .error _ => false) = true := by decide +kernel
  have hread : ofText "t.html" titledSite.template.source = .ok titledSite.template :=
    ofText_eq_ok_iff.2 ⟨rfl, by decide +kernel⟩
  obtain ⟨parts, last, _, _, hshows, hpages⟩ := filled_in_one_pass titledSite.template
  refine ⟨(hshows "title" ∅ "a" "b" (by simp)).1 (by decide +kernel), ?_⟩
  rcases hd : Document.make titledSite spellingPage with e | d
  · rw [hd] at htext
    cases htext
  · rw [hd] at htext
    exact ⟨d, rfl, of_decide_eq_true htext, hpages "t.html" titledSite spellingPage d hread hd⟩

end Template

end TexCatalog
