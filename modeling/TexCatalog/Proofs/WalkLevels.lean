import TexCatalog.Proofs.PatternMatches
import TexCatalog.Proofs.SourcePieces
import TexCatalog.Proofs.SourceWalk
import TexCatalog.Proofs.WalkAppend

/-!
# Why walking ends

What a form gives back to the reader is shorter than what it matched, and the raw texts that the
reader makes of it are pieces of it. So the levels of an expander do not show: with enough of them
it is the only expander whose forms walk their arguments with the expander itself. Walking fails
only where the label of a cited entry does.
-/

namespace TexCatalog

theorem Invocation.Within.mono {p q : Text → Prop} {inv : Invocation} (h : inv.Within p)
    (hpq : ∀ text, p text → q text) : inv.Within q :=
  ⟨fun i => hpq _ (h.arg i), hpq _ h.optional, hpq _ h.body⟩

def Text.Inside (t s : Text) : Prop := t <:+: s ∧ t.length < s.length

theorem Text.Inside.of_piece {t u s : Text} (h : t <:+: u) (hu : u.Inside s) : t.Inside s :=
  ⟨h.trans hu.1, Nat.lt_of_le_of_lt h.length_le hu.2⟩

theorem Text.Inside.mono {t u s : Text} (h : t.Inside u) (hu : u <:+: s) : t.Inside s :=
  ⟨h.1.trans hu, Nat.lt_of_lt_of_le h.2 hu.length_le⟩

namespace Pattern

theorem optionalGroup?_pieces {group : OptionalGroup} {s r : Text} {o : Option Text}
    (h : optionalGroup? s group = some (o, r)) : (∀ v ∈ o, v <:+: s) ∧ r <:+: s := by
  have hgroup {v t : Text} (hv : Source.spacedBracketed? s = some (v, t)) :
      (∀ w ∈ some v, w <:+: s) ∧ t <:+: s := by
    have hlayout : Text.dropLayout s <:+: s := (List.dropWhile_suffix _).isInfix
    rw [Source.bracketed?_eq hv] at hlayout
    refine ⟨fun w hw => ?_, List.IsInfix.trans ⟨'[' :: v ++ [']'], [], by simp⟩ hlayout⟩
    cases hw
    exact List.IsInfix.trans ⟨['['], ']' :: t, by simp⟩ hlayout
  have hnone : (∀ v ∈ (none : Option Text), v <:+: s) ∧ s <:+: s :=
    ⟨fun _ hv => (by cases hv), List.infix_rfl⟩
  cases group with
  | forbidden =>
    cases h
    exact hnone
  | allowed =>
    simp only [optionalGroup?] at h
    split at h
    · next v t hv =>
      cases h
      exact hgroup hv
    · split at h
      · cases h
      · cases h
        exact hnone
  | required =>
    obtain ⟨⟨v, t⟩, hv, he⟩ := Option.map_eq_some_iff.1 h
    cases he
    exact hgroup hv

theorem braceGroups?_pieces {n : Nat} {s r : Text} {args : List Text}
    (h : braceGroups? n s = some (args, r)) : (∀ v ∈ args, v <:+: s) ∧ r <:+: s := by
  induction n generalizing s r args with
  | zero =>
    cases h
    exact ⟨fun _ hv => (by cases hv), List.infix_rfl⟩
  | succ n ih =>
    unfold braceGroups? at h
    split at h
    · cases h
    · next v t hv =>
      obtain ⟨⟨more, r⟩, hmore, he⟩ := Option.map_eq_some_iff.1 h
      cases he
      have hfirst := Source.spacedBraced?_pieces hv
      have hrest := ih hmore
      refine ⟨List.forall_mem_cons.2 ⟨hfirst.1, fun w hw => ?_⟩, hrest.2.trans hfirst.2⟩
      exact (hrest.1 w hw).trans hfirst.2

/-- Optional group, arguments and rest are pieces of what stands behind a name. -/
theorem arguments?_pieces {p : Pattern} {s : Text} {a : Arguments} (h : p.arguments? s = some a) :
    (∀ v ∈ a.optional, v <:+: s) ∧ (∀ v ∈ a.args, v <:+: s) ∧ a.rest <:+: s := by
  unfold arguments? at h
  split at h
  · cases h
  · next o t ho =>
    obtain ⟨⟨args, r⟩, hargs, he⟩ := Option.map_eq_some_iff.1 h
    cases he
    have hfirst := optionalGroup?_pieces ho
    have hgroups := braceGroups?_pieces hargs
    exact ⟨hfirst.1, fun v hv => (hgroups.1 v hv).trans hfirst.2, hgroups.2.trans hfirst.2⟩

theorem within_of_arguments {p : Pattern} {s source : Text} {a : Arguments} {inv : Invocation}
    (ha : p.arguments? s = some a) (hs : s.Inside source) (hoptional : inv.optional = a.optional)
    (hargs : inv.args = a.args) (hbody : inv.body <:+: s) : inv.Within (·.Inside source) := by
  have hpieces := arguments?_pieces ha
  refine ⟨fun i => .of_piece ((Text.trim_piece _).trans ?_) hs,
    .of_piece ((Text.trim_piece _).trans ?_) hs, .of_piece hbody hs⟩
  · rw [List.getD_eq_getElem?_getD, hargs]
    cases hi : a.args[i]? with
    | none => exact List.nil_infix
    | some v => exact hpieces.2.1 v (List.mem_of_getElem? hi)
  · rw [hoptional]
    cases ho : a.optional with
    | none => exact List.nil_infix
    | some v => exact hpieces.1 v ho

theorem matchCommand?_inside {p : Pattern} {source : Text} {inv : Invocation}
    (h : p.matchCommand? source = some inv) : inv.Within (·.Inside source) := by
  obtain ⟨name, after, a, hname, _, ha, _, rfl⟩ := matchCommand?_iff.1 h
  have hafter : after.Inside source := by
    have hlength := congrArg List.length (Source.commandName?_eq hname)
    simp only [List.cons_append, List.length_cons, List.length_append] at hlength
    exact ⟨Source.commandName?_rest hname, by omega⟩
  exact within_of_arguments ha (.of_piece (Source.star_rest after) hafter) rfl rfl List.nil_infix

theorem matchEnvironment?_inside {p : Pattern} {source : Text} {inv : Invocation}
    (h : p.matchEnvironment? source = some inv) : inv.Within (·.Inside source) := by
  obtain ⟨e, rest, a, he, _, ha, _, rfl⟩ := matchEnvironment?_iff.1 h
  have hlength := Source.environment?_length he
  have hbody : e.body.Inside source := ⟨(Source.environment?_pieces he).2.1, by omega⟩
  exact within_of_arguments ha hbody rfl rfl (arguments?_pieces ha).2.2

/-- The parts of a match that may be read again are shorter pieces of the text without the blanks
around it. -/
theorem match?_within {p : Pattern} {text : Text} {inv : Invocation}
    (h : p.match? text = some inv) : inv.Within (·.Inside (Text.trim text)) := by
  unfold match? at h
  split at h
  · exact matchCommand?_inside h
  · exact matchEnvironment?_inside h

theorem match?_inside {text : Text} (p : Pattern) (inv : Invocation)
    (h : p.match? text = some inv) : inv.Within (·.Inside text) :=
  (match?_within h).mono fun _ ht => ht.mono (Text.trim_piece text)

end Pattern

namespace Walk

/-- Equality as a relation between walks. -/
theorem eq_congruence (bib : Bibliography) : Congruence bib fun {_} x y => x = y where
  pure _ := rfl
  bind hxy hfg := by
    subst hxy
    exact congrArg _ (funext hfg)
  note _ := rfl
  report _ := rfl
  label _ := rfl

end Walk

def FormContext.AgreeOn (texts : Text → Prop) (c d : FormContext) : Prop :=
  FormContext.Related c.bibliography (fun {_} x y => x = y) texts c d

def Expander.AgreeOn (texts : Text → Prop) (v w : Expander) : Prop :=
  Expander.Related (fun {_} x y => x = y) texts v w

def FormContext.AgreeBelow (n : Nat) (c d : FormContext) : Prop :=
  FormContext.Related c.bibliography (fun {_} x y => x = y) (·.length < n) c d

def Expander.AgreeBelow (n : Nat) (v w : Expander) : Prop :=
  Expander.Related (fun {_} x y => x = y) (·.length < n) v w

namespace Form

/-- What a form makes of a match depends only on what the context says of shorter texts. -/
theorem expand_agree {Kind : Type} {forms : List (Form Kind)} {text : Text} {c d : FormContext}
    (hforms : List.Forall₂ (Form.Related (fun {_} x y => x = y) (·.length < (Text.trim text).length)
      c d) forms forms)
    {form : Form Kind} (hform : form ∈ forms) {inv : Invocation}
    (hmatch : form.pattern.match? text = some inv) : form.expand c inv = form.expand d inv := by
  have hself := List.forall₂_same.1 hforms form hform
  exact hself.2 inv ((Pattern.match?_within hmatch).mono fun _ ht => ht.2)

theorem blockForms_agree {text : Text} {c d : FormContext}
    (h : FormContext.AgreeBelow (Text.trim text).length c d) {form : Form Block}
    (hform : form ∈ blockForms) {inv : Invocation} (hmatch : form.pattern.match? text = some inv) :
    form.expand c inv = form.expand d inv :=
  expand_agree (blockForms_related (Walk.eq_congruence c.bibliography) h) hform hmatch

theorem inlineForms_agree {text : Text} {c d : FormContext}
    (h : FormContext.AgreeBelow (Text.trim text).length c d) {form : Form Inline}
    (hform : form ∈ inlineForms) {inv : Invocation} (hmatch : form.pattern.match? text = some inv) :
    form.expand c inv = form.expand d inv :=
  expand_agree (inlineForms_related (Walk.eq_congruence c.bibliography) h) hform hmatch

end Form

section

variable (stem : Text) (bib : Bibliography)

theorem formContext_blocks (inner : Expander) (text : Text) :
    (Expander.formContext (sourceContext stem bib) inner).blocks text =
      walkBlocks stem inner (Source.readBlocks text) := by
  change (pure (Source.readBlocks text) >>= fun blocks => walkBlocks stem inner blocks) = _
  rw [pure_bind]

theorem formContext_inlines (inner : Expander) (text : Text) :
    (Expander.formContext (sourceContext stem bib) inner).inlines text =
      walkInlines stem inner (flatten (Source.readBlocks text)) := by
  change (pure (Source.readBlocks text) >>= fun blocks =>
    walkInlines stem inner (flatten blocks)) = _
  rw [pure_bind]

/-- The raw texts that a text leads to are pieces of it. -/
theorem formContext_agree {texts : Text → Prop} (hpieces : ∀ s t, s <:+: t → texts t → texts s)
    {v w : Expander} (h : Expander.AgreeOn texts v w) :
    FormContext.AgreeOn texts (Expander.formContext (sourceContext stem bib) v)
      (Expander.formContext (sourceContext stem bib) w) where
  stem := rfl
  left := rfl
  right := rfl
  plainText _ := rfl
  blocks {text} ht := by
    have hraws : TexAll texts (blockNodes (Source.readBlocks text)) :=
      (Source.readBlocks_pieces text).mono fun u hu => hpieces u text hu ht
    rw [formContext_blocks, formContext_blocks]
    exact walkBlocks_related (Walk.eq_congruence bib) h _ hraws
  inlines {text} ht := by
    have hraws : TexAll texts (inlineNodes (flatten (Source.readBlocks text))) :=
      flatten_texAll ((Source.readBlocks_pieces text).mono fun u hu => hpieces u text hu ht)
    rw [formContext_inlines, formContext_inlines]
    exact walkInlines_related (Walk.eq_congruence bib) h _ hraws

/-- One more level around expanders that agree on the pieces inside texts. -/
theorem ofInner_agree {texts : Text → Prop} (hpieces : ∀ s t, s <:+: t → texts t → texts s)
    {v w : Expander} (h : Expander.AgreeOn texts v w) {longer : Text → Prop}
    (hinside : ∀ s t : Text, s.Inside t → longer t → texts s) :
    Expander.AgreeOn longer (.ofInner Form.vocabulary (sourceContext stem bib) v)
      (.ofInner Form.vocabulary (sourceContext stem bib) w) := by
  have hagree := formContext_agree stem bib hpieces h
  have hvocabulary := Form.vocabulary_related (Walk.eq_congruence bib)
  have hasks {text : Text} (ht : longer text) (p : Pattern) (inv : Invocation)
      (hmatch : p.match? text = some inv) : inv.Within texts :=
    (Pattern.match?_inside p inv hmatch).mono fun u hu => hinside u text hu ht
  exact ⟨fun ht => expandBlock_related (Walk.eq_congruence bib) hvocabulary hagree (hasks ht),
    fun ht => expandInline_related (Walk.eq_congruence bib) hvocabulary hagree (hasks ht)⟩

theorem ofInner_agreeBelow {n : Nat} {v w : Expander} (h : Expander.AgreeBelow n v w) :
    Expander.AgreeBelow (n + 1) (.ofInner Form.vocabulary (sourceContext stem bib) v)
      (.ofInner Form.vocabulary (sourceContext stem bib) w) :=
  ofInner_agree stem bib (fun _ _ hs ht => Nat.lt_of_le_of_lt hs.length_le ht) h
    fun _ _ hs ht => Nat.lt_of_lt_of_le hs.2 (Nat.le_of_lt_succ ht)

/-- More levels than a text has characters change nothing. -/
theorem ofDepth_agree (n : Nat) {d e : Nat} (hd : n ≤ d) (he : n ≤ e) :
    Expander.AgreeBelow n (.ofDepth Form.vocabulary (sourceContext stem bib) d)
      (.ofDepth Form.vocabulary (sourceContext stem bib) e) := by
  induction n generalizing d e with
  | zero => exact ⟨fun ht => absurd ht (Nat.not_lt_zero _), fun ht => absurd ht (Nat.not_lt_zero _)⟩
  | succ n ih =>
    obtain ⟨d, rfl⟩ : ∃ k, d = k + 1 := ⟨d - 1, by omega⟩
    obtain ⟨e, rfl⟩ : ∃ k, e = k + 1 := ⟨e - 1, by omega⟩
    exact ofInner_agreeBelow stem bib (ih (by omega) (by omega))

theorem full_agree (n : Nat) :
    Expander.AgreeBelow n (.full Form.vocabulary (sourceContext stem bib))
      (.ofDepth Form.vocabulary (sourceContext stem bib) n) := by
  have hlevels {text : Text} (ht : text.length < n) : Expander.AgreeBelow (text.length + 1)
      (.ofDepth Form.vocabulary (sourceContext stem bib) (text.length + 1))
      (.ofDepth Form.vocabulary (sourceContext stem bib) n) :=
    ofDepth_agree stem bib (text.length + 1) (Nat.le_refl _) ht
  exact ⟨fun {text} ht => (hlevels ht).block (Nat.lt_succ_self _),
    fun {text} ht => (hlevels ht).inline (Nat.lt_succ_self _)⟩

/-- The forms of the full expander walk their arguments with the full expander. -/
theorem full_eq_ofInner : Expander.full Form.vocabulary (sourceContext stem bib) =
    .ofInner Form.vocabulary (sourceContext stem bib)
      (.full Form.vocabulary (sourceContext stem bib)) := by
  have hlevel (text : Text) : Expander.AgreeBelow (text.length + 1)
      (.ofInner Form.vocabulary (sourceContext stem bib)
        (.full Form.vocabulary (sourceContext stem bib)))
      (.ofDepth Form.vocabulary (sourceContext stem bib) (text.length + 1)) :=
    ofInner_agreeBelow stem bib (full_agree stem bib text.length)
  have hblock (text : Text) := (hlevel text).block (Nat.lt_succ_self _)
  have hinline (text : Text) := (hlevel text).inline (Nat.lt_succ_self _)
  exact congr (congrArg Expander.mk (funext fun text => (hblock text).symm))
    (funext fun text => (hinline text).symm)

/-- No other expander walks the arguments of its forms with itself. -/
theorem eq_full_of_ofInner {v : Expander}
    (hv : v = .ofInner Form.vocabulary (sourceContext stem bib) v) :
    v = .full Form.vocabulary (sourceContext stem bib) := by
  have hagree (n : Nat) :
      Expander.AgreeBelow n v (.full Form.vocabulary (sourceContext stem bib)) := by
    induction n with
    | zero =>
      exact ⟨fun ht => absurd ht (Nat.not_lt_zero _), fun ht => absurd ht (Nat.not_lt_zero _)⟩
    | succ n ih =>
      have hstep := ofInner_agreeBelow stem bib ih
      rwa [← hv, ← full_eq_ofInner] at hstep
  have hblock (text : Text) := (hagree (text.length + 1)).block (Nat.lt_succ_self _)
  have hinline (text : Text) := (hagree (text.length + 1)).inline (Nat.lt_succ_self _)
  exact congr (congrArg Expander.mk (funext hblock)) (funext hinline)

end

def Expander.only (texts : Text → Prop) [DecidablePred texts] (v : Expander) : Expander where
  block text := if texts text then v.block text else pure []
  inline text := if texts text then v.inline text else pure (some [])

theorem Expander.only_agree (texts : Text → Prop) [DecidablePred texts] (v : Expander) :
    AgreeOn texts (v.only texts) v :=
  ⟨fun ht => if_pos ht, fun ht => if_pos ht⟩

section

variable {texts : Text → Prop} {inlines : List Inline → Notes → Prop}
  {blocks : List Block → Notes → Prop} {declined : Text → Notes → Prop}

def Expander.MakesOf (texts : Text → Prop) (inlines : List Inline → Notes → Prop)
    (blocks : List Block → Notes → Prop) (declined : Text → Notes → Prop) (v : Expander) : Prop :=
  ∀ text, texts text →
    (v.block text).Ensures blocks ∧ (v.inline text).Ensures (Made inlines (declined text))

variable (hinlines : inlines [] {}) (hblocks : blocks [] {})

include hinlines hblocks

/-- Only the texts of the class have to be looked at. -/
theorem Expander.MakesOf.only [DecidablePred texts] {v : Expander}
    (h : v.MakesOf texts inlines blocks declined) :
    Expander.Makes inlines blocks declined (v.only texts) := by
  constructor <;> intro text
  · by_cases ht : texts text
    · have hblock : (v.only texts).block text = v.block text := if_pos ht
      rw [hblock]
      exact (h text ht).1
    · have hblock : (v.only texts).block text = Pure.pure [] := if_neg ht
      rw [hblock]
      exact Walk.ensures_pure hblocks
  · by_cases ht : texts text
    · have hinline : (v.only texts).inline text = v.inline text := if_pos ht
      rw [hinline]
      exact (h text ht).2
    · have hinline : (v.only texts).inline text = Pure.pure (some []) := if_neg ht
      rw [hinline]
      exact Walk.ensures_pure hinlines

/-- Forms that satisfy conditions over every expander that does make a full expander that does, for
the texts of a class that has the pieces of its texts, by induction on their length. -/
theorem full_makesOf [DecidablePred texts] (hpieces : ∀ s t, s <:+: t → texts t → texts s)
    {builtInlines : List Inline → Notes → Prop} {builtBlocks : List Block → Notes → Prop}
    {passed : Text → Notes → Prop} {stem : Text} {bib : Bibliography}
    (hrules : ExpansionRules builtInlines builtBlocks inlines blocks declined passed)
    (hforms : ∀ inner, Expander.Makes inlines blocks declined inner → ∀ text, texts text →
      (Form.expandFirst (Expander.formContext (sourceContext stem bib) inner) text
          Form.inlineForms).Ensures (Made builtInlines (declined text)) ∧
        (Form.expandFirst (Expander.formContext (sourceContext stem bib) inner) text
          Form.blockForms).Ensures (Made builtBlocks (passed text))) :
    (Expander.full Form.vocabulary (sourceContext stem bib)).MakesOf texts inlines blocks
      declined := by
  have hshorter (n : Nat) : (Expander.full Form.vocabulary (sourceContext stem bib)).MakesOf
      (fun text => texts text ∧ text.length < n) inlines blocks declined := by
    induction n with
    | zero => exact fun text ht => absurd ht.2 (Nat.not_lt_zero _)
    | succ n ih =>
      intro text ht
      -- the hypothesis on forms is about expanders that do for all texts what the full one is known
      -- to do for texts of the class below `n`, so the other texts are cut off
      have hbelow := ih.only hinlines hblocks
      have hlevel : Expander.AgreeOn (fun text => texts text ∧ text.length < n + 1)
          (.ofInner Form.vocabulary (sourceContext stem bib)
            ((Expander.full Form.vocabulary (sourceContext stem bib)).only _))
          (.ofInner Form.vocabulary (sourceContext stem bib)
            (.full Form.vocabulary (sourceContext stem bib))) :=
        ofInner_agree stem bib
          (fun s t hs ht => ⟨hpieces s t hs ht.1, Nat.lt_of_le_of_lt hs.length_le ht.2⟩)
          (Expander.only_agree (fun text => texts text ∧ text.length < n) _)
          fun s t hs ht => ⟨hpieces s t hs.1 ht.1, Nat.lt_of_lt_of_le hs.2 (Nat.le_of_lt_succ ht.2)⟩
      rw [← full_eq_ofInner] at hlevel
      rw [← hlevel.block ht, ← hlevel.inline ht]
      exact ⟨expandBlock_ensures hrules (hforms _ hbelow text ht.1).1 (hforms _ hbelow text ht.1).2,
        expandInline_ensures hrules (hforms _ hbelow text ht.1).1⟩
  exact fun text ht => hshorter (text.length + 1) text ⟨ht, Nat.lt_succ_self _⟩

/-- The same where all texts are looked at. -/
theorem full_makes_of_shorter {builtInlines : List Inline → Notes → Prop}
    {builtBlocks : List Block → Notes → Prop} {passed : Text → Notes → Prop}
    {stem : Text} {bib : Bibliography}
    (hrules : ExpansionRules builtInlines builtBlocks inlines blocks declined passed)
    (hforms : ∀ inner, Expander.Makes inlines blocks declined inner → ∀ text,
      (Form.expandFirst (Expander.formContext (sourceContext stem bib) inner) text
          Form.inlineForms).Ensures (Made builtInlines (declined text)) ∧
        (Form.expandFirst (Expander.formContext (sourceContext stem bib) inner) text
          Form.blockForms).Ensures (Made builtBlocks (passed text))) :
    Expander.Makes inlines blocks declined (.full Form.vocabulary (sourceContext stem bib)) := by
  have hall : (Expander.full Form.vocabulary (sourceContext stem bib)).MakesOf (fun _ => True)
      inlines blocks declined :=
    full_makesOf hinlines hblocks (fun _ _ _ h => h) hrules fun inner hinner text _ =>
      hforms inner hinner text
  exact ⟨fun text => (hall text trivial).1, fun text => (hall text trivial).2⟩

/-- The walk of a page whose expander satisfies the conditions for the pieces of the page. -/
theorem walkPage_ensures_of_pieces {items : List (List Block) → Notes → Prop} {stem : Text}
    {bib : Bibliography} (hrules : SourceRules inlines blocks items declined) {source : Text}
    (hforms : (Expander.full Form.vocabulary (sourceContext stem bib)).MakesOf
      (· <:+: Source.clean source) inlines blocks declined) :
    (walkPage Form.vocabulary (sourceContext stem bib) source).Ensures blocks := by
  have hwalk : walkPage Form.vocabulary (sourceContext stem bib) source =
      walkAll stem bib (Source.readBlocks (Source.clean source)) := by
    change (pure (Source.readBlocks (Source.clean source)) >>= fun blocks =>
      walkAll stem bib blocks) = _
    rw [pure_bind]
  have honly : walkBlocks stem ((Expander.full Form.vocabulary (sourceContext stem bib)).only _)
      (Source.readBlocks (Source.clean source)) =
        walkAll stem bib (Source.readBlocks (Source.clean source)) :=
    walkBlocks_related (Walk.eq_congruence bib)
      (Expander.only_agree (· <:+: Source.clean source) _) _
      (Source.readBlocks_pieces (Source.clean source))
  rw [hwalk, ← honly]
  exact walkBlocks_ensures hrules (hforms.only hinlines hblocks) _ (Source.readBlocks_fromSource _)

end

def Bibliography.Labelled (bib : Bibliography) : Prop :=
  ∀ key e, bib.get? key = some e → ∃ label, displayLabel e = .ok label

namespace Walk

variable {α β : Type}

def Succeeds (x : Walk α) : Prop := ∀ s, ∃ a n, x s = (.ok a, n, s)

theorem succeeds_bind {x : Walk α} {f : α → Walk β} (hx : x.Succeeds) (hf : ∀ a, (f a).Succeeds) :
    (x >>= f).Succeeds := by
  intro s
  obtain ⟨a, m, ha⟩ := hx s
  obtain ⟨b, n, hb⟩ := hf a s
  refine ⟨b, m.combine n, ?_⟩
  rw [bind_ok ha, hb]

/-- Success as a relation, under which a step is related to itself alone. -/
theorem succeeds_congruence {bib : Bibliography} (hbib : bib.Labelled) :
    Congruence bib fun {_} x y => x = y ∧ x.Succeeds where
  pure a := ⟨rfl, fun _ => ⟨a, {}, rfl⟩⟩
  bind hxy hfg := by
    obtain ⟨rfl, hx⟩ := hxy
    have hf := funext fun a => (hfg a).1
    subst hf
    exact ⟨rfl, succeeds_bind hx fun a => (hfg a).2⟩
  note f := ⟨rfl, fun _ => ⟨(), { findings := f }, rfl⟩⟩
  report d := ⟨rfl, fun _ => ⟨(), { diagnostics := [d] }, rfl⟩⟩
  label {key e} he := by
    obtain ⟨label, hlabel⟩ := hbib key e he
    rw [hlabel]
    exact ⟨rfl, fun _ => ⟨label, {}, rfl⟩⟩

theorem Succeeds.finish {walk : Walk (List Block)} (h : walk.Succeeds) (stem : Text)
    (files : Store) : ∃ page, walk.finish stem files = (.ok page, files) := by
  obtain ⟨blocks, notes, hwalk⟩ := h files
  refine ⟨⟨⟨{ notes.findings with stem }, blocks⟩, notes.diagnostics⟩, ?_⟩
  simp only [Walk.finish, hwalk]

end Walk

theorem walkAll_succeeds (stem : Text) {bib : Bibliography} (hbib : bib.Labelled)
    (blocks : List Block) : (walkAll stem bib blocks).Succeeds :=
  have hR := Walk.succeeds_congruence hbib
  (walkBlocks_related hR
    (full_related hR (Form.vocabulary_related hR) fun text =>
      ⟨rfl, fun _ => ⟨Source.readBlocks text, {}, rfl⟩⟩) blocks fun _ _ _ _ => trivial).2

/-- Walks with a bibliography end, and end with a page. -/
structure WalksEnd (stem : Text) (bib : Bibliography) : Prop where
  source (text : Text) (files : Store) :
    ∃ page, walkSource (sourceContext stem bib) text files = (.ok page, files)
  document (blocks : List Block) (files : Store) :
    ∃ page, walkDocument (sourceContext stem bib) blocks files = (.ok page, files)
  /-- Walking arguments with the expander itself, without any levels, says what the expander is. -/
  recursion (v : Expander) : v = .ofInner Form.vocabulary (sourceContext stem bib) v ↔
    v = .full Form.vocabulary (sourceContext stem bib)
  reading (text : Text) (files : Store) :
    sourceReader.read text files = (.ok (Source.readBlocks text), files)
  blockPieces (text : Text) : TexAll (· <:+: text) (blockNodes (Source.readBlocks text))
  inlinePieces (text : Text) : TexAll (· <:+: text) (inlineNodes (Source.readInlines text))
  /-- Texts that are not shorter than the matched one may get any answer. -/
  blockForms {form : Form Block} {text : Text} {inv : Invocation} {c d : FormContext} :
    form ∈ Form.blockForms → form.pattern.match? text = some inv →
    FormContext.AgreeBelow (Text.trim text).length c d → form.expand c inv = form.expand d inv
  inlineForms {form : Form Inline} {text : Text} {inv : Invocation} {c d : FormContext} :
    form ∈ Form.inlineForms → form.pattern.match? text = some inv →
    FormContext.AgreeBelow (Text.trim text).length c d → form.expand c inv = form.expand d inv

/-- With a bibliography of which every entry has a label every walk ends with a page. -/
theorem walks_end (stem : Text) (bib : Bibliography) (hbib : bib.Labelled) : WalksEnd stem bib where
  source text files := by
    have hwalk : walkPage Form.vocabulary (sourceContext stem bib) text =
        walkAll stem bib (Source.readBlocks (Source.clean text)) := by
      change (pure (Source.readBlocks (Source.clean text)) >>= fun blocks =>
        walkAll stem bib blocks) = _
      rw [pure_bind]
    unfold walkSource
    rw [hwalk]
    exact (walkAll_succeeds stem hbib _).finish stem files
  document blocks files := (walkAll_succeeds stem hbib blocks).finish stem files
  recursion v := by
    refine ⟨eq_full_of_ofInner stem bib, ?_⟩
    rintro rfl
    exact full_eq_ofInner stem bib
  reading _ _ := rfl
  blockPieces := Source.readBlocks_pieces
  inlinePieces := Source.readInlines_pieces
  blockForms hform hmatch h := Form.blockForms_agree h hform hmatch
  inlineForms hform hmatch h := Form.inlineForms_agree h hform hmatch

def oneWork : Bibliography :=
  TextMap.empty.insert "Cor14"
    { id := "Cor14", authors := [.ofParts "Corwen" "Pim"], year := some "2014" }

theorem oneWork_labelled : oneWork.Labelled := by
  intro key e he
  rw [oneWork, TextMap.get?_insert] at he
  split at he
  · cases he
    exact ⟨"Cor14", by decide +kernel⟩
  · cases he

theorem walks_end_oneWork : oneWork.Labelled ∧ ∃ page,
    walkSource (sourceContext "page" oneWork) "See \\cite\x7bCor14\x7d." .empty =
      (.ok page, .empty) :=
  ⟨oneWork_labelled, (walks_end "page" oneWork oneWork_labelled).source _ _⟩

end TexCatalog
