import TexCatalog.Proofs.CommandTexts
import TexCatalog.Proofs.Enclosures
import TexCatalog.Proofs.PatternMatches

/-!
# The grammar of patterns

The texts that a pattern matches are those of one shape: the name of a command, perhaps with a star,
then perhaps a group in brackets and a number of groups in braces, then blanks; or an environment
whose body begins with such groups. What is in brackets and braces is closed, as the readers of
groups say; layout may stand in front of each group. `Matches` is this shape, with the pieces that a
match is made of. A text of this shape is matched, and no other text is.
-/

namespace TexCatalog

namespace Pattern

open Source

/-- Groups in braces that stand in front of the rest, with their contents. -/
inductive TakesBraces (rest : Text) : List Text → Text → Prop
  | nil : TakesBraces rest [] rest
  | cons {gap v s : Text} {more : List Text} : (∀ c ∈ gap, c.isLayout) → Closed v →
    TakesBraces rest more s → TakesBraces rest (v :: more) (gap ++ '{' :: (v ++ '}' :: s))

/-- A group in brackets that stands in front of the rest, with its content, as far as there may or
must be one. It is absent only where what follows does not begin with a bracket, not even behind
blanks: a bracket that opens no group is not passed over. -/
inductive TakesOptional (rest : Text) : OptionalGroup → Option Text → Text → Prop
  | forbidden : TakesOptional rest .forbidden none rest
  | absent : (Text.trimStart rest).head? ≠ some '[' → TakesOptional rest .allowed none rest
  | present {mode : OptionalGroup} {gap v : Text} : mode ≠ .forbidden → (∀ c ∈ gap, c.isLayout) →
    Bracketed v → TakesOptional rest mode (some v) (gap ++ '[' :: (v ++ ']' :: rest))

variable {p : Pattern} {source s : Text} {inv : Invocation}

/-- The text begins with the groups that the pattern asks for, and it has the rest behind them. -/
def Takes (p : Pattern) (a : Arguments) (s : Text) : Prop :=
  a.args.length = p.args ∧
    ∃ behind, TakesOptional behind p.optional a.optional s ∧ TakesBraces a.rest a.args behind

/-- The texts that a pattern matches, without the blanks around them, with the pieces of the match.
The letters of the name are a maximal run, since none of what may follow it is a letter. -/
inductive Matches (p : Pattern) (source : Text) : Invocation → Prop
  | command {name behind : Text} {starred : Bool} {a : Arguments} : p.kind = .command →
    name ∈ p.names → (starred → p.starred) → name ≠ [] → (∀ c ∈ name, c.isAlpha) →
    source = '\\' :: (name ++ (stars starred ++ behind)) → p.Takes a behind → Text.isBlank a.rest →
    Matches p source
      { name, starred, optional := a.optional, args := a.args, body := [], source }
  | environment {e : Environment} {name rest : Text} {starred : Bool} {a : Arguments} :
    p.kind = .environment → environment? source = some (e, rest) → Text.isBlank rest →
    e.name = name ++ stars starred → (name.getLast? = some '*' → starred) →
    name ∈ p.names → (starred → p.starred) → p.Takes a e.body →
    Matches p source
      { name, starred, optional := a.optional, args := a.args, body := a.rest, source }

/-! ### Arguments -/

theorem braceGroups?_eq_some_iff {n : Nat} {args : List Text} {rest : Text} :
    braceGroups? n s = some (args, rest) ↔ args.length = n ∧ TakesBraces rest args s := by
  induction n generalizing s args with
  | zero =>
    rw [braceGroups?, Option.some.injEq, Prod.mk.injEq]
    constructor
    · rintro ⟨rfl, rfl⟩
      exact ⟨rfl, .nil⟩
    · rintro ⟨hlength, h⟩
      obtain rfl := List.length_eq_zero_iff.1 hlength
      cases h
      exact ⟨rfl, rfl⟩
  | succ n ih =>
    rw [braceGroups?]
    constructor
    · intro h
      split at h
      · cases h
      · next v behind hgroup =>
        obtain ⟨⟨more, rest⟩, hmore, heq⟩ := Option.map_eq_some_iff.1 h
        cases heq
        obtain ⟨hlength, hmore⟩ := ih.1 hmore
        obtain ⟨gap, hgap, hv, rfl⟩ := spacedBraced?_eq_some_iff.1 hgroup
        exact ⟨congrArg Nat.succ hlength, .cons hgap hv hmore⟩
    · rintro ⟨hlength, h⟩
      cases h with
      | nil => cases hlength
      | cons hgap hv hmore =>
        have hmore := ih.2 ⟨Nat.succ.inj hlength, hmore⟩
        simp only [hv.spacedBraced? hgap, hmore, Option.map_some]

theorem optionalGroup?_eq_some_iff {mode : OptionalGroup} {o : Option Text} {behind : Text} :
    optionalGroup? s mode = some (o, behind) ↔ TakesOptional behind mode o s := by
  constructor
  · intro h
    cases mode with
    | forbidden =>
      cases h
      exact .forbidden
    | allowed =>
      rw [optionalGroup?] at h
      split at h
      · next hgroup =>
        cases h
        obtain ⟨gap, hgap, hv, rfl⟩ := spacedBracketed?_eq_some_iff.1 hgroup
        exact .present (by decide) hgap hv
      · split at h
        · cases h
        · next hopen =>
          cases h
          exact .absent hopen
    | required =>
      obtain ⟨⟨v, rest⟩, hgroup, heq⟩ := Option.map_eq_some_iff.1 h
      cases heq
      obtain ⟨gap, hgap, hv, rfl⟩ := spacedBracketed?_eq_some_iff.1 hgroup
      exact .present (by decide) hgap hv
  · intro h
    cases h with
    | forbidden => rfl
    | absent hopen => exact optionalGroup?_allowed hopen
    | present hmode hgap hv =>
      have hgroup := hv.spacedBracketed? hgap behind
      cases mode with
      | forbidden => exact absurd rfl hmode
      | allowed => simp only [optionalGroup?, hgroup]
      | required => simp only [optionalGroup?, hgroup, Option.map_some]

theorem arguments?_eq_some_iff {a : Arguments} : p.arguments? s = some a ↔ p.Takes a s := by
  unfold arguments? Takes
  constructor
  · intro h
    split at h
    · cases h
    · next o behind hoptional =>
      obtain ⟨⟨args, rest⟩, hargs, rfl⟩ := Option.map_eq_some_iff.1 h
      obtain ⟨hlength, hargs⟩ := braceGroups?_eq_some_iff.1 hargs
      exact ⟨hlength, behind, optionalGroup?_eq_some_iff.1 hoptional, hargs⟩
  · rintro ⟨hlength, behind, hoptional, hargs⟩
    have hoptional := optionalGroup?_eq_some_iff.2 hoptional
    have hargs := braceGroups?_eq_some_iff.2 ⟨hlength, hargs⟩
    simp only [hoptional, hargs, Option.map_some]

/-! ### What follows the name -/

def Continues (c : Char) : Prop := c.isBlank ∨ c = '[' ∨ c = '{'

theorem Continues.not_name {c : Char} (h : Continues c) : ¬c.isAlpha ∧ c ≠ '*' := by
  rcases h with hblank | rfl | rfl
  · exact ⟨not_isAlpha_of_isBlank hblank, by rintro rfl; exact absurd hblank (by decide)⟩
  · decide
  · decide

theorem continues_gap {gap t : Text} {c : Char} (hgap : ∀ d ∈ gap, d.isLayout) (hc : Continues c) :
    ∀ d ∈ (gap ++ c :: t).head?, Continues d := by
  cases gap with
  | nil =>
    rintro _ ⟨rfl⟩
    exact hc
  | cons d gap =>
    rintro _ ⟨rfl⟩
    exact .inl (isBlank_of_isLayout (hgap d (List.mem_cons_self ..)))

theorem TakesBraces.continues {rest : Text} {args : List Text} (h : TakesBraces rest args s)
    (hrest : ∀ c ∈ rest.head?, Continues c) : ∀ c ∈ s.head?, Continues c := by
  cases h with
  | nil => exact hrest
  | cons hgap => exact continues_gap hgap (.inr (.inr rfl))

theorem TakesOptional.continues {rest : Text} {mode : OptionalGroup} {o : Option Text}
    (h : TakesOptional rest mode o s) (hrest : ∀ c ∈ rest.head?, Continues c) :
    ∀ c ∈ s.head?, Continues c := by
  cases h with
  | forbidden => exact hrest
  | absent => exact hrest
  | present _ hgap => exact continues_gap hgap (.inr (.inl rfl))

/-- The groups of a command, with blanks behind them, do not go on with its name or star. -/
theorem Takes.not_name {a : Arguments} (h : p.Takes a s) (hrest : Text.isBlank a.rest) :
    ∀ c ∈ s.head?, ¬c.isAlpha ∧ c ≠ '*' := by
  obtain ⟨_, behind, hoptional, hargs⟩ := h
  have hblank : ∀ c ∈ a.rest.head?, Continues c := fun c hc =>
    .inl (List.all_eq_true.1 hrest c (List.mem_of_mem_head? hc))
  exact fun c hc => (hoptional.continues (hargs.continues hblank) c hc).not_name

/-! ### Matches -/

theorem matchCommand?_eq_some_iff (hkind : p.kind = .command) :
    p.matchCommand? source = some inv ↔ p.Matches source inv := by
  rw [matchCommand?_iff]
  constructor
  · rintro ⟨name, after, a, hname, haccepts, harguments, hblank, rfl⟩
    obtain ⟨hsource, hne, hletters, _⟩ := commandName?_eq_some_iff.1 hname
    obtain ⟨hmem, hstar⟩ := accepts_iff.1 haccepts
    rw [← stars_star after] at hsource
    exact .command hkind hmem hstar hne hletters hsource (arguments?_eq_some_iff.1 harguments)
      hblank
  · intro h
    cases h with
    | @command name behind starred a _ hmem hstar hne hletters hsource htakes hblank =>
      obtain ⟨hname, hstarred⟩ := commandName?_starred starred hne hletters (htakes.not_name hblank)
      rw [← hsource] at hname
      refine ⟨name, _, a, hname, ?_, ?_, hblank, ?_⟩
      · rw [hstarred]
        exact accepts_iff.2 ⟨hmem, hstar⟩
      · rw [hstarred]
        exact arguments?_eq_some_iff.2 htakes
      · rw [hstarred]
    | environment hother =>
      rw [hkind] at hother
      cases hother

theorem splitStar_eq_iff {whole name : Text} {starred : Bool} : splitStar whole = (name, starred) ↔
    whole = name ++ stars starred ∧ (name.getLast? = some '*' → starred) := by
  unfold splitStar
  constructor
  · intro h
    split at h
    · next hdrop =>
      cases h
      exact ⟨Text.dropEnd?_eq_some_iff.1 hdrop, fun _ => rfl⟩
    · next hnone =>
      cases h
      refine ⟨(List.append_nil _).symm, fun hlast => ?_⟩
      obtain ⟨front, rfl⟩ := List.getLast?_eq_some_iff.1 hlast
      rw [Text.dropEnd?_eq_some_iff.2 rfl] at hnone
      cases hnone
  · rintro ⟨rfl, hlast⟩
    cases starred with
    | true => rw [Text.dropEnd?_eq_some_iff.2 (by rfl)]
    | false =>
      rw [stars, if_neg Bool.false_ne_true, List.append_nil]
      have hnone : Text.dropEnd? ['*'] name = none := by
        refine Option.eq_none_iff_forall_ne_some.2 fun front hfront => ?_
        obtain rfl := Text.dropEnd?_eq_some_iff.1 hfront
        exact absurd (hlast List.getLast?_concat) Bool.false_ne_true
      rw [hnone]

theorem matchEnvironment?_eq_some_iff (hkind : p.kind = .environment) :
    p.matchEnvironment? source = some inv ↔ p.Matches source inv := by
  rw [matchEnvironment?_iff]
  constructor
  · rintro ⟨e, rest, a, he, haccepts, harguments, hblank, rfl⟩
    obtain ⟨hname, hlast⟩ := splitStar_eq_iff.1 (Prod.eta (splitStar e.name)).symm
    obtain ⟨hmem, hstar⟩ := accepts_iff.1 haccepts
    exact .environment hkind he hblank hname hlast hmem hstar (arguments?_eq_some_iff.1 harguments)
  · intro h
    cases h with
    | command hother =>
      rw [hkind] at hother
      cases hother
    | @environment e name rest starred a _ he hblank hname hlast hmem hstar htakes =>
      have hsplit := splitStar_eq_iff.2 ⟨hname, hlast⟩
      refine ⟨e, rest, a, he, ?_, arguments?_eq_some_iff.2 htakes, hblank, ?_⟩
      · rw [hsplit]
        exact accepts_iff.2 ⟨hmem, hstar⟩
      · rw [hsplit]

/-- A pattern matches exactly the texts of its grammar, with the pieces that the grammar names. -/
theorem match?_eq_some_iff (p : Pattern) (text : Text) (inv : Invocation) :
    p.match? text = some inv ↔ p.Matches (Text.trim text) inv := by
  unfold match?
  cases hkind : p.kind with
  | command => exact matchCommand?_eq_some_iff hkind
  | environment => exact matchEnvironment?_eq_some_iff hkind

end Pattern

end TexCatalog
