import TexCatalog.Proofs.BibtexSpelling

/-!
# Protecting braces

A balanced value is made of characters and of groups in braces. The groups of commands keep their
braces in a cleaned value, and all others lose them. The cleaning only counts the commands that are
open, and the first closing brace behind one is taken for its own. So a pair of protecting braces in
the group of a command does no harm where nothing but braces stands behind it in the group; where
more stands behind it, the group ends too early.
-/

namespace TexCatalog

namespace Text

theorem flatten_splitWhere (p : Char → Bool) (s : Text) :
    (splitWhere p s).flatten = s.filter fun c => !p c := by
  induction s with
  | nil => rfl
  | cons c s ih =>
    rw [splitWhere]
    by_cases hc : p c
    · rw [if_pos hc, List.flatten_cons, List.nil_append, ih, List.filter_cons_of_neg (by simp [hc])]
    · rw [if_neg hc, Source.flatten_consHead, ih, List.filter_cons_of_pos (by simp [hc])]

theorem filter_join {p : Char → Bool} {sep : Text} (h : sep.filter p = []) (parts : List Text) :
    (join sep parts).filter p = parts.flatten.filter p := by
  induction parts with
  | nil => rfl
  | cons part more ih =>
    cases more with
    | nil => rw [join, List.flatten_singleton]
    | cons next more =>
      rw [join_cons_cons, List.filter_append, List.filter_append, h, List.append_nil, ih,
        ← List.filter_append]
      rfl

/-- Squeezing changes blanks only. -/
theorem filter_squeeze (s : Text) :
    (squeeze s).filter (fun c => !c.isBlank) = s.filter fun c => !c.isBlank := by
  rw [squeeze, filter_join (by decide), words, List.flatten_filter_ne_nil, flatten_splitWhere,
    List.filter_filter]
  simp

end Text

namespace Bibliography.Bibtex

open Text

inductive Grouped
  | nil
  | char (c : Char) (hopen : c ≠ '{') (hclose : c ≠ '}') (more : Grouped)
  | group (inner more : Grouped)

namespace Grouped

def spell : Grouped → Text
  | nil => []
  | char c _ _ more => c :: more.spell
  | group inner more => '{' :: (inner.spell ++ '}' :: more.spell)

def isCommand (g : Grouped) : Bool := g.spell.head? = some '\\'

/-- The text without the braces of groups that are not those of commands. -/
def unwrap : Grouped → Text
  | nil => []
  | char c _ _ more => c :: more.unwrap
  | group inner more =>
    if inner.isCommand then '{' :: (inner.unwrap ++ '}' :: more.unwrap)
    else inner.unwrap ++ more.unwrap

def groups : Grouped → List (Grouped × Text)
  | nil => []
  | char _ _ _ more => more.groups
  | group inner more =>
    (inner, more.spell) ::
      (inner.groups.map (fun g => (g.1, g.2 ++ '}' :: more.spell)) ++ more.groups)

def pairs (g : Grouped) : Nat := g.groups.countP fun pair => !pair.1.isCommand

end Grouped

def Bare (p : Char → Bool) (t : Text) : Prop := ∀ c ∈ t, p c = true → c = '{' ∨ c = '}'

namespace Grouped

variable (p : Char → Bool)

def EndsInPairs (g : Grouped) : Prop :=
  ∀ pair ∈ g.groups, pair.1.isCommand = false → Bare p pair.2

/-- No character that counts stands behind a protecting pair in the group of a command. -/
def PairsLast (g : Grouped) : Prop :=
  ∀ command ∈ g.groups, command.1.isCommand = true → command.1.EndsInPairs p

end Grouped

/-! ### Groups of balanced values -/

/-- The text closes the groups that are open in front of it, and all that it opens. -/
structure Closes (depth : Int) (v : Text) : Prop where
  front {t : Text} : t <+: v → 0 ≤ depth + level t
  whole : depth + level v = 0

theorem Balanced.closes {v : Text} (h : Balanced v) : Closes 0 v :=
  ⟨fun ht => by simpa using h.front ht, by simpa using h.whole⟩

theorem Closes.tail {depth : Int} {c : Char} {v : Text} (h : Closes depth (c :: v)) :
    Closes (depth + rise c) v := by
  refine ⟨fun {t} ht => ?_, ?_⟩
  · have hfront := h.front ((List.prefix_cons_inj c).2 ht)
    rwa [level_cons, ← Int.add_assoc] at hfront
  · have hwhole := h.whole
    rwa [level_cons, ← Int.add_assoc] at hwhole

/-- A text that closes groups is text with groups up to the first closing brace that has its partner
in front of the text. -/
theorem Closes.exists_spell : ∀ {v : Text} {depth : Int}, Closes depth v →
    ∃ (g : Grouped) (rest : Text), v = g.spell ++ rest ∧
      (rest = [] ∧ depth = 0 ∨ ∃ more, rest = '}' :: more ∧ Closes (depth - 1) more)
  | [], depth, h => ⟨.nil, [], rfl, .inl ⟨rfl, by simpa using h.whole⟩⟩
  | c :: v, depth, h => by
    have htail := h.tail
    by_cases hclose : c = '}'
    · subst hclose
      exact ⟨.nil, '}' :: v, rfl, .inr ⟨v, rfl, htail⟩⟩
    · obtain ⟨inner, rest, hv, hrest⟩ := htail.exists_spell
      by_cases hopen : c = '{'
      · subst hopen
        rw [rise, if_pos rfl] at hrest
        rcases hrest with ⟨_, hdepth⟩ | ⟨more, rfl, hmore⟩
        · have hfront := h.front (List.nil_prefix ..)
          rw [level_nil] at hfront
          omega
        · rw [Int.add_sub_cancel] at hmore
          obtain ⟨next, rest, hnext, hrest⟩ := hmore.exists_spell
          refine ⟨.group inner next, rest, ?_, hrest⟩
          rw [hv, hnext]
          simp [Grouped.spell]
      · rw [rise, if_neg hopen, if_neg hclose, Int.add_zero] at hrest
        exact ⟨.char c hopen hclose inner, rest, congrArg (c :: ·) hv, hrest⟩
termination_by v => v.length
decreasing_by
  · exact Nat.lt_succ_self _
  · simp only [hv, List.length_cons, List.length_append]
    omega

/-- A closing brace that has its partner in front ends text with groups. -/
theorem Grouped.eq_of_spell_append {g g' : Grouped} {r r' : Text}
    (h : g.spell ++ '}' :: r = g'.spell ++ '}' :: r') : g = g' ∧ r = r' := by
  induction g generalizing g' r r' with
  | nil =>
    cases g' with
    | nil => exact ⟨rfl, (List.cons.inj h).2⟩
    | char c _ hclose => exact absurd (List.cons.inj h).1.symm hclose
    | group => exact absurd (List.cons.inj h).1 (by decide)
  | char c hopen hclose more ih =>
    cases g' with
    | nil => exact absurd (List.cons.inj h).1 hclose
    | char c' _ _ more' =>
      obtain ⟨rfl, hmore⟩ := List.cons.inj h
      obtain ⟨rfl, hrest⟩ := ih hmore
      exact ⟨rfl, hrest⟩
    | group => exact absurd (List.cons.inj h).1 hopen
  | group inner more ihinner ihmore =>
    cases g' with
    | nil => exact absurd (List.cons.inj h).1 (by decide)
    | char c hopen => exact absurd (List.cons.inj h).1.symm hopen
    | group inner' more' =>
      simp only [spell, List.cons_append, List.append_assoc] at h
      obtain ⟨rfl, hmore⟩ := ihinner (List.cons.inj h).2
      obtain ⟨rfl, hrest⟩ := ihmore hmore
      exact ⟨rfl, hrest⟩

/-- A balanced value is text with groups in one way. -/
theorem Balanced.exists_spell_iff {v : Text} (h : Balanced v) :
    ∃ g : Grouped, ∀ g' : Grouped, g'.spell = v ↔ g' = g := by
  obtain ⟨g, rest, hv, ⟨rfl, _⟩ | ⟨more, rfl, hmore⟩⟩ := h.closes.exists_spell
  · rw [List.append_nil] at hv
    refine ⟨g, fun g' => ⟨fun hg => ?_, fun hg => hg ▸ hv.symm⟩⟩
    have hspell : g'.spell ++ ['}'] = g.spell ++ ['}'] := by rw [hg, hv]
    exact (Grouped.eq_of_spell_append hspell).1
  · have hfront := hmore.front (List.nil_prefix ..)
    rw [level_nil] at hfront
    omega

/-! ### The cleaning of groups -/

theorem head?_spell_append (inner : Grouped) (r : Text) :
    (inner.spell ++ '}' :: r).head? = some '\\' ↔ inner.isCommand = true := by
  cases inner <;> simp [Grouped.isCommand, Grouped.spell]

theorem dropBraces_char {c : Char} (hopen : c ≠ '{') (hclose : c ≠ '}') (k : Nat) (s : Text) :
    dropBraces k (c :: s) = c :: dropBraces k s := by
  rw [dropBraces_cons, if_neg hopen, if_neg hclose]

theorem dropBraces_closing (k : Nat) (s : Text) :
    dropBraces k ('}' :: s) = List.replicate (min k 1) '}' ++ dropBraces (k - 1) s := by
  cases k with
  | zero => rfl
  | succ k =>
    rw [Nat.min_eq_right (Nat.le_add_left 1 k)]
    rfl

section

variable {inner : Grouped} (more : Grouped)

theorem dropBraces_command (h : inner.isCommand = true) (k : Nat) (r : Text) :
    dropBraces k ((Grouped.group inner more).spell ++ r) =
      '{' :: dropBraces (k + 1) (inner.spell ++ '}' :: (more.spell ++ r)) := by
  rw [Grouped.spell, List.cons_append, List.append_assoc, List.cons_append, dropBraces_cons,
    if_pos rfl, if_pos ((head?_spell_append inner _).2 h)]

theorem dropBraces_pair (h : inner.isCommand = false) (k : Nat) (r : Text) :
    dropBraces k ((Grouped.group inner more).spell ++ r) =
      dropBraces k (inner.spell ++ '}' :: (more.spell ++ r)) := by
  have hhead : ¬(inner.spell ++ '}' :: (more.spell ++ r)).head? = some '\\' := by
    rw [head?_spell_append, h]
    exact Bool.false_ne_true
  rw [Grouped.spell, List.cons_append, List.append_assoc, List.cons_append, dropBraces_cons,
    if_pos rfl, if_neg hhead]

end

@[simp] theorem bare_nil (p : Char → Bool) : Bare p [] := fun _ hc => absurd hc List.not_mem_nil

theorem bare_cons {p : Char → Bool} {c : Char} {t : Text} :
    Bare p (c :: t) ↔ (p c = true → c = '{' ∨ c = '}') ∧ Bare p t := List.forall_mem_cons

theorem bare_append_closing {p : Char → Bool} {t s : Text} :
    Bare p (t ++ '}' :: s) ↔ Bare p t ∧ Bare p s := by
  simp only [Bare, List.forall_mem_append, List.forall_mem_cons]
  tauto

theorem bare_cons_of_neg {p : Char → Bool} {c : Char} (hc : ¬p c = true) {t : Text} :
    Bare p (c :: t) ↔ Bare p t := by
  rw [bare_cons]
  exact and_iff_right fun h => absurd h hc

namespace Grouped

variable {p : Char → Bool} (inner more : Grouped)

theorem bare_spell_group :
    Bare p (group inner more).spell ↔ Bare p inner.spell ∧ Bare p more.spell := by
  rw [spell, bare_cons, bare_append_closing]
  exact and_iff_right fun _ => .inl rfl

theorem pairs_group : (group inner more).pairs =
    inner.pairs + more.pairs + if inner.isCommand = false then 1 else 0 := by
  rw [pairs, groups, List.countP_cons, List.countP_append, List.countP_map]
  simp only [Bool.not_eq_true']
  rfl

section

variable {inner}

theorem unwrap_command (h : inner.isCommand = true) :
    (group inner more).unwrap = '{' :: (inner.unwrap ++ '}' :: more.unwrap) := by
  rw [unwrap, if_pos h]

theorem unwrap_pair (h : inner.isCommand = false) :
    (group inner more).unwrap = inner.unwrap ++ more.unwrap := by
  rw [unwrap, h, if_neg Bool.false_ne_true]

theorem pairs_command (h : inner.isCommand = true) :
    (group inner more).pairs = inner.pairs + more.pairs := by
  rw [pairs_group, if_neg (by rw [h]; decide), Nat.add_zero]

theorem pairs_pair (h : inner.isCommand = false) :
    (group inner more).pairs = inner.pairs + (1 + more.pairs) := by
  rw [pairs_group, if_pos h]
  omega

end

theorem pairs_pos_iff {g : Grouped} :
    0 < g.pairs ↔ ∃ pair ∈ g.groups, pair.1.isCommand = false := by
  simp [pairs, List.countP_pos_iff]

theorem endsInPairs_group : (group inner more).EndsInPairs p ↔
    (inner.isCommand = false ∨ 0 < inner.pairs → Bare p more.spell) ∧ inner.EndsInPairs p ∧
      more.EndsInPairs p := by
  simp only [EndsInPairs, groups, List.forall_mem_cons, List.forall_mem_append,
    List.forall_mem_map, bare_append_closing, pairs_pos_iff]
  constructor
  · rintro ⟨hhere, hinner, hmore⟩
    refine ⟨?_, fun pair hpair hkind => (hinner pair hpair hkind).1, hmore⟩
    rintro (hkind | ⟨pair, hpair, hkind⟩)
    · exact hhere hkind
    · exact (hinner pair hpair hkind).2
  · rintro ⟨hbehind, hinner, hmore⟩
    exact ⟨fun hkind => hbehind (.inl hkind), fun pair hpair hkind =>
      ⟨hinner pair hpair hkind, hbehind (.inr ⟨pair, hpair, hkind⟩)⟩, hmore⟩

theorem pairsLast_group : (group inner more).PairsLast p ↔
    (inner.isCommand = true → inner.EndsInPairs p) ∧ inner.PairsLast p ∧ more.PairsLast p := by
  simp only [PairsLast, groups, List.forall_mem_cons, List.forall_mem_append, List.forall_mem_map]

/-- Where no character stands behind a pair, none does in the groups of commands. -/
theorem EndsInPairs.pairsLast {g : Grouped} (h : g.EndsInPairs p) : g.PairsLast p := by
  induction g with
  | nil => exact fun _ hmem => absurd hmem List.not_mem_nil
  | char c hopen hclose more ih => exact ih h
  | group inner more ihinner ihmore =>
    obtain ⟨_, hinner, hmore⟩ := (endsInPairs_group inner more).1 h
    exact (pairsLast_group inner more).2 ⟨fun _ => hinner, ihinner hinner, ihmore hmore⟩

end Grouped

theorem replicate_append_cons_iff {n : Nat} {c : Char} (hc : c ≠ '}') {s t : Text} :
    List.replicate n '}' ++ c :: s = c :: t ↔ n = 0 ∧ s = t := by
  cases n with
  | zero => simp
  | succ n => simp [List.replicate_succ, hc.symm]

/-- The group of a command holds more than braces. -/
theorem Grouped.not_bare_of_isCommand {p : Char → Bool} (hslash : p '\\' = true) {g : Grouped}
    (h : g.isCommand = true) : ¬Bare p g.spell := by
  intro hbare
  have hmem : '\\' ∈ g.spell := List.mem_of_mem_head? (of_decide_eq_true h)
  exact absurd (hbare '\\' hmem hslash) (by decide)

section

variable {p : Char → Bool} (hopen : p '{' = true) (hclose : p '}' = true)

include hclose

/-- What is ahead of the expected text grows by a closing brace where the reader writes one, and
keeps to all that are expected where the reader counts no open command. -/
theorem filter_dropBraces_closing {K k : Nat} (hk : k ≤ K) (s : Text) :
    List.replicate (K - k) '}' ++ (dropBraces k ('}' :: s)).filter p =
      List.replicate (K - (k - 1)) '}' ++ (dropBraces (k - 1) s).filter p := by
  have hcount : K - k + min k 1 = K - (k - 1) := by omega
  rw [dropBraces_closing, List.filter_append, List.filter_replicate, if_pos hclose,
    ← List.append_assoc, List.replicate_append_replicate, hcount]

include hopen

variable (hslash : p '\\' = true)

include hslash

/-- Inside the groups of `K` commands of which the reader counts `k` as open, it is `K - k` closing
braces ahead of the expected text. It stays with this text just if nothing that counts follows while
it is ahead, be it from the beginning or behind a protecting pair. -/
theorem filter_dropBraces_inside {g : Grouped} {K k : Nat} (hK : 0 < K) (hk : k ≤ K) {r z : Text} :
    List.replicate (K - k) '}' ++ (dropBraces k (g.spell ++ r)).filter p = g.unwrap.filter p ++ z ↔
      (k < K → Bare p g.spell) ∧ g.EndsInPairs p ∧
        List.replicate (K - (k - g.pairs)) '}' ++ (dropBraces (k - g.pairs) r).filter p = z := by
  induction g generalizing K k r z with
  | nil => simp [Grouped.spell, Grouped.unwrap, Grouped.EndsInPairs, Grouped.pairs, Grouped.groups]
  | char c hopen' hclose' more ih =>
    rw [Grouped.spell, List.cons_append, dropBraces_char hopen' hclose', Grouped.unwrap]
    change _ ↔ _ ∧ more.EndsInPairs p ∧ List.replicate (K - (k - more.pairs)) '}' ++
      (dropBraces (k - more.pairs) r).filter p = z
    by_cases hc : p c = true
    · rw [List.filter_cons_of_pos hc, List.filter_cons_of_pos hc, List.cons_append,
        replicate_append_cons_iff hclose']
      rcases Nat.lt_or_eq_of_le hk with hlt | rfl
      · refine iff_of_false (fun h => ?_) fun h => ?_
        · exact absurd (Nat.le_of_sub_eq_zero h.1) (Nat.not_le_of_lt hlt)
        · exact ((bare_cons.1 (h.1 hlt)).1 hc).elim hopen' hclose'
      · have hmore := ih hK (Nat.le_refl k) (r := r) (z := z)
        simp only [Nat.sub_self, List.replicate_zero, List.nil_append, Nat.lt_irrefl,
          false_imp_iff, true_and] at hmore ⊢
        exact hmore
    · rw [List.filter_cons_of_neg hc, List.filter_cons_of_neg hc, ih hK hk, bare_cons_of_neg hc]
  | group inner more ihinner ihmore =>
    cases hkind : inner.isCommand with
    | true =>
      rw [dropBraces_command more hkind, Grouped.unwrap_command more hkind,
        Grouped.endsInPairs_group, Grouped.pairs_command more hkind, List.filter_cons_of_pos hopen,
        List.filter_cons_of_pos hopen, List.cons_append, replicate_append_cons_iff (by decide)]
      rcases Nat.lt_or_eq_of_le hk with hlt | rfl
      · refine iff_of_false (fun h => ?_) fun h => ?_
        · exact absurd (Nat.le_of_sub_eq_zero h.1) (Nat.not_le_of_lt hlt)
        · have hbare := (inner.bare_spell_group more).1 (h.1 hlt)
          exact inner.not_bare_of_isCommand hslash hkind hbare.1
      · have hinner := ihinner (Nat.succ_pos k) (Nat.le_refl (k + 1))
          (r := '}' :: (more.spell ++ r)) (z := '}' :: (more.unwrap.filter p ++ z))
        have hmore := ihmore hK (Nat.sub_le k inner.pairs) (r := r) (z := z)
        have hopened : k + 1 - inner.pairs - 1 = k - inner.pairs := by omega
        have hahead : k + 1 - (k - inner.pairs) = k - (k - inner.pairs) + 1 := by omega
        have hbehind : k - inner.pairs < k ↔ 0 < inner.pairs := by omega
        rw [filter_dropBraces_closing hclose (Nat.sub_le ..), hopened, hahead, List.replicate_succ,
          List.cons_append, List.cons_inj_right, hmore, hbehind, Nat.sub_sub] at hinner
        simp only [Nat.sub_self, List.replicate_zero, List.nil_append, Nat.lt_irrefl,
          false_imp_iff, true_and] at hinner ⊢
        rw [List.filter_append, List.filter_cons_of_pos hclose, List.append_assoc, List.cons_append,
          hinner]
        simp only [hkind, Bool.true_eq_false, false_or]
        constructor
        · rintro ⟨hpairs, hbare, hmore, hrest⟩
          exact ⟨⟨hbare, hpairs, hmore⟩, hrest⟩
        · rintro ⟨⟨hbare, hpairs, hmore⟩, hrest⟩
          exact ⟨hpairs, hbare, hmore, hrest⟩
    | false =>
      have hinner := ihinner hK hk (r := '}' :: (more.spell ++ r)) (z := more.unwrap.filter p ++ z)
      have hle : k - inner.pairs - 1 ≤ K := by omega
      have hlt : k - inner.pairs - 1 < K := by omega
      have hleft : k - inner.pairs - 1 - more.pairs = k - (inner.pairs + (1 + more.pairs)) := by
        rw [Nat.sub_sub, Nat.sub_sub]
      rw [filter_dropBraces_closing hclose (Nat.le_trans (Nat.sub_le ..) hk), ihmore hK hle,
        hleft] at hinner
      rw [dropBraces_pair more hkind, Grouped.unwrap_pair more hkind, Grouped.endsInPairs_group,
        Grouped.pairs_pair more hkind, List.filter_append, List.append_assoc, hinner,
        Grouped.bare_spell_group]
      simp only [hlt, hkind, true_imp_iff, true_or]
      constructor
      · rintro ⟨hhere, hpairs, hbare, hmore, hrest⟩
        exact ⟨fun hahead => ⟨hhere hahead, hbare⟩, ⟨hbare, hpairs, hmore⟩, hrest⟩
      · rintro ⟨hhere, ⟨hbare, hpairs, hmore⟩, hrest⟩
        exact ⟨fun hahead => (hhere hahead).1, hpairs, hbare, hmore, hrest⟩

/-- Outside the groups of commands the reader is never ahead of the expected text. -/
theorem filter_dropBraces {g : Grouped} {r z : Text} :
    (dropBraces 0 (g.spell ++ r)).filter p = g.unwrap.filter p ++ z ↔
      g.PairsLast p ∧ (dropBraces 0 r).filter p = z := by
  induction g generalizing r z with
  | nil => simp [Grouped.spell, Grouped.unwrap, Grouped.PairsLast, Grouped.groups]
  | char c hopen' hclose' more ih =>
    rw [Grouped.spell, List.cons_append, dropBraces_char hopen' hclose', Grouped.unwrap]
    change _ ↔ more.PairsLast p ∧ _
    by_cases hc : p c = true
    · rw [List.filter_cons_of_pos hc, List.filter_cons_of_pos hc, List.cons_append,
        List.cons_inj_right, ih]
    · rw [List.filter_cons_of_neg hc, List.filter_cons_of_neg hc, ih]
  | group inner more ihinner ihmore =>
    rw [Grouped.pairsLast_group]
    cases hkind : inner.isCommand with
    | true =>
      have hinner := filter_dropBraces_inside hopen hclose hslash (g := inner) Nat.one_pos
        (Nat.le_refl 1) (r := '}' :: (more.spell ++ r)) (z := '}' :: (more.unwrap.filter p ++ z))
      have hclosed : 1 - inner.pairs - 1 = 0 := by omega
      rw [filter_dropBraces_closing hclose (Nat.sub_le ..), hclosed, Nat.sub_zero,
        List.replicate_one, List.singleton_append, List.cons_inj_right, ihmore] at hinner
      simp only [Nat.sub_self, List.replicate_zero, List.nil_append, Nat.lt_irrefl,
        false_imp_iff, true_and] at hinner
      rw [dropBraces_command more hkind, Grouped.unwrap_command more hkind,
        List.filter_cons_of_pos hopen, List.filter_cons_of_pos hopen, List.cons_append,
        List.cons_inj_right, List.filter_append, List.filter_cons_of_pos hclose,
        List.append_assoc, List.cons_append, Nat.zero_add, hinner]
      constructor
      · rintro ⟨hpairs, hmore, hrest⟩
        exact ⟨⟨fun _ => hpairs, hpairs.pairsLast, hmore⟩, hrest⟩
      · rintro ⟨⟨hpairs, _, hmore⟩, hrest⟩
        exact ⟨hpairs rfl, hmore, hrest⟩
    | false =>
      rw [dropBraces_pair more hkind, Grouped.unwrap_pair more hkind, List.filter_append,
        List.append_assoc, ihinner, dropBraces_closing, Nat.zero_min, List.replicate_zero,
        List.nil_append, Nat.zero_sub, ihmore, ← and_assoc]
      simp only [Bool.false_eq_true, false_imp_iff, true_and]

end

/-- All but the closing braces of a text with groups is as expected, and each of its protecting
pairs takes a closing brace from a command that is open in front of the text. -/
theorem exists_dropBraces (g : Grouped) (k : Nat) :
    ∃ d : Text, (∀ r, dropBraces k (g.spell ++ r) = d ++ dropBraces (k - g.pairs) r) ∧
      d.filter (· != '}') = g.unwrap.filter (· != '}') ∧
      d.count '}' = g.unwrap.count '}' + min k g.pairs := by
  induction g generalizing k with
  | nil =>
    exact ⟨[], fun _ => rfl, rfl, by simp [Grouped.unwrap, Grouped.pairs, Grouped.groups]⟩
  | char c hopen hclose more ih =>
    obtain ⟨d, hd, hothers, hcount⟩ := ih k
    have hc : (c != '}') = true := bne_iff_ne.2 hclose
    refine ⟨c :: d, fun r => ?_, ?_, ?_⟩
    · rw [Grouped.spell, List.cons_append, dropBraces_char hopen hclose, hd]
      rfl
    · rw [Grouped.unwrap, List.filter_cons_of_pos (p := (· != '}')) hc, hothers,
        List.filter_cons_of_pos (p := (· != '}')) hc]
    · rw [Grouped.unwrap, List.count_cons_of_ne hclose, List.count_cons_of_ne hclose, hcount]
      rfl
  | group inner more ihinner ihmore =>
    have hclosing (n : Nat) (s : Text) :
        (List.replicate n '}' ++ s).filter (· != '}') = s.filter (· != '}') := by
      rw [List.filter_append, List.filter_replicate, if_neg (by decide), List.nil_append]
    cases hkind : inner.isCommand with
    | true =>
      obtain ⟨d, hd, hothers, hcount⟩ := ihinner (k + 1)
      obtain ⟨d', hd', hothers', hcount'⟩ := ihmore (k - inner.pairs)
      have hopened : k + 1 - inner.pairs - 1 = k - inner.pairs := by omega
      rw [Grouped.unwrap_command more hkind, Grouped.pairs_command more hkind]
      refine ⟨'{' :: (d ++ (List.replicate (min (k + 1 - inner.pairs) 1) '}' ++ d')), fun r => ?_,
        ?_, ?_⟩
      · rw [dropBraces_command more hkind, hd, dropBraces_closing, hopened, hd', Nat.sub_sub]
        simp only [List.cons_append, List.append_assoc]
      · rw [List.filter_cons_of_pos (by decide), List.filter_append, hclosing, hothers, hothers',
          List.filter_cons_of_pos (by decide), List.filter_append,
          List.filter_cons_of_neg (by decide)]
      · rw [List.count_cons_of_ne (by decide), List.count_append, List.count_append,
          List.count_replicate_self, hcount, hcount', List.count_cons_of_ne (by decide),
          List.count_append, List.count_cons_self]
        omega
    | false =>
      obtain ⟨d, hd, hothers, hcount⟩ := ihinner k
      obtain ⟨d', hd', hothers', hcount'⟩ := ihmore (k - inner.pairs - 1)
      rw [Grouped.unwrap_pair more hkind, Grouped.pairs_pair more hkind]
      refine ⟨d ++ (List.replicate (min (k - inner.pairs) 1) '}' ++ d'), fun r => ?_, ?_, ?_⟩
      · rw [dropBraces_pair more hkind, hd, dropBraces_closing, hd', Nat.sub_sub, Nat.sub_sub]
        simp only [List.append_assoc]
      · rw [List.filter_append, hclosing, hothers, hothers', List.filter_append]
      · rw [List.count_append, List.count_append, List.count_replicate_self, hcount, hcount',
          List.count_append]
        omega

/-- Cleaning misplaces closing braces and nothing else. -/
theorem dropBraces_spell (g : Grouped) :
    (dropBraces 0 g.spell).filter (· != '}') = g.unwrap.filter (· != '}') ∧
      (dropBraces 0 g.spell).Perm g.unwrap := by
  obtain ⟨d, hd, hothers, hcount⟩ := exists_dropBraces g 0
  have hspell := hd []
  rw [List.append_nil, dropBraces, List.append_nil] at hspell
  rw [Nat.zero_min, Nat.add_zero] at hcount
  rw [hspell]
  refine ⟨hothers, List.perm_iff_count.2 fun c => ?_⟩
  by_cases hc : c = '}'
  · rw [hc, hcount]
  · have hpos : (c != '}') = true := bne_iff_ne.2 hc
    rw [← List.count_filter (p := (· != '}')) hpos, hothers,
      List.count_filter (p := (· != '}')) hpos]

/-- What counts of a balanced value is cleaned as expected just if none of it stands behind a
protecting pair in the group of a command. -/
theorem filter_dropBraces_spell_iff {p : Char → Bool} (hopen : p '{' = true) (hclose : p '}' = true)
    (hslash : p '\\' = true) (g : Grouped) :
    (dropBraces 0 g.spell).filter p = g.unwrap.filter p ↔ g.PairsLast p := by
  have h := filter_dropBraces hopen hclose hslash (g := g) (r := []) (z := [])
  simpa [dropBraces] using h

/-- A balanced value is text with groups in one way. Nothing but closing braces stands elsewhere in
it than expected when it is cleaned. It is the text without its protecting pairs if only braces
stand behind one in the group of a command, and only if nothing but braces and blanks does. -/
theorem cleanValue_of_balanced {v : Text} (h : Balanced v) :
    ∃ g : Grouped, (∀ g' : Grouped, g'.spell = v ↔ g' = g) ∧
      (dropBraces 0 v).Perm g.unwrap ∧
      (dropBraces 0 v).filter (· != '}') = g.unwrap.filter (· != '}') ∧
      (dropBraces 0 v = g.unwrap ↔ g.PairsLast fun _ => true) ∧
      ((g.PairsLast fun _ => true) → cleanValue v = squeeze g.unwrap) ∧
      (cleanValue v = squeeze g.unwrap → g.PairsLast fun c => !c.isBlank) := by
  obtain ⟨g, hg⟩ := h.exists_spell_iff
  obtain rfl : g.spell = v := (hg g).2 rfl
  obtain ⟨hothers, hperm⟩ := dropBraces_spell g
  have hexact := filter_dropBraces_spell_iff (p := fun _ => true) rfl rfl rfl g
  rw [List.filter_true, List.filter_true] at hexact
  refine ⟨g, hg, hperm, hothers, hexact, fun hlast => ?_, fun hclean => ?_⟩
  · rw [cleanValue, hexact.2 hlast]
  · have hfilter := congrArg (List.filter fun c => !c.isBlank) hclean
    rw [cleanValue, filter_squeeze, filter_squeeze] at hfilter
    exact (filter_dropBraces_spell_iff (by decide) (by decide) (by decide) g).1 hfilter

/-- The word in braces ends the emphasis, and the brace that should end it is lost. -/
theorem cleanValue_of_balanced_emphasis :
    Balanced ("\x7b\\em \x7bA\x7d b\x7d" : Text) ∧
      cleanValue ("\x7b\\em \x7bA\x7d b\x7d" : Text) = ("\x7b\\em A\x7d b" : Text) ∧
      ∃ g : Grouped, g.spell = ("\x7b\\em \x7bA\x7d b\x7d" : Text) ∧
        squeeze g.unwrap = ("\x7b\\em A b\x7d" : Text) ∧ ¬g.PairsLast fun _ => true := by
  have hbalanced : Balanced ("\x7b\\em \x7bA\x7d b\x7d" : Text) := by decide_cbv
  obtain ⟨g, hg, _, _, hexact, _⟩ := cleanValue_of_balanced hbalanced
  have htree : Grouped.group
      (.char '\\' (by decide) (by decide) (.char 'e' (by decide) (by decide)
        (.char 'm' (by decide) (by decide) (.char ' ' (by decide) (by decide)
          (.group (.char 'A' (by decide) (by decide) .nil)
            (.char ' ' (by decide) (by decide) (.char 'b' (by decide) (by decide) .nil)))))))
      .nil = g := (hg _).1 (by decide_cbv)
  subst htree
  exact ⟨hbalanced, by decide_cbv, _, by decide_cbv, by decide_cbv,
    fun hlast => absurd (hexact.2 hlast) (by decide_cbv)⟩

end Bibliography.Bibtex

end TexCatalog
