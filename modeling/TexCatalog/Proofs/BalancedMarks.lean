import TexCatalog.Proofs.TopLevelParts

/-!
# Balanced marks

Where a group ends can be said by counting: no front of its content has more closing marks than
opening ones, and the content has as many of both. Braces are counted outside escapes, brackets
outside escapes and braces. A reader that keeps the difference in a signed number stops where the
number would fall below that of the groups around it, so what it reads is just what is balanced.
-/

namespace TexCatalog

namespace Source

open Text

/-- Two marks that open and close groups, and the places of a text where they count. -/
structure Marks where
  opening : Char
  closing : Char
  counts : Nesting → Bool
  opening_ne_closing : opening ≠ closing

namespace Marks

def braces : Marks := ⟨'{', '}', fun n => !n.escaped, by decide⟩

def brackets : Marks := ⟨'[', ']', fun n => n = .top, by decide⟩

def counted (m : Marks) : Nesting → Text → Text
  | _, [] => []
  | n, c :: s => if m.counts n then c :: counted m (n.step c) s else counted m (n.step c) s

def level (m : Marks) (n : Nesting) (t : Text) : Int :=
  (m.counted n t).count m.opening - (m.counted n t).count m.closing

def rise (m : Marks) (n : Nesting) (c : Char) : Int :=
  if m.counts n then if c = m.opening then 1 else if c = m.closing then -1 else 0 else 0

/-- In no front of the text are there more closing marks than opening ones, in all of it there are
as many of both, and a mark behind it counts. -/
structure Balances (m : Marks) (v : Text) : Prop where
  front {u : Text} : u <+: v →
    (m.counted .top u).count m.closing ≤ (m.counted .top u).count m.opening
  total : (m.counted .top v).count m.closing = (m.counted .top v).count m.opening
  ending : m.counts (Nesting.top.behind v)

/-- The text up to the mark that closes a group in which `depth` more groups are open. -/
def close (m : Marks) : Int → Nesting → Text → Option (Text × Text)
  | _, _, [] => none
  | depth, n, c :: s =>
    if m.counts n ∧ c = m.closing ∧ depth = 0 then some ([], s)
    else (close m (depth + m.rise n c) (n.step c) s).map (onto [c])

/-- The text closes `depth` groups that are open in front of it, and all that it opens. -/
structure Closes (m : Marks) (depth : Int) (n : Nesting) (v : Text) : Prop where
  front {u : Text} : u <+: v → 0 ≤ depth + m.level n u
  total : depth + m.level n v = 0
  ending : m.counts (n.behind v)

/-- A front of a text that begins with an opening mark is passed by a reader if it does not reach
beyond what is read. Where the group does not end, every front is passed. -/
structure Passes (m : Marks) (read : Option (Text × Text)) (s u : Text) : Prop where
  begins : s.head? = some m.opening
  front : u <+: s
  within : ∀ p ∈ read, u.length + p.2.length ≤ s.length

section

variable (m : Marks) {n : Nesting} {depth : Int}

@[simp] theorem level_nil (n : Nesting) : m.level n [] = 0 := rfl

theorem level_cons (n : Nesting) (c : Char) (s : Text) :
    m.level n (c :: s) = m.rise n c + m.level (n.step c) s := by
  have hne := m.opening_ne_closing
  unfold level rise
  rw [counted]
  by_cases hcounts : m.counts n
  · rw [if_pos hcounts, if_pos hcounts, List.count_cons, List.count_cons]
    by_cases hopen : c = m.opening
    · simp [hopen, hne]
      omega
    · by_cases hclose : c = m.closing
      · simp [hclose, Ne.symm hne]
        omega
      · simp [hopen, hclose]
  · rw [if_neg hcounts, if_neg hcounts, Int.zero_add]

theorem rise_closing {c : Char} (hcounts : m.counts n) (hc : c = m.closing) : m.rise n c = -1 := by
  rw [rise, if_pos hcounts, hc, if_neg (Ne.symm m.opening_ne_closing), if_pos rfl]

/-- A character that closes no group that is not open leaves none less than none. -/
theorem rise_nonneg {c : Char} (hdepth : 0 ≤ depth)
    (h : ¬(m.counts n ∧ c = m.closing ∧ depth = 0)) : 0 ≤ depth + m.rise n c := by
  unfold rise
  split_ifs with hcounts hopen hclose
  · omega
  · have hpos : depth ≠ 0 := fun hzero => h ⟨hcounts, hclose, hzero⟩
    omega
  · omega
  · omega

theorem closes_nil : m.Closes depth n [] ↔ depth = 0 ∧ m.counts n := by
  constructor
  · intro h
    have htotal := h.total
    rw [level_nil] at htotal
    exact ⟨by omega, h.ending⟩
  · rintro ⟨rfl, hcounts⟩
    refine ⟨fun hu => ?_, rfl, hcounts⟩
    rw [List.prefix_nil.1 hu]
    exact Int.le_refl 0

theorem closes_cons {c : Char} {v : Text} :
    m.Closes depth n (c :: v) ↔ 0 ≤ depth ∧ m.Closes (depth + m.rise n c) (n.step c) v := by
  constructor
  · intro h
    have htotal := h.total
    rw [level_cons] at htotal
    refine ⟨by simpa using h.front (List.nil_prefix ..), fun {u} hu => ?_, by omega, h.ending⟩
    have hfront := h.front ((List.prefix_cons_inj c).2 hu)
    rw [level_cons] at hfront
    omega
  · rintro ⟨hdepth, h⟩
    have htotal := h.total
    refine ⟨fun {u} hu => ?_, by rw [level_cons]; omega, h.ending⟩
    cases u with
    | nil => simpa using hdepth
    | cons d u =>
      obtain ⟨rfl, hfront⟩ := List.cons_prefix_cons.1 hu
      have hlevel := h.front hfront
      rw [level_cons]
      omega

/-- A text is read up to the closing mark just if it closes what is open in front of it. -/
theorem close_eq_some_iff {s v r : Text} (hdepth : 0 ≤ depth) :
    m.close depth n s = some (v, r) ↔ s = v ++ m.closing :: r ∧ m.Closes depth n v := by
  induction s generalizing depth n v with
  | nil => simp [close]
  | cons c s ih =>
    rw [close]
    by_cases hend : m.counts n ∧ c = m.closing ∧ depth = 0
    · obtain ⟨hcounts, rfl, rfl⟩ := hend
      rw [if_pos ⟨hcounts, rfl, rfl⟩]
      constructor
      · intro h
        cases h
        exact ⟨rfl, m.closes_nil.2 ⟨rfl, hcounts⟩⟩
      · rintro ⟨hs, hcloses⟩
        cases v with
        | nil =>
          cases hs
          rfl
        | cons d v =>
          obtain ⟨rfl, _⟩ := List.cons.inj hs
          have hfront := ((m.closes_cons).1 hcloses).2.front (List.nil_prefix ..)
          rw [level_nil, m.rise_closing hcounts rfl] at hfront
          omega
    · have hrise := m.rise_nonneg hdepth hend
      rw [if_neg hend]
      constructor
      · intro h
        obtain ⟨w, rfl, hw⟩ := exists_of_map_onto h
        obtain ⟨rfl, hcloses⟩ := (ih hrise).1 hw
        exact ⟨rfl, m.closes_cons.2 ⟨hdepth, hcloses⟩⟩
      · rintro ⟨hs, hcloses⟩
        cases v with
        | nil =>
          obtain ⟨hzero, hcounts⟩ := m.closes_nil.1 hcloses
          exact absurd ⟨hcounts, (List.cons.inj hs).1, hzero⟩ hend
        | cons d v =>
          obtain ⟨rfl, hrest⟩ := List.cons.inj hs
          have hw := (ih hrise).2 ⟨hrest, (m.closes_cons.1 hcloses).2⟩
          exact map_onto_eq_some.2 hw

/-- What is read up to a closing mark does not depend on what stands behind the mark. -/
theorem close_stops {s v r : Text} (hdepth : 0 ≤ depth) (h : m.close depth n s = some (v, r))
    (t : Text) : m.close depth n (v ++ m.closing :: t) = some (v, t) :=
  (m.close_eq_some_iff hdepth).2 ⟨rfl, ((m.close_eq_some_iff hdepth).1 h).2⟩

/-- Until the group ends, which is open itself, no group is closed that is not open. -/
theorem level_nonneg {s u : Text} (hdepth : 0 ≤ depth) (hu : u <+: s)
    (h : ∀ p ∈ m.close depth n s, u.length + p.2.length ≤ s.length) :
    0 ≤ depth + 1 + m.level n u := by
  induction s generalizing depth n u with
  | nil =>
    rw [List.prefix_nil.1 hu, level_nil]
    omega
  | cons c s ih =>
    cases u with
    | nil =>
      rw [level_nil]
      omega
    | cons d u =>
      obtain ⟨rfl, hfront⟩ := List.cons_prefix_cons.1 hu
      rw [close] at h
      rw [level_cons]
      by_cases hend : m.counts n ∧ d = m.closing ∧ depth = 0
      · rw [if_pos hend] at h
        have hlength := h _ rfl
        have hnil : u = [] := List.eq_nil_of_length_eq_zero (by simp at hlength; omega)
        rw [hnil, level_nil, m.rise_closing hend.1 hend.2.1]
        omega
      · rw [if_neg hend] at h
        have hwithin : ∀ p ∈ m.close (depth + m.rise n d) (n.step d) s,
            u.length + p.2.length ≤ s.length := by
          intro p hp
          have hlength := h (onto [d] p) (Option.mem_map_of_mem (onto [d]) hp)
          simp only [onto, List.length_cons] at hlength
          omega
        have hmore := ih (m.rise_nonneg hdepth hend) hfront hwithin
        omega

end

/-! ### The readers of groups -/

section

variable (m : Marks) {n : Nesting} (depth : Nat) (s : Text)

theorem close_zero (hcounts : m.counts n) : m.close 0 n (m.closing :: s) = some ([], s) := by
  rw [close, if_pos ⟨hcounts, rfl, rfl⟩]

theorem close_closing (hcounts : m.counts n) : m.close (depth + 1 : Nat) n (m.closing :: s) =
    (m.close depth (n.step m.closing) s).map (onto [m.closing]) := by
  have hdepth : ((depth + 1 : Nat) : Int) + m.rise n m.closing = depth := by
    rw [m.rise_closing hcounts rfl]
    omega
  rw [close, if_neg fun h => by omega, hdepth]

theorem close_opening (hcounts : m.counts n) : m.close depth n (m.opening :: s) =
    (m.close (depth + 1 : Nat) (n.step m.opening) s).map (onto [m.opening]) := by
  have hrise : m.rise n m.opening = 1 := by rw [rise, if_pos hcounts, if_pos rfl]
  rw [close, if_neg fun h => m.opening_ne_closing h.2.1, hrise]
  rfl

theorem close_other {c : Char} (h : m.counts n → c ≠ m.opening ∧ c ≠ m.closing) :
    m.close depth n (c :: s) = (m.close depth (n.step c) s).map (onto [c]) := by
  have hrise : m.rise n c = 0 := by
    unfold rise
    split_ifs with hcounts hopen hclose
    · exact absurd hopen (h hcounts).1
    · exact absurd hclose (h hcounts).2
    · rfl
    · rfl
  rw [close, if_neg fun hend => (h hend.1).2 hend.2.1, hrise, Int.add_zero]

end

theorem closeBrace_eq_close (depth b : Nat) (s : Text) :
    closeBrace depth s = braces.close depth ⟨b, false⟩ s := by
  have hcounts (b : Nat) : braces.counts ⟨b, false⟩ := rfl
  have hslash (b depth : Nat) (s : Text) : braces.close depth ⟨b, false⟩ ('\\' :: s) =
      (braces.close depth ⟨b, true⟩ s).map (onto ['\\']) :=
    braces.close_other depth s fun _ => by decide
  fun_induction closeBrace depth s generalizing b with
  | case1 => rfl
  | case2 depth => rw [hslash, close]; rfl
  | case3 depth d s ih =>
    rw [hslash, braces.close_other depth s (by simp [braces]), Nesting.step_escaped, ih b,
      map_onto_onto]
    rfl
  | case4 depth s _ ih =>
    rw [ih (b + 1)]
    exact (braces.close_opening depth s (hcounts b)).symm
  | case5 s => exact (braces.close_zero s (hcounts b)).symm
  | case6 s _ _ depth ih =>
    rw [ih (b - 1)]
    exact (braces.close_closing _ s (hcounts b)).symm
  | case7 depth c s hne hopen hclose ih =>
    have hother : braces.counts ⟨b, false⟩ → c ≠ braces.opening ∧ c ≠ braces.closing :=
      fun _ => ⟨hopen, hclose⟩
    rw [braces.close_other depth s hother, Nesting.step_char b (by simp [hne, hopen, hclose]),
      ih b]

theorem closeBracket_eq_close (depth b : Nat) (s : Text) :
    closeBracket depth b s = brackets.close depth ⟨b, false⟩ s := by
  have hcounts : brackets.counts ⟨0, false⟩ := rfl
  have hmark (c : Char) (hc : c ∈ ("\\\x7b\x7d" : Text)) (b depth : Nat) (s : Text) :
      brackets.close depth ⟨b, false⟩ (c :: s) =
        (brackets.close depth (Nesting.step ⟨b, false⟩ c) s).map (onto [c]) := by
    apply brackets.close_other depth s
    intro _
    simp only [ofString_eq, String.reduceToList, List.mem_cons, List.not_mem_nil, or_false] at hc
    rcases hc with rfl | rfl | rfl <;> decide
  fun_induction closeBracket depth b s with
  | case1 => rfl
  | case2 depth b => rw [hmark '\\' (by decide_cbv), close]; rfl
  | case3 depth b d s ih =>
    have hescaped : ¬brackets.counts ⟨b, true⟩ := by simp [brackets, Nesting.top]
    rw [hmark '\\' (by decide_cbv), Nesting.step_backslash,
      brackets.close_other depth s fun h => absurd h hescaped, Nesting.step_escaped, ih,
      map_onto_onto]
    rfl
  | case4 depth b s _ ih =>
    rw [hmark '\x7b' (by decide_cbv), Nesting.step_open, ih]
  | case5 depth b s _ _ ih =>
    rw [hmark '\x7d' (by decide_cbv), Nesting.step_close, ih]
  | case6 depth b c s _ _ _ hopen ih =>
    obtain ⟨rfl, rfl⟩ := hopen
    rw [ih]
    exact (brackets.close_opening depth s hcounts).symm
  | case7 b c s _ _ _ _ hclose =>
    obtain ⟨rfl, rfl⟩ := hclose
    exact (brackets.close_zero s hcounts).symm
  | case8 b c s _ _ _ _ hclose depth ih =>
    obtain ⟨rfl, rfl⟩ := hclose
    rw [ih]
    exact (brackets.close_closing depth s hcounts).symm
  | case9 depth b c s hslash hopen hclose hopens hcloses ih =>
    have hother : brackets.counts ⟨b, false⟩ → c ≠ brackets.opening ∧ c ≠ brackets.closing := by
      intro hcounts
      have hb : b = 0 := by simpa [brackets, Nesting.top] using hcounts
      exact ⟨fun hc => hopens ⟨hc, hb⟩, fun hc => hcloses ⟨hc, hb⟩⟩
    rw [brackets.close_other depth s hother, Nesting.step_char b (by simp [hslash, hopen, hclose]),
      ih]

/-- Whether a brace counts does not depend on the number of open braces. -/
theorem counted_braces (e : Bool) (b b' : Nat) (s : Text) :
    braces.counted ⟨b, e⟩ s = braces.counted ⟨b', e⟩ s := by
  induction s generalizing e b b' with
  | nil => rfl
  | cons c s ih =>
    have hstep (b : Nat) :
        ∃ b'', Nesting.step ⟨b, e⟩ c = ⟨b'', (Nesting.step ⟨0, e⟩ c).escaped⟩ := by
      unfold Nesting.step
      split_ifs <;> exact ⟨_, rfl⟩
    obtain ⟨d, hd⟩ := hstep b
    obtain ⟨d', hd'⟩ := hstep b'
    rw [counted, counted, hd, hd', ih _ d d']
    rfl

def read? (m : Marks) : Text → Option (Text × Text)
  | [] => none
  | c :: s => if c = m.opening then m.close 0 .top s else none

theorem braced?_eq_read? (s : Text) : braced? s = braces.read? s := by
  cases s with
  | nil => rfl
  | cons c s =>
    rw [braced?, closeBrace_eq_close 0 0]
    rfl

theorem bracketed?_eq_read? (s : Text) : bracketed? s = brackets.read? s := by
  cases s with
  | nil => rfl
  | cons c s =>
    rw [bracketed?, closeBracket_eq_close 0 0]
    rfl

section

variable {m : Marks} {s u v r : Text}

theorem balances_iff_closes : m.Balances v ↔ m.Closes 0 .top v := by
  constructor
  · intro h
    have htotal := h.total
    refine ⟨fun {u} hu => ?_, ?_, h.ending⟩
    · have hfront := h.front hu
      unfold level
      omega
    · unfold level
      omega
  · intro h
    have htotal := h.total
    unfold level at htotal
    refine ⟨fun {u} hu => ?_, ?_, h.ending⟩
    · have hfront := h.front hu
      unfold level at hfront
      omega
    · omega

theorem read?_eq_some_iff :
    m.read? s = some (v, r) ↔ s = m.opening :: (v ++ m.closing :: r) ∧ m.Balances v := by
  rw [balances_iff_closes]
  cases s with
  | nil => simp [read?]
  | cons c s =>
    rw [read?]
    by_cases hopen : c = m.opening
    · rw [if_pos hopen, m.close_eq_some_iff (Int.le_refl 0), hopen, List.cons.injEq]
      simp
    · simp [hopen]

/-- Where the opening mark does not change what counts behind it, a reader never has closed more
groups than are opened. -/
theorem Passes.level_nonneg (hcounts : m.counts .top)
    (hopening : ∀ t, m.counted (Nesting.top.step m.opening) t = m.counted .top t)
    (h : m.Passes (m.read? s) s u) : 0 ≤ m.level .top u := by
  obtain ⟨hbegins, hfront, hwithin⟩ := h
  cases u with
  | nil => exact Int.le_refl 0
  | cons d u =>
    cases s with
    | nil => cases hbegins
    | cons c s =>
      obtain ⟨rfl, hu⟩ := List.cons_prefix_cons.1 hfront
      obtain rfl : d = m.opening := Option.some.inj hbegins
      rw [read?, if_pos rfl] at hwithin
      have hlevel := m.level_nonneg (Int.le_refl 0) hu fun p hp => by
        have hlength := hwithin p hp
        simp only [List.length_cons] at hlength
        omega
      have hrise : m.rise .top m.opening = 1 := by rw [rise, if_pos hcounts, if_pos rfl]
      have hbehind : m.level (Nesting.top.step m.opening) u = m.level .top u := by
        rw [level, level, hopening]
      rw [level_cons, hrise, hbehind]
      omega

end

end Marks

open Marks

/-- A group in braces is read exactly if its content is balanced in braces, and a group in brackets
exactly if its content is balanced in brackets; then the content and the rest are those of the
group. Up to its end, and without end in a group that is not closed, more is opened than closed. -/
theorem groups_read_iff_balanced (s : Text) :
    (∀ v r, braced? s = some (v, r) ↔ s = '{' :: (v ++ '}' :: r) ∧ braces.Balances v) ∧
      (∀ v r, bracketed? s = some (v, r) ↔ s = '[' :: (v ++ ']' :: r) ∧ brackets.Balances v) ∧
      (∀ u, braces.Passes (braced? s) s u → 0 ≤ braces.level .top u) ∧
      ∀ u, brackets.Passes (bracketed? s) s u → 0 ≤ brackets.level .top u := by
  rw [braced?_eq_read?, bracketed?_eq_read?]
  refine ⟨fun v r => read?_eq_some_iff, fun v r => read?_eq_some_iff, ?_, ?_⟩
  · intro u hu
    exact hu.level_nonneg rfl fun t => counted_braces false 1 0 t
  · intro u hu
    exact hu.level_nonneg rfl fun t => rfl

/-- A closing brace without a partner closes nothing, and a bracket in braces or behind a backslash
is no mark. In a group that is not closed all braces are counted. -/
theorem groups_read_iff_balanced_strayBrace :
    let v : Text := "\x7d\x7b]\x7d\\]"
    let s : Text := "\x7b\x7b\x7d\\\x7d"
    bracketed? ('[' :: (v ++ ']' :: ['x'])) = some (v, ['x']) ∧ brackets.Balances v ∧
      0 ≤ brackets.level .top ('[' :: v) ∧ braced? s = none ∧ 0 ≤ braces.level .top s := by
  intro v s
  obtain ⟨_, hread, _, hbrackets⟩ := groups_read_iff_balanced ('[' :: (v ++ ']' :: ['x']))
  obtain ⟨_, _, hbraces, _⟩ := groups_read_iff_balanced s
  have hbracketed : bracketed? ('[' :: (v ++ ']' :: ['x'])) = some (v, ['x']) := by decide +kernel
  have hnone : braced? s = none := by decide +kernel
  refine ⟨hbracketed, ((hread v ['x']).1 hbracketed).2, hbrackets _ ?_, hnone, hbraces s ?_⟩
  · rw [hbracketed]
    exact ⟨rfl, ⟨[']', 'x'], by simp⟩, by rintro _ ⟨⟩; decide +kernel⟩
  · rw [hnone]
    exact ⟨by decide +kernel, List.prefix_rfl, fun p hp => nomatch hp⟩

end Source

end TexCatalog
