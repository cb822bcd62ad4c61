import TexCatalog.Proofs.BalancedBodies
import TexCatalog.Proofs.CommentLines

/-!
# Cleaned sources

A cleaned source has no comments and none of the environments that get other names, its lines are
those of the text that was cleaned, and cleaning it once more changes nothing. Each of the steps
replaces marks, and a mark in the text behind a step was in the text in front of it: so no step
makes what an earlier one has removed.
-/

namespace TexCatalog

namespace Source

open Text

/-! ### Comments -/

/-- The text without comments, character by character: inside of a comment, or outside of one and
with or without a backslash in front. -/
def uncommented : Option Bool → Text → Text
  | _, [] => []
  | none, c :: s => if c = '\n' then c :: uncommented (some false) s else uncommented none s
  | some escaped, c :: s =>
    if c = '%' ∧ !escaped then uncommented none s else c :: uncommented (some (c == '\\')) s

theorem uncommented_none (s : Text) :
    uncommented none s = [] ∨ ∃ r, uncommented none s = '\n' :: r := by
  induction s with
  | nil => exact .inl rfl
  | cons c s ih =>
    rw [uncommented]
    split
    · next hc => exact .inr ⟨_, by rw [hc]⟩
    · exact ih

theorem count_uncommented (state : Option Bool) (s : Text) :
    (uncommented state s).count '\n' = s.count '\n' := by
  fun_induction uncommented state s with
  | case1 => rfl
  | case2 s ih => rw [List.count_cons_self, List.count_cons_self, ih]
  | case3 c s hc ih => rw [ih, List.count_cons_of_ne hc]
  | case4 escaped c s hcomment ih =>
    rw [ih, hcomment.1, List.count_cons_of_ne (by decide)]
  | case5 escaped c s _ ih => rw [List.count_cons, List.count_cons, ih]

end Source

namespace Text

/-! ### Replacement -/

theorem replaceFrom_eq (old new : Text) (skip : Nat) (s : Text) :
    replaceFrom old new skip s = replace old new (s.drop skip) := by
  induction s generalizing skip with
  | nil => rw [replaceFrom, List.drop_nil, replace, replaceFrom]
  | cons c s ih =>
    cases skip with
    | zero => rfl
    | succ skip => rw [replaceFrom, ih, List.drop_succ_cons]

section

variable {old new : Text}

theorem replace_hit (hne : old ≠ []) (s : Text) :
    replace old new (old ++ s) = new ++ replace old new s := by
  obtain ⟨c, more, rfl⟩ := List.exists_cons_of_ne_nil hne
  have hhere : (c :: more).isPrefixOf (c :: more ++ s) = true :=
    List.isPrefixOf_iff_prefix.2 (List.prefix_append (c :: more) s)
  rw [List.cons_append] at hhere ⊢
  rw [replace, replaceFrom, if_pos hhere, replaceFrom_eq, List.length_cons, Nat.add_sub_cancel,
    List.drop_left]

theorem replace_miss {c : Char} {s : Text} (h : ¬old <+: c :: s) :
    replace old new (c :: s) = c :: replace old new s := by
  rw [replace, replaceFrom, if_neg (mt List.isPrefixOf_iff_prefix.1 h), replace]

/-- A text is gone through from occurrence to occurrence. -/
theorem replace_induction {P : Text → Prop} (hne : old ≠ []) (nil : P [])
    (hit : ∀ s, P s → P (old ++ s)) (miss : ∀ c s, ¬old <+: c :: s → P s → P (c :: s)) (t : Text) :
    P t := by
  induction hlength : t.length using Nat.strongRecOn generalizing t with
  | ind n ih =>
    subst hlength
    cases t with
    | nil => exact nil
    | cons c s =>
      by_cases hhere : old <+: c :: s
      · obtain ⟨rest, hrest⟩ := hhere
        rw [← hrest]
        refine hit rest (ih rest.length ?_ rest rfl)
        rw [← hrest, List.length_append]
        exact Nat.lt_add_of_pos_left (List.length_pos_iff.2 hne)
      · exact miss c s hhere (ih s.length (Nat.lt_succ_self _) s rfl)

theorem replace_nil : replace old new [] = [] := rfl

end

end Text

namespace Source

open Text

/-! ### Percent signs -/

/-- Every percent sign has a backslash in front of it; `escaped` says whether one stands in front of
the text. -/
def PercentsEscaped : Bool → Text → Prop
  | _, [] => True
  | escaped, c :: s => (c = '%' → escaped) ∧ PercentsEscaped (c == '\\') s

def escapes (escaped : Bool) (t : Text) : Bool := t.foldl (fun _ c => c == '\\') escaped

theorem escapes_concat (escaped : Bool) (t : Text) (c : Char) :
    escapes escaped (t ++ [c]) = (c == '\\') := by
  rw [escapes, List.foldl_append, List.foldl_cons, List.foldl_nil]

theorem escapes_of_getLast? {t : Text} (h : t.getLast? = some '}') (escaped : Bool) :
    escapes escaped t = false := by
  obtain ⟨front, rfl⟩ := List.getLast?_eq_some_iff.1 h
  rw [escapes_concat]
  rfl

theorem percentsEscaped_append {escaped : Bool} {t s : Text} :
    PercentsEscaped escaped (t ++ s) ↔
      PercentsEscaped escaped t ∧ PercentsEscaped (escapes escaped t) s := by
  induction t generalizing escaped with
  | nil => exact (and_iff_right trivial).symm
  | cons c t ih => rw [List.cons_append, PercentsEscaped, ih, PercentsEscaped, and_assoc]; rfl

theorem PercentsEscaped.mono {t : Text} (h : PercentsEscaped false t) (escaped : Bool) :
    PercentsEscaped escaped t := by
  cases t with
  | nil => trivial
  | cons c t => exact ⟨fun hc => absurd (h.1 hc) Bool.false_ne_true, h.2⟩

theorem percentsEscaped_of_not_mem {t : Text} (h : '%' ∉ t) (escaped : Bool) :
    PercentsEscaped escaped t := by
  induction t generalizing escaped with
  | nil => trivial
  | cons c t ih =>
    rw [List.mem_cons, not_or] at h
    exact ⟨fun hc => absurd hc.symm h.1, ih h.2 _⟩

theorem PercentsEscaped.getLast? {u v : Text} (h : PercentsEscaped false (u ++ '%' :: v)) :
    u.getLast? = some '\\' := by
  have hescaped : escapes false u := (percentsEscaped_append.1 h).2.1 rfl
  rcases List.eq_nil_or_concat u with rfl | ⟨front, c, rfl⟩
  · exact absurd hescaped Bool.false_ne_true
  · rw [List.concat_eq_append] at hescaped ⊢
    rw [escapes_concat, beq_iff_eq] at hescaped
    rw [List.getLast?_concat, hescaped]

/-! ### Comments and percent signs -/

/-- To drop the comment of every line is to drop comments character by character. -/
theorem uncommented_lines (s : Text) : ∃ line lines, split '\n' s = line :: lines ∧
    (∀ escaped, uncommented (some escaped) s =
      join ['\n'] (beforeComment escaped line :: lines.map (beforeComment false))) ∧
    uncommented none s = join ['\n'] ([] :: lines.map (beforeComment false)) := by
  induction s with
  | nil => exact ⟨[], [], rfl, fun _ => rfl, rfl⟩
  | cons c s ih =>
    obtain ⟨line, lines, hsplit, houtside, hinside⟩ := ih
    by_cases hc : c = '\n'
    · subst hc
      refine ⟨[], line :: lines, ?_, fun escaped => ?_, ?_⟩
      · rw [← hsplit]
        rfl
      · rw [uncommented, if_neg (by simp), houtside]
        rfl
      · rw [uncommented, if_pos rfl, houtside]
        rfl
    · refine ⟨c :: line, lines, ?_, fun escaped => ?_, ?_⟩
      · rw [split] at hsplit
        rw [split, splitWhere, if_neg (by simpa using hc), hsplit]
        rfl
      · rw [uncommented, beforeComment]
        split
        · exact hinside
        · rw [houtside, ← join_consHead]
          rfl
      · rw [uncommented, if_neg hc, hinside]

theorem dropComments_eq_uncommented (s : Text) : dropComments s = uncommented (some false) s := by
  obtain ⟨line, lines, hsplit, houtside, -⟩ := uncommented_lines s
  rw [dropComments, hsplit, houtside]
  rfl

theorem percentsEscaped_uncommented (state : Option Bool) (s : Text) :
    PercentsEscaped (state.getD false) (uncommented state s) := by
  fun_induction uncommented state s with
  | case1 => trivial
  | case2 s ih => exact ⟨by simp, ih⟩
  | case3 c s _ ih => exact ih
  | case4 escaped c s hcomment ih => exact PercentsEscaped.mono ih escaped
  | case5 escaped c s hplain ih =>
    refine ⟨fun hc => ?_, ih⟩
    simpa [hc] using hplain

theorem PercentsEscaped.uncommented {escaped : Bool} {s : Text} (h : PercentsEscaped escaped s) :
    uncommented (some escaped) s = s := by
  induction s generalizing escaped with
  | nil => rfl
  | cons c s ih =>
    rw [Source.uncommented, ih h.2, if_neg]
    rintro ⟨hc, hescaped⟩
    simp [h.1 hc] at hescaped

/-! ### Marks behind a step and in front of it -/

/-- Of a mark behind a step there is one in front of the step, and what stands behind the marks
corresponds. -/
def Reflects (mark : Text) (step : Text → Text) : Prop :=
  ∀ t a r : Text, step t = a ++ mark ++ r → ∃ b s, t = b ++ mark ++ s ∧ step s = r

theorem Reflects.comp {mark : Text} {step last : Text → Text} (hlast : Reflects mark last)
    (hstep : Reflects mark step) : Reflects mark (last ∘ step) := by
  intro t a r h
  obtain ⟨b, s, hbetween, hrest⟩ := hlast _ a r h
  obtain ⟨c, u, ht, hs⟩ := hstep t b s hbetween
  exact ⟨c, u, ht, by rw [Function.comp_apply, hs, hrest]⟩

theorem Reflects.holds {mark : Text} {step : Text → Text} (h : Reflects mark step) {t : Text}
    (hmark : mark <:+: step t) : mark <:+: t := by
  obtain ⟨a, r, har⟩ := hmark
  obtain ⟨b, s, ht, _⟩ := h t a r har.symm
  exact ⟨b, s, ht.symm⟩

/-- Outside of comments a text in one line was there as it is. -/
theorem uncommented_front {x t r : Text} (hx : '\n' ∉ x) {escaped : Bool}
    (h : uncommented (some escaped) t = x ++ r) :
    ∃ s, t = x ++ s ∧ uncommented (some (escapes escaped x)) s = r := by
  induction x generalizing t escaped with
  | nil => exact ⟨t, rfl, h⟩
  | cons c x ih =>
    rw [List.mem_cons, not_or] at hx
    cases t with
    | nil => simp [uncommented] at h
    | cons d t =>
      rw [uncommented] at h
      split at h
      · rcases uncommented_none t with hnil | ⟨rest, hrest⟩
        · rw [hnil] at h
          cases h
        · rw [hrest] at h
          exact absurd (List.cons.inj h).1 hx.1
      · obtain ⟨rfl, hmore⟩ := List.cons.inj h
        obtain ⟨s, rfl, hs⟩ := ih hx.2 hmore
        exact ⟨s, rfl, hs⟩

theorem uncommented_reflects {mark t a r : Text} {state : Option Bool} (hline : '\n' ∉ mark)
    (hend : mark.getLast? = some '}') (h : uncommented state t = a ++ mark ++ r) :
    ∃ b s, t = b ++ mark ++ s ∧ uncommented (some false) s = r := by
  obtain ⟨first, more, hmark⟩ : ∃ first more, mark = first :: more :=
    List.exists_cons_of_ne_nil (by rintro rfl; cases hend)
  -- a character that is dropped joins what stands in front of the mark; only at one that is kept
  -- outside of comments can the mark begin
  fun_induction uncommented state t generalizing a with
  | case1 => simp [hmark] at h
  | case2 s ih =>
    cases a with
    | nil =>
      rw [hmark] at h hline
      exact absurd (List.mem_cons.2 (.inl (List.cons.inj h).1)) hline
    | cons c a =>
      obtain ⟨b, u, hs, hu⟩ := ih (List.cons.inj h).2
      exact ⟨'\n' :: b, u, by rw [hs]; rfl, hu⟩
  | case3 c s _ ih =>
    obtain ⟨b, u, hs, hu⟩ := ih h
    exact ⟨c :: b, u, by rw [hs]; rfl, hu⟩
  | case4 escaped c s _ ih =>
    obtain ⟨b, u, hs, hu⟩ := ih h
    exact ⟨c :: b, u, by rw [hs]; rfl, hu⟩
  | case5 escaped c s hplain ih =>
    cases a with
    | nil =>
      have hfront : uncommented (some escaped) (c :: s) = mark ++ r := by
        rw [uncommented, if_neg hplain, h]
        rfl
      obtain ⟨u, hu, hrest⟩ := uncommented_front hline hfront
      rw [escapes_of_getLast? hend] at hrest
      exact ⟨[], u, hu, hrest⟩
    | cons d a =>
      obtain ⟨b, u, hs, hu⟩ := ih (List.cons.inj h).2
      exact ⟨c :: b, u, by rw [hs]; rfl, hu⟩

/-- A mark in a text that begins with another stands behind that one if neither begins the other. -/
theorem mark_behind {new mark a r s : Text} (hnew : IsMark new) (hmark : IsMark mark)
    (hapart : ¬mark <+: new ∧ ¬new <+: mark) (h : new ++ s = a ++ (mark ++ r)) :
    ∃ beyond, s = beyond ++ (mark ++ r) := by
  obtain ⟨more, rfl, hback⟩ := id hnew
  obtain ⟨rest, rfl, -⟩ := hmark
  rcases List.append_eq_append_iff.1 h with ⟨beyond, -, hbeyond⟩ | ⟨inside, hinside, hrest⟩
  · exact ⟨beyond, hbeyond⟩
  · cases inside with
    | nil => exact ⟨[], hrest.symm⟩
    | cons d inside =>
      obtain ⟨rfl, -⟩ := List.cons.inj hrest
      cases a with
      | nil =>
        rw [List.nil_append] at hinside
        rw [← hinside] at hrest
        have hfronts := List.prefix_or_prefix_of_prefix ⟨r, hrest⟩ (List.prefix_append _ s)
        exact (hfronts.elim hapart.1 hapart.2).elim
      | cons c a =>
        rw [(List.cons.inj hinside).2] at hback
        exact absurd (List.mem_append_right a (List.mem_cons_self ..)) hback

section

variable {old new : Text} (hne : old ≠ []) (hnew : IsMark new)

include hne hnew

/-- A text without backslashes in front of the first replacement was there as it is. -/
theorem replace_front {x t r : Text} (hx : '\\' ∉ x) (h : replace old new t = x ++ r) :
    ∃ s, t = x ++ s ∧ replace old new s = r := by
  induction x generalizing t with
  | nil => exact ⟨t, rfl, h⟩
  | cons c x ih =>
    rw [List.mem_cons, not_or] at hx
    by_cases hhere : old <+: t
    · obtain ⟨s, rfl⟩ := hhere
      obtain ⟨more, hmore, -⟩ := hnew
      rw [replace_hit hne, hmore] at h
      exact absurd (List.cons.inj h).1 hx.1
    · cases t with
      | nil => cases h
      | cons d t =>
        rw [replace_miss hhere] at h
        obtain ⟨rfl, hmore⟩ := List.cons.inj h
        obtain ⟨s, rfl, hs⟩ := ih hx.2 hmore
        exact ⟨s, rfl, hs⟩

/-- A mark behind a replacement that neither begins the new mark nor begins with it was there, and
was none to be replaced. -/
theorem replace_reflects {mark t a r : Text} (hmark : IsMark mark)
    (hapart : ¬mark <+: new ∧ ¬new <+: mark) (h : replace old new t = a ++ mark ++ r) :
    ∃ b s, t = b ++ mark ++ s ∧ replace old new s = r ∧ ¬old <+: mark ++ s := by
  obtain ⟨more, hmore, hback⟩ := id hmark
  induction t using replace_induction hne generalizing a with
  | nil => simp [replace_nil, hmore] at h
  | hit s ih =>
    rw [replace_hit hne, List.append_assoc] at h
    obtain ⟨beyond, hbeyond⟩ := mark_behind hnew hmark hapart h
    rw [← List.append_assoc] at hbeyond
    obtain ⟨b, u, hs, hu⟩ := ih hbeyond
    exact ⟨old ++ b, u, by rw [hs, List.append_assoc, List.append_assoc, List.append_assoc], hu⟩
  | miss c s hmiss ih =>
    rw [replace_miss hmiss] at h
    cases a with
    | nil =>
      rw [List.nil_append, hmore] at h
      obtain ⟨rfl, hs⟩ := List.cons.inj h
      obtain ⟨u, rfl, hu⟩ := replace_front hne hnew hback hs
      exact ⟨[], u, by rw [hmore]; rfl, hu, by rwa [hmore]⟩
    | cons d a =>
      obtain ⟨b, u, hs, hu⟩ := ih (List.cons.inj h).2
      exact ⟨c :: b, u, by rw [hs]; rfl, hu⟩

end

/-! ### Renamed environments -/

def renamed (renames : List (Text × Text)) (t : Text) : Text :=
  renames.foldl (fun t p => replace p.1 p.2 t) t

def markRenames : List (Text × Text) :=
  [(opener "figure", opener "figurefreeze"), (closer "figure", closer "figurefreeze"),
    (opener "figure*", opener "figurefreeze"), (closer "figure*", closer "figurefreeze"),
    (opener "tabular", opener "rtabular"), (closer "tabular", closer "rtabular")]

theorem tidy_eq_renamed (s : Text) : tidy s = renamed markRenames (uncommented (some false) s) := by
  rw [← dropComments_eq_uncommented]
  rfl

structure IsRename (p : Text × Text) : Prop where
  old : IsMark p.1 ∧ p.1.getLast? = some '}' ∧ '\n' ∉ p.1
  new : IsMark p.2 ∧ p.2.getLast? = some '}' ∧ '\n' ∉ p.2
  percentless : '%' ∉ p.2

namespace IsRename

variable {old new : Text} (h : IsRename (old, new))

include h

theorem ne_nil : old ≠ [] := by
  obtain ⟨more, rfl, -⟩ := h.old.1
  exact List.cons_ne_nil _ _

theorem percentsEscaped {escaped : Bool} {t : Text} (ht : PercentsEscaped escaped t) :
    PercentsEscaped escaped (replace old new t) := by
  induction t using replace_induction h.ne_nil generalizing escaped with
  | nil => trivial
  | hit s ih =>
    have hs := (percentsEscaped_append.1 ht).2
    rw [escapes_of_getLast? h.old.2.1] at hs
    rw [replace_hit h.ne_nil, percentsEscaped_append, escapes_of_getLast? h.new.2.1]
    exact ⟨percentsEscaped_of_not_mem h.percentless escaped, ih hs⟩
  | miss c s hmiss ih =>
    rw [replace_miss hmiss]
    exact ⟨ht.1, ih ht.2⟩

theorem count (t : Text) : (replace old new t).count '\n' = t.count '\n' := by
  induction t using replace_induction h.ne_nil with
  | nil => rfl
  | hit s ih =>
    rw [replace_hit h.ne_nil, List.count_append, List.count_append, ih,
      List.count_eq_zero_of_not_mem h.old.2.2, List.count_eq_zero_of_not_mem h.new.2.2]
  | miss c s hmiss ih => rw [replace_miss hmiss, List.count_cons, List.count_cons, ih]

end IsRename

section

variable {renames : List (Text × Text)} (h : ∀ p ∈ renames, IsRename p)

include h

theorem percentsEscaped_renamed {t : Text} (ht : PercentsEscaped false t) :
    PercentsEscaped false (renamed renames t) := by
  induction renames generalizing t with
  | nil => exact ht
  | cons p more ih =>
    obtain ⟨hp, hmore⟩ := List.forall_mem_cons.1 h
    exact ih hmore (hp.percentsEscaped ht)

theorem count_renamed (t : Text) : (renamed renames t).count '\n' = t.count '\n' := by
  induction renames generalizing t with
  | nil => rfl
  | cons p more ih =>
    obtain ⟨hp, hmore⟩ := List.forall_mem_cons.1 h
    exact (ih hmore _).trans (hp.count t)

theorem renamed_reflects {mark : Text} (hmark : IsMark mark)
    (hapart : ∀ p ∈ renames, ¬mark <+: p.2 ∧ ¬p.2 <+: mark) : Reflects mark (renamed renames) := by
  induction renames with
  | nil => exact fun t a r hr => ⟨a, r, hr, rfl⟩
  | cons p more ih =>
    obtain ⟨hp, hmore⟩ := List.forall_mem_cons.1 h
    obtain ⟨hfirst, hothers⟩ := List.forall_mem_cons.1 hapart
    refine (ih hmore hothers).comp fun t a r hr => ?_
    obtain ⟨b, s, ht, hs, -⟩ := replace_reflects hp.ne_nil hp.new.1 hmark hfirst hr
    exact ⟨b, s, ht, hs⟩

/-- None of the marks that are replaced is left or made again. -/
theorem not_infix_renamed (hapart : ∀ p ∈ renames, ∀ q ∈ renames, ¬p.1 <+: q.2 ∧ ¬q.2 <+: p.1)
    {p : Text × Text} (hp : p ∈ renames) (t : Text) : ¬p.1 <:+: renamed renames t := by
  induction renames generalizing t with
  | nil => cases hp
  | cons q more ih =>
    obtain ⟨hq, hmore⟩ := List.forall_mem_cons.1 h
    rcases List.mem_cons.1 hp with rfl | hp
    · intro hleft
      have hbetween := (renamed_reflects hmore hq.old.1 fun r hr =>
        hapart p (List.mem_cons_self ..) r (List.mem_cons_of_mem _ hr)).holds hleft
      obtain ⟨a, r, har⟩ := hbetween
      obtain ⟨b, s, -, -, hnone⟩ := replace_reflects hq.ne_nil hq.new.1 hq.old.1
        (hapart p (List.mem_cons_self ..) p (List.mem_cons_self ..)) har.symm
      exact hnone (List.prefix_append ..)
    · exact ih hmore (fun p hp q hq =>
        hapart p (List.mem_cons_of_mem _ hp) q (List.mem_cons_of_mem _ hq)) hp _

omit h in
theorem renamed_of_absent {t : Text} (hnone : ∀ p ∈ renames, ¬p.1 <:+: t) :
    renamed renames t = t := by
  induction renames with
  | nil => rfl
  | cons p more ih =>
    obtain ⟨hp, hmore⟩ := List.forall_mem_cons.1 hnone
    rw [renamed, List.foldl_cons, replace_of_absent hp]
    exact ih hmore

end

theorem isRename_of_mem {p : Text × Text} (h : p ∈ markRenames) : IsRename p := by
  have hall : ∀ q ∈ markRenames, (IsMark q.1 ∧ q.1.getLast? = some '}' ∧ '\n' ∉ q.1) ∧
      (IsMark q.2 ∧ q.2.getLast? = some '}' ∧ '\n' ∉ q.2) ∧ '%' ∉ q.2 := by
    simp [markRenames, opener, closer, IsMark]
  obtain ⟨hold, hnew, hpercent⟩ := hall p h
  exact ⟨hold, hnew, hpercent⟩

theorem markRenames_apart :
    ∀ p ∈ markRenames, ∀ q ∈ markRenames, ¬p.1 <+: q.2 ∧ ¬q.2 <+: p.1 := by
  simp [markRenames, opener, closer]

theorem documentMark_apart {mark : Text} (h : mark ∈ documentMarks) :
    IsMark mark ∧ '\n' ∉ mark ∧ mark.getLast? = some '}' ∧
      ∀ p ∈ markRenames, ¬mark <+: p.2 ∧ ¬p.2 <+: mark := by
  revert mark
  simp [documentMarks, markRenames, opener, closer, IsMark]

theorem tidy_reflects {mark : Text} (h : mark ∈ documentMarks) : Reflects mark tidy := by
  obtain ⟨hmark, hline, hend, hapart⟩ := documentMark_apart h
  intro t a r hr
  rw [tidy_eq_renamed] at hr
  obtain ⟨b, s, hs, hrest⟩ := renamed_reflects (fun p => isRename_of_mem) hmark hapart _ a r hr
  obtain ⟨c, u, ht, hu⟩ := uncommented_reflects hline hend hs
  exact ⟨c, u, ht, by rw [tidy_eq_renamed, hu, hrest]⟩

/-- The text has the beginning of a document and behind it an end of one. -/
def HasDocument (t : Text) : Prop :=
  ∃ a b c, t = a ++ opener "document" ++ (b ++ closer "document" ++ c)

theorem documentMarks_eq : documentMarks = [opener "document", closer "document"] := by
  simp [documentMarks, opener, closer]

/-- A text without a document in it is its own body. -/
theorem documentBody_of_not_hasDocument {t : Text} (h : ¬HasDocument t) : documentBody t = t := by
  have hmarks := documentMarks_eq
  rw [documentMarks, List.cons.injEq, List.cons.injEq] at hmarks
  unfold documentBody
  rw [hmarks.1, hmarks.2.1]
  cases hcut : cut? (opener "document") t with
  | none => rfl
  | some p =>
    cases hlast : cutLast? (closer "document") p.2 with
    | none => simp only [hlast]
    | some q => exact absurd ⟨p.1, q.1, q.2, by rw [← cutLast?_eq hlast, ← cut?_eq hcut]⟩ h

/-- Tidying makes no document. -/
theorem HasDocument.of_tidy {t : Text} (h : HasDocument (tidy t)) : HasDocument t := by
  have hopen : opener "document" ∈ documentMarks := by simp [documentMarks_eq]
  have hclose : closer "document" ∈ documentMarks := by simp [documentMarks_eq]
  obtain ⟨a, b, c, habc⟩ := h
  obtain ⟨front, s, ht, hs⟩ := tidy_reflects hopen t a _ habc
  obtain ⟨body, rest, hbody, _⟩ := tidy_reflects hclose s b c hs
  exact ⟨front, body, rest, by rw [ht, hbody]⟩

/-- A cleaned source has no comments, no environments under their old names, and the lines of the
text that was cleaned. If that text has no document of its own, it is not changed by cleaning it
once more. -/
theorem clean_complete_stable (s : Text) :
    (∀ u v, clean s = u ++ '%' :: v → u.getLast? = some '\\') ∧
      (∀ name ∈ renamedNames, ¬opener name <:+: clean s ∧ ¬closer name <:+: clean s) ∧
      (clean s).count '\n' = (documentBody s).count '\n' ∧
      (¬HasDocument (documentBody s) → clean (clean s) = clean s) := by
  have hrename : ∀ p ∈ markRenames, IsRename p := fun p => isRename_of_mem
  have hclean : clean s = renamed markRenames (uncommented (some false) (documentBody s)) := by
    rw [clean_eq_tidy, tidy_eq_renamed]
  have hpercents : PercentsEscaped false (clean s) := by
    rw [hclean]
    exact percentsEscaped_renamed hrename (percentsEscaped_uncommented (some false) _)
  have hmarks : ∀ p ∈ markRenames, ¬p.1 <:+: clean s := by
    intro p hp
    rw [hclean]
    exact not_infix_renamed hrename markRenames_apart hp _
  refine ⟨fun u v huv => ?_, fun name hname => ?_, ?_, fun hnone => ?_⟩
  · rw [huv] at hpercents
    exact hpercents.getLast?
  · simp only [markRenames, List.forall_mem_cons] at hmarks
    simp only [renamedNames, List.mem_cons, List.not_mem_nil, or_false] at hname
    obtain ⟨hfigure, hfigureEnd, hstarred, hstarredEnd, htabular, htabularEnd, -⟩ := hmarks
    rcases hname with rfl | rfl | rfl
    · exact ⟨htabular, htabularEnd⟩
    · exact ⟨hstarred, hstarredEnd⟩
    · exact ⟨hfigure, hfigureEnd⟩
  · rw [hclean, count_renamed hrename, count_uncommented]
  · have hbody : documentBody (clean s) = clean s :=
      documentBody_of_not_hasDocument (mt HasDocument.of_tidy hnone)
    rw [clean_eq_tidy (clean s), hbody, tidy_eq_renamed, hpercents.uncommented,
      renamed_of_absent hmarks]

/-- A document with a comment at the end of a line, one behind an escaped percent sign, and figures
that are begun in a comment and behind it. -/
def figureSource : Text :=
  "x\n\\begin\x7bdocument\x7d% a\n\\%%\\begin\x7bfigure\x7d\n\\begin\x7bfigure*\x7d\\end\x7bdocument\x7d"

theorem clean_complete_stable_figureSource : ¬HasDocument (documentBody figureSource) ∧
    clean figureSource = "\n\\%\n\\begin\x7bfigurefreeze\x7d" ∧
    clean (clean figureSource) = clean figureSource := by
  have hnone : ¬HasDocument (documentBody figureSource) := by
    have hmark : ¬opener "document" <:+: documentBody figureSource := by decide +kernel
    rintro ⟨a, b, c, h⟩
    exact hmark ⟨a, _, h.symm⟩
  exact ⟨hnone, by decide +kernel, (clean_complete_stable figureSource).2.2.2 hnone⟩

end Source

end TexCatalog
