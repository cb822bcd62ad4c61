import Mathlib.Data.List.Infix
import TexCatalog.Form.Pattern

/-!
# Balanced bodies

The environment that is read at the beginning of a text ends where its own `\end` stands if the
openings and closings of its name balance in between. A backslash stands only in front of such a
mark, so no mark reaches from the body into the closing one.
-/

namespace TexCatalog

theorem Text.isPrefixOf?_eq_none {part s : Text} : part.isPrefixOf? s = none ↔ ¬part <+: s := by
  rw [Option.eq_none_iff_forall_ne_some]
  constructor
  · rintro h ⟨rest, hrest⟩
    exact h rest (isPrefixOf?_eq_some.2 hrest.symm)
  · exact fun h rest hrest => h ⟨rest, (isPrefixOf?_eq_some.1 hrest).symm⟩

def Text.occurrences (part s : Text) : Nat := s.tails.countP (part.isPrefixOf ·)

namespace Source

open Text

/-- The text closes `depth` environments of a name more than it opens, and no more than that in any
front part. -/
structure Closes (name : Text) (depth : Nat) (body : Text) : Prop where
  front {part : Text} : part <+: body →
    occurrences (closer name) part ≤ depth + occurrences (opener name) part
  total : occurrences (closer name) body = depth + occurrences (opener name) body

/-- Every closing of an environment has an opening in front of it, and every opening is closed. -/
def Balanced (name body : Text) : Prop :=
  (∀ front, front <+: body → occurrences (closer name) front ≤ occurrences (opener name) front) ∧
    occurrences (closer name) body = occurrences (opener name) body

instance (name body : Text) : Decidable (Balanced name body) :=
  decidable_of_iff ((∀ front ∈ body.inits,
      occurrences (closer name) front ≤ occurrences (opener name) front) ∧
    occurrences (closer name) body = occurrences (opener name) body)
    (by simp only [Balanced, List.mem_inits])

theorem Balanced.closes {name body : Text} (h : Balanced name body) : Closes name 0 body :=
  ⟨fun hp => Nat.le_trans (h.1 _ hp) (Nat.le_add_left _ 0), h.2.trans (Nat.zero_add _).symm⟩

theorem isBlank_of_isLayout {c : Char} (h : c.isLayout) : c.isBlank := by
  simp only [Char.isLayout, Bool.or_eq_true, beq_iff_eq] at h
  rcases h with ((rfl | rfl) | rfl) | rfl <;> decide

theorem not_isAlpha_of_isBlank {c : Char} (h : c.isBlank) : ¬c.isAlpha := by
  have hletter : c.isAlpha =
      (decide (65 ≤ c.val ∧ c.val ≤ 90) || (decide (97 ≤ c.val) && decide (c.val ≤ 122))) := rfl
  simp only [Char.isBlank, Char.toNat] at h
  simp [hletter, UInt32.le_iff_toNat_le] at h ⊢
  omega

def IsMark (part : Text) : Prop := ∃ more, part = '\\' :: more ∧ '\\' ∉ more

instance (part : Text) : Decidable (IsMark part) :=
  decidable_of_iff (part = '\\' :: part.tail ∧ '\\' ∉ part.tail)
    ⟨fun h => ⟨part.tail, h⟩, by rintro ⟨more, rfl, hmore⟩; exact ⟨rfl, hmore⟩⟩

theorem occurrences_cons (part : Text) (c : Char) (s : Text) :
    occurrences part (c :: s) =
      occurrences part s + if part.isPrefixOf (c :: s) then 1 else 0 := by
  rw [occurrences, List.tails, List.countP_cons]
  rfl

theorem occurrences_cons_hit {part s : Text} {c : Char} (h : part <+: c :: s) :
    occurrences part (c :: s) = occurrences part s + 1 := by
  rw [occurrences_cons, if_pos (List.isPrefixOf_iff_prefix.2 h)]

theorem occurrences_cons_miss {part s : Text} {c : Char} (h : ¬ part <+: c :: s) :
    occurrences part (c :: s) = occurrences part s := by
  rw [occurrences_cons, if_neg fun hp => h (List.isPrefixOf_iff_prefix.1 hp)]
  rfl

theorem occurrences_of_absent {part t : Text} (h : ¬part <:+: t) : occurrences part t = 0 := by
  rw [occurrences, List.countP_eq_zero]
  intro back hback
  rw [List.isPrefixOf_iff_prefix]
  exact fun hpart => h (hpart.isInfix.trans ((List.mem_tails ..).1 hback).isInfix)

/-- No occurrence is lost or made where two texts meet if none lies across. -/
theorem occurrences_append {part x y : Text} (hne : part ≠ [])
    (h : ∀ u v, u ≠ [] → v ≠ [] → u ++ v = part → u <:+ x → ¬v <+: y) :
    occurrences part (x ++ y) = occurrences part x + occurrences part y := by
  induction x with
  | nil =>
    rw [occurrences_of_absent fun hpart => hne (List.infix_nil.1 hpart), Nat.zero_add,
      List.nil_append]
  | cons c x ih =>
    have hrest := ih fun u v hu hv hpart hsuffix =>
      h u v hu hv hpart (hsuffix.trans (List.suffix_cons c x))
    have hfront : part <+: c :: x ++ y ↔ part <+: c :: x := by
      refine ⟨fun hpart => ?_, fun hpart => hpart.trans (List.prefix_append _ y)⟩
      by_contra hshort
      obtain ⟨v, hv⟩ := (List.prefix_or_prefix_of_prefix hpart
        (List.prefix_append (c :: x) y)).resolve_left hshort
      rw [← hv] at hpart hshort
      refine h (c :: x) v (List.cons_ne_nil c x) ?_ hv (List.suffix_refl _)
        ((List.prefix_append_right_inj _).1 hpart)
      rintro rfl
      exact hshort (by rw [List.append_nil])
    rw [List.cons_append] at hfront ⊢
    rw [occurrences_cons, occurrences_cons, hrest]
    simp only [List.isPrefixOf_iff_prefix, hfront]
    omega

namespace IsMark

variable {part s u : Text}

theorem occurrences_nil (h : IsMark part) : occurrences part [] = 0 := by
  obtain ⟨more, rfl, _⟩ := h
  rfl

theorem occurrences_cons {c : Char} (h : IsMark part) (hc : c ≠ '\\') (s : Text) :
    occurrences part (c :: s) = occurrences part s := by
  obtain ⟨more, rfl, _⟩ := h
  exact occurrences_cons_miss fun hp => hc (List.cons_prefix_cons.1 hp).1.symm

theorem infix_cons {c : Char} (h : IsMark part) (hc : c ≠ '\\') (s : Text) :
    part <:+: c :: s ↔ part <:+: s := by
  obtain ⟨more, rfl, _⟩ := h
  rw [List.infix_cons_iff, List.cons_prefix_cons, or_iff_right fun hp => hc hp.1.symm]

theorem occurrences_eq_zero (h : IsMark part) (hs : '\\' ∉ s) : occurrences part s = 0 := by
  induction s with
  | nil => exact h.occurrences_nil
  | cons c s ih =>
    rw [List.mem_cons, not_or] at hs
    rw [h.occurrences_cons (Ne.symm hs.1), ih hs.2]

/-- A mark in front of a backslash ends in front of it, unless it begins there. -/
theorem prefix_of_prefix_append (h : IsMark part) (hs : s ≠ []) (hp : part <+: s ++ '\\' :: u) :
    part <+: s := by
  rcases Nat.lt_or_ge s.length part.length with hlong | hshort
  · obtain ⟨more, rfl, hmore⟩ := h
    have hfront : s <+: '\\' :: more :=
      List.prefix_of_prefix_length_le (List.prefix_append _ _) hp (Nat.le_of_lt hlong)
    obtain ⟨v, hv⟩ := hfront
    rw [← hv, List.prefix_append_right_inj] at hp
    cases v with
    | nil =>
      rw [List.append_nil] at hv
      rw [hv] at hlong
      exact absurd hlong (Nat.lt_irrefl _)
    | cons d v =>
      obtain ⟨rfl, _⟩ := List.cons_prefix_cons.1 hp
      cases s with
      | nil => exact absurd rfl hs
      | cons c s =>
        rw [List.cons_append, List.cons.injEq] at hv
        refine absurd ?_ hmore
        rw [← hv.2]
        exact List.mem_append_right _ (List.mem_cons_self ..)
  · exact List.prefix_of_prefix_length_le hp (List.prefix_append _ _) hshort

/-- Behind the first character of a mark and in front of its end there is no backslash. -/
theorem not_mem_of_front {c : Char} {front : Text} (h : IsMark part) (hpart : part <+: c :: s)
    (hfront : front <+: s) (hshort : ¬part <+: c :: front) : '\\' ∉ front := by
  have hwithin : c :: front <+: part :=
    (List.prefix_or_prefix_of_prefix hpart (List.cons_prefix_cons.2 ⟨rfl, hfront⟩)).resolve_left
      hshort
  obtain ⟨more, rfl, hback⟩ := h
  exact fun hmem => hback ((List.cons_prefix_cons.1 hwithin).2.subset hmem)

end IsMark

theorem not_opener_of_closer {name s : Text} (h : closer name <+: s) : ¬ opener name <+: s := by
  intro ho
  have hboth := List.prefix_or_prefix_of_prefix ho h
  simp [opener, closer] at hboth

section

variable {p : Char → Bool} {word rest : Text} {c : Char} (hword : ∀ d ∈ word, p d) (hc : ¬ p c)

include hword hc

/-- A word ends in front of the first character that does not belong to words. -/
theorem takeWhile_append_cons : (word ++ c :: rest).takeWhile p = word := by
  rw [List.takeWhile_append_of_pos hword, List.takeWhile_cons_of_neg hc, List.append_nil]

theorem dropWhile_append_cons : (word ++ c :: rest).dropWhile p = c :: rest := by
  rw [List.dropWhile_append_of_pos hword, List.dropWhile_cons_of_neg hc]

end

/-- The name of a command ends in front of the first character that is no letter. -/
theorem commandName?_word {name : Text} {c : Char} (hne : name ≠ [])
    (hletters : ∀ d ∈ name, d.isAlpha) (hc : ¬c.isAlpha) (s : Text) :
    commandName? ('\\' :: (name ++ c :: s)) = some (name, c :: s) := by
  rw [commandName?, if_pos rfl, takeWhile_append_cons hletters hc,
    dropWhile_append_cons hletters hc]
  exact if_neg hne

theorem begin_letters : ∀ c ∈ ("begin" : Text), c.isAlpha := by simp

/-- An environment begins with the command `begin`. -/
theorem commandName?_of_environment {s r : Text} {e : Environment}
    (h : environment? s = some (e, r)) :
    ∃ rest, commandName? s = some (("begin" : Text), rest) := by
  obtain ⟨hs, _, gap, hgap, hsource⟩ := environment?_eq h
  rw [hsource] at hs
  obtain ⟨c, rest, hc, hrest⟩ : ∃ c rest, ¬ Char.isAlpha c ∧
      gap ++ ('{' :: (e.name ++ '}' :: (e.body ++ (closer e.name ++ r)))) = c :: rest := by
    cases gap with
    | nil => exact ⟨'{', _, by decide, rfl⟩
    | cons c gap =>
      refine ⟨c, _, ?_, rfl⟩
      have hlayout := List.all_eq_true.1 hgap c (List.mem_cons_self ..)
      simp only [Char.isLayout, Bool.or_eq_true, beq_iff_eq] at hlayout
      rcases hlayout with ((rfl | rfl) | rfl) | rfl <;> decide
  have hletters : s = '\\' :: (("begin" : Text) ++ c :: rest) := by
    rw [hs, ← hrest]
    simp
  rw [hletters]
  exact ⟨_, commandName?_word (by simp) begin_letters hc rest⟩

/-- A command of another name opens no environment. -/
theorem environment?_of_commandName {s name rest : Text} (h : commandName? s = some (name, rest))
    (hname : name ≠ "begin") : environment? s = none := by
  refine Option.eq_none_iff_forall_ne_some.2 fun ⟨e, r⟩ he => hname ?_
  obtain ⟨_, hbegin⟩ := commandName?_of_environment he
  rw [h] at hbegin
  exact congrArg Prod.fst (Option.some.inj hbegin)

section

variable {name : Text} (hname : ∀ c ∈ name, isNameChar c)

include hname

theorem opener_isMark : IsMark (opener name) := by
  have hback : '\\' ∉ name := fun h => absurd (hname _ h) (by decide)
  exact ⟨"begin\x7b" ++ name ++ "\x7d", by simp [opener], by simp [hback]⟩

theorem closer_isMark : IsMark (closer name) := by
  have hback : '\\' ∉ name := fun h => absurd (hname _ h) (by decide)
  exact ⟨"end\x7b" ++ name ++ "\x7d", by simp [closer], by simp [hback]⟩

theorem occurrences_opener_closer : occurrences (opener name) (closer name) = 0 := by
  have hno := not_opener_of_closer (List.prefix_refl (closer name))
  obtain ⟨more, hmore, hback⟩ := closer_isMark hname
  rw [hmore] at hno ⊢
  rw [occurrences_cons_miss hno, (opener_isMark hname).occurrences_eq_zero hback]

theorem occurrences_closer_pos : 0 < occurrences (closer name) (closer name) := by
  have hself := List.prefix_refl (closer name)
  obtain ⟨more, hmore, _⟩ := closer_isMark hname
  rw [hmore] at hself ⊢
  rw [occurrences_cons_hit hself]
  exact Nat.succ_pos _

/-- In front of the end of a closing mark there is no other. -/
theorem occurrences_closer_of_front {front s : Text} {c : Char} (hclose : closer name <+: c :: s)
    (hfront : front <+: s) (hshort : ¬ closer name <+: c :: front) :
    occurrences (closer name) front = 0 := by
  have hcloser := closer_isMark hname
  exact hcloser.occurrences_eq_zero (hcloser.not_mem_of_front hclose hfront hshort)

variable {depth : Nat} {c : Char} {body : Text}

theorem Closes.eq_zero (h : Closes name depth []) : depth = 0 := by
  have htotal := h.total
  rw [(closer_isMark hname).occurrences_nil, (opener_isMark hname).occurrences_nil] at htotal
  omega

theorem Closes.closing (h : Closes name depth (c :: body)) (hclose : closer name <+: c :: body) :
    ∃ d, depth = d + 1 ∧ Closes name d body := by
  have hnotOpen := not_opener_of_closer hclose
  have hdepth : 0 < depth := by
    have hself := h.front hclose
    have hpos := occurrences_closer_pos hname
    rw [occurrences_opener_closer hname] at hself
    omega
  obtain ⟨d, rfl⟩ : ∃ d, depth = d + 1 := ⟨depth - 1, by omega⟩
  refine ⟨d, rfl, fun {part} hp => ?_, ?_⟩
  · have hcons : c :: part <+: c :: body := List.cons_prefix_cons.2 ⟨rfl, hp⟩
    have hmarks := h.front hcons
    rw [occurrences_cons_miss fun ho => hnotOpen (ho.trans hcons)] at hmarks
    by_cases hc : closer name <+: c :: part
    · rw [occurrences_cons_hit hc] at hmarks
      omega
    · rw [occurrences_closer_of_front hname hclose hp hc]
      exact Nat.zero_le _
  · have htotal := h.total
    rw [occurrences_cons_hit hclose, occurrences_cons_miss hnotOpen] at htotal
    omega

omit hname in
theorem Closes.opening (h : Closes name depth (c :: body)) (hopen : opener name <+: c :: body) :
    Closes name (depth + 1) body := by
  have hnotClose : ¬ closer name <+: c :: body := fun hc => not_opener_of_closer hc hopen
  refine ⟨fun {part} hp => ?_, ?_⟩
  · have hcons : c :: part <+: c :: body := List.cons_prefix_cons.2 ⟨rfl, hp⟩
    have hmarks := h.front hcons
    rw [occurrences_cons_miss fun hc => hnotClose (hc.trans hcons), occurrences_cons]
      at hmarks
    split at hmarks <;> omega
  · have htotal := h.total
    rw [occurrences_cons_miss hnotClose, occurrences_cons_hit hopen] at htotal
    omega

omit hname in
theorem Closes.other (h : Closes name depth (c :: body)) (hnotClose : ¬ closer name <+: c :: body)
    (hnotOpen : ¬ opener name <+: c :: body) : Closes name depth body := by
  refine ⟨fun {part} hp => ?_, ?_⟩
  · have hcons : c :: part <+: c :: body := List.cons_prefix_cons.2 ⟨rfl, hp⟩
    have hmarks := h.front hcons
    rwa [occurrences_cons_miss fun hc => hnotClose (hc.trans hcons),
      occurrences_cons_miss fun ho => hnotOpen (ho.trans hcons)] at hmarks
  · have htotal := h.total
    rwa [occurrences_cons_miss hnotClose, occurrences_cons_miss hnotOpen] at htotal

/-- A mark that begins in a body does not reach into the closing mark behind it. -/
theorem prefix_append_closer_iff {part : Text} (hpart : IsMark part) (rest : Text) :
    part <+: c :: (body ++ closer name ++ rest) ↔ part <+: c :: body := by
  obtain ⟨more, hmore, _⟩ := closer_isMark hname
  rw [hmore, List.append_assoc, List.cons_append, ← List.cons_append]
  refine ⟨hpart.prefix_of_prefix_append (List.cons_ne_nil _ _), fun hp => ?_⟩
  exact hp.trans (List.prefix_append _ _)

/-- A body that closes what is open when it begins is read up to the closing mark behind it. -/
theorem closeEnvironment_append (h : Closes name depth body) (rest : Text) :
    closeEnvironment name depth (body ++ closer name ++ rest) = some (body, rest) := by
  have hcloser := closer_isMark hname
  -- `Closes` says at each character which way the reader goes on, and holds of the rest there
  induction body generalizing depth with
  | nil =>
    obtain rfl := h.eq_zero hname
    obtain ⟨more, hmore, _⟩ := hcloser
    have hclosed : (closer name).isPrefixOf? ('\\' :: (more ++ rest)) = some rest :=
      isPrefixOf?_eq_some.2 (by rw [hmore]; rfl)
    rw [List.nil_append, hmore, List.cons_append, closeEnvironment, hclosed]
  | cons c body ih =>
    rw [List.cons_append, List.cons_append, closeEnvironment]
    cases hread : (closer name).isPrefixOf? (c :: (body ++ closer name ++ rest)) with
    | some r =>
      have hclose : closer name <+: c :: (body ++ closer name ++ rest) :=
        ⟨r, (isPrefixOf?_eq_some.1 hread).symm⟩
      rw [prefix_append_closer_iff hname hcloser] at hclose
      obtain ⟨d, rfl, hd⟩ := h.closing hname hclose
      simp only [ih hd]
      rfl
    | none =>
      have hnotClose : ¬ closer name <+: c :: body := by
        rw [← prefix_append_closer_iff hname hcloser rest]
        exact isPrefixOf?_eq_none.1 hread
      have hopener : (opener name).isPrefixOf (c :: (body ++ closer name ++ rest)) = true ↔
          opener name <+: c :: body := by
        rw [List.isPrefixOf_iff_prefix, prefix_append_closer_iff hname (opener_isMark hname)]
      simp only [hopener]
      by_cases hopen : opener name <+: c :: body
      · rw [if_pos hopen, ih (h.opening hopen)]
        rfl
      · rw [if_neg hopen, ih (h.other hnotClose hopen)]
        rfl

def enclose (name body : Text) : Text := opener name ++ body ++ closer name

/-- Layout may stand in front of the name of an environment. -/
theorem openEnvironment?_of_layout {gap : Text} (hgap : ∀ c ∈ gap, c.isLayout) (hne : name ≠ [])
    (rest : Text) :
    openEnvironment? ("\\begin" ++ (gap ++ '{' :: (name ++ '}' :: rest))) = some (name, rest) := by
  have hbegin : ("\\begin" : Text).isPrefixOf?
      ("\\begin" ++ (gap ++ '{' :: (name ++ '}' :: rest))) =
        some (gap ++ '{' :: (name ++ '}' :: rest)) :=
    isPrefixOf?_eq_some.2 rfl
  have hbrace : ¬Char.isLayout '{' := by decide
  have hclosing : ¬ isNameChar '}' := by decide
  have hgap : dropLayout (gap ++ '{' :: (name ++ '}' :: rest)) = '{' :: (name ++ '}' :: rest) :=
    dropWhile_append_cons hgap hbrace
  unfold openEnvironment?
  simp only [hbegin, hgap, takeWhile_append_cons hname hclosing,
    dropWhile_append_cons hname hclosing]
  rw [if_pos ⟨trivial, trivial, hne⟩]

theorem openEnvironment?_opener (hne : name ≠ []) (rest : Text) :
    openEnvironment? (opener name ++ rest) = some (name, rest) := by
  have hgap : ∀ c ∈ ([] : Text), c.isLayout := List.forall_mem_nil _
  simpa [opener] using openEnvironment?_of_layout hname hgap hne rest

/-- An environment is read as it was put together if its end is found behind its body. -/
theorem environment?_of_close (hne : name ≠ []) {rest : Text}
    (hclose : closeEnvironment name 0 (body ++ (closer name ++ rest)) = some (body, rest)) :
    environment? (enclose name body ++ rest) =
      some ({ name, body, source := enclose name body }, rest) := by
  have hopen : openEnvironment? (enclose name body ++ rest) =
      some (name, body ++ (closer name ++ rest)) := by
    rw [enclose, List.append_assoc, List.append_assoc]
    exact openEnvironment?_opener hname hne _
  have hsource : (enclose name body ++ rest).take
      ((enclose name body ++ rest).length - rest.length) = enclose name body := by
    rw [List.length_append, Nat.add_sub_cancel, List.take_left]
  unfold environment?
  simp only [hopen, hclose, hsource]

/-- An environment with a balanced body is read as it was put together. -/
theorem environment?_enclose (hne : name ≠ []) (hbalanced : Balanced name body) :
    environment? (enclose name body) =
      some ({ name, body, source := enclose name body }, []) := by
  have hclose := closeEnvironment_append hname hbalanced.closes []
  rw [List.append_assoc] at hclose
  simpa using environment?_of_close hname hne hclose

omit hname in
/-- There are no blanks around an environment. -/
theorem trim_enclose : trim (enclose name body) = enclose name body := by
  have hstart : trimStart (enclose name body) = enclose name body := by
    simp [trimStart, enclose, opener, Char.isBlank]
  have hend : trimEnd (enclose name body) = enclose name body := by
    simp [trimEnd, enclose, closer, Char.isBlank]
  rw [trim, hstart, hend]

omit hname in
theorem commandName?_enclose :
    ∃ rest, commandName? (enclose name body) = some (("begin" : Text), rest) := by
  have hletters : enclose name body =
      '\\' :: (("begin" : Text) ++ '{' :: (name ++ '}' :: (body ++ closer name))) := by
    simp [enclose, opener]
  rw [hletters]
  exact ⟨_, commandName?_word (by simp) begin_letters (by decide) _⟩

end

end Source

end TexCatalog
