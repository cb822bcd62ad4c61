import TexCatalog.Proofs.CommandTexts

/-!
# The texts of environments

The body that is found for an environment is the only one that may stand there: in it the openings
and closings of the name balance, and no body that balances is passed over. So the texts that are
read as an environment are those of one form: the command `begin`, perhaps layout, the name in
braces, a balanced body, the end of the name, and then the rest.
-/

namespace TexCatalog

namespace Source

open Text

section

variable {name : Text} (hname : ∀ c ∈ name, isNameChar c)

include hname

variable {depth : Nat} {c : Char} {body : Text}

theorem Closes.nil : Closes name 0 [] := by
  have hclose := (closer_isMark hname).occurrences_nil
  refine ⟨fun {part} hp => ?_, ?_⟩
  · rw [List.prefix_nil.1 hp, hclose]
    exact Nat.zero_le _
  · rw [hclose, (opener_isMark hname).occurrences_nil]

theorem Closes.cons
    (hfront : ∀ part, part <+: body → occurrences (closer name) (c :: part) ≤
      depth + occurrences (opener name) (c :: part))
    (htotal : occurrences (closer name) (c :: body) =
      depth + occurrences (opener name) (c :: body)) : Closes name depth (c :: body) := by
  refine ⟨fun {part} hp => ?_, htotal⟩
  cases part with
  | nil =>
    rw [(closer_isMark hname).occurrences_nil]
    exact Nat.zero_le _
  | cons d part =>
    obtain ⟨rfl, hpart⟩ := List.cons_prefix_cons.1 hp
    exact hfront part hpart

/-- Behind a closing one environment less is open. -/
theorem Closes.of_closing (h : Closes name depth body) (hclose : closer name <+: c :: body) :
    Closes name (depth + 1) (c :: body) := by
  refine .cons hname (fun part hp => ?_) ?_
  · have hmarks := h.front hp
    rw [occurrences_cons, occurrences_cons]
    split <;> omega
  · rw [occurrences_cons_hit hclose, occurrences_cons_miss (not_opener_of_closer hclose), h.total]
    omega

/-- In front of a mark that neither opens nor closes, as many are open as behind it. -/
theorem Closes.of_other (h : Closes name depth body) (hnotClose : ¬closer name <+: c :: body)
    (hnotOpen : ¬opener name <+: c :: body) : Closes name depth (c :: body) := by
  refine .cons hname (fun part hp => ?_) ?_
  · have hcons : c :: part <+: c :: body := List.cons_prefix_cons.2 ⟨rfl, hp⟩
    rw [occurrences_cons_miss fun hc => hnotClose (hc.trans hcons),
      occurrences_cons_miss fun ho => hnotOpen (ho.trans hcons)]
    exact h.front hp
  · rw [occurrences_cons_miss hnotClose, occurrences_cons_miss hnotOpen]
    exact h.total

/-- Behind an opening one environment more is open. -/
theorem Closes.of_opening (h : Closes name (depth + 1) body) (hopen : opener name <+: c :: body) :
    Closes name depth (c :: body) := by
  have hnotClose : ¬closer name <+: c :: body := fun hc => not_opener_of_closer hc hopen
  refine .cons hname (fun part hp => ?_) ?_
  · have hcons : c :: part <+: c :: body := List.cons_prefix_cons.2 ⟨rfl, hp⟩
    rw [occurrences_cons_miss fun hc => hnotClose (hc.trans hcons)]
    by_cases hwhole : opener name <+: c :: part
    · have hmarks := h.front hp
      rw [occurrences_cons_hit hwhole]
      omega
    · -- the part ends inside the opening, where no closing begins
      rw [(closer_isMark hname).occurrences_eq_zero
        ((opener_isMark hname).not_mem_of_front hopen hp hwhole)]
      exact Nat.zero_le _
  · rw [occurrences_cons_miss hnotClose, occurrences_cons_hit hopen, h.total]
    omega

/-- The body that is found closes what was open when it began. -/
theorem closes_of_closeEnvironment {s rest : Text}
    (h : closeEnvironment name depth s = some (body, rest)) : Closes name depth body := by
  fun_induction closeEnvironment name depth s generalizing body rest with
  | case1 => cases h
  | case2 =>
    cases h
    exact .nil hname
  | case3 c s r hr depth ih =>
    obtain ⟨w, rfl, hw⟩ := exists_of_map_onto h
    have hclose : closer name <+: c :: s := ⟨r, (isPrefixOf?_eq_some.1 hr).symm⟩
    rw [closeEnvironment_eq hw, prefix_append_closer_iff hname (closer_isMark hname)] at hclose
    exact (ih hw).of_closing hname hclose
  | case4 depth c s hr hopen ih =>
    obtain ⟨w, rfl, hw⟩ := exists_of_map_onto h
    rw [List.isPrefixOf_iff_prefix, closeEnvironment_eq hw,
      prefix_append_closer_iff hname (opener_isMark hname)] at hopen
    exact (ih hw).of_opening hname hopen
  | case5 depth c s hr hopen ih =>
    obtain ⟨w, rfl, hw⟩ := exists_of_map_onto h
    rw [isPrefixOf?_eq_none, closeEnvironment_eq hw,
      prefix_append_closer_iff hname (closer_isMark hname)] at hr
    rw [List.isPrefixOf_iff_prefix, closeEnvironment_eq hw,
      prefix_append_closer_iff hname (opener_isMark hname)] at hopen
    exact (ih hw).of_other hname hr hopen

theorem closeEnvironment_eq_some_iff {s rest : Text} :
    closeEnvironment name depth s = some (body, rest) ↔
      Closes name depth body ∧ s = body ++ closer name ++ rest := by
  constructor
  · exact fun h => ⟨closes_of_closeEnvironment hname h, closeEnvironment_eq h⟩
  · rintro ⟨h, rfl⟩
    exact closeEnvironment_append hname h rest

end

theorem closes_zero_iff {name body : Text} : Closes name 0 body ↔ Balanced name body := by
  refine ⟨fun h => ⟨fun front hfront => ?_, ?_⟩, Balanced.closes⟩
  · rw [← Nat.zero_add (occurrences (opener name) front)]
    exact h.front hfront
  · rw [h.total, Nat.zero_add]

def IsEnvironmentName (name : Text) : Prop := name ≠ [] ∧ ∀ c ∈ name, isNameChar c

/-- The beginning of an environment with layout in front of the brace. -/
def spacedOpener (gap name : Text) : Text := "\\begin" ++ gap ++ '{' :: name ++ ['}']

theorem openEnvironment?_eq_some_iff {s name rest : Text} :
    openEnvironment? s = some (name, rest) ↔ IsEnvironmentName name ∧
      ∃ gap : Text, (∀ c ∈ gap, c.isLayout) ∧ s = spacedOpener gap name ++ rest := by
  constructor
  · intro h
    obtain ⟨gap, hs, hne, hgap, hname⟩ := openEnvironment?_eq h
    refine ⟨⟨hne, List.all_eq_true.1 hname⟩, gap, List.all_eq_true.1 hgap, ?_⟩
    simpa [spacedOpener] using hs
  · rintro ⟨⟨hne, hname⟩, gap, hgap, rfl⟩
    simpa [spacedOpener] using openEnvironment?_of_layout hname hgap hne rest

/-- A text is read as an environment exactly if it begins with one whose body is balanced, and then
the name, the body and the rest are those of that environment. Only spaces, tabs, carriage returns
and line feeds may stand in front of the name. -/
theorem environment?_eq_some_iff {s rest : Text} {e : Environment} :
    environment? s = some (e, rest) ↔
      IsEnvironmentName e.name ∧ Balanced e.name e.body ∧ s = e.source ++ rest ∧
        ∃ gap : Text, (∀ c ∈ gap, c.isLayout) ∧
          e.source = spacedOpener gap e.name ++ e.body ++ closer e.name := by
  have hsource (source : Text) :
      (source ++ rest).take ((source ++ rest).length - rest.length) = source := by
    rw [List.length_append, Nat.add_sub_cancel, List.take_left]
  constructor
  · intro h
    unfold environment? at h
    split at h
    · cases h
    · next name after hopen =>
      obtain ⟨hname, gap, hgap, rfl⟩ := openEnvironment?_eq_some_iff.1 hopen
      split at h
      · cases h
      · next body rest' hclose =>
        cases h
        obtain ⟨hcloses, rfl⟩ := (closeEnvironment_eq_some_iff hname.2).1 hclose
        have hs : spacedOpener gap name ++ (body ++ closer name ++ rest) =
            spacedOpener gap name ++ body ++ closer name ++ rest := by
          simp only [List.append_assoc]
        rw [hs, hsource]
        exact ⟨hname, closes_zero_iff.1 hcloses, rfl, gap, hgap, rfl⟩
  · rintro ⟨hname, hbalanced, rfl, gap, hgap, he⟩
    have hopen : openEnvironment? (e.source ++ rest) =
        some (e.name, e.body ++ closer e.name ++ rest) := by
      refine openEnvironment?_eq_some_iff.2 ⟨hname, gap, hgap, ?_⟩
      rw [he]
      simp only [List.append_assoc]
    have hclose := closeEnvironment_append hname.2 hbalanced.closes rest
    unfold environment?
    simp only [hopen, hclose, hsource]

/-- A form feed in front of the name is a blank of ASCII and no layout, and a name has at least one
character: neither of these two environments is read, although their bodies are balanced. -/
theorem environment?_behind_formFeed :
    Char.isBlank '\x0c' ∧ '\x0c'.toNat < 128 ∧ ("quote" : Text).all isNameChar ∧
      Balanced "quote" "x" ∧
      environment? (spacedOpener ['\x0c'] "quote" ++ "x" ++ closer "quote") = none ∧
    Balanced [] "x" ∧ environment? (spacedOpener [] [] ++ "x" ++ closer []) = none := by
  decide +kernel

end Source

end TexCatalog
