import TexCatalog.Proofs.CanonicalSpelling
import TexCatalog.Proofs.CommentLines

/-!
# Running text from its spelling

Running text is read back node by node. A text ends where the next node begins, since that one
begins with a blank, a backslash or a dollar sign; an argument ends at its own brace, if what stands
in it closes the braces that it opens.
-/

namespace TexCatalog

namespace Source

open Text

theorem map_onto_onto (front back : Text) (r : Option (Text × Text)) :
    (r.map (onto back)).map (onto front) = r.map (onto (front ++ back)) := by
  rw [Option.map_map]
  congr 1
  funext p
  simp [onto]

theorem map_onto_nil (r : Option (Text × Text)) : r.map (onto []) = r := by
  cases r <;> rfl

theorem map_onto_eq_some {front t rest : Text} {r : Option (Text × Text)} :
    r.map (onto front) = some (front ++ t, rest) ↔ r = some (t, rest) := by
  cases r with
  | none => simp
  | some p => simp [onto, Prod.ext_iff]

theorem exists_of_map_onto {front v rest : Text} {r : Option (Text × Text)}
    (h : r.map (onto front) = some (v, rest)) : ∃ w, v = front ++ w ∧ r = some (w, rest) := by
  obtain ⟨⟨w, rest'⟩, hr, heq⟩ := Option.map_eq_some_iff.1 h
  cases heq
  exact ⟨w, rfl, hr⟩

/-! ### Braces -/

/-- A text that the search for a closing brace goes through, whatever is open in front of it. -/
def PassesBraces (x : Text) : Prop :=
  ∀ depth r, closeBrace depth (x ++ r) = (closeBrace depth r).map (onto x)

theorem closeBrace_passes : ∀ {t : Text} {inside : Nat},
    closeBrace inside (t ++ ['}']) = some (t, []) → ∀ depth r,
      closeBrace (depth + inside) (t ++ r) = (closeBrace depth r).map (onto t)
  | [], 0, _, depth, r => (map_onto_nil _).symm
  | [], inside + 1, h, _, _ => by
    rw [List.nil_append, closeBrace.eq_def] at h
    simp [closeBrace] at h
  | c :: t, inside, h, depth, r => by
    rw [List.cons_append, closeBrace.eq_def] at h ⊢
    dsimp only at h ⊢
    split at h
    · next hc =>
      rw [if_pos hc]
      cases t with
      | nil =>
        rw [List.nil_append] at h
        simp [closeBrace] at h
      | cons d t =>
        have hinside := map_onto_eq_some.1 (h : _ = some ([c, d] ++ t, []))
        exact (congrArg _ (closeBrace_passes hinside depth r)).trans (map_onto_onto ..)
    · next hc =>
      rw [if_neg hc]
      split at h
      · next hopen =>
        have hinside := map_onto_eq_some.1 (h : _ = some ([c] ++ t, []))
        rw [if_pos hopen]
        exact (congrArg _ (closeBrace_passes hinside depth r)).trans (map_onto_onto ..)
      · next hopen =>
        rw [if_neg hopen]
        split at h
        · next hclose =>
          rw [if_pos hclose]
          cases inside with
          | zero => simp at h
          | succ inside =>
            have hinside := map_onto_eq_some.1 (h : _ = some ([c] ++ t, []))
            exact (congrArg _ (closeBrace_passes hinside depth r)).trans (map_onto_onto ..)
        · next hclose =>
          have hinside := map_onto_eq_some.1 (h : _ = some ([c] ++ t, []))
          rw [if_neg hclose]
          exact (congrArg _ (closeBrace_passes hinside depth r)).trans (map_onto_onto ..)

theorem Closed.passesBraces {t : Text} (h : Closed t) : PassesBraces t := by
  rw [Closed, braced?, if_pos rfl] at h
  exact closeBrace_passes h

namespace PassesBraces

variable {x y : Text}

theorem nil : PassesBraces [] := fun _ _ => (map_onto_nil _).symm

theorem append (hx : PassesBraces x) (hy : PassesBraces y) : PassesBraces (x ++ y) := by
  intro depth r
  rw [List.append_assoc, hx, hy, map_onto_onto]

theorem cons {c : Char} (h : c ∉ ("\\\x7b\x7d" : Text)) (hx : PassesBraces x) :
    PassesBraces (c :: x) := by
  intro depth r
  simp only [ofString_eq, String.reduceToList, List.mem_cons, List.not_mem_nil, or_false,
    not_or] at h
  rw [List.cons_append, closeBrace.eq_def]
  simp only [h, if_false, hx depth r]
  exact map_onto_onto ..

theorem of_plain (h : ∀ c ∈ x, c ∉ ("\\\x7b\x7d" : Text)) : PassesBraces x := by
  induction x with
  | nil => exact nil
  | cons c x ih =>
    rw [List.forall_mem_cons] at h
    exact (ih h.2).cons h.1

theorem of_letters (h : ∀ c ∈ x, c.isAlpha) : PassesBraces x := by
  refine of_plain fun c hc hmem => ?_
  have hletter := h c hc
  simp only [ofString_eq, String.reduceToList, List.mem_cons, List.not_mem_nil, or_false] at hmem
  rcases hmem with rfl | rfl | rfl <;> exact absurd hletter (by decide)

theorem escaped (c : Char) : PassesBraces ['\\', c] := by
  intro depth r
  rw [List.cons_append, List.singleton_append, closeBrace.eq_def]
  simp

theorem group (hx : PassesBraces x) : PassesBraces ('{' :: (x ++ ['}'])) := by
  intro depth r
  have hclose : closeBrace (depth + 1) ('}' :: r) = (closeBrace depth r).map (onto ['}']) := by
    rw [closeBrace.eq_def]
    simp
  rw [List.cons_append, List.append_assoc, List.singleton_append, closeBrace.eq_def]
  simp only [hx (depth + 1), hclose, map_onto_onto]
  simp

theorem braced? (hx : PassesBraces x) (r : Text) :
    braced? ('{' :: (x ++ '}' :: r)) = some (x, r) := by
  have hclose : closeBrace 0 ('}' :: r) = some ([], r) := by
    rw [closeBrace.eq_def]
    simp
  rw [Source.braced?, if_pos rfl, hx, hclose]
  simp [onto]

end PassesBraces

def inlineCommands : List Text :=
  ["emph", "textbf", "textsc", "underline", "sout", "textsuperscript", "textsubscript", "texttt",
    "href"]

theorem styleCommand_mem (style : Style) : styleCommand style ∈ inlineCommands := by
  cases style <;> simp [styleCommand, inlineCommands]

theorem styleOf?_styleCommand (style : Style) :
    Token.styleOf? (styleCommand style) = some style := by
  cases style <;> simp [styleCommand, Token.styleOf?]

theorem inlineCommands_letters {name : Text} (h : name ∈ inlineCommands) :
    name ≠ [] ∧ (∀ c ∈ name, c.isAlpha) ∧ ("\\begin" : Text).isPrefixOf? ('\\' :: name) = none := by
  have hall : name ≠ [] ∧ name.all Char.isAlpha ∧
      ("\\begin" : Text).isPrefixOf? ('\\' :: name) = none := by
    revert name
    simp [inlineCommands, List.isPrefixOf?]
  exact ⟨hall.1, List.all_eq_true.1 hall.2.1, hall.2.2⟩

theorem PassesBraces.command {name argument : Text} (hname : name ∈ inlineCommands)
    (hargument : PassesBraces argument) : PassesBraces (spellCommand name argument) := by
  obtain ⟨hne, hletters, _⟩ := inlineCommands_letters hname
  cases name with
  | nil => exact absurd rfl hne
  | cons c name =>
    rw [List.forall_mem_cons] at hletters
    refine (escaped c).append (append ?_ hargument.group)
    exact of_letters hletters.2

/-- In an argument, running text closes the braces that it opens. -/
theorem Place.Leaf.passesBraces {p : Place} {node : Inline} (h : p.Leaf node) (hp : p.grouped) :
    PassesBraces (spellInline node) := by
  cases h with
  | word hword =>
    rw [spellInline]
    refine .of_plain fun c hc hmem => (hword.2.1 c hc).2 ?_
    revert hmem
    simp only [ofString_eq, String.reduceToList, List.mem_cons, List.not_mem_nil, or_false]
    rintro (rfl | rfl | rfl) <;> simp
  | space | softBreak =>
    rw [spellInline]
    exact .of_plain (by simp)
  | lineBreak =>
    rw [spellInline]
    exact .escaped '\\'
  | math _ _ hclosed _ =>
    rw [spellInline]
    refine .cons (by simp) ((hclosed hp).passesBraces.append ?_)
    exact .of_plain (by simp)
  | code hclosed _ =>
    rw [spellInline]
    exact .command (by simp [inlineCommands]) hclosed.passesBraces

/-! ### Tokens -/

section

variable {s r : Text}

theorem fragments_nodes {content : List Inline} (h : Token.next? s = some (.nodes content, r)) :
    fragments s = content ++ fragments r := by
  rw [fragments]
  split <;> simp_all

theorem fragments_nested {wrap : Wrap} {argument : Text}
    (h : Token.next? s = some (.nested wrap argument, r)) :
    fragments s = wrap.apply (readInlines argument) ++ fragments r := by
  rw [fragments]
  split <;> simp_all [readInlines]

theorem fragments_nil : fragments [] = [] := by
  rw [fragments]
  simp [Token.next?]

end

def Merges : Inline → Inline → Prop
  | .text _, .text _ | .space, .space => True
  | _, _ => False

/-- A node stays as it is in front of what it does not merge with. -/
theorem normalize_cons {node : Inline} {more : List Inline}
    (h : ∀ next ∈ (normalize more).head?, ¬Merges node next) :
    normalize (node :: more) = node :: normalize more := by
  conv_lhs => unfold normalize
  split
  · next hmore =>
    rw [hmore] at h
    exact absurd trivial (h _ rfl)
  · next hmore =>
    rw [hmore] at h
    exact absurd trivial (h _ rfl)
  · rfl

def EndsRun (r : Text) : Prop := ∀ c ∈ r.head?, c.isBlank ∨ c ∈ ("\\$" : Text)

theorem not_occursIn_cons {part t : Text} {c : Char} (h : ¬occursIn part (c :: t)) :
    ¬part <+: c :: t ∧ ¬occursIn part t := by
  rw [occursIn, cut?] at h
  cases hhere : part.isPrefixOf? (c :: t) with
  | some rest =>
    rw [hhere] at h
    simp at h
  | none =>
    rw [hhere] at h
    exact ⟨isPrefixOf?_eq_none.1 hhere, by simpa [occursIn] using h⟩

/-- In a word, plain text does not end. -/
theorem not_stopsRun {c : Char} {t r : Text} (h : IsWord (c :: t)) (hr : EndsRun r) :
    Token.stopsRun (c :: (t ++ r)) = false := by
  obtain ⟨_, hplain, hpairs⟩ := h
  have hchar := hplain c (List.mem_cons_self ..)
  have hpair {q : Char} (hq : [q, q] ∈ [("--" : Text), "``", ['\'', '\'']])
      (hstops : q.isBlank = false ∧ q ∉ ("\\$" : Text)) :
      (c == q && (t ++ r).head? == some q) = false := by
    rw [Bool.and_eq_false_iff, beq_eq_false_iff_ne, beq_eq_false_iff_ne]
    by_cases hc : c = q
    · right
      intro hnext
      cases t with
      | nil =>
        rcases hr q hnext with hblank | hmark
        · simp [hstops.1] at hblank
        · exact hstops.2 hmark
      | cons d t =>
        obtain rfl : d = q := by simpa using hnext
        exact (not_occursIn_cons (hpairs _ hq)).1 ⟨t, by rw [hc]; rfl⟩
    · exact .inl hc
  have hdash := hpair (q := '-') (by simp) (by decide_cbv)
  have hopening := hpair (q := '\x60') (by simp) (by decide_cbv)
  have hclosing := hpair (q := '\'') (by simp) (by decide_cbv)
  have hmarks : ("\\$\x7b\x7d~%" : Text).contains c = false := by
    simpa using hchar.2
  simp only [Token.stopsRun, hmarks, hdash, hopening, hclosing, Bool.or_false]
  simpa using hchar.1

theorem IsWord.tail {c : Char} {t : Text} (h : IsWord (c :: t)) : t = [] ∨ IsWord t := by
  by_cases hnil : t = []
  · exact .inl hnil
  · obtain ⟨_, hplain, hpairs⟩ := h
    exact .inr ⟨hnil, fun d hd => hplain d (List.mem_cons_of_mem c hd),
      fun pair hpair => (not_occursIn_cons (hpairs pair hpair)).2⟩

theorem run_eq_nil {r : Text} (hr : EndsRun r) : Token.run r = ([], r) := by
  cases r with
  | nil => rfl
  | cons c r =>
    have hstops : Token.stopsRun (c :: r) = true := by
      rcases hr c rfl with hblank | hmark
      · simp [Token.stopsRun, hblank]
      · simp only [ofString_eq, String.reduceToList, List.mem_cons, List.not_mem_nil,
          or_false] at hmark
        rcases hmark with rfl | rfl <;> simp [Token.stopsRun]
    rw [Token.run, if_pos hstops]

theorem run_word {t r : Text} (h : t = [] ∨ IsWord t) (hr : EndsRun r) :
    Token.run (t ++ r) = (t, r) := by
  induction t with
  | nil => exact run_eq_nil hr
  | cons c t ih =>
    have hword := h.resolve_left (List.cons_ne_nil c t)
    rw [List.cons_append, Token.run, not_stopsRun hword hr, ih hword.tail]
    rfl

/-- Where plain text does not end, no other piece begins. -/
theorem special?_eq_none {c : Char} {s : Text} (h : Token.stopsRun (c :: s) = false) :
    Token.special? c s = none := by
  simp only [Token.stopsRun, Bool.or_eq_false_iff] at h
  obtain ⟨⟨⟨⟨hblank, hmark⟩, hdash⟩, hopening⟩, hclosing⟩ := h
  simp only [ofString_eq, String.reduceToList, List.contains_eq_mem, List.mem_cons,
    List.not_mem_nil, or_false, decide_eq_false_iff_not, not_or] at hmark
  unfold Token.special?
  simp only [hblank, hmark, Bool.false_eq_true, if_false]
  split
  · simp at hdash
  · simp at hdash
  · simp at hopening
  · simp at hclosing
  · rfl

theorem next?_word {t r : Text} (h : IsWord t) (hr : EndsRun r) :
    Token.next? (t ++ r) = some (.nodes [.text t], r) := by
  cases t with
  | nil => exact absurd rfl h.1
  | cons c t =>
    rw [List.cons_append, Token.next?, special?_eq_none (not_stopsRun h hr), run_word h.tail hr]
    rfl

theorem next?_of_special? {c : Char} {s : Text} {p : Token × Text}
    (h : Token.special? c s = some p) : Token.next? (c :: s) = some p := by
  rw [Token.next?, h]
  rfl

/-- A run of blanks in front of something else. -/
theorem next?_run {g r : Text} (hne : g ≠ []) (hg : ∀ c ∈ g, c.isBlank)
    (hr : ∀ c ∈ r.head?, ¬c.isBlank) :
    Token.next? (g ++ r) =
      some (.nodes [if g.contains '\n' then .softBreak else .space], r) := by
  have hrest : r.takeWhile Char.isBlank = [] ∧ r.dropWhile Char.isBlank = r := by
    cases r with
    | nil => exact ⟨rfl, rfl⟩
    | cons d r =>
      have hd := hr d rfl
      exact ⟨List.takeWhile_cons_of_neg hd, List.dropWhile_cons_of_neg hd⟩
  have hblanks : Token.blanks (g ++ r) =
      (.nodes [if g.contains '\n' then .softBreak else .space], r) := by
    rw [Token.blanks, List.takeWhile_append_of_pos hg, List.dropWhile_append_of_pos hg, hrest.1,
      hrest.2, List.append_nil]
  obtain ⟨c, g, rfl⟩ := List.exists_cons_of_ne_nil hne
  apply next?_of_special?
  unfold Token.special?
  rw [if_pos (hg c (List.mem_cons_self ..))]
  exact congrArg some hblanks

/-- A single blank in front of something else. -/
theorem next?_gap {c : Char} {r : Text} (hc : c.isBlank) (hr : ∀ d ∈ r.head?, ¬d.isBlank) :
    Token.next? (c :: r) =
      some (.nodes [if c = '\n' then .softBreak else .space], r) := by
  have hblank : ∀ d ∈ [c], d.isBlank := fun d hd => List.mem_singleton.1 hd ▸ hc
  have hbreak : [c].contains '\n' = decide (c = '\n') := by
    simp [eq_comm]
  have hrun := next?_run (List.cons_ne_nil c []) hblank hr
  rw [hbreak] at hrun
  simpa using hrun

theorem special?_backslash (s : Text) :
    Token.special? '\\' s = Token.backslash? ('\\' :: s) := by
  have hblank : ¬Char.isBlank '\\' := by decide
  unfold Token.special?
  simp [hblank]

theorem next?_lineBreak (r : Text) :
    Token.next? ('\\' :: '\\' :: r) = some (.nodes [.lineBreak], r) := by
  have hdelimited : Token.delimited? ('\\' :: r) = none := by simp [Token.delimited?]
  have hescaped : Token.escaped? ('\\' :: r) = some (.nodes [.lineBreak], r) := by
    simp [Token.escaped?]
  apply next?_of_special?
  rw [special?_backslash, Token.backslash?, List.tail_cons, hdelimited, hescaped]
  rfl

theorem cutUnescaped?_dollar (r : Text) : cutUnescaped? ['$'] ('$' :: r) = some ([], r) := by
  have hdollar : ['$'].isPrefixOf? ('$' :: r) = some r := rfl
  rw [cutUnescaped?.eq_def]
  simp [hdollar]

/-- Math ends at the first dollar sign that is not escaped. -/
theorem cutUnescaped?_passes : ∀ {t : Text}, cutUnescaped? ['$'] (t ++ ['$']) = some (t, []) →
    ∀ r, cutUnescaped? ['$'] (t ++ '$' :: r) = some (t, r)
  | [], _, r => cutUnescaped?_dollar r
  | c :: t, h, r => by
    rw [List.cons_append, cutUnescaped?.eq_def] at h ⊢
    dsimp only at h ⊢
    split at h
    · next hc =>
      rw [if_pos hc]
      cases t with
      | nil =>
        rw [List.nil_append] at h
        cases h
      | cons d t =>
        have hinside := map_onto_eq_some.1 (h : _ = some ([c, d] ++ t, []))
        exact congrArg (Option.map (onto [c, d])) (cutUnescaped?_passes hinside r)
    · next hc =>
      rw [if_neg hc]
      have hdollar (s : Text) : ['$'].isPrefixOf? (c :: s) = if c = '$' then some s else none := by
        by_cases heq : c = '$'
        · rw [if_pos heq, heq]
          rfl
        · rw [if_neg heq]
          change (if '$' == c then some s else none) = none
          rw [beq_false_of_ne (Ne.symm heq)]
          rfl
      rw [hdollar] at h ⊢
      by_cases heq : c = '$'
      · rw [if_pos heq] at h
        cases h
      · rw [if_neg heq] at h ⊢
        have hinside := map_onto_eq_some.1 (h : _ = some ([c] ++ t, []))
        exact congrArg (Option.map (onto [c])) (cutUnescaped?_passes hinside r)

theorem next?_math {t : Text} (hne : t ≠ []) (h : cutUnescaped? ['$'] (t ++ ['$']) = some (t, []))
    (r : Text) : Token.next? ('$' :: (t ++ '$' :: r)) = some (.nodes [.math .inline t], r) := by
  have hcut := cutUnescaped?_passes h r
  have hdollar : Token.dollar? (t ++ '$' :: r) = some (Token.math .inline t, r) := by
    unfold Token.dollar?
    split
    · next s heq =>
      cases t with
      | nil => exact absurd rfl hne
      | cons c t =>
        rw [List.cons_append, List.cons.injEq] at heq
        rw [List.cons_append, heq.1, cutUnescaped?_dollar] at h
        cases h
    · have hliteral : ("$" : Text) = ['$'] := by simp
      rw [hliteral, hcut]
      rfl
  have hblank : ¬Char.isBlank '$' := by decide
  apply next?_of_special?
  unfold Token.special?
  simpa [hblank, Token.math] using hdollar

/-- Behind the name of a command stands its argument. -/
theorem commandName?_cons {name : Text} (hne : name ≠ []) (hletters : ∀ c ∈ name, c.isAlpha)
    (s : Text) : commandName? ('\\' :: (name ++ '{' :: s)) = some (name, '{' :: s) :=
  commandName?_word hne hletters (by decide) s

theorem environment?_eq_none {s : Text} (h : ("\\begin" : Text).isPrefixOf? s = none) :
    environment? s = none := by
  simp only [environment?, openEnvironment?, h]

/-- A letter behind a backslash begins the name of a command. -/
theorem not_escaped_of_letter {c : Char} (h : c.isAlpha) (s : Text) :
    Token.delimited? (c :: s) = none ∧ Token.escaped? (c :: s) = none := by
  constructor
  · unfold Token.delimited?
    split
    · next heq =>
      rw [List.cons.injEq] at heq
      rw [heq.1] at h
      exact absurd h (by decide)
    · next heq =>
      rw [List.cons.injEq] at heq
      rw [heq.1] at h
      exact absurd h (by decide)
    · rfl
  · have hmarks : ("\\%&_#$\x7b\x7d ," : Text).all (!·.isAlpha) := by simp
    have hne : ∀ d ∈ ("\\%&_#$\x7b\x7d ," : Text), c ≠ d := by
      rintro d hd rfl
      have hd' := List.all_eq_true.1 hmarks c hd
      rw [h] at hd'
      cases hd'
    simp at hne
    simp [Token.escaped?, hne]

theorem next?_command {name s r : Text} {token : Token} (hname : name ∈ inlineCommands)
    (hnative : Token.native? name ('{' :: s) = some (token, r)) :
    Token.next? ('\\' :: (name ++ '{' :: s)) = some (token, r) := by
  obtain ⟨hne, hletters, hbegin⟩ := inlineCommands_letters hname
  have hcommand : Token.command? ('\\' :: (name ++ '{' :: s)) = some (token, r) := by
    rw [Token.command?, commandName?_cons hne hletters]
    simpa [star] using hnative
  have henvironment : environment? ('\\' :: (name ++ '{' :: s)) = none := by
    apply environment?_eq_none
    rw [← List.cons_append, isPrefixOf?_append_cons (by simp), hbegin]
    rfl
  obtain ⟨c, more, rfl⟩ := List.exists_cons_of_ne_nil hne
  obtain ⟨hdelimited, hescaped⟩ :=
    not_escaped_of_letter (hletters c (List.mem_cons_self ..)) (more ++ '{' :: s)
  apply next?_of_special?
  rw [special?_backslash, Token.backslash?, List.tail_cons, henvironment, hcommand,
    List.cons_append, hdelimited, hescaped]
  rfl

section

variable {x : Text} (hx : PassesBraces x) (r : Text)

include hx

theorem spacedBraced?_argument : spacedBraced? ('{' :: (x ++ '}' :: r)) = some (x, r) :=
  hx.braced? r

theorem next?_code : Token.next? (spellCommand "texttt" x ++ r) =
    some (.nodes [.code .empty x], r) := by
  have hstyle : Token.styleOf? "texttt" = none := by simp [Token.styleOf?]
  have hnative : Token.native? "texttt" ('{' :: (x ++ '}' :: r)) =
      some (.nodes [.code .empty x], r) := by
    rw [Token.native?, hstyle]
    simp [spacedBraced?_argument hx]
  simpa [spellCommand] using next?_command (by simp [inlineCommands]) hnative

theorem next?_styled (style : Style) : Token.next? (spellCommand (styleCommand style) x ++ r) =
    some (.nested (.styled style) x, r) := by
  have hnative : Token.native? (styleCommand style) ('{' :: (x ++ '}' :: r)) =
      some (.nested (.styled style) x, r) := by
    rw [Token.native?, styleOf?_styleCommand]
    simp [spacedBraced?_argument hx]
  simpa [spellCommand] using next?_command (styleCommand_mem style) hnative

theorem next?_link {url : Text} (hurl : PassesBraces url) :
    Token.next? (spellCommand "href" url ++ '{' :: (x ++ ['}']) ++ r) =
      some (.nested (.link url) x, r) := by
  have hstyle : Token.styleOf? "href" = none := by simp [Token.styleOf?]
  have hnative : Token.native? "href" ('{' :: (url ++ '}' :: '{' :: (x ++ '}' :: r))) =
      some (.nested (.link url) x, r) := by
    rw [Token.native?, hstyle]
    simp [spacedBraced?_argument hx, spacedBraced?_argument hurl]
  simpa [spellCommand] using next?_command (by simp [inlineCommands]) hnative

end

def Starts : Inline → Char → Prop
  | .text _, c => ¬c.isBlank ∧ c ∉ ("\\$\x7b\x7d~%" : Text)
  | .space, c | .softBreak, c => c.isBlank
  | _, c => c ∈ ("\\$" : Text)

section

variable {p : Place} {node : Inline} {more nodes : List Inline}

theorem Place.Leaf.starts (h : p.Leaf node) : ∃ c s, spellInline node = c :: s ∧ Starts node c := by
  cases h with
  | word hword =>
    obtain ⟨c, t, rfl⟩ := List.exists_cons_of_ne_nil hword.1
    exact ⟨c, t, by rw [spellInline], hword.2.1 c (List.mem_cons_self ..)⟩
  | space => exact ⟨' ', [], by rw [spellInline], (by decide : Char.isBlank ' ')⟩
  | softBreak => exact ⟨'\n', [], by rw [spellInline], (by decide : Char.isBlank '\n')⟩
  | lineBreak => exact ⟨'\\', _, by rw [spellInline], by simp [Starts]⟩
  | math => exact ⟨'$', _, by rw [spellInline], by simp [Starts]⟩
  | code => exact ⟨'\\', _, by rw [spellInline, spellCommand], by simp [Starts]⟩

theorem CanonicalInlines.starts (h : CanonicalInlines p (node :: more)) :
    ∃ c s, spellInline node = c :: s ∧ Starts node c := by
  cases h with
  | leaf hleaf => exact hleaf.starts
  | styled => exact ⟨'\\', _, by rw [spellInline, spellCommand], by simp [Starts]⟩
  | link => exact ⟨'\\', _, by rw [spellInline, spellCommand, List.cons_append], by simp [Starts]⟩

def BeginsAs : List Inline → Text → Prop
  | [], r => r = []
  | next :: _, r => ∃ c s, r = c :: s ∧ Starts next c

/-- Behind a text no other plain text begins. -/
theorem BeginsAs.endsRun {r : Text} (h : BeginsAs more r)
    (hnext : ∀ t, more.head? ≠ some (.text t)) : EndsRun r := by
  cases more with
  | nil =>
    cases h
    exact fun _ h => nomatch h
  | cons next rest =>
    obtain ⟨c, s, rfl, hstarts⟩ := h
    rintro _ ⟨rfl⟩
    cases next with
    | text t => exact absurd rfl (hnext t)
    | space | softBreak => exact .inl hstarts
    | _ => exact .inr hstarts

theorem BeginsAs.head_not_blank {r : Text} (h : BeginsAs nodes r)
    (hgap : ∀ first ∈ nodes.head?, ¬IsGap first) : ∀ c ∈ r.head?, ¬c.isBlank := by
  cases nodes with
  | nil =>
    cases h
    exact fun _ h => nomatch h
  | cons node more =>
    obtain ⟨c, s, rfl, hstarts⟩ := h
    have hnode := hgap node rfl
    rintro _ ⟨rfl⟩
    have hmark {c : Char} (h : c ∈ ("\\$" : Text)) : ¬c.isBlank := by
      simp at h
      rcases h with rfl | rfl <;> decide
    cases node with
    | text => exact hstarts.1
    | space | softBreak => exact absurd trivial hnode
    | _ => exact hmark hstarts

theorem Place.Meets.no_text {t : Text} (hmeets : p.Meets (.text t) more) (t' : Text) :
    more.head? ≠ some (.text t') := fun hnext => hmeets _ hnext

theorem Place.Meets.no_gap (hmeets : p.Meets node more) (hnode : IsGap node) :
    ∀ first ∈ more.head?, ¬IsGap first := by
  intro first hfirst hgap
  have hmeet := hmeets first hfirst
  cases node <;> first | exact hnode.elim | cases first <;> first | exact hgap | exact hmeet

theorem Place.Meets.normalize_cons (hmeets : p.Meets node more) (h : normalize more = more) :
    normalize (node :: more) = node :: more := by
  have hapart : ∀ next ∈ (normalize more).head?, ¬Merges node next := by
    intro next hnext hmerges
    rw [h] at hnext
    have hmeet := hmeets next hnext
    unfold Merges at hmerges
    split at hmerges
    · exact hmeet
    · exact hmeet
    · exact hmerges
  rw [Source.normalize_cons hapart, h]

/-- A node without content of its own is read back, whatever nodes stand behind it. -/
theorem Place.Leaf.next?_eq (h : p.Leaf node) (hmeets : p.Meets node more) {r : Text}
    (hr : BeginsAs more r) : Token.next? (spellInline node ++ r) = some (.nodes [node], r) := by
  have hblank (hgap : IsGap node) := hr.head_not_blank (hmeets.no_gap hgap)
  cases h with
  | word hword =>
    rw [spellInline]
    exact next?_word hword (hr.endsRun hmeets.no_text)
  | space =>
    rw [spellInline]
    exact next?_gap (by decide) (hblank trivial)
  | softBreak =>
    rw [spellInline]
    exact next?_gap (by decide) (hblank trivial)
  | lineBreak =>
    rw [spellInline]
    exact next?_lineBreak r
  | math hne hcut _ _ =>
    rw [spellInline, List.cons_append, List.append_assoc]
    exact next?_math hne hcut r
  | code hclosed _ =>
    rw [spellInline]
    exact next?_code hclosed.passesBraces r

end

end Source

end TexCatalog
