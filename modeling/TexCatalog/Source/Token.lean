import TexCatalog.Source.Environment
import TexCatalog.Source.Split
import TexCatalog.Tree.Basic

/-!
# Tokens of running text

The first piece of a running text: either nodes that are complete, or a command with an argument
that is running text itself. The main statement, `Token.next?_lt`, says that the argument and the
rest are shorter than the text, which is what makes reading end.
-/

namespace TexCatalog.Source

inductive Wrap where
  | splice
  | styled (style : Style)
  | link (url : Text)
  deriving DecidableEq, Repr

namespace Wrap

def apply : Wrap → List Inline → List Inline
  | .splice, content => content
  | .styled style, content => [.styled style content]
  | .link url, content => [.link .empty content ⟨url, []⟩]

end Wrap

/-- The first piece of a running text. -/
inductive Token where
  | nodes (content : List Inline)
  | nested (wrap : Wrap) (argument : Text)

namespace Token

def text (t : Text) : Token := .nodes [.text t]

def char (c : Char) : Token := text [c]

def raw (t : Text) : Token := .nodes [.raw .tex t]

def math (kind : MathKind) (t : Text) : Token := .nodes [.math kind t]

def Below (n : Nat) : Token → Prop
  | .nodes _ => True
  | .nested _ argument => argument.length < n

/-- A run of blanks is a soft break if it has a line feed, else a space. -/
def blanks (s : Text) : Token × Text :=
  (.nodes [if (s.takeWhile Char.isBlank).contains '\n' then .softBreak else .space],
    s.dropWhile Char.isBlank)

def dollar? : Text → Option (Token × Text)
  | '$' :: s => (cutUnescaped? "$$" s).map fun p => (math .display (Text.trim p.1), p.2)
  | s => (cutUnescaped? "$" s).map fun p => (math .inline p.1, p.2)

/-- Math between `\(` and `\)` or between `\[` and `\]`, behind the first backslash. -/
def delimited? : Text → Option (Token × Text)
  | '(' :: s => (Text.cut? "\\)" s).map fun p => (math .inline (Text.trim p.1), p.2)
  | '[' :: s => (Text.cut? "\\]" s).map fun p => (math .display (Text.trim p.1), p.2)
  | _ => none

/-- A line break, an escaped character or a control space, behind the backslash. -/
def escaped? : Text → Option (Token × Text)
  | [] => none
  | c :: s =>
    if c = '\\' then some (.nodes [.lineBreak], s)
    else if ("%&_#$\x7b\x7d" : Text).contains c then some (char c, s)
    else if c = ' ' ∨ c = ',' then some (.nodes [.space], s)
    else none

def ofEnvironment (e : Environment) : Token :=
  if e.name = ("math" : Text) then math .inline (Text.trim e.body)
  else if [("equation" : Text), "equation*", "displaymath"].contains e.name then
    math .display (Text.trim e.body)
  else raw e.source

def styleOf? (name : Text) : Option Style :=
  if [("emph" : Text), "textit", "textsl"].contains name then some .emphasis
  else if name = ("textbf" : Text) then some .strong
  else if name = ("textsc" : Text) then some .smallCaps
  else if name = ("underline" : Text) then some .underline
  else if name = ("sout" : Text) then some .strikeout
  else if name = ("textsuperscript" : Text) then some .superscript
  else if name = ("textsubscript" : Text) then some .subscript
  else none

/-- A command that has a node of its own, given its name and the text behind it. -/
def native? (name s : Text) : Option (Token × Text) :=
  match styleOf? name with
  | some style => (spacedBraced? s).map fun p => (.nested (.styled style) p.1, p.2)
  | none =>
    if name = ("texttt" : Text) then
      (spacedBraced? s).map fun p => (.nodes [.code .empty p.1], p.2)
    else if name = ("url" : Text) then
      (spacedBraced? s).map fun p =>
        (.nodes [.link (.ofClasses ["uri"]) [.text p.1] ⟨p.1, []⟩], p.2)
    else if name = ("href" : Text) then
      match spacedBraced? s with
      | none => none
      | some (url, s) => (spacedBraced? s).map fun p => (.nested (.link url) p.1, p.2)
    else none

/-- A command without a star that has a node of its own. -/
def command? (s : Text) : Option (Token × Text) :=
  match commandName? s with
  | none => none
  | some (name, s) => if (star s).1 then none else native? name s

def backslash? (s : Text) : Option (Token × Text) :=
  ((delimited? s.tail).or (escaped? s.tail)).or <|
    ((environment? s).map fun p => (ofEnvironment p.1, p.2)).or <|
      (command? s).or <|
        (rawCommand? s).map fun p => (raw p.1, p.2)

/-- Does a plain run end in front of this text? -/
def stopsRun : Text → Bool
  | [] => true
  | c :: s =>
    c.isBlank || ("\\$\x7b\x7d~%" : Text).contains c ||
      (c == '-' && s.head? == some '-') || (c == '`' && s.head? == some '`') ||
      (c == '\'' && s.head? == some '\'')

/-- The characters in front of the next place where a plain run ends. -/
def run : Text → Text × Text
  | [] => ([], [])
  | c :: s => if stopsRun (c :: s) then ([], c :: s) else onto [c] (run s)

def special? (c : Char) (s : Text) : Option (Token × Text) :=
  if c.isBlank then some (blanks (c :: s))
  else if c = '%' then some (.nodes [], s.dropWhile (· ≠ '\n'))
  else if c = '$' then dollar? s
  else if c = '{' then (braced? (c :: s)).map fun p => (.nested .splice p.1, p.2)
  else if c = '~' then some (char '\u00a0', s)
  else if c = '\\' then backslash? (c :: s)
  else
    match c, s with
    | '-', '-' :: '-' :: s => some (char '\u2014', s)
    | '-', '-' :: s => some (char '\u2013', s)
    | '`', '`' :: s => some (char '\u201c', s)
    | '\'', '\'' :: s => some (char '\u201d', s)
    | _, _ => none

/-- The first piece of a text. What has no form of its own is plain text, whatever it begins
with. -/
def next? : Text → Option (Token × Text)
  | [] => none
  | c :: s => some ((special? c s).getD (text (c :: (run s).1), (run s).2))

theorem Below.mono {m n : Nat} {t : Token} (h : t.Below m) (hmn : m ≤ n) : t.Below n := by
  cases t with
  | nodes => trivial
  | nested => exact Nat.lt_of_lt_of_le h hmn

/-- The rest and the argument of a piece are shorter than `n` characters. -/
def Shrinks (n : Nat) (p : Token × Text) : Prop := p.2.length < n ∧ p.1.Below n

theorem Shrinks.mono {m n : Nat} {p : Token × Text} (h : Shrinks m p) (hmn : m ≤ n) :
    Shrinks n p :=
  ⟨Nat.lt_of_lt_of_le h.1 hmn, h.2.mono hmn⟩

theorem spacedBraced?_lt {s v r : Text} (h : spacedBraced? s = some (v, r)) :
    v.length < s.length ∧ r.length < s.length := by
  have := congrArg List.length (braced?_eq h)
  have := Text.length_dropLayout_le s
  simp at *
  omega

theorem blanks_shrinks {c : Char} (s : Text) (h : c.isBlank) :
    Shrinks (s.length + 1) (blanks (c :: s)) := by
  have := Text.length_dropWhile_le Char.isBlank s
  simp [Shrinks, Below, blanks, h]
  omega

theorem dollar?_shrinks {s : Text} {p : Token × Text} (h : dollar? s = some p) :
    Shrinks (s.length + 1) p := by
  unfold dollar? at h
  split at h <;>
    (obtain ⟨⟨v, r⟩, hc, rfl⟩ := Option.map_eq_some_iff.1 h
     have := congrArg List.length (cutUnescaped?_eq hc)
     simp at this
     simp [Shrinks, Below, math]
     omega)

theorem delimited?_shrinks {s : Text} {p : Token × Text} (h : delimited? s = some p) :
    Shrinks s.length p := by
  unfold delimited? at h
  split at h
  · obtain ⟨⟨v, r⟩, hc, rfl⟩ := Option.map_eq_some_iff.1 h
    have := congrArg List.length (Text.cut?_eq hc)
    simp at this
    simp [Shrinks, Below, math]
    omega
  · obtain ⟨⟨v, r⟩, hc, rfl⟩ := Option.map_eq_some_iff.1 h
    have := congrArg List.length (Text.cut?_eq hc)
    simp at this
    simp [Shrinks, Below, math]
    omega
  · simp at h

theorem escaped?_shrinks {s : Text} {p : Token × Text} (h : escaped? s = some p) :
    Shrinks s.length p := by
  unfold escaped? at h
  split at h
  · simp at h
  · split at h
    · simp [← Option.some.inj h, Shrinks, Below]
    · split at h
      · simp [← Option.some.inj h, Shrinks, Below, char, text]
      · split at h
        · simp [← Option.some.inj h, Shrinks, Below]
        · simp at h

theorem ofEnvironment_below (e : Environment) (n : Nat) : (ofEnvironment e).Below n := by
  unfold ofEnvironment
  split
  · trivial
  · split <;> trivial

theorem native?_shrinks {name s : Text} {p : Token × Text} (h : native? name s = some p) :
    Shrinks s.length p := by
  unfold native? at h
  split at h
  · obtain ⟨⟨v, r⟩, hc, rfl⟩ := Option.map_eq_some_iff.1 h
    exact ⟨(spacedBraced?_lt hc).2, (spacedBraced?_lt hc).1⟩
  · split at h
    · obtain ⟨⟨v, r⟩, hc, rfl⟩ := Option.map_eq_some_iff.1 h
      exact ⟨(spacedBraced?_lt hc).2, trivial⟩
    · split at h
      · obtain ⟨⟨v, r⟩, hc, rfl⟩ := Option.map_eq_some_iff.1 h
        exact ⟨(spacedBraced?_lt hc).2, trivial⟩
      · split at h
        · split at h
          · simp at h
          · next hu =>
            obtain ⟨⟨v, r⟩, hc, rfl⟩ := Option.map_eq_some_iff.1 h
            have hlt := (spacedBraced?_lt hu).2
            have hv := spacedBraced?_lt hc
            exact ⟨Nat.lt_trans hv.2 hlt, Nat.lt_trans hv.1 hlt⟩
        · simp at h

theorem command?_shrinks {s : Text} {p : Token × Text} (h : command? s = some p) :
    Shrinks s.length p := by
  unfold command? at h
  split at h
  · simp at h
  · next name r hn =>
    split at h
    · simp at h
    · have := congrArg List.length (commandName?_eq hn)
      exact (native?_shrinks h).mono (by simp at this; omega)

theorem backslash?_shrinks {s : Text} {p : Token × Text} (h : backslash? s = some p) :
    Shrinks s.length p := by
  have htail : s.tail.length ≤ s.length := by simp
  simp only [backslash?, Option.or_eq_some_iff, Option.or_eq_none_iff] at h
  rcases h with (h | ⟨_, h⟩) | ⟨_, h | ⟨_, h | ⟨_, h⟩⟩⟩
  · exact (delimited?_shrinks h).mono htail
  · exact (escaped?_shrinks h).mono htail
  · obtain ⟨⟨e, r⟩, he, rfl⟩ := Option.map_eq_some_iff.1 h
    have := environment?_length he
    exact ⟨by simp only; omega, ofEnvironment_below e _⟩
  · exact command?_shrinks h
  · obtain ⟨⟨raw, r⟩, hr, rfl⟩ := Option.map_eq_some_iff.1 h
    have := congrArg List.length (rawCommand?_eq hr)
    have := List.length_pos_iff.2 (rawCommand?_ne_nil hr)
    simp at *
    exact ⟨by simp only; omega, trivial⟩

theorem special?_shrinks {c : Char} {s : Text} {p : Token × Text} (h : special? c s = some p) :
    Shrinks (s.length + 1) p := by
  unfold special? at h
  split at h
  · next hb => exact Option.some.inj h ▸ blanks_shrinks s hb
  · split at h
    · have := Text.length_dropWhile_le (· ≠ '\n') s
      simp only [Option.some.injEq] at h
      subst h
      exact ⟨by simp only; omega, trivial⟩
    · split at h
      · exact dollar?_shrinks h
      · split at h
        · obtain ⟨⟨v, r⟩, hb, rfl⟩ := Option.map_eq_some_iff.1 h
          have := congrArg List.length (braced?_eq hb)
          simp at this
          simp [Shrinks, Below]
          omega
        · split at h
          · simp only [Option.some.injEq] at h
            subst h
            exact ⟨by simp, trivial⟩
          · split at h
            · exact backslash?_shrinks h
            · split at h <;> simp at h <;> subst h <;>
                exact ⟨by simp +arith, trivial⟩

theorem run_eq (s : Text) : (run s).1 ++ (run s).2 = s := by
  induction s with
  | nil => rfl
  | cons c s ih =>
    unfold run
    split <;> simp [onto, ih]

/-- The argument and the rest are shorter than the text. -/
theorem next?_lt {s : Text} {p : Token × Text} (h : next? s = some p) : Shrinks s.length p := by
  cases s with
  | nil => simp [next?] at h
  | cons c s =>
    simp only [next?, Option.some.injEq] at h
    subst h
    cases hs : special? c s with
    | some p => exact special?_shrinks hs
    | none =>
      have := congrArg List.length (run_eq s)
      simp at this
      exact ⟨by simp; omega, trivial⟩

end Token

end TexCatalog.Source
