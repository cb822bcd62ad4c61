import TexCatalog.Source.Inline

/-!
# Reading blocks

A page source is a sequence of environments, section headings and paragraphs, with blanks and
comments between them. Lists are read into their items; an environment that stands for nothing
known, and a paragraph that is a single unknown command, stay raw.
-/

namespace TexCatalog.Source

/-- A section heading; the label is empty if there is none. -/
structure Heading where
  level : UInt8
  label : Text
  title : Text

inductive Piece where
  | environment (e : Environment)
  | heading (h : Heading)
  | paragraph (t : Text)

def sectionLevel? (name : Text) : Option UInt8 :=
  if name = ("section" : Text) then some 1
  else if name = ("subsection" : Text) then some 2
  else if name = ("subsubsection" : Text) then some 3
  else none

/-- Commands that running text has a node for; a paragraph made of one is an ordinary one. -/
def nativeCommands : List Text :=
  ["emph", "textit", "textsl", "textbf", "textsc", "underline", "sout", "textsuperscript",
    "textsubscript", "texttt", "href", "url"]

/-- A label directly behind a heading, and what follows it. -/
def headingLabel (s : Text) : Text × Text :=
  match ("\\label" : Text).isPrefixOf? (Text.dropLayout s) with
  | none => ([], s)
  | some after =>
    match spacedBraced? after with
    | none => ([], s)
    | some (id, rest) => (Text.trim id, rest)

/-- A section heading; its star counts for nothing. -/
def heading? (s : Text) : Option (Heading × Text) :=
  match commandName? s with
  | none => none
  | some (name, s) =>
    match sectionLevel? name, spacedBraced? (star s).2 with
    | some level, some (title, s) =>
      some ({ level, label := (headingLabel s).1, title }, (headingLabel s).2)
    | _, _ => none

/-- Does a line, without the blanks before it, begin an environment or a section? -/
def startsBlock (line : Text) : Bool :=
  ("\\begin" : Text).isPrefixOf line ||
    match commandName? line with
    | some (name, _) => (sectionLevel? name).isSome
    | none => false

def endsParagraph (line : Text) : Bool :=
  Text.isBlank line || startsBlock (Text.trimStart line)

def takeParagraph (s : Text) : Text × Text :=
  match Text.segments s with
  | [] => ([], [])
  | line :: more =>
    (line ++ (more.takeWhile (!endsParagraph ·)).flatten,
      (more.dropWhile (!endsParagraph ·)).flatten)

/-- The text without the blanks and comments it begins with. -/
def skipComments (s : Text) : Text :=
  match _h : Text.trimStart s with
  | [] => []
  | c :: rest => if c = '%' then skipComments (rest.dropWhile (· ≠ '\n')) else c :: rest
termination_by s.length
decreasing_by
  have := Text.length_trimStart_le s
  have := Text.length_dropWhile_le (· ≠ '\n') rest
  simp [_h] at *
  omega

/-- The first piece of a text without blanks and comments before it. -/
def Piece.first (s : Text) : Piece × Text :=
  match environment? s with
  | some (e, rest) => (.environment e, rest)
  | none =>
    match heading? s with
    | some (h, rest) => (.heading h, rest)
    | none => (.paragraph (takeParagraph s).1, (takeParagraph s).2)

def Piece.next? (s : Text) : Option (Piece × Text) :=
  match skipComments s with
  | [] => none
  | c :: rest => some (Piece.first (c :: rest))

def startsItem (s : Text) : Bool :=
  match ("\\item" : Text).isPrefixOf? s with
  | none => false
  | some [] => true
  | some (c :: _) => !c.isAlpha

/-- A list body cut in front of each `\item`, once `skip` characters of an environment inside it
have been passed; the first part belongs to no item. -/
def itemParts : Nat → Text → List Text
  | _, [] => [[]]
  | skip + 1, c :: s => Text.consHead c (itemParts skip s)
  | 0, c :: s =>
    match environment? (c :: s) with
    | some (e, _) => Text.consHead c (itemParts (e.source.length - 1) s)
    | none =>
      if startsItem (c :: s) then [] :: Text.consHead c (itemParts 0 s)
      else Text.consHead c (itemParts 0 s)

/-- The text of an item, without `\item` and without a label in brackets. -/
def itemText (part : Text) : Text :=
  let s := Text.trimStart (part.drop 5)
  match bracketed? s with
  | some (_, rest) => rest
  | none => s

def items (body : Text) : List Text := (itemParts 0 body).tail.map itemText

/-- A paragraph of exactly one command that running text has no node for is a raw block. -/
def readParagraph (t : Text) : Block :=
  let t := Text.trim t
  match rawCommand? t with
  | none => .para (readInlines t)
  | some (raw, rest) =>
    let native :=
      match commandName? raw with
      | some (name, _) => nativeCommands.contains name
      | none => false
    if Text.isBlank rest && !native then .raw .tex raw else .para (readInlines t)

def isAlignment (name : Text) : Bool :=
  [("align" : Text), "align*", "gather", "gather*", "multline", "multline*"].contains name

def trimLineFeeds (s : Text) : Text :=
  ((s.dropWhile (· == '\n')).reverse.dropWhile (· == '\n')).reverse

def readEnvironment (e : Environment) : Block :=
  if [("equation" : Text), "equation*", "displaymath"].contains e.name then
    .para [.math .display (Text.trim e.body)]
  else if isAlignment e.name then .para [.math .display (Text.trim e.source)]
  else if e.name = ("verbatim" : Text) then .code .empty (trimLineFeeds e.body)
  else .raw .tex e.source

theorem headingLabel_le (s : Text) : (headingLabel s).2.length ≤ s.length := by
  unfold headingLabel
  split
  · exact Nat.le_refl _
  · next after hp =>
    split
    · exact Nat.le_refl _
    · next hb =>
      have := congrArg List.length (Text.isPrefixOf?_eq_some.1 hp)
      have := (Token.spacedBraced?_lt hb).2
      have := Text.length_dropLayout_le s
      simp at *
      omega

theorem heading?_lt {s r : Text} {p : Heading} (h : heading? s = some (p, r)) :
    r.length < s.length := by
  unfold heading? at h
  split at h
  · simp at h
  · next name after hn =>
    split at h
    · next level title rest _ hb =>
      simp only [Option.some.injEq, Prod.mk.injEq] at h
      have := congrArg List.length (commandName?_eq hn)
      have := congrArg List.length (star_eq after)
      have := (Token.spacedBraced?_lt hb).2
      have := headingLabel_le rest
      rw [← h.2]
      simp at *
      omega
    · simp at h

theorem takeParagraph_eq (s : Text) : (takeParagraph s).1 ++ (takeParagraph s).2 = s := by
  have h := Text.flatten_segments s
  unfold takeParagraph
  split
  · next hs => simpa [hs] using h
  · next line more hs =>
    rw [hs] at h
    simp only [List.flatten_cons] at h
    rw [List.append_assoc, ← List.flatten_append, List.takeWhile_append_dropWhile, h]

theorem takeParagraph_ne_nil {s : Text} (h : s ≠ []) : (takeParagraph s).1 ≠ [] := by
  have hf := Text.flatten_segments s
  unfold takeParagraph
  split
  · next hs => simp_all
  · next line more hs =>
    have : line ≠ [] := Text.ne_nil_of_mem_segments (s := s) (by simp [hs])
    simp [this]

theorem length_skipComments_le (s : Text) : (skipComments s).length ≤ s.length := by
  fun_induction skipComments s with
  | case1 => simp
  | case2 s rest h ih =>
    have := Text.length_trimStart_le s
    have := Text.length_dropWhile_le (· ≠ '\n') rest
    simp [h] at *
    omega
  | case3 s c rest h =>
    have := Text.length_trimStart_le s
    simpa [h] using this

theorem Piece.first_lt {s : Text} (h : s ≠ []) : (Piece.first s).2.length < s.length := by
  unfold Piece.first
  split
  · next e rest he =>
    have := environment?_length he
    simp only
    omega
  · split
    · next hh => exact heading?_lt hh
    · have := congrArg List.length (takeParagraph_eq s)
      have := List.length_pos_iff.2 (takeParagraph_ne_nil h)
      simp at *
      omega

theorem Piece.first_body_lt {s : Text} {e : Environment}
    (h : (Piece.first s).1 = .environment e) : e.body.length < s.length := by
  unfold Piece.first at h
  split at h
  · next e' rest he =>
    have := environment?_length he
    simp only [Piece.environment.injEq] at h
    subst h
    omega
  · split at h <;> simp at h

/-- The rest, and the body of an environment, are shorter than the source. -/
theorem Piece.next?_lt {s r : Text} {p : Piece} (h : Piece.next? s = some (p, r)) :
    r.length < s.length ∧ ∀ e, p = .environment e → e.body.length < s.length := by
  have hskip := length_skipComments_le s
  unfold Piece.next? at h
  split at h
  · simp at h
  · next c rest hs =>
    rw [hs] at hskip
    simp only [Option.some.injEq] at h
    have hfirst := Piece.first_lt (List.cons_ne_nil c rest)
    have hbody := @Piece.first_body_lt (c :: rest)
    rw [h] at hfirst hbody
    exact ⟨Nat.lt_of_lt_of_le hfirst hskip, fun e he =>
      Nat.lt_of_lt_of_le (hbody he) hskip⟩

theorem length_le_of_mem_itemParts (skip : Nat) (s : Text) :
    ∀ part ∈ itemParts skip s, part.length ≤ s.length := by
  fun_induction itemParts skip s with
  | case1 => simp
  | case2 _ _ _ ih | case3 _ _ _ _ _ ih | case5 _ _ _ _ ih =>
    exact Text.length_le_of_mem_consHead ih
  | case4 _ _ _ _ ih =>
    intro part hm
    rcases List.mem_cons.1 hm with rfl | hm
    · simp
    · exact Text.length_le_of_mem_consHead ih part hm

theorem length_itemText_le (part : Text) : (itemText part).length ≤ part.length := by
  have hdrop : (part.drop 5).length ≤ part.length := by simp
  have htrim := Text.length_trimStart_le (part.drop 5)
  unfold itemText
  simp only
  split
  · next hb =>
    have := congrArg List.length (bracketed?_eq hb)
    simp at this
    omega
  · omega

theorem length_le_of_mem_items {body item : Text} (h : item ∈ items body) :
    item.length ≤ body.length := by
  obtain ⟨part, hp, rfl⟩ := List.mem_map.1 h
  exact Nat.le_trans (length_itemText_le part)
    (length_le_of_mem_itemParts 0 body part (List.mem_of_mem_tail hp))

def sourceNumbering : Numbering := ⟨1, .decimal, .period⟩

def readBlocks (s : Text) : List Block :=
  match _h : Piece.next? s with
  | none => []
  | some (.paragraph t, rest) => readParagraph t :: readBlocks rest
  | some (.heading h, rest) =>
    .header h.level (.ofId h.label) (readInlines h.title) :: readBlocks rest
  | some (.environment e, rest) =>
    (if e.name = ("itemize" : Text) then
      .bullets ((items e.body).attach.map fun item => readBlocks item.1)
    else if e.name = ("enumerate" : Text) then
      .numbered sourceNumbering ((items e.body).attach.map fun item => readBlocks item.1)
    else readEnvironment e) :: readBlocks rest
termination_by s.length
decreasing_by
  · exact (Piece.next?_lt _h).1
  · exact (Piece.next?_lt _h).1
  · exact Nat.lt_of_le_of_lt (length_le_of_mem_items item.2) ((Piece.next?_lt _h).2 e rfl)
  · exact Nat.lt_of_le_of_lt (length_le_of_mem_items item.2) ((Piece.next?_lt _h).2 e rfl)
  · exact (Piece.next?_lt _h).1

end TexCatalog.Source
