import Mathlib.Data.List.Infix
import TexCatalog.Proofs.BalancedBodies
import TexCatalog.Proofs.FieldBlanks

/-!
# Well-formed BibTeX

Entries of a type, a key and fields with values in balanced braces, in quotation marks or bare, with
layout between all of it; groups such as `@comment{..}`; and between them comment lines and text
without at signs. The scanner reads from a text of this form all of its entries, whatever its
layout, and passes over none.
-/

namespace TexCatalog

namespace Text

def IsLayout (l : Text) : Prop := ∀ c ∈ l, c.isLayout

instance (l : Text) : Decidable (IsLayout l) :=
  decidable_of_iff (l.all Char.isLayout) List.all_eq_true

end Text

namespace Bibliography.Bibtex

open Text Source

/-! ### Values -/

/-- No part in front closes more groups than it opens, and all groups are closed. -/
structure Balanced (v : Text) : Prop where
  front {t : Text} : t <+: v → 0 ≤ level t
  whole : level v = 0

instance (v : Text) : Decidable (Balanced v) :=
  decidable_of_iff ((∀ t ∈ v.inits, 0 ≤ level t) ∧ level v = 0)
    ⟨fun h => ⟨fun ht => h.1 _ ((List.mem_inits ..).2 ht), h.2⟩,
      fun h => ⟨fun _ ht => h.front ((List.mem_inits ..).1 ht), h.whole⟩⟩

inductive WrittenValue
  | braced (v : Text)
  | quoted (v : Text)
  | bare (v : Text)

namespace WrittenValue

def text : WrittenValue → Text
  | braced v | quoted v | bare v => v

def spell : WrittenValue → Text
  | braced v => '{' :: (v ++ ['}'])
  | quoted v => '"' :: (v ++ ['"'])
  | bare v => v

end WrittenValue

/-- Every quotation mark is behind a backslash that is not behind another one, and the last
character is no such backslash. -/
inductive Unquoted : Text → Prop
  | nil : Unquoted []
  | escape (c : Char) {v : Text} : Unquoted v → Unquoted ('\\' :: c :: v)
  | plain {c : Char} {v : Text} : c ≠ '\\' → c ≠ '"' → Unquoted v → Unquoted (c :: v)

def IsWord (p : Char → Bool) (w : Text) : Prop := w ≠ [] ∧ ∀ c ∈ w, p c

instance (p : Char → Bool) (w : Text) : Decidable (IsWord p w) :=
  decidable_of_iff (w ≠ [] ∧ w.all p) (and_congr_right' List.all_eq_true)

def WrittenValue.WellFormed : WrittenValue → Prop
  | braced v => Balanced v
  | quoted v => Unquoted v
  | bare v => IsWord isAlphanumeric v

/-- Where `depth` groups are open that the text closes, its end is where the next group closes. -/
theorem closeBraces_of_level {v : Text} (r : Text) (depth : Nat)
    (hfront : ∀ t, t <+: v → 0 ≤ depth + level t) (hwhole : depth + level v = 0) :
    closeBraces depth (v ++ '}' :: r) = some (v, r) := by
  induction v generalizing depth with
  | nil =>
    obtain rfl : depth = 0 := by simpa using hwhole
    rfl
  | cons c v ih =>
    have hbehind {depth' : Nat} (hdepth : (depth' : Int) = depth + rise c) :
        closeBraces depth' (v ++ '}' :: r) = some (v, r) := by
      refine ih depth' (fun t ht => ?_) ?_
      · have := hfront (c :: t) ((List.prefix_cons_inj c).2 ht)
        rwa [level_cons, ← Int.add_assoc, ← hdepth] at this
      · rwa [level_cons, ← Int.add_assoc, ← hdepth] at hwhole
    rw [List.cons_append, Bibtex.closeBraces.eq_def]
    dsimp only
    by_cases hopen : c = '{'
    · rw [if_pos hopen, hbehind (by simp [rise, hopen])]
      rfl
    · by_cases hclose : c = '}'
      · have hpos : 0 ≤ (depth : Int) + level [c] :=
          hfront [c] ((List.prefix_cons_inj c).2 v.nil_prefix)
        rw [if_neg hopen, if_pos hclose]
        cases depth with
        | zero => simp [rise, hclose] at hpos
        | succ depth =>
          dsimp only
          rw [hbehind (by rw [rise, if_neg hopen, if_pos hclose]; omega)]
          rfl
      · rw [if_neg hopen, if_neg hclose, hbehind (by simp [rise, hopen, hclose])]
        rfl

theorem Balanced.closeBraces {v : Text} (h : Balanced v) (r : Text) :
    closeBraces 0 (v ++ '}' :: r) = some (v, r) :=
  closeBraces_of_level r 0 (fun t ht => by simpa using h.front ht) (by simpa using h.whole)

theorem Unquoted.closeQuote {v : Text} (h : Unquoted v) (r : Text) :
    closeQuote (v ++ '"' :: r) = some (v, r) := by
  induction h with
  | nil =>
    rw [Bibtex.closeQuote.eq_def]
    rfl
  | escape c _ ih =>
    rw [Bibtex.closeQuote.eq_def]
    dsimp only [List.cons_append]
    rw [if_pos rfl, ih]
    rfl
  | plain hslash hquote _ ih =>
    rw [Bibtex.closeQuote.eq_def]
    dsimp only [List.cons_append]
    rw [if_neg hslash, if_neg hquote, ih]
    rfl

section

variable {p : Char → Bool} {w r : Text} (hw : ∀ c ∈ w, p c) (hr : ∀ c ∈ r.head?, ¬p c)

include hw hr

theorem takeWhile_append_stop : (w ++ r).takeWhile p = w := by
  rw [List.takeWhile_append_of_pos hw]
  cases r with
  | nil => rw [List.takeWhile_nil, List.append_nil]
  | cons c r => rw [List.takeWhile_cons_of_neg (hr c rfl), List.append_nil]

theorem dropWhile_append_stop : (w ++ r).dropWhile p = r := by
  rw [List.dropWhile_append_of_pos hw]
  cases r with
  | nil => rfl
  | cons c r => exact List.dropWhile_cons_of_neg (hr c rfl)

end

theorem run?_word {p : Char → Bool} {w : Text} (h : IsWord p w) {r : Text}
    (hr : ∀ c ∈ r.head?, ¬p c) : run? p (w ++ r) = some (w, r) := by
  rw [run?, takeWhile_append_stop h.2 hr, dropWhile_append_stop h.2 hr, if_neg h.1]

/-- What can stand behind a token: layout or one of the marks. -/
def IsMark (c : Char) : Prop := c.isLayout ∨ c ∈ ['=', ',', '{', '}']

theorem not_alphanumeric_of_isMark {c : Char} (h : IsMark c) :
    ¬isAlphanumeric c ∧ ¬isFieldChar c ∧ ¬isKeyChar c := by
  have hlist : c ∈ [' ', '\t', '\r', '\n', '=', ',', '{', '}'] := by
    simpa [IsMark, Char.isLayout, or_assoc] using h
  have hnone : [' ', '\t', '\r', '\n', '=', ',', '{', '}'].all fun c =>
      !(isAlphanumeric c || isFieldChar c || isKeyChar c) := by decide
  simpa [and_assoc] using List.all_eq_true.1 hnone c hlist

/-- Layout and a mark stand behind a token. -/
theorem isMark_head {l : Text} (hl : IsLayout l) {r : Text} (hr : ∀ c ∈ r.head?, IsMark c) :
    ∀ c ∈ (l ++ r).head?, IsMark c := by
  cases l with
  | nil => exact hr
  | cons c l => rintro _ ⟨⟩; exact .inl (hl c (List.mem_cons_self ..))

theorem isMark_cons {c : Char} (hc : c ∈ ['=', ',', '{', '}']) (r : Text) :
    ∀ d ∈ (c :: r).head?, IsMark d := by
  rintro _ ⟨⟩
  exact .inr hc

theorem dropLayout_layout {l : Text} (hl : IsLayout l) {s : Text}
    (hs : ∀ c ∈ s.head?, ¬c.isLayout) : dropLayout (l ++ s) = s :=
  dropWhile_append_stop hl hs

theorem trimStart_layout {l : Text} (hl : IsLayout l) {s : Text}
    (hs : ∀ c ∈ s.head?, ¬c.isBlank) : trimStart (l ++ s) = s :=
  dropWhile_append_stop (fun c hc => isBlank_of_isLayout (hl c hc)) hs

theorem mark?_layout {l : Text} (hl : IsLayout l) {c : Char} (hc : ¬c.isLayout) (r : Text) :
    mark? c (l ++ c :: r) = some r := by
  rw [mark?, dropLayout_layout hl (by rintro _ ⟨⟩; exact hc)]
  exact if_pos rfl

theorem value?_spell {v : WrittenValue} (h : v.WellFormed) {r : Text}
    (hr : ∀ c ∈ r.head?, IsMark c) : value? (v.spell ++ r) = some (v.text, r) := by
  cases v with
  | braced v =>
    rw [WrittenValue.spell, List.cons_append, List.append_assoc]
    exact Balanced.closeBraces h r
  | quoted v =>
    rw [WrittenValue.spell, List.cons_append, List.append_assoc]
    exact Unquoted.closeQuote h r
  | bare v =>
    have hrun := run?_word h fun c hc => (not_alphanumeric_of_isMark (hr c hc)).1
    obtain ⟨c, w, rfl⟩ := List.exists_cons_of_ne_nil h.1
    have hc : isAlphanumeric c := h.2 c (List.mem_cons_self ..)
    have hopen : c ≠ '{' := by
      rintro rfl
      exact absurd hc (by decide)
    have hquote : c ≠ '"' := by
      rintro rfl
      exact absurd hc (by decide)
    change value? (c :: (w ++ r)) = _
    rw [value?]
    · exact hrun
    · rintro s ⟨⟩
      exact hopen rfl
    · rintro s ⟨⟩
      exact hquote rfl

/-! ### Fields -/

structure WrittenField where
  before : Text
  name : Text
  beforeMark : Text
  afterMark : Text
  value : WrittenValue
  after : Text

namespace WrittenField

def spell (f : WrittenField) : Text :=
  f.before ++ (f.name ++ (f.beforeMark ++ '=' :: (f.afterMark ++ (f.value.spell ++ f.after))))

structure WellFormed (f : WrittenField) : Prop where
  before : IsLayout f.before
  name : IsWord isFieldChar f.name
  beforeMark : IsLayout f.beforeMark
  afterMark : IsLayout f.afterMark
  value : f.value.WellFormed
  after : IsLayout f.after

def read (f : WrittenField) : Text × Text := (lower f.name, f.value.text)

end WrittenField

theorem not_isLayout_of_isFieldChar {c : Char} (h : isFieldChar c) : ¬c.isLayout :=
  fun hc => (not_alphanumeric_of_isMark (.inl hc)).2.1 h

/-- The first character of a value. -/
theorem head?_spell {v : WrittenValue} (h : v.WellFormed) (r : Text) :
    ∀ c ∈ (v.spell ++ r).head?, ¬c.isLayout := by
  cases v with
  | braced v => rintro _ ⟨⟩; decide
  | quoted v => rintro _ ⟨⟩; decide
  | bare v =>
    obtain ⟨c, w, rfl⟩ := List.exists_cons_of_ne_nil h.1
    rintro _ ⟨⟩
    exact fun hc => (not_alphanumeric_of_isMark (.inl hc)).1 (h.2 c (List.mem_cons_self ..))

theorem field?_spell {f : WrittenField} (h : f.WellFormed) {r : Text}
    (hr : ∀ c ∈ r.head?, IsMark c) : field? (f.spell ++ r) = some (f.read, f.after ++ r) := by
  have hname : ∀ c ∈ (f.name ++ (f.beforeMark ++ '=' ::
      (f.afterMark ++ (f.value.spell ++ (f.after ++ r))))).head?, ¬c.isLayout := by
    intro c hc
    rw [List.head?_append_of_ne_nil _ h.name.1] at hc
    exact not_isLayout_of_isFieldChar (h.name.2 c (List.mem_of_head? hc))
  have hmark : ∀ c ∈ (f.beforeMark ++ '=' ::
      (f.afterMark ++ (f.value.spell ++ (f.after ++ r)))).head?, ¬isFieldChar c :=
    fun c hc => (not_alphanumeric_of_isMark
      (isMark_head h.beforeMark (isMark_cons (by decide) _) c hc)).2.1
  simp only [field?, WrittenField.spell, List.append_assoc, List.cons_append,
    dropLayout_layout h.before hname, run?_word h.name hmark, bind, Option.bind_some,
    mark?_layout h.beforeMark (c := '=') (by decide),
    dropLayout_layout h.afterMark (head?_spell h.value _),
    value?_spell h.value (isMark_head h.after hr)]
  rfl

/-- Blanks do not stand in names. -/
theorem not_isFieldChar_of_isBlank {c : Char} (h : c.isBlank) : ¬isFieldChar c := by
  obtain ⟨codes, hcode, htable⟩ : ∃ codes : List Nat, c.toNat ∈ codes ∧
      ∀ n ∈ codes, ¬isFieldChar (Char.ofNat n) := by
    refine ⟨[9, 10, 11, 12, 13, 0x20, 0x85, 0xA0, 0x1680, 0x2000, 0x2001, 0x2002, 0x2003, 0x2004,
      0x2005, 0x2006, 0x2007, 0x2008, 0x2009, 0x200A, 0x2028, 0x2029, 0x202F, 0x205F, 0x3000], ?_,
      by decide +kernel⟩
    simp only [Char.isBlank, Bool.or_eq_true, Bool.and_eq_true, decide_eq_true_eq,
      beq_iff_eq] at h
    simp only [List.mem_cons, List.not_mem_nil, or_false]
    omega
  have hc := htable c.toNat hcode
  rwa [Char.ofNat_toNat] at hc

/-- One field is read, and then what follows it. -/
theorem fields_step {f : WrittenField} (h : f.WellFormed) {r : Text}
    (hr : ∀ c ∈ r.head?, IsMark c) (m : TextMap Text) :
    fields m (f.spell ++ r) = fields (m.insert f.read.1 f.read.2) (dropComma (f.after ++ r)) := by
  obtain ⟨c, name, hname⟩ := List.exists_cons_of_ne_nil h.name.1
  have hc : isFieldChar c := h.name.2 c (hname ▸ List.mem_cons_self ..)
  have hclose : c ≠ '}' := by
    rintro rfl
    exact absurd hc (by decide)
  let g : WrittenField := { f with before := [] }
  have hg : g.WellFormed := { h with before := fun _ hc => absurd hc List.not_mem_nil }
  have hstart : trimStart (f.spell ++ r) = g.spell ++ r := by
    rw [WrittenField.spell, List.append_assoc]
    refine trimStart_layout h.before fun d hd => ?_
    rw [hname] at hd
    cases hd
    exact fun hblank => not_isFieldChar_of_isBlank hblank hc
  have hcons : g.spell ++ r = c :: (name ++ (f.beforeMark ++ '=' ::
      (f.afterMark ++ (f.value.spell ++ f.after))) ++ r) := by
    change (f.name ++ _) ++ r = _
    rw [hname]
    rfl
  have hfield := field?_spell hg hr
  rw [fields]
  split
  · next hs => rw [hstart, hcons] at hs; cases hs
  · next d rest hs =>
    rw [hstart, hcons] at hs
    obtain ⟨rfl, _⟩ := List.cons.inj hs
    rw [if_neg hclose]
    split
    · next he => rw [hstart, hfield] at he; cases he
    · next he =>
      rw [hstart, hfield] at he
      cases he
      rfl

theorem fields_close {l : Text} (hl : IsLayout l) (m : TextMap Text) (r : Text) :
    fields m (l ++ '}' :: r) = (m, '}' :: r) := by
  have hstart : trimStart (l ++ '}' :: r) = '}' :: r :=
    trimStart_layout hl (by rintro _ ⟨⟩; decide)
  rw [fields]
  split
  · next hs => rw [hstart] at hs; cases hs
  · next hs =>
    rw [hstart] at hs
    cases hs
    exact if_pos rfl

theorem dropComma_layout {l : Text} (hl : IsLayout l) (r : Text) :
    dropComma (l ++ ',' :: r) = r := by
  rw [dropComma, trimStart_layout hl (by rintro _ ⟨⟩; decide)]
  rfl

theorem dropComma_close {l : Text} (hl : IsLayout l) (r : Text) :
    dropComma (l ++ '}' :: r) = '}' :: r := by
  rw [dropComma, trimStart_layout hl (by rintro _ ⟨⟩; decide)]
  rfl

/-! ### Entries -/

/-- An entry with its layout. -/
structure WrittenEntry where
  type : Text
  afterType : Text
  beforeKey : Text
  key : Text
  afterKey : Text
  fields : List WrittenField
  /-- Is there a comma behind the last field? -/
  trailing : Bool
  closing : Text

namespace WrittenEntry

def body (e : WrittenEntry) : Text :=
  join [','] (e.fields.map WrittenField.spell) ++
    ((if e.trailing then [','] else []) ++ (e.closing ++ ['}']))

def spell (e : WrittenEntry) : Text :=
  '@' :: (e.type ++ (e.afterType ++ '{' ::
    (e.beforeKey ++ (e.key ++ (e.afterKey ++ ',' :: e.body)))))

structure WellFormed (e : WrittenEntry) : Prop where
  type : IsWord isAlphanumeric e.type
  type_lower : ¬isDirective (lower e.type)
  afterType : IsLayout e.afterType
  beforeKey : IsLayout e.beforeKey
  key : IsWord isKeyChar e.key
  afterKey : IsLayout e.afterKey
  fields : ∀ f ∈ e.fields, f.WellFormed
  trailing : e.trailing → e.fields ≠ []
  closing : IsLayout e.closing

def read (e : WrittenEntry) : RawEntry where
  type := lower e.type
  key := e.key
  fields := (e.fields.map WrittenField.read).foldl (fun m f => m.insert f.1 f.2) ∅

end WrittenEntry

theorem fields_spell {closing : Text} (hclosing : IsLayout closing) (trailing : Bool)
    {fs : List WrittenField} (hfs : ∀ f ∈ fs, f.WellFormed) (htrailing : trailing → fs ≠ [])
    (m : TextMap Text) (r : Text) :
    fields m (join [','] (fs.map WrittenField.spell) ++
        ((if trailing then [','] else []) ++ (closing ++ '}' :: r))) =
      ((fs.map WrittenField.read).foldl (fun m f => m.insert f.1 f.2) m, '}' :: r) := by
  induction fs generalizing m with
  | nil =>
    obtain rfl : trailing = false := Bool.eq_false_iff.2 fun h => htrailing h rfl
    exact fields_close hclosing m r
  | cons f fs ih =>
    obtain ⟨hf, hfs⟩ := List.forall_mem_cons.1 hfs
    cases fs with
    | nil =>
      have hend : ∀ c ∈ ((if trailing then [','] else []) ++ (closing ++ '}' :: r)).head?,
          IsMark c := by
        cases trailing with
        | false => exact isMark_head hclosing (isMark_cons (by decide) r)
        | true => exact isMark_cons (by decide) _
      change fields m (f.spell ++ _) = _
      rw [fields_step hf hend]
      cases trailing with
      | false =>
        have hlayout : IsLayout (f.after ++ closing) := fun c hc =>
          (List.mem_append.1 hc).elim (hf.after c) (hclosing c)
        change fields _ (dropComma (f.after ++ (closing ++ '}' :: r))) = _
        rw [← List.append_assoc, dropComma_close hlayout]
        exact fields_close (fun _ hc => absurd hc List.not_mem_nil) _ r
      | true =>
        change fields _ (dropComma (f.after ++ ',' :: (closing ++ '}' :: r))) = _
        rw [dropComma_layout hf.after, fields_close hclosing]
        rfl
    | cons g fs =>
      have hcomma : join [','] ((f :: g :: fs).map WrittenField.spell) =
          f.spell ++ ',' :: join [','] ((g :: fs).map WrittenField.spell) := by
        simp [join]
      rw [hcomma, List.append_assoc, List.cons_append,
        fields_step hf (isMark_cons (by decide) _), dropComma_layout hf.after,
        ih hfs fun _ => List.cons_ne_nil g fs]
      rfl

theorem body?_spell {e : WrittenEntry} (h : e.WellFormed) (r : Text) :
    body? (lower e.type)
        (e.afterType ++ '{' :: (e.beforeKey ++ (e.key ++ (e.afterKey ++ ',' :: (e.body ++ r))))) =
      some (e.read, r) := by
  have hkey : ∀ c ∈ (e.key ++ (e.afterKey ++ ',' :: (e.body ++ r))).head?, ¬c.isLayout := by
    intro c hc hlayout
    rw [List.head?_append_of_ne_nil _ h.key.1] at hc
    exact (not_alphanumeric_of_isMark (.inl hlayout)).2.2 (h.key.2 c (List.mem_of_head? hc))
  have hafter : ∀ c ∈ (e.afterKey ++ ',' :: (e.body ++ r)).head?, ¬isKeyChar c :=
    fun c hc => (not_alphanumeric_of_isMark
      (isMark_head h.afterKey (isMark_cons (by decide) _) c hc)).2.2
  have hfields : Bibtex.fields ∅ (e.body ++ r) = (e.read.fields, '}' :: r) := by
    rw [WrittenEntry.body, List.append_assoc, List.append_assoc, List.append_assoc]
    exact fields_spell h.closing e.trailing h.fields h.trailing ∅ r
  simp only [body?, mark?_layout h.afterType (c := '{') (by decide), bind, Option.bind_some,
    dropLayout_layout h.beforeKey hkey, run?_word h.key hafter,
    mark?_layout h.afterKey (c := ',') (by decide), hfields]
  rfl

theorem entry?_spell {e : WrittenEntry} (h : e.WellFormed) (r : Text) :
    entry? (e.spell.tail ++ r) = some (some e.read, r) := by
  have htype : ∀ c ∈ (e.afterType ++
      '{' :: (e.beforeKey ++ (e.key ++ (e.afterKey ++ ',' :: (e.body ++ r))))).head?,
      ¬isAlphanumeric c :=
    fun c hc => (not_alphanumeric_of_isMark
      (isMark_head h.afterType (isMark_cons (by decide) _) c hc)).1
  simp only [ entry?, WrittenEntry.spell, List.tail_cons, List.append_assoc, List.cons_append,
    run?_word h.type htype, if_neg h.type_lower, body?_spell h, Option.map_some]

/-! ### Directives -/

structure WrittenDirective where
  type : Text
  afterType : Text
  body : Text

namespace WrittenDirective

def spell (d : WrittenDirective) : Text :=
  '@' :: (d.type ++ (d.afterType ++ '{' :: (d.body ++ ['}'])))

structure WellFormed (d : WrittenDirective) : Prop where
  type : IsWord isAlphanumeric d.type
  type_lower : isDirective (lower d.type)
  afterType : IsLayout d.afterType
  body : Balanced d.body

end WrittenDirective

theorem entry?_directive {d : WrittenDirective} (h : d.WellFormed) (r : Text) :
    entry? (d.spell.tail ++ r) = some (none, r) := by
  have htype : ∀ c ∈ (d.afterType ++ '{' :: (d.body ++ '}' :: r)).head?, ¬isAlphanumeric c :=
    fun c hc => (not_alphanumeric_of_isMark
      (isMark_head h.afterType (isMark_cons (by decide) _) c hc)).1
  have hopen : dropLayout (d.afterType ++ '{' :: (d.body ++ '}' :: r)) =
      '{' :: (d.body ++ '}' :: r) :=
    dropLayout_layout h.afterType (by rintro _ ⟨⟩; decide)
  simp only [ entry?, WrittenDirective.spell, List.tail_cons, List.append_assoc, List.cons_append,
    List.nil_append, run?_word h.type htype, if_pos h.type_lower, hopen, directive?,
    h.body.closeBraces r, Option.map_some]

/-! ### Files -/

inductive WrittenItem
  | entry (e : WrittenEntry)
  | directive (d : WrittenDirective)

namespace WrittenItem

def spell : WrittenItem → Text
  | entry e => e.spell
  | directive d => d.spell

def WellFormed : WrittenItem → Prop
  | entry e => e.WellFormed
  | directive d => d.WellFormed

def read? : WrittenItem → Option RawEntry
  | entry e => some e.read
  | directive _ => none

end WrittenItem

/-- Comment lines, each with the blanks in front of it, and a text behind them. -/
structure Gap where
  comments : List (Text × Text)
  text : Text

namespace Gap

def spell (g : Gap) : Text :=
  (g.comments.map fun c => c.1 ++ '%' :: (c.2 ++ ['\n'])).flatten ++ g.text

/-- The comments are lines, and the text has no at sign. -/
structure WellFormed (g : Gap) : Prop where
  comments : ∀ c ∈ g.comments, (∀ b ∈ c.1, b.isBlank) ∧ '\n' ∉ c.2
  text : '@' ∉ g.text

instance (g : Gap) : Decidable g.WellFormed :=
  decidable_of_iff ((g.comments.all fun c => c.1.all Char.isBlank && !c.2.contains '\n') ∧
      '@' ∉ g.text)
    ⟨fun h => ⟨by simpa using h.1, h.2⟩, fun h => ⟨by simpa using h.comments, h.text⟩⟩

/-- An entry can stand behind the gap: the text is no comment without an end. -/
def Ends (g : Gap) : Prop := (trimStart g.text).head? ≠ some '%'

instance (g : Gap) : Decidable g.Ends := inferInstanceAs (Decidable (_ ≠ _))

end Gap

/-- Items with gaps in front of them, and a gap behind the last one. -/
structure WrittenFile where
  items : List (Gap × WrittenItem)
  last : Gap

namespace WrittenFile

def spell (file : WrittenFile) : Text :=
  (file.items.map fun i => i.1.spell ++ i.2.spell).flatten ++ file.last.spell

structure WellFormed (file : WrittenFile) : Prop where
  items : ∀ i ∈ file.items, i.1.WellFormed ∧ i.1.Ends ∧ i.2.WellFormed
  last : file.last.WellFormed

def read (file : WrittenFile) : List RawEntry := file.items.filterMap (·.2.read?)

end WrittenFile

theorem skipComments_line {line : Text} (h : '\n' ∉ line) (s : Text) :
    skipComments ('%' :: (line ++ '\n' :: s)) = skipComments s := by
  have hline : (line ++ '\n' :: s).dropWhile (· ≠ '\n') = '\n' :: s := by
    refine dropWhile_append_stop (fun c hc => ?_) (by rintro _ ⟨⟩; decide)
    simpa using fun heq : c = '\n' => h (heq ▸ hc)
  have hbreak : ∀ c ∈ ['\n'], c.isBlank := List.all_eq_true.1 (by decide)
  rw [← skipComments_blanks hbreak s, skipComments.eq_def ('%' :: _)]
  split
  · next hs => cases hs
  · next hs =>
    cases hs
    rw [if_pos rfl, hline]
    rfl

theorem skipComments_gap {g : Gap} (h : g.WellFormed) (s : Text) :
    skipComments (g.spell ++ s) = skipComments (g.text ++ s) := by
  obtain ⟨comments, text⟩ := g
  obtain ⟨hcomments, htext⟩ := h
  induction comments with
  | nil => rfl
  | cons c comments ih =>
    obtain ⟨hc, hcomments⟩ := List.forall_mem_cons.1 hcomments
    rw [← ih hcomments htext]
    simp only [Gap.spell, List.map_cons, List.flatten_cons, List.append_assoc, List.cons_append,
      List.nil_append]
    rw [skipComments_blanks hc.1, skipComments_line hc.2]

section

variable {s rest : Text}

theorem scan_nil (h : skipComments s = []) : scan s = ([], 0) := by
  rw [scan]
  split
  · rfl
  · next hs => rw [h] at hs; cases hs

theorem scan_item {raw? : Option RawEntry} {r : Text} (h : skipComments s = '@' :: rest)
    (he : entry? rest = some (raw?, r)) :
    scan s = (raw?.toList ++ (scan r).1, (scan r).2) := by
  rw [scan]
  split
  · next hs => rw [h] at hs; cases hs
  · next hs =>
    rw [h] at hs
    cases hs
    rw [if_pos rfl]
    split
    · next heq => rw [he] at heq; cases heq; rfl
    · next heq => rw [he] at heq; cases heq; rfl
    · next heq => rw [he] at heq; cases heq

theorem scan_other {c : Char} (h : skipComments s = c :: rest) (hc : c ≠ '@') :
    scan s = scan (rest.dropWhile (· ≠ '@')) := by
  rw [scan]
  split
  · next hs => rw [h] at hs; cases hs
  · next hs =>
    rw [h] at hs
    cases hs
    rw [if_neg hc]

end

/-- An item is read behind a gap. -/
theorem scan_gap {g : Gap} (h : g.WellFormed) (hends : g.Ends) {raw? : Option RawEntry}
    {s r : Text} (he : entry? s = some (raw?, r)) :
    scan (g.spell ++ '@' :: s) = (raw?.toList ++ (scan r).1, (scan r).2) := by
  have hat : skipComments ('@' :: s) = '@' :: s := skipComments_cons (by decide) (by decide) s
  have hskip := skipComments_gap h ('@' :: s)
  by_cases hblank : ∀ c ∈ g.text, c.isBlank
  · rw [skipComments_blanks hblank, hat] at hskip
    exact scan_item hskip he
  · obtain ⟨hstart, hne⟩ := trimStart_append hblank ('@' :: s)
    obtain ⟨c, w, hw⟩ := List.exists_cons_of_ne_nil hne
    have hat' : '@' ∉ c :: w := fun hmem => h.text ((trimStart_piece g.text).subset (hw ▸ hmem))
    have hpercent : c ≠ '%' := by
      rintro rfl
      exact hends (by rw [hw]; rfl)
    have hc : ¬c.isBlank := by
      have hhead := List.head?_dropWhile_not Char.isBlank g.text
      unfold trimStart at hw
      rw [hw] at hhead
      simpa using hhead
    have hfirst : skipComments (g.spell ++ '@' :: s) = c :: (w ++ '@' :: s) := by
      rw [hskip, ← skipComments_trimStart, hstart, hw]
      exact skipComments_cons hc hpercent _
    have hbehind : (w ++ '@' :: s).dropWhile (· ≠ '@') = '@' :: s := by
      refine dropWhile_append_stop (fun d hd => ?_) (by rintro _ ⟨⟩; decide)
      simpa using fun heq : d = '@' => hat' (heq ▸ List.mem_cons_of_mem c hd)
    rw [scan_other hfirst fun heq => hat' (heq ▸ List.mem_cons_self ..), hbehind]
    exact scan_item hat he

theorem scan_last {g : Gap} (h : g.WellFormed) : scan g.spell = ([], 0) := by
  have hskip := skipComments_gap h []
  rw [List.append_nil, List.append_nil] at hskip
  have hpiece := skipComments_piece g.text
  cases hs : skipComments g.text with
  | nil => exact scan_nil (hskip.trans hs)
  | cons c rest =>
    rw [hs] at hpiece
    have hat : '@' ∉ c :: rest := fun hmem => h.text (hpiece.subset hmem)
    have hnone : rest.dropWhile (· ≠ '@') = [] := by
      rw [List.dropWhile_eq_nil_iff]
      intro d hd
      simpa using fun heq : d = '@' => hat (heq ▸ List.mem_cons_of_mem c hd)
    rw [scan_other (hskip.trans hs) fun heq => hat (heq ▸ List.mem_cons_self ..), hnone]
    exact scan_nil (by simp [skipComments, trimStart])

/-- All entries of a well-formed text are read, and none is passed over. -/
theorem scan_spell {file : WrittenFile} (h : file.WellFormed) :
    scan file.spell = (file.read, 0) := by
  obtain ⟨items, last⟩ := file
  obtain ⟨hitems, hlast⟩ := h
  induction items with
  | nil => exact scan_last hlast
  | cons i items ih =>
    obtain ⟨⟨hgap, hends, hitem⟩, hitems⟩ := List.forall_mem_cons.1 hitems
    have hread : entry? (i.2.spell.tail ++ WrittenFile.spell ⟨items, last⟩) =
        some (i.2.read?, WrittenFile.spell ⟨items, last⟩) := by
      cases hi : i.2 with
      | entry e => exact entry?_spell (by rwa [hi] at hitem) _
      | directive d => exact entry?_directive (by rwa [hi] at hitem) _
    have hat : i.2.spell = '@' :: i.2.spell.tail := by
      cases i.2 <;> rfl
    have hspell : WrittenFile.spell ⟨i :: items, last⟩ =
        i.1.spell ++ '@' :: (i.2.spell.tail ++ WrittenFile.spell ⟨items, last⟩) := by
      rw [← List.cons_append, ← hat]
      simp [WrittenFile.spell]
    rw [hspell, scan_gap hgap hends hread, ih hitems hlast]
    cases hi : i.2.read? <;> simp [WrittenFile.read, hi]

end Bibliography.Bibtex

end TexCatalog
