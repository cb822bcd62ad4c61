import TexCatalog.Form.RecordText
import TexCatalog.Proofs.SiteIndexes
import TexCatalog.Proofs.TopLevelParts

/-!
# Structured records from their lines

A record is written one field to a line, in any order and with blank lines anywhere between. It is
read back as it was, whatever its values hold: the key ends at the first ampersand outside braces
and escapes, and of the backslashes at the end of a line only the last two do not belong to the
value.
-/

namespace TexCatalog

namespace Text

section

variable {line : Text} (hline : '\n' ∉ line)

include hline

theorem segments_line (rest : Text) :
    segments (line ++ '\n' :: rest) = (line ++ ['\n']) :: segments rest := by
  induction line with
  | nil => rfl
  | cons c line ih =>
    rw [List.mem_cons, not_or] at hline
    rw [List.cons_append, segments, if_neg (Ne.symm hline.1), ih hline.2]
    rfl

theorem segments_of_line (hne : line ≠ []) : segments line = [line] := by
  induction line with
  | nil => exact absurd rfl hne
  | cons c line ih =>
    rw [List.mem_cons, not_or] at hline
    rw [segments, if_neg (Ne.symm hline.1)]
    cases line with
    | nil => rfl
    | cons d line => rw [ih hline.2 (List.cons_ne_nil d line)]

end

/-- What a line break takes from its line is blank. -/
theorem trim_withoutBreak (line : Text) : trim (withoutBreak line) = trim line := by
  have hdrop {c : Char} (hc : c.isBlank) {t body : Text} (h : dropEnd? [c] t = some body) :
      trim body = trim t := by
    rw [dropEnd?_eq_some_iff.1 h, trim_blanks (List.forall_mem_singleton.2 hc)]
  unfold withoutBreak
  split
  · rfl
  · next body hbody =>
    rw [← hdrop (by decide) hbody]
    cases hreturn : dropEnd? ['\r'] body with
    | none => rfl
    | some front => exact hdrop (by decide) hreturn

end Text

namespace Form

open Text Source

inductive RecordLine
  | blank (b : Text)
  | field (key value : Text)

namespace RecordLine

def spell : RecordLine → Text
  | blank b => b
  | field key value => key ++ " & " ++ value ++ " \\\\"

def field? : RecordLine → Option (Text × Text)
  | blank _ => none
  | field key value => some (key, value)

end RecordLine

structure IsEntry (t : Text) : Prop where
  trimmed : trim t = t
  line : '\n' ∉ t

instance (t : Text) : Decidable (IsEntry t) :=
  decidable_of_iff (trim t = t ∧ '\n' ∉ t) ⟨fun h => ⟨h.1, h.2⟩, fun h => ⟨h.1, h.2⟩⟩

structure IsKey (key : Text) : Prop extends IsEntry key where
  ne_nil : key ≠ []
  topLevel : TopLevel key
  whole : Unparted ['&'] key

instance (key : Text) : Decidable (IsKey key) :=
  decidable_of_iff (IsEntry key ∧ key ≠ [] ∧ TopLevel key ∧ Unparted ['&'] key)
    ⟨fun h => ⟨h.1, h.2.1, h.2.2.1, h.2.2.2⟩,
      fun h => ⟨h.toIsEntry, h.ne_nil, h.topLevel, h.whole⟩⟩

def RecordLine.WellFormed : RecordLine → Prop
  | blank b => (∀ c ∈ b, c.isBlank) ∧ '\n' ∉ b
  | field key value => IsKey key ∧ IsEntry value

instance : DecidablePred RecordLine.WellFormed
  | .blank b =>
    decidable_of_iff (b.all Char.isBlank ∧ '\n' ∉ b) (and_congr_left' List.all_eq_true)
  | .field key value => inferInstanceAs (Decidable (IsKey key ∧ IsEntry value))

def spellRecord (ls : List RecordLine) : Text := join ['\n'] (ls.map RecordLine.spell)

/-! ### Lines -/

theorem recordField?_of_trim {line line' : Text} (h : trim line = trim line') :
    recordField? line = recordField? line' := by
  unfold recordField? recordLine
  rw [h]

theorem recordField?_of_blank {b : Text} (h : ∀ c ∈ b, c.isBlank) : recordField? b = none := by
  have hnil : trim b = trim [] := trim_blanks h []
  rw [recordField?_of_trim hnil]
  decide

/-- A text is read line by line, whatever its line breaks are. -/
theorem filterMap_lines (s : Text) :
    (lines s).filterMap recordField? = (segments s).filterMap recordField? := by
  rw [lines, List.filterMap_map]
  refine List.filterMap_congr fun line _ => ?_
  rw [Function.comp_apply, recordField?_of_trim (trim_withoutBreak line)]

theorem filterMap_lines_join {ls : List Text} (h : ∀ line ∈ ls, '\n' ∉ line) :
    (lines (join ['\n'] ls)).filterMap recordField? = ls.filterMap recordField? := by
  rw [filterMap_lines]
  induction ls with
  | nil => rfl
  | cons line more ih =>
    obtain ⟨hline, hmore⟩ := List.forall_mem_cons.1 h
    have hbreak : ∀ c ∈ ['\n'], c.isBlank := List.forall_mem_singleton.2 (by decide)
    cases more with
    | nil =>
      change (segments line).filterMap recordField? = [line].filterMap recordField?
      by_cases hne : line = []
      · rw [hne]
        exact (List.filterMap_cons_none (recordField?_of_blank (List.forall_mem_nil _))).symm
      · rw [segments_of_line hline hne]
    | cons next more =>
      rw [join_cons_cons, List.append_assoc, List.singleton_append, segments_line hline,
        List.filterMap_cons, ih hmore, recordField?_of_trim (trim_blanks hbreak line),
        ← List.filterMap_cons]

/-! ### Fields -/

section

variable {key value : Text}

/-- Of the line of a field the backslashes at its end are dropped, and the space in front of
them. -/
theorem recordLine_field (hkey : IsKey key) :
    recordLine (RecordLine.field key value).spell =
      key ++ ' ' :: '&' :: trimEnd (' ' :: value) := by
  have hstart (r : Text) : trimStart (key ++ r) = key ++ r := by
    rw [(trimStart_append (not_blank_of_trim hkey.ne_nil hkey.trimmed) r).1,
      trimStart_of_trim hkey.trimmed]
  have hspell : (RecordLine.field key value).spell =
      key ++ (' ' :: '&' :: ' ' :: (value ++ [' '])) ++ ['\\', '\\'] := by
    simp [RecordLine.spell]
  have htrim : trim (RecordLine.field key value).spell = (RecordLine.field key value).spell := by
    rw [hspell, trim, List.append_assoc, hstart, ← List.append_assoc]
    have hlast := trimEnd_append_singleton
      (key ++ (' ' :: '&' :: ' ' :: (value ++ [' '])) ++ ['\\']) (c := '\\') (by decide)
    rwa [List.append_assoc] at hlast
  have hspace : ∀ c ∈ [' '], c.isBlank := List.forall_mem_singleton.2 (by decide)
  have hcut : trimEnd (key ++ ' ' :: '&' :: ' ' :: (value ++ [' '])) =
      key ++ ' ' :: '&' :: trimEnd (' ' :: value) := by
    rw [← List.singleton_append, ← List.append_assoc, trimEnd_append_cons (by decide),
      ← List.cons_append, trimEnd_blanks hspace, List.append_assoc]
    rfl
  have hdrop : dropEnd? ['\\', '\\'] (RecordLine.field key value).spell =
      some (key ++ (' ' :: '&' :: ' ' :: (value ++ [' ']))) := dropEnd?_eq_some_iff.2 hspell
  simp only [recordLine, htrim, hdrop, Option.getD_some]
  rw [trim, hstart, hcut]

/-- A field is read from its line. -/
theorem recordField?_field (hkey : IsKey key) (hvalue : IsEntry value) :
    recordField? (RecordLine.field key value).spell = some (key, value) := by
  have hamp : Separates ['&'] := by decide
  have hspace : ∀ c ∈ [' '], c.isBlank := List.forall_mem_singleton.2 (by decide)
  obtain ⟨part, parts, hparts⟩ := List.exists_cons_of_ne_nil
    (splitFrom_ne_nil ['&'] 0 0 (trimEnd (' ' :: value)))
  change splitTopLevel ['&'] (trimEnd (' ' :: value)) = _ at hparts
  have hsplit : splitTopLevel ['&'] (key ++ ' ' :: '&' :: trimEnd (' ' :: value)) =
      (key ++ [' ']) :: part :: parts := by
    have hpiece := splitTopLevel_piece hamp hkey.topLevel hkey.whole (List.forall_mem_nil _)
      (['&'] ++ trimEnd (' ' :: value))
    rw [splitTopLevel_separator hamp.1 hamp.head, foldr_consHead, hparts] at hpiece
    simpa using hpiece
  have hbehind : (key ++ ' ' :: '&' :: trimEnd (' ' :: value)).drop ((key ++ [' ']).length + 1) =
      trimEnd (' ' :: value) := by
    have hcut : key ++ ' ' :: '&' :: trimEnd (' ' :: value) =
        key ++ [' ', '&'] ++ trimEnd (' ' :: value) := by
      rw [List.append_assoc]
      rfl
    rw [hcut]
    exact List.drop_left' (by simp)
  have htrim : trim (trimEnd (' ' :: value)) = value := by
    rw [trim_trimEnd, ← List.singleton_append, trim_blanks_append hspace, hvalue.trimmed]
  simp only [recordField?, recordLine_field hkey, hsplit, trim_blanks hspace, hkey.trimmed,
    if_neg hkey.ne_nil, hbehind, htrim]

end

theorem recordField?_spell {l : RecordLine} (h : l.WellFormed) :
    recordField? l.spell = l.field? := by
  cases l with
  | blank b => exact recordField?_of_blank h.1
  | field key value => exact recordField?_field h.1 h.2

theorem RecordLine.WellFormed.line {l : RecordLine} (h : l.WellFormed) : '\n' ∉ l.spell := by
  cases l with
  | blank b => exact h.2
  | field key value =>
    have hkey := h.1.line
    have hvalue := h.2.line
    simp [RecordLine.spell, hkey, hvalue]

/-- A record is read back from its lines, in whatever order its fields come and wherever blank lines
stand. -/
theorem parseRecord_spell {record : Fields} {ls : List RecordLine} (hls : ∀ l ∈ ls, l.WellFormed)
    (hrecord : (ls.filterMap RecordLine.field?).Perm record.entries) :
    parseRecord (spellRecord ls) = record := by
  have hfields : (ls.map RecordLine.spell).filterMap recordField? =
      ls.filterMap RecordLine.field? := by
    rw [List.filterMap_map]
    refine List.filterMap_congr fun l hl => ?_
    rw [Function.comp_apply, recordField?_spell (hls l hl)]
  have hlines : ∀ line ∈ ls.map RecordLine.spell, '\n' ∉ line := by
    rw [List.forall_mem_map]
    exact fun l hl => (hls l hl).line
  rw [parseRecord, spellRecord, filterMap_lines_join hlines, hfields]
  exact TextMap.ofList_of_perm hrecord

/-- A key with an escaped ampersand and no value, one with a closing brace of its own, and values
with ampersands, open braces and backslashes at the end. -/
def crookedLines : List RecordLine :=
  [.blank " \t", .field "c\x7d" "\x7b\x7b\\", .blank "", .field "Name" "A & B \\\\",
    .field "a\\&b" ""]

def crookedRecord : Fields :=
  .ofList [("Name", "A & B \\\\"), ("a\\&b", ""), ("c\x7d", "\x7b\x7b\\")]

theorem parseRecord_spell_crookedLines : (∀ l ∈ crookedLines, l.WellFormed) ∧
    (crookedLines.filterMap RecordLine.field?).Perm crookedRecord.entries ∧
    parseRecord (spellRecord crookedLines) = crookedRecord := by
  have hlines : ∀ l ∈ crookedLines, l.WellFormed := by decide +kernel
  have hrecord : (crookedLines.filterMap RecordLine.field?).Perm crookedRecord.entries := by
    decide +kernel
  exact ⟨hlines, hrecord, parseRecord_spell hlines hrecord⟩

end Form

end TexCatalog
