import Mathlib.Tactic.SplitIfs
import TexCatalog.Json.Parser
import TexCatalog.Json.Printer

/-!
# Printed values are read back

The pretty text of a value, read again, gives the draft of the value: every array and object that
may still be opened stands in it as it was written, and those inside too many others are marked as
too deep. Numbers have to be integers that fit 64 bits, the only ones the program writes.
-/

namespace TexCatalog.Json

mutual

def nesting : Json → Nat
  | .arr items => itemsNesting items + 1
  | .obj members => membersNesting members + 1
  | _ => 0

def itemsNesting : List Json → Nat
  | [] => 0
  | v :: more => max (nesting v) (itemsNesting more)

def membersNesting : List (Text × Json) → Nat
  | [] => 0
  | (_, v) :: more => max (nesting v) (membersNesting more)

end

mutual

/-- The draft of a value where `depth` more levels may be opened. -/
def limited (depth : Nat) : Json → Draft
  | .null => .null
  | .bool b => .bool b
  | .num n => .num n
  | .str t => .str t
  | .arr items => .inside depth (.arr (limitedItems (depth - 1) items))
  | .obj members => .inside depth (.obj (limitedMembers (depth - 1) members))

def limitedItems (depth : Nat) : List Json → List Draft
  | [] => []
  | v :: more => limited depth v :: limitedItems depth more

def limitedMembers (depth : Nat) : List (Text × Json) → List (Draft × Draft)
  | [] => []
  | (name, v) :: more => (.str name, limited depth v) :: limitedMembers depth more

end

def Number.Fits : Number → Prop
  | .int n => Int64.minValue.toInt ≤ n ∧ n < UInt64.size
  | .float _ => False

mutual

def Fits : Json → Prop
  | .num n => n.Fits
  | .arr items => ItemsFit items
  | .obj members => MembersFit members
  | _ => True

def ItemsFit : List Json → Prop
  | [] => True
  | v :: more => Fits v ∧ ItemsFit more

def MembersFit : List (Text × Json) → Prop
  | [] => True
  | (_, v) :: more => Fits v ∧ MembersFit more

end

/-! ## Numbers -/

namespace Number

theorem le_ofDigitChars (n : Nat) (s : Text) : n ≤ Nat.ofDigitChars 10 s n := by
  induction s generalizing n with
  | nil => simp
  | cons c s ih =>
    rw [Nat.ofDigitChars_cons]
    have := ih (10 * n + (c.toNat - '0'.toNat))
    omega

theorem accumulate_eq {n : Nat} {s : Text} (h : Nat.ofDigitChars 10 s n < UInt64.size) :
    accumulate n s = (Nat.ofDigitChars 10 s n, s.length) := by
  induction s generalizing n with
  | nil => simp [accumulate]
  | cons c s ih =>
    have hstep : n * 10 + digit c = 10 * n + (c.toNat - '0'.toNat) := by
      rw [digit, Nat.mul_comm]
    rw [Nat.ofDigitChars_cons, ← hstep] at h ⊢
    have hfits : ¬ UInt64.size ≤ n * 10 + digit c :=
      Nat.not_le.2 (Nat.lt_of_le_of_lt (le_ofDigitChars _ s) h)
    rw [accumulate, if_neg hfits, ih h]
    rfl

theorem accumulate_ofNat {n : Nat} (h : n < UInt64.size) :
    accumulate 0 (Text.ofNat n) = (n, (Text.ofNat n).length) := by
  have hvalue : Nat.ofDigitChars 10 (Text.ofNat n) 0 = n :=
    Nat.ofDigitChars_toDigits (by decide) (by decide)
  rw [accumulate_eq (by rwa [hvalue]), hvalue]

theorem isDigit_ofNat {n : Nat} {c : Char} (h : c ∈ Text.ofNat n) : c.isDigit = true :=
  Nat.isDigit_of_mem_toDigits (by decide) (by decide) h

theorem ofNat_ne_nil (n : Nat) : Text.ofNat n ≠ [] := Nat.toDigits_ne_nil

/-- Only zero begins with the digit zero. -/
theorem head?_ofNat (n : Nat) : (Text.ofNat n).head? = some '0' → n = 0 := by
  induction n using Nat.strongRecOn with
  | ind n ih =>
    rw [Text.ofNat, Nat.toDigits_eq_if (by decide)]
    split
    · intro h
      simp only [List.head?_cons, Option.some.injEq] at h
      exact Nat.digitChar_eq_zero.1 h
    · intro h
      rw [List.head?_append, Option.or_eq_some_iff] at h
      have hhead : (Text.ofNat (n / 10)).head? = some '0' :=
        h.resolve_right fun h' => Nat.toDigits_ne_nil (List.head?_eq_none_iff.1 h'.1)
      have := ih (n / 10) (by omega) hhead
      omega

theorem no_leading_zero (n : Nat) :
    ¬ ((Text.ofNat n).head? = some '0' ∧ 1 < (Text.ofNat n).length) := by
  rintro ⟨hhead, hlength⟩
  rw [head?_ofNat n hhead] at hlength
  exact absurd hlength (by decide)

def Stops (rest : Text) : Prop :=
  ∀ c ∈ rest.head?, c.isDigit = false ∧ c ≠ '.' ∧ c ≠ 'e' ∧ c ≠ 'E'

def numeral (negative : Bool) (n : Nat) : Numeral where
  negative := negative
  whole := Text.ofNat n
  fraction := none
  exponent := none

theorem takeWhile_isDigit {rest : Text} (h : Stops rest) : rest.takeWhile Char.isDigit = [] := by
  cases rest with
  | nil => rfl
  | cons c rest => simp [(h c rfl).1]

theorem dropWhile_isDigit {rest : Text} (h : Stops rest) : rest.dropWhile Char.isDigit = rest := by
  cases rest with
  | nil => rfl
  | cons c rest => simp [(h c rfl).1]

theorem fraction?_of_stops {rest : Text} (h : Stops rest) :
    Numeral.fraction? rest = some (none, rest) := by
  cases rest with
  | nil => rfl
  | cons c rest =>
    rw [Numeral.fraction?]
    rintro s hs
    exact (h c rfl).2.1 (List.cons.inj hs).1

theorem exponent?_of_stops {rest : Text} (h : Stops rest) :
    Numeral.exponent? rest = some (none, rest) := by
  cases rest with
  | nil => rfl
  | cons c rest =>
    have hc : ¬ (c = 'e' ∨ c = 'E') := not_or.2 (h c rfl).2.2
    simp only [Numeral.exponent?, if_neg hc]

theorem read?_ofInt {n : Int} {rest : Text} (h : Stops rest) :
    Numeral.read? (Text.ofInt n ++ rest) = some (numeral (n < 0) n.natAbs, rest) := by
  have hwhole (n : Nat) : (Text.ofNat n ++ rest).takeWhile Char.isDigit = Text.ofNat n := by
    rw [List.takeWhile_append_of_pos fun c => isDigit_ofNat, takeWhile_isDigit h, List.append_nil]
  have hrest (n : Nat) : (Text.ofNat n ++ rest).dropWhile Char.isDigit = rest := by
    rw [List.dropWhile_append_of_pos fun c => isDigit_ofNat, dropWhile_isDigit h]
  have hnumeral (n : Nat) :
      ¬ (Text.ofNat n = [] ∨ ((Text.ofNat n).head? = some '0' ∧ 1 < (Text.ofNat n).length)) :=
    not_or.2 ⟨ofNat_ne_nil n, no_leading_zero n⟩
  cases n with
  | ofNat n =>
    have hsign (s : Text) : Text.ofInt (.ofNat n) ++ rest ≠ '-' :: s := by
      intro hs
      have hminus := (hwhole n).symm.trans (congrArg (List.takeWhile Char.isDigit) hs)
      exact ofNat_ne_nil n hminus
    rw [Numeral.read?]
    · simp [Text.ofInt, hwhole, hrest, hnumeral, fraction?_of_stops h, exponent?_of_stops h,
        numeral]
    · exact hsign
  | negSucc n =>
    rw [Text.ofInt, List.cons_append, Numeral.read?]
    simp [hwhole, hrest, hnumeral, fraction?_of_stops h, exponent?_of_stops h, numeral]

theorem value?_numeral {n : Int} (h : (Number.int n).Fits) :
    (numeral (n < 0) n.natAbs).value? = some (.int n) := by
  have hmin : Int64.minValue.toInt = -9223372036854775808 := by decide
  have hsize : UInt64.size = 18446744073709551616 := rfl
  obtain ⟨hlow, hhigh⟩ := h
  rw [hmin] at hlow
  rw [hsize] at hhigh
  have hfits : n.natAbs < UInt64.size := by omega
  simp only [Numeral.value?, numeral, accumulate_ofNat hfits, Nat.sub_self]
  by_cases hn : n < 0
  · have hno : ¬ (n.natAbs = 0 ∨ -(n.natAbs : Int) < Int64.minValue.toInt) := by omega
    simp only [hn, decide_true, Bool.not_true, Bool.false_eq_true, if_false, if_neg hno]
    rw [show -(n.natAbs : Int) = n by omega]
  · simp only [hn, decide_false, Bool.not_false, if_true]
    rw [show (n.natAbs : Int) = n by omega]

theorem readNumber_ofInt {n : Int} {rest : Text} (hn : (Number.int n).Fits) (h : Stops rest) :
    readNumber (Text.ofInt n ++ rest) = (.num (.int n), some rest) := by
  rw [readNumber, read?_ofInt h]
  simp only [value?_numeral hn]

end Number

/-! ## Strings -/

theorem hexUnit?_hexDigit : ∀ n < 32,
    hexUnit? '0' '0' (hexDigit (n / 16)) (hexDigit (n % 16)) = some n := by
  decide

theorem stringBody_letter {fuel : Nat} {letter c : Char} {s : Text} (hl : letter ≠ 'u')
    (h : simpleEscape? letter = some c) :
    stringBody (fuel + 1) ('\\' :: letter :: s) =
      (stringBody fuel s).map fun p => (p.1.map (c :: ·), p.2) := by
  rw [stringBody]
  · simp [h]
  · exact fun _ _ _ _ _ h => absurd h hl

theorem stringBody_plain {fuel : Nat} {c : Char} {s : Text} (hquote : c ≠ '"') (hslash : c ≠ '\\')
    (hcontrol : ¬ c.toNat < 32) :
    stringBody (fuel + 1) (c :: s) =
      (stringBody fuel s).map fun p => (p.1.map (c :: ·), p.2) := by
  rw [stringBody]
  · simp [hcontrol, hslash]
  · exact fun h => hquote h
  · exact fun _ _ _ _ _ h => absurd h hslash
  · exact fun _ _ h => absurd h hslash

/-- A character is read back from its spelling in a string. -/
theorem stringBody_escapeChar (fuel : Nat) (c : Char) (s : Text) :
    stringBody (fuel + 1) (escapeChar c ++ s) =
      (stringBody fuel s).map fun p => (p.1.map (c :: ·), p.2) := by
  have hnat {n : Nat} (h : c.toNat = n) : c = Char.ofNat n := by rw [← h, Char.ofNat_toNat]
  rw [escapeChar]
  split_ifs with hquote hslash hnewline hreturn htab hback hfeed hcontrol
  · simpa [hquote] using stringBody_letter (by decide) (by decide)
  · simpa [hslash] using stringBody_letter (by decide) (by decide)
  · simpa [hnewline] using stringBody_letter (by decide) (by decide)
  · simpa [hreturn] using stringBody_letter (by decide) (by decide)
  · simpa [htab] using stringBody_letter (by decide) (by decide)
  · simpa [hnat hback] using stringBody_letter (by decide) (by decide)
  · simpa [hnat hfeed] using stringBody_letter (by decide) (by decide)
  · have hunit := hexUnit?_hexDigit c.toNat hcontrol
    have hlow : isLowSurrogate c.toNat = false := by simp [isLowSurrogate]; omega
    have hhigh : isHighSurrogate c.toNat = false := by simp [isHighSurrogate]; omega
    simp [stringBody, hunit, hlow, hhigh]
  · exact stringBody_plain hquote hslash hcontrol

theorem stringBody_quoted {fuel : Nat} {t : Text} {rest : Text} (h : t.length < fuel) :
    stringBody fuel (t.flatMap escapeChar ++ '"' :: rest) = some (some t, rest) := by
  induction t generalizing fuel with
  | nil =>
    obtain ⟨fuel, rfl⟩ := Nat.exists_eq_add_one.2 h
    simp [stringBody]
  | cons c t ih =>
    obtain ⟨fuel, rfl⟩ := Nat.exists_eq_add_one.2 (Nat.lt_of_le_of_lt (Nat.zero_le _) h)
    rw [List.flatMap_cons, List.append_assoc, stringBody_escapeChar,
      ih (Nat.lt_of_succ_lt_succ h)]
    rfl

theorem length_le_flatMap_escapeChar (t : Text) : t.length ≤ (t.flatMap escapeChar).length := by
  have hone (c : Char) : 1 ≤ (escapeChar c).length := by
    rw [escapeChar]
    split_ifs <;> simp
  induction t with
  | nil => simp
  | cons c t ih =>
    have := hone c
    simp only [List.flatMap_cons, List.length_append, List.length_cons]
    omega

theorem readString_quoted {fuel : Nat} {t : Text} (rest : Text) (h : (quote t).length ≤ fuel + 1) :
    readString fuel (t.flatMap escapeChar ++ '"' :: rest) = (.str t, some rest) := by
  have hlength := length_le_flatMap_escapeChar t
  simp only [quote, List.cons_append, List.length_cons, List.length_append, List.length_nil] at h
  rw [readString, stringBody_quoted (by omega)]

/-! ## Values -/

theorem dropSpace_newline (level : Nat) (s : Text) :
    dropSpace (newline level ++ s) = dropSpace s := by
  have hspaces : ∀ c ∈ newline level, isSpace c = true := by
    simp only [newline, List.mem_cons, List.mem_replicate]
    rintro c (rfl | ⟨-, rfl⟩) <;> decide
  exact List.dropWhile_append_of_pos hspaces

theorem readValue_newline (fuel depth level : Nat) (s : Text) :
    readValue fuel depth (newline level ++ s) = readValue fuel depth s := by
  cases fuel with
  | zero => simp only [readValue]
  | succ fuel => simp only [readValue, dropSpace_newline]

theorem readItems_newline (fuel depth level : Nat) (s : Text) :
    readItems fuel depth (newline level ++ s) = readItems fuel depth s := by
  cases fuel with
  | zero => simp only [readItems]
  | succ fuel => simp only [readItems, readValue_newline]

theorem readMembers_newline (fuel depth level : Nat) (s : Text) :
    readMembers fuel depth (newline level ++ s) = readMembers fuel depth s := by
  cases fuel with
  | zero => simp only [readMembers]
  | succ fuel => simp only [readMembers, dropSpace_newline]

theorem stops_newline (level : Nat) (s : Text) : Number.Stops (newline level ++ s) := by
  intro c hc
  obtain rfl : '\n' = c := by simpa [newline] using hc
  decide

theorem stops_comma (s : Text) : Number.Stops (',' :: s) := by
  intro c hc
  obtain rfl : ',' = c := by simpa using hc
  decide

theorem stops_prettyItems (level : Nat) (items : List Json) (rest : Text) :
    Number.Stops (prettyItems level items ++ rest) := by
  cases items with
  | nil =>
    rw [prettyItems, List.append_assoc]
    exact stops_newline level _
  | cons v more => exact stops_comma _

theorem stops_prettyMembers (level : Nat) (members : List (Text × Json)) (rest : Text) :
    Number.Stops (prettyMembers level members ++ rest) := by
  cases members with
  | nil =>
    rw [prettyMembers, List.append_assoc]
    exact stops_newline level _
  | cons m more => exact stops_comma _

theorem dropSpace_cons {c : Char} {s : Text} (h : isSpace c = false) :
    dropSpace (c :: s) = c :: s :=
  List.dropWhile_cons_of_neg (by simp [h])

theorem ofInt_head (n : Int) : ∃ c s, Text.ofInt n = c :: s ∧ (c = '-' ∨ c.isDigit = true) := by
  cases n with
  | ofNat n =>
    obtain ⟨c, s, hn⟩ := List.exists_cons_of_ne_nil (Number.ofNat_ne_nil n)
    exact ⟨c, s, hn, .inr (Number.isDigit_ofNat (n := n) (by simp [hn]))⟩
  | negSucc n => exact ⟨'-', _, rfl, .inl rfl⟩

theorem ne_of_sign_or_digit {c d : Char} (h : c = '-' ∨ c.isDigit = true)
    (hd : d ≠ '-' ∧ d.isDigit = false) : c ≠ d := by
  rintro rfl
  simp_all

theorem isSpace_of_sign_or_digit {c : Char} (h : c = '-' ∨ c.isDigit = true) :
    isSpace c = false := by
  have hne {d : Char} (hd : d ≠ '-' ∧ d.isDigit = false) := ne_of_sign_or_digit h hd
  simp [isSpace, hne (d := ' ') (by decide), hne (d := '\t') (by decide),
    hne (d := '\n') (by decide), hne (d := '\r') (by decide)]

/-- A printed value begins with a character that neither is a blank nor closes anything. -/
theorem prettyAt_head (level : Nat) {j : Json} (h : j.Fits) :
    ∃ c s, prettyAt level j = c :: s ∧ isSpace c = false ∧ c ≠ ']' ∧ c ≠ '}' := by
  cases j with
  | null => exact ⟨'n', "ull", by simp [prettyAt], by decide⟩
  | bool b =>
    cases b with
    | false => exact ⟨'f', "alse", by simp [prettyAt, printBool], by decide⟩
    | true => exact ⟨'t', "rue", by simp [prettyAt, printBool], by decide⟩
  | num n =>
    cases n with
    | int n =>
      obtain ⟨c, s, hn, hc⟩ := ofInt_head n
      exact ⟨c, s, hn, isSpace_of_sign_or_digit hc, ne_of_sign_or_digit hc (by decide),
        ne_of_sign_or_digit hc (by decide)⟩
    | float x => exact h.elim
  | str t => exact ⟨'"', _, rfl, by decide⟩
  | arr items =>
    cases items with
    | nil => exact ⟨'[', [']'], by simp [prettyAt], by decide⟩
    | cons v more => exact ⟨'[', _, rfl, by decide⟩
  | obj members =>
    cases members with
    | nil => exact ⟨'{', ['}'], by simp [prettyAt], by decide⟩
    | cons m more => exact ⟨'{', _, rfl, by decide⟩

theorem readValue_ofInt {fuel depth : Nat} {n : Int} {rest : Text} (hn : (Number.int n).Fits)
    (h : Number.Stops rest) :
    readValue (fuel + 1) depth (Text.ofInt n ++ rest) = (.num (.int n), some rest) := by
  obtain ⟨c, s, hs, hc⟩ := ofInt_head n
  have hnumber := Number.readNumber_ofInt hn h
  rw [hs, List.cons_append] at hnumber ⊢
  simp only [readValue, dropSpace_cons (isSpace_of_sign_or_digit hc), if_pos hc, hnumber,
    if_neg (ne_of_sign_or_digit hc (d := '"') (by decide)),
    if_neg (ne_of_sign_or_digit hc (d := '[') (by decide)),
    if_neg (ne_of_sign_or_digit hc (d := '{') (by decide))]

theorem readValue_null (fuel depth level : Nat) (rest : Text) :
    readValue (fuel + 1) depth (prettyAt level .null ++ rest) = (.null, some rest) := by
  simp [prettyAt, readValue, dropSpace_cons (c := 'n') (by decide), readWord]
  rfl

theorem readValue_bool (fuel depth level : Nat) (b : Bool) (rest : Text) :
    readValue (fuel + 1) depth (prettyAt level (.bool b) ++ rest) = (.bool b, some rest) := by
  cases b with
  | false =>
    simp [prettyAt, printBool, readValue, dropSpace_cons (c := 'f') (by decide), readWord]
    rfl
  | true =>
    simp [prettyAt, printBool, readValue, dropSpace_cons (c := 't') (by decide), readWord]
    rfl

theorem readValue_quote {fuel depth : Nat} {t rest : Text} (h : (quote t).length ≤ fuel + 1) :
    readValue (fuel + 1) depth (quote t ++ rest) = (.str t, some rest) := by
  have hbody := readString_quoted rest h
  simp only [quote, List.cons_append, List.append_assoc, List.nil_append]
  simp only [readValue, dropSpace_cons (c := '"') (by decide), if_true, hbody]

theorem readValue_space (fuel depth : Nat) (s : Text) :
    readValue fuel depth (' ' :: s) = readValue fuel depth s := by
  have hdrop : dropSpace (' ' :: s) = dropSpace s := List.dropWhile_cons_of_pos (by decide)
  cases fuel with
  | zero => simp only [readValue]
  | succ fuel => simp only [readValue, hdrop]

theorem readValue_emptyArray (fuel depth : Nat) (rest : Text) :
    readValue (fuel + 1) depth ('[' :: ']' :: rest) = (.inside depth (.arr []), some rest) := by
  simp [readValue, dropSpace_cons (c := '[') (by decide), dropSpace_cons (c := ']') (by decide)]

theorem readValue_emptyObject (fuel depth : Nat) (rest : Text) :
    readValue (fuel + 1) depth ('{' :: '}' :: rest) = (.inside depth (.obj []), some rest) := by
  simp [readValue, dropSpace_cons (c := '{') (by decide), dropSpace_cons (c := '}') (by decide)]

theorem readValue_array {fuel depth level : Nat} {c : Char} {s : Text} (hspace : isSpace c = false)
    (hc : c ≠ ']') :
    readValue (fuel + 1) depth ('[' :: (newline level ++ c :: s)) =
      (.inside depth (.arr (readItems fuel (depth - 1) (c :: s)).1),
        (readItems fuel (depth - 1) (c :: s)).2) := by
  simp [readValue, dropSpace_cons (c := '[') (by decide), dropSpace_newline,
    dropSpace_cons hspace, hc]

theorem readValue_object {fuel depth level : Nat} {s : Text} :
    readValue (fuel + 1) depth ('{' :: (newline level ++ '"' :: s)) =
      (.inside depth (.obj (readMembers fuel (depth - 1) ('"' :: s)).1),
        (readMembers fuel (depth - 1) ('"' :: s)).2) := by
  simp [readValue, dropSpace_cons (c := '{') (by decide), dropSpace_newline,
    dropSpace_cons (c := '"') (by decide)]

section steps

variable {fuel depth level : Nat} {s rest name : Text} {v : Draft}

theorem readItems_last (h : readValue fuel depth s = (v, some (newline level ++ ']' :: rest))) :
    readItems (fuel + 1) depth s = ([v], some rest) := by
  simp [readItems, h, dropSpace_newline, dropSpace_cons (c := ']') (by decide)]

theorem readItems_more (h : readValue fuel depth s = (v, some (',' :: rest))) :
    readItems (fuel + 1) depth s =
      (v :: (readItems fuel depth rest).1, (readItems fuel depth rest).2) := by
  simp [readItems, h, dropSpace_cons (c := ',') (by decide)]

theorem readMembers_last (hname : (quote name).length ≤ fuel + 1)
    (h : readValue fuel depth s = (v, some (newline level ++ '}' :: rest))) :
    readMembers (fuel + 1) depth (quote name ++ ':' :: ' ' :: s) =
      ([(.str name, v)], some rest) := by
  simp [readMembers, quote, dropSpace_cons (c := '"') (by decide), readString_quoted _ hname,
    dropSpace_cons (c := ':') (by decide), readValue_space, h, dropSpace_newline,
    dropSpace_cons (c := '}') (by decide)]

theorem readMembers_more (hname : (quote name).length ≤ fuel + 1)
    (h : readValue fuel depth s = (v, some (',' :: rest))) :
    readMembers (fuel + 1) depth (quote name ++ ':' :: ' ' :: s) =
      ((.str name, v) :: (readMembers fuel depth rest).1, (readMembers fuel depth rest).2) := by
  simp [readMembers, quote, dropSpace_cons (c := '"') (by decide), readString_quoted _ hname,
    dropSpace_cons (c := ':') (by decide), readValue_space, h,
    dropSpace_cons (c := ',') (by decide)]

end steps

theorem length_prettyAt_pos (level : Nat) {j : Json} (h : j.Fits) :
    0 < (prettyAt level j).length := by
  obtain ⟨c, s, hs, -⟩ := prettyAt_head level h
  simp [hs]

theorem length_prettyItems (level : Nat) (items : List Json) :
    2 ≤ (prettyItems level items).length := by
  cases items with
  | nil => simp [prettyItems, newline]
  | cons v more => simp [prettyItems, newline]

mutual

/-- Where enough may be read, a printed value is read to its end. -/
theorem readValue_prettyAt : ∀ (j : Json), j.Fits → ∀ (level depth fuel : Nat) (rest : Text),
    (prettyAt level j).length ≤ fuel → Number.Stops rest →
      readValue fuel depth (prettyAt level j ++ rest) = (j.limited depth, some rest)
  | j, hj, level, depth, 0, rest, hfuel, _ =>
    absurd hfuel (Nat.not_le.2 (length_prettyAt_pos level hj))
  | .null, _, level, depth, fuel + 1, rest, _, _ => readValue_null fuel depth level rest
  | .bool b, _, level, depth, fuel + 1, rest, _, _ => readValue_bool fuel depth level b rest
  | .num (.int n), hj, level, depth, fuel + 1, rest, _, hrest => readValue_ofInt hj hrest
  | .num (.float x), hj, _, _, _, _, _, _ => hj.elim
  | .str t, _, level, depth, fuel + 1, rest, hfuel, _ => readValue_quote hfuel
  | .arr [], _, level, depth, fuel + 1, rest, _, _ => by
    simpa [prettyAt, limited, limitedItems] using readValue_emptyArray fuel depth rest
  | .arr (v :: more), hj, level, depth, fuel + 1, rest, hfuel, _ => by
    simp only [prettyAt, List.cons_append, List.append_assoc, List.length_cons,
      List.length_append] at hfuel ⊢
    have hitems := readItems_prettyItems v more hj level (depth - 1) fuel rest
      (by rw [List.length_append]; omega)
    obtain ⟨c, s, hs, hspace, hc, -⟩ := prettyAt_head (level + 1) hj.1
    rw [hs, List.cons_append] at hitems ⊢
    rw [readValue_array hspace hc, hitems, limited]
  | .obj [], _, level, depth, fuel + 1, rest, _, _ => by
    simpa [prettyAt, limited, limitedMembers] using readValue_emptyObject fuel depth rest
  | .obj ((name, v) :: more), hj, level, depth, fuel + 1, rest, hfuel, _ => by
    simp only [prettyAt, List.cons_append, List.append_assoc, List.length_cons,
      List.length_append] at hfuel ⊢
    have hmembers := readMembers_prettyMembers name v more hj level (depth - 1) fuel rest
      (by simp only [List.length_append, List.length_cons]; omega)
    simp only [quote, List.cons_append] at hmembers ⊢
    rw [readValue_object, hmembers, limited]
termination_by j => sizeOf j

theorem readItems_prettyItems : ∀ (v : Json) (more : List Json), ItemsFit (v :: more) →
    ∀ (level depth fuel : Nat) (rest : Text),
      (prettyAt (level + 1) v ++ prettyItems level more).length ≤ fuel →
        readItems fuel depth (prettyAt (level + 1) v ++ (prettyItems level more ++ rest)) =
          (limitedItems depth (v :: more), some rest)
  | v, more, hitems, level, depth, 0, rest, hfuel => by
    have := length_prettyItems level more
    rw [List.length_append] at hfuel
    omega
  | v, [], hitems, level, depth, fuel + 1, rest, hfuel => by
    have hlength := length_prettyItems level []
    rw [List.length_append] at hfuel
    have hvalue := readValue_prettyAt v hitems.1 (level + 1) depth fuel _ (by omega)
      (stops_prettyItems level [] rest)
    simp only [prettyItems, List.append_assoc, List.singleton_append] at hvalue ⊢
    rw [readItems_last hvalue, limitedItems, limitedItems]
  | v, w :: more, hitems, level, depth, fuel + 1, rest, hfuel => by
    have hlength := length_prettyItems level (w :: more)
    rw [List.length_append] at hfuel
    have hvalue := readValue_prettyAt v hitems.1 (level + 1) depth fuel _ (by omega)
      (stops_prettyItems level (w :: more) rest)
    simp only [prettyItems, List.cons_append, List.append_assoc, List.length_cons,
      List.length_append] at hfuel hvalue ⊢
    have hmore := readItems_prettyItems w more hitems.2 level depth fuel rest
      (by rw [List.length_append]; omega)
    rw [readItems_more hvalue, readItems_newline, hmore]
    simp only [limitedItems]
termination_by v more => sizeOf v + sizeOf more + 1

theorem readMembers_prettyMembers : ∀ (name : Text) (v : Json) (more : List (Text × Json)),
    MembersFit ((name, v) :: more) → ∀ (level depth fuel : Nat) (rest : Text),
      (quote name ++ ':' :: ' ' :: (prettyAt (level + 1) v ++ prettyMembers level more)).length ≤
          fuel →
        readMembers fuel depth
            (quote name ++ ':' :: ' ' ::
              (prettyAt (level + 1) v ++ (prettyMembers level more ++ rest))) =
          (limitedMembers depth ((name, v) :: more), some rest)
  | name, v, more, hmembers, level, depth, 0, rest, hfuel => by
    simp at hfuel
  | name, v, [], hmembers, level, depth, fuel + 1, rest, hfuel => by
    simp only [List.length_append, List.length_cons] at hfuel
    have hvalue := readValue_prettyAt v hmembers.1 (level + 1) depth fuel _ (by omega)
      (stops_prettyMembers level [] rest)
    simp only [prettyMembers, List.append_assoc, List.singleton_append] at hvalue ⊢
    rw [readMembers_last (by omega) hvalue, limitedMembers, limitedMembers]
  | name, v, (name', w) :: more, hmembers, level, depth, fuel + 1, rest, hfuel => by
    simp only [List.length_append, List.length_cons] at hfuel
    have hvalue := readValue_prettyAt v hmembers.1 (level + 1) depth fuel _ (by omega)
      (stops_prettyMembers level ((name', w) :: more) rest)
    simp only [prettyMembers, List.cons_append, List.append_assoc, List.length_cons,
      List.length_append] at hfuel hvalue ⊢
    have hmore := readMembers_prettyMembers name' w more hmembers.2 level depth fuel rest
      (by simp only [List.length_append, List.length_cons]; omega)
    rw [readMembers_more (by omega) hvalue, readMembers_newline, hmore]
    simp only [limitedMembers]
termination_by _ v more => sizeOf v + sizeOf more + 1

end

/-- A printed value is read back as far as it may be opened, and nothing stands behind it. -/
theorem draft_pretty (depth : Nat) {j : Json} (h : j.Fits) :
    draft depth (pretty j) = (j.limited depth, some []) := by
  have hend : Number.Stops [] := by
    intro c hc
    exact absurd hc (by simp)
  have := readValue_prettyAt j h 0 depth (2 * (pretty j).length + 2) [] (by rw [pretty]; omega) hend
  rwa [List.append_nil] at this

/-! ## The value of a printed text -/

mutual

theorem toJson_limited : ∀ (j : Json) {depth : Nat}, j.nesting ≤ depth →
    (j.limited depth).toJson = .ok j
  | .null, _, _ => rfl
  | .bool _, _, _ => rfl
  | .num _, _, _ => rfl
  | .str _, _, _ => rfl
  | .arr items, depth, h => by
    rw [nesting] at h
    obtain ⟨inner, rfl⟩ : ∃ inner, depth = inner + 1 := ⟨depth - 1, by omega⟩
    rw [limited, Draft.inside, Nat.add_sub_cancel, Draft.toJson,
      toItems_limitedItems items (Nat.le_of_succ_le_succ h)]
    rfl
  | .obj members, depth, h => by
    rw [nesting] at h
    obtain ⟨inner, rfl⟩ : ∃ inner, depth = inner + 1 := ⟨depth - 1, by omega⟩
    rw [limited, Draft.inside, Nat.add_sub_cancel, Draft.toJson,
      toMembers_limitedMembers members (Nat.le_of_succ_le_succ h)]
    rfl

theorem toItems_limitedItems : ∀ (items : List Json) {depth : Nat}, itemsNesting items ≤ depth →
    Draft.toItems (limitedItems depth items) = .ok items
  | [], _, _ => rfl
  | v :: more, depth, h => by
    rw [itemsNesting, Nat.max_le] at h
    rw [limitedItems, Draft.toItems, toJson_limited v h.1, toItems_limitedItems more h.2]
    rfl

theorem toMembers_limitedMembers : ∀ (members : List (Text × Json)) {depth : Nat},
    membersNesting members ≤ depth → Draft.toMembers (limitedMembers depth members) = .ok members
  | [], _, _ => rfl
  | (name, v) :: more, depth, h => by
    rw [membersNesting, Nat.max_le] at h
    rw [limitedMembers, Draft.toMembers, toJson_limited v h.1, toMembers_limitedMembers more h.2]
    rfl

end

/-- A printed value is the value that its text stands for. -/
theorem parse?_pretty {j : Json} (h : j.Fits) (hdepth : j.nesting ≤ maxDepth) :
    parse? (pretty j) = some j := by
  rw [parse?, parseWithin?, draft_pretty maxDepth h, toJson_limited j hdepth]
  rfl

end TexCatalog.Json
