import TexCatalog.Text.Basic

/-!
# Encoded texts

The bytes of a text in UTF-8. Bytes are written as a text, a byte as the character with its number.
A decoder goes on behind bytes that encode no character; it takes as one mistake what begins like
the encoding of a character and breaks off.
-/

namespace TexCatalog.Text

def encode (t : Text) : Text :=
  t.flatMap fun c => (String.utf8EncodeChar c).map fun byte => Char.ofNat byte.toNat

/-- What the first byte of a character says: the bytes that follow, the bounds of the first of them,
and its own share of the number of the character. -/
structure Lead where
  following : Nat
  low : Nat
  high : Nat
  share : Nat

def lead? (byte : Nat) : Option Lead :=
  if byte < 0x80 then some ⟨0, 0, 0, byte⟩
  else if byte < 0xC2 then none
  else if byte < 0xE0 then some ⟨1, 0x80, 0xBF, byte - 0xC0⟩
  else if byte = 0xE0 then some ⟨2, 0xA0, 0xBF, 0⟩
  else if byte = 0xED then some ⟨2, 0x80, 0x9F, 0xD⟩
  else if byte < 0xF0 then some ⟨2, 0x80, 0xBF, byte - 0xE0⟩
  else if byte = 0xF0 then some ⟨3, 0x90, 0xBF, 0⟩
  else if byte < 0xF4 then some ⟨3, 0x80, 0xBF, byte - 0xF0⟩
  else if byte = 0xF4 then some ⟨3, 0x80, 0x8F, 4⟩
  else none

/-- The number that a share becomes with the bytes that follow, and what stands behind those. -/
def follow : Nat → Nat → Nat → Nat → Text → Option Nat × Text
  | 0, _, _, share, s => (some share, s)
  | _ + 1, _, _, _, [] => (none, [])
  | n + 1, low, high, share, c :: s =>
    if low ≤ c.toNat ∧ c.toNat ≤ high then follow n 0x80 0xBF (share * 64 + c.toNat % 64) s
    else (none, c :: s)

theorem length_follow_le (n low high share : Nat) (s : Text) :
    (follow n low high share s).2.length ≤ s.length := by
  induction n generalizing low high share s with
  | zero => simp [follow]
  | succ n ih =>
    cases s with
    | nil => simp [follow]
    | cons c s =>
      unfold follow
      split
      · exact Nat.le_trans (ih ..) (Nat.le_succ _)
      · exact Nat.le_refl _

/-- The characters that bytes encode, and `none` for every mistake. -/
def decode : Text → List (Option Char)
  | [] => []
  | c :: s =>
    match lead? c.toNat with
    | none => none :: decode s
    | some l =>
      (follow l.following l.low l.high l.share s).1.map Char.ofNat ::
        decode (follow l.following l.low l.high l.share s).2
termination_by s => s.length
decreasing_by
  · simp
  · exact Nat.lt_succ_of_le (length_follow_le ..)

def ofBytes? (bytes : Text) : Option Text := (decode bytes).mapM id

def ofBytes (bytes : Text) : Text := (decode bytes).map (·.getD '\ufffd')

end TexCatalog.Text
