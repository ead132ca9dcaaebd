import BuildEngine.Text.Quoted

/-!
Reading UTF-8. A sequence of bytes is a text, or the first byte that cannot be read is reported
with the reason: it starts no character, a character breaks off at the end of the data, or a byte
that must continue a character does not.
-/

namespace BuildEngine.Text

/-- Why bytes are no text: the first and one past the last byte that cannot be read. -/
inductive Utf8Error where
  | invalidStart (byte : Nat) (position : Nat)
  | invalidContinuation (byte : Nat) (first past : Nat)
  | unexpectedEnd (byte : Nat) (first past : Nat)
  deriving Repr, DecidableEq

namespace Utf8Error

/-- The place of the bytes that cannot be read: one byte by its value, several by their range. -/
def place (byte first past : Nat) : String :=
  if past = first + 1 then
    s!"byte 0x{String.ofList (hexDigits 2 byte)} in position {first}"
  else s!"bytes in position {first}-{past - 1}"

def message : Utf8Error → String
  | invalidStart byte position =>
    s!"'utf-8' codec can't decode {place byte position (position + 1)}: invalid start byte"
  | invalidContinuation byte first past =>
    s!"'utf-8' codec can't decode {place byte first past}: invalid continuation byte"
  | unexpectedEnd byte first past =>
    s!"'utf-8' codec can't decode {place byte first past}: unexpected end of data"

end Utf8Error

/-- The number of bytes that a leading byte announces, and the range of its second byte. -/
def utf8Lead? (byte : Nat) : Option (Nat × Nat × Nat) :=
  if 0xc2 ≤ byte ∧ byte ≤ 0xdf then some (2, 0x80, 0xbf)
  else if byte = 0xe0 then some (3, 0xa0, 0xbf)
  else if byte = 0xed then some (3, 0x80, 0x9f)
  else if 0xe1 ≤ byte ∧ byte ≤ 0xef then some (3, 0x80, 0xbf)
  else if byte = 0xf0 then some (4, 0x90, 0xbf)
  else if 0xf1 ≤ byte ∧ byte ≤ 0xf3 then some (4, 0x80, 0xbf)
  else if byte = 0xf4 then some (4, 0x80, 0x8f)
  else none

/-- Reads `missing` continuing bytes after a leading byte at `first`. The next one must lie
between `low` and `high`, the ones after it in the common range. -/
def readContinuation (lead first position missing low high value : Nat) :
    List Nat → Except Utf8Error (Nat × List Nat)
  | bytes =>
    match missing, bytes with
    | 0, rest => .ok (value, rest)
    | _ + 1, [] => .error (.unexpectedEnd lead first position)
    | more + 1, byte :: rest =>
      if low ≤ byte ∧ byte ≤ high then
        readContinuation lead first (position + 1) more 0x80 0xbf (value * 64 + byte % 64) rest
      else .error (.invalidContinuation lead first position)

theorem readContinuation_length {lead first position missing low high value : Nat}
    {bytes rest : List Nat} {result : Nat}
    (h : readContinuation lead first position missing low high value bytes = .ok (result, rest)) :
    rest.length ≤ bytes.length := by
  induction missing generalizing position low high value bytes with
  | zero =>
    simp [readContinuation] at h
    exact Nat.le_of_eq (by rw [h.2])
  | succ more ih =>
    cases bytes with
    | nil => simp [readContinuation] at h
    | cons byte tail =>
      rw [readContinuation] at h
      split at h
      · exact Nat.le_succ_of_le (ih h)
      · simp at h

def decodeUtf8From (position : Nat) : List Nat → Except Utf8Error (List Char)
  | [] => .ok []
  | byte :: rest =>
    if byte < 0x80 then
      (decodeUtf8From (position + 1) rest).map (Char.ofNat byte :: ·)
    else
      match utf8Lead? byte with
      | none => .error (.invalidStart byte position)
      | some (size, low, high) =>
        let top := if size = 2 then byte % 32 else if size = 3 then byte % 16 else byte % 8
        match _read : readContinuation byte position (position + 1) (size - 1) low high top rest with
        | .error e => .error e
        | .ok (value, remaining) =>
          (decodeUtf8From (position + size) remaining).map (Char.ofNat value :: ·)
  termination_by bytes => bytes.length
  decreasing_by
    · simp
    · have := readContinuation_length _read
      simp
      omega

def decodeUtf8 (data : ByteArray) : Except Utf8Error String :=
  (decodeUtf8From 0 (data.toList.map UInt8.toNat)).map String.ofList

end BuildEngine.Text
