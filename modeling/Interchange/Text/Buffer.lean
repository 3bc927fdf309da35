/-
# Text in a byte buffer

Readers of raw buffers look at a *window* of it: an explicit number of bytes, or everything before
the first zero byte.  The two readers of buffers, `parse_bytes` of dates and `parse_numeric_bytes`
of numbers, open with the same choice of the window; it is `window` here, once.

A date is read from the window's text.  Text is UTF-8, and where it is not, `from_utf8_lossy` puts
one replacement character for each longest piece that begins a valid character but does not finish
it, and one for each byte that begins none.  `decode` does this byte by byte, so it reads every
window.  A number is read from the bytes themselves.
-/
namespace Interchange
namespace Buffer

/-! ## 1. The window -/

/-- The bytes that a reader may look at: the first `length`, or all of a shorter buffer; without a
length those before the first zero byte, or all if there is none. -/
def window (buffer : List UInt8) : Option Nat → List UInt8
  | some length => buffer.take length
  | none => buffer.takeWhile (· != 0)

/-! ## 2. UTF-8 with replacement -/

/-- What stands for bytes that are no character. -/
def replacement : Char := Char.ofNat 0xFFFD

/-- How many bytes follow a lead byte, and the payload bits of the lead byte.  No character begins
with 0xC0 or 0xC1, which only overlong forms would need, nor with a byte beyond 0xF4. -/
def leadByte (b : Nat) : Option (Nat × Nat) :=
  if 0xC2 ≤ b ∧ b ≤ 0xDF then some (1, b - 0xC0)
  else if 0xE0 ≤ b ∧ b ≤ 0xEF then some (2, b - 0xE0)
  else if 0xF0 ≤ b ∧ b ≤ 0xF4 then some (3, b - 0xF0)
  else none

/-- The range of the byte after a lead byte: it excludes overlong forms, surrogates and values
beyond the last code point. -/
def secondRange (lead : Nat) : Nat × Nat :=
  if lead = 0xE0 then (0xA0, 0xBF)
  else if lead = 0xED then (0x80, 0x9F)
  else if lead = 0xF0 then (0x90, 0xBF)
  else if lead = 0xF4 then (0x80, 0x8F)
  else (0x80, 0xBF)

/-- Reads the bytes that follow a lead byte, the first of them in the given range, as long as they
fit; gives the code point if all were there.  The byte that does not fit is not used up: it may
begin the next character. -/
def following : Nat → Nat × Nat → Nat → List UInt8 → Option Nat × List UInt8
  | 0, _, code, rest => (some code, rest)
  | _ + 1, _, _, [] => (none, [])
  | n + 1, (low, high), code, b :: rest =>
    if low ≤ b.toNat ∧ b.toNat ≤ high then
      following n (0x80, 0xBF) (code * 64 + (b.toNat - 0x80)) rest
    else (none, b :: rest)

theorem length_following_le (n : Nat) (range : Nat × Nat) (code : Nat) (bytes : List UInt8) :
    (following n range code bytes).2.length ≤ bytes.length := by
  induction bytes generalizing n range code with
  | nil => cases n <;> simp [following]
  | cons b rest ih =>
    cases n with
    | zero => simp [following]
    | succ n =>
      obtain ⟨low, high⟩ := range
      unfold following
      split
      · have := ih n (0x80, 0xBF) (code * 64 + (b.toNat - 0x80))
        simp only [List.length_cons]
        omega
      · simp

/-- The first character of some bytes, and the bytes after it. -/
def nextChar (b : UInt8) (rest : List UInt8) : Char × List UInt8 :=
  if b.toNat < 0x80 then (Char.ofNat b.toNat, rest)
  else
    match leadByte b.toNat with
    | none => (replacement, rest)
    | some (count, bits) =>
      match following count (secondRange b.toNat) bits rest with
      | (some code, rest') => (Char.ofNat code, rest')
      | (none, rest') => (replacement, rest')

theorem length_nextChar_le (b : UInt8) (rest : List UInt8) :
    (nextChar b rest).2.length ≤ rest.length := by
  unfold nextChar
  split
  · simp
  · split
    · simp
    · next count bits _ =>
      have h := length_following_le count (secondRange b.toNat) bits rest
      split <;> next hf => rw [hf] at h; exact h

/-- The text of some bytes. -/
def decode : List UInt8 → List Char
  | [] => []
  | b :: rest => (nextChar b rest).1 :: decode (nextChar b rest).2
termination_by bytes => bytes.length
decreasing_by
  have := length_nextChar_le b rest
  simp only [List.length_cons]
  omega

/-- A complete character, a cut one, and a lone continuation byte. -/
example : decode [0xC3, 0xA9, 0x41] = ['é', 'A'] ∧
    decode [0xE2, 0x82, 0x41] = [replacement, 'A'] ∧
    decode [0x80, 0xF0, 0x9F] = [replacement, replacement] := by decide +kernel

end Buffer
end Interchange
