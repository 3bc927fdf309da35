/-
# Tokens of a date text

A date text is cut by `tokenize` into runs of ASCII digits, runs of ASCII letters and single other
characters; blanks only separate.  A minus sign that opens a field (at the start or after a blank,
and before a digit) is a token of its own, because it may be the sign of a year.

`tokenize` is a loop over the rest of the text with one flag, whether the character before was a
blank (at the start: yes).  It tries in this order: a blank, the sign of a field, a digit, a letter,
anything else.  `tokens` is that loop as a recursion, its flag is the argument `opening`, and the
tokens carry their characters where `tokenize` keeps places in the text.

The text is trimmed before `tokenize` sees it.  Blanks make no token and both ends of the text open
a field, so `tokens` is taken of the text as it stands.

* `flatMap_spelling_tokens`: nothing but blanks is lost, and nothing is made up.
-/
import Interchange.Text.Blank

namespace Interchange
namespace DateText

/-- A piece of a date text.  A run is never empty, and `leadingMinus` is the sign that opens a
field; any other minus is a `symbol`. -/
inductive Token where
  | number (digits : List Char)
  | word (letters : List Char)
  | symbol (c : Char)
  | leadingMinus
  deriving DecidableEq

/-- A token as it is written; both kinds of minus sign are written alike. -/
def Token.spelling : Token → List Char
  | .number digits => digits
  | .word letters => letters
  | .symbol c => [c]
  | .leadingMinus => ['-']

/-- Whether a text begins with a digit: the look-ahead behind a minus sign. -/
def startsWithDigit : List Char → Bool
  | [] => false
  | c :: _ => c.isDigit

/-- The tokens of a text: `tokenize`, from the place where it stands.  `opening` tells whether a
field may open here; after a digit, a letter or a symbol it may not. -/
def tokens (opening : Bool) : List Char → List Token
  | [] => []
  | c :: rest =>
    if isBlank c then tokens true rest
    else if c = '-' ∧ opening = true ∧ startsWithDigit rest = true then
      .leadingMinus :: tokens false rest
    else if c.isDigit then
      .number (c :: rest.takeWhile Char.isDigit) :: tokens false (rest.dropWhile Char.isDigit)
    else if c.isAlpha then
      .word (c :: rest.takeWhile Char.isAlpha) :: tokens false (rest.dropWhile Char.isAlpha)
    else .symbol c :: tokens false rest
termination_by text => text.length
decreasing_by
  all_goals simp only [List.length_cons]
  all_goals
    first
    | omega
    | (have shorter := (List.dropWhile_suffix Char.isDigit (l := rest)).length_le; omega)
    | (have shorter := (List.dropWhile_suffix Char.isAlpha (l := rest)).length_le; omega)

theorem filter_takeWhile_append {p : Char → Bool} (hp : ∀ c, p c = true → isBlank c = false)
    (text : List Char) :
    text.filter (fun c => !isBlank c) =
      text.takeWhile p ++ (text.dropWhile p).filter (fun c => !isBlank c) := by
  induction text with
  | nil => rfl
  | cons c rest ih =>
    by_cases h : p c = true
    · simp [h, hp c h, ih]
    · simp [h]

/-- **Nothing but blanks is lost, and nothing is made up.** -/
theorem flatMap_spelling_tokens (opening : Bool) (text : List Char) :
    (tokens opening text).flatMap Token.spelling = text.filter (fun c => !isBlank c) := by
  fun_induction tokens opening text with
  | case1 => rfl
  | case2 opening c rest h ih => simp [h, ih]
  | case3 opening c rest h hm ih =>
    obtain rfl := hm.1
    simp [h, ih, Token.spelling]
  | case4 opening c rest h hm hd ih =>
    simp [h, ih, Token.spelling, filter_takeWhile_append (fun _ => not_isBlank_of_isDigit) rest]
  | case5 opening c rest h hm hd ha ih =>
    simp [h, ih, Token.spelling, filter_takeWhile_append (fun _ => not_isBlank_of_isAlpha) rest]
  | case6 opening c rest h hm hd ha ih => simp [h, ih, Token.spelling]

/-- A clock after a day, and the three uses of a minus sign. -/
example : tokens true "05T14:3Z".toList =
      [.number ['0', '5'], .word ['T'], .number ['1', '4'], .symbol ':', .number ['3'],
        .word ['Z']] ∧
    tokens true "-1-2 -3 x-4 -".toList =
      [.leadingMinus, .number ['1'], .symbol '-', .number ['2'], .leadingMinus, .number ['3'],
        .word ['x'], .symbol '-', .number ['4'], .symbol '-'] := by decide +kernel

end DateText
end Interchange
