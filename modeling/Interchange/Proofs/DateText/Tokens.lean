/-
# The tokens of a written text

A text that is put together from runs of digits, words, blanks and single characters falls apart
into the same pieces again, as long as no run is followed by one of its own kind.  The lemmas here
take one piece off the front of a text.

* `tokens_number`, `tokens_word`: a run that ends where it ends is one token;
* `tokens_digits`, `tokens_letters`: a text that is one run;
* `tokens_leadingMinus`, `tokens_symbol`: a minus sign is a token of its own kind only where a field
  opens;
* `uniform_of_mem_tokens`: a token of digits or of letters holds nothing else.
-/
import Interchange.DateText.Scan
import Interchange.Proofs.Text.Runs

namespace Interchange
namespace DateText

/-! ## 1. What a text begins with -/

def startsWithLetter : List Char → Bool
  | [] => false
  | c :: _ => c.isAlpha

theorem startsWithDigit_append {digits : List Char} (h : IsDigits digits) (rest : List Char) :
    startsWithDigit (digits ++ rest) = true := by
  match digits, h with
  | [], h => exact absurd rfl h.1
  | c :: _, h => exact h.2 c List.mem_cons_self

theorem head?_of_startsWithDigit {text : List Char} (h : startsWithDigit text = false) :
    ∀ c ∈ text.head?, c.isDigit = false := by
  intro c hc
  obtain ⟨rest, rfl⟩ := List.head?_eq_some_iff.mp hc
  exact h

theorem head?_of_startsWithLetter {text : List Char} (h : startsWithLetter text = false) :
    ∀ c ∈ text.head?, c.isAlpha = false := by
  intro c hc
  obtain ⟨rest, rfl⟩ := List.head?_eq_some_iff.mp hc
  exact h

/-! ## 2. Taking a token off the front -/

/-- **A run of digits is one token**, whatever follows it, as long as that is no digit. -/
theorem tokens_number {opening : Bool} {digits rest : List Char} (h : IsDigits digits)
    (hrest : startsWithDigit rest = false) :
    tokens opening (digits ++ rest) = .number digits :: tokens false rest := by
  match digits, h with
  | [], h => exact absurd rfl h.1
  | c :: run, h =>
    have hc := h.2 c List.mem_cons_self
    have hrun : ∀ d ∈ run, d.isDigit = true := fun d hd => h.2 d (List.mem_cons_of_mem c hd)
    have hspan := span_append hrun (head?_of_startsWithDigit hrest)
    rw [List.cons_append, tokens, if_neg (by simp [not_isBlank_of_isDigit hc]),
      if_neg (fun hm => ne_minus_of_isDigit hc hm.1), if_pos hc, hspan.1, hspan.2]

/-- **A run of letters is one token.** -/
theorem tokens_word {opening : Bool} {letters rest : List Char} (h : IsLetters letters)
    (hrest : startsWithLetter rest = false) :
    tokens opening (letters ++ rest) = .word letters :: tokens false rest := by
  match letters, h with
  | [], h => exact absurd rfl h.1
  | c :: run, h =>
    have hc := h.2 c List.mem_cons_self
    have hrun : ∀ d ∈ run, d.isAlpha = true := fun d hd => h.2 d (List.mem_cons_of_mem c hd)
    have hspan := span_append hrun (head?_of_startsWithLetter hrest)
    rw [List.cons_append, tokens, if_neg (by simp [not_isBlank_of_isAlpha hc]),
      if_neg (fun hm => ne_minus_of_isAlpha hc hm.1), if_neg (by simp [not_isDigit_of_isAlpha hc]),
      if_pos hc, hspan.1, hspan.2]

@[simp] theorem tokens_nil (opening : Bool) : tokens opening [] = [] := by rw [tokens]

theorem tokens_blank {opening : Bool} {c : Char} {rest : List Char} (h : isBlank c = true) :
    tokens opening (c :: rest) = tokens true rest := by
  rw [tokens, if_pos h]

theorem tokens_digits {digits : List Char} (h : IsDigits digits) (opening : Bool) :
    tokens opening digits = [.number digits] := by
  have hnumber : tokens opening (digits ++ []) = .number digits :: tokens false [] :=
    tokens_number h rfl
  rwa [List.append_nil, tokens_nil] at hnumber

theorem tokens_letters {letters : List Char} (h : IsLetters letters) (opening : Bool) :
    tokens opening letters = [.word letters] := by
  have hword : tokens opening (letters ++ []) = .word letters :: tokens false [] :=
    tokens_word h rfl
  rwa [List.append_nil, tokens_nil] at hword

theorem tokens_of_blank {text : List Char} (h : text.all isBlank = true) (opening : Bool) :
    tokens opening text = [] := by
  induction text generalizing opening with
  | nil => exact tokens_nil opening
  | cons c rest ih =>
    rw [List.all_cons, Bool.and_eq_true] at h
    rw [tokens_blank h.1, ih h.2]

theorem tokens_leadingMinus {rest : List Char} (h : startsWithDigit rest = true) :
    tokens true ('-' :: rest) = .leadingMinus :: tokens false rest := by
  rw [tokens, if_neg (by decide), if_pos ⟨rfl, rfl, h⟩]

theorem tokens_symbol {opening : Bool} {c : Char} {rest : List Char} (hblank : isBlank c = false)
    (hdigit : c.isDigit = false) (halpha : c.isAlpha = false)
    (hminus : c = '-' → opening = true → startsWithDigit rest = false) :
    tokens opening (c :: rest) = .symbol c :: tokens false rest := by
  rw [tokens, if_neg (by simp [hblank]), if_neg, if_neg (by simp [hdigit]),
    if_neg (by simp [halpha])]
  rintro ⟨hc, ho, hd⟩
  rw [hminus hc ho] at hd
  exact absurd hd (by decide)

theorem tokens_symbol_inside {c : Char} {rest : List Char}
    (h : isBlank c = false ∧ c.isDigit = false ∧ c.isAlpha = false) :
    tokens false (c :: rest) = .symbol c :: tokens false rest :=
  tokens_symbol h.1 h.2.1 h.2.2 (fun _ ho => absurd ho (by decide))

/-! ## 3. What tokens hold -/

/-- A number holds digits and a word letters, at least one of them and nothing else. -/
def Token.Uniform : Token → Prop
  | .number digits => IsDigits digits
  | .word letters => IsLetters letters
  | .symbol _ | .leadingMinus => True

theorem forall_mem_cons_takeWhile {p : Char → Bool} {c : Char} (hc : p c = true)
    (rest : List Char) : ∀ d ∈ c :: rest.takeWhile p, p d = true := by
  intro d hd
  rcases List.mem_cons.mp hd with rfl | hd
  · exact hc
  · exact List.all_eq_true.mp List.all_takeWhile d hd

/-- **The tokens of a text are uniform**, wherever it is cut from: a number is never empty and holds
digits only. -/
theorem uniform_of_mem_tokens {opening : Bool} {text : List Char} :
    ∀ token ∈ tokens opening text, token.Uniform := by
  fun_induction tokens opening text with
  | case1 => exact fun _ h => absurd h List.not_mem_nil
  | case2 opening c rest _ ih => exact ih
  | case3 opening c rest _ _ ih => exact List.forall_mem_cons.mpr ⟨trivial, ih⟩
  | case4 opening c rest _ _ hdigit ih =>
    exact List.forall_mem_cons.mpr
      ⟨⟨List.cons_ne_nil _ _, forall_mem_cons_takeWhile hdigit rest⟩, ih⟩
  | case5 opening c rest _ _ _ halpha ih =>
    exact List.forall_mem_cons.mpr
      ⟨⟨List.cons_ne_nil _ _, forall_mem_cons_takeWhile halpha rest⟩, ih⟩
  | case6 opening c rest _ _ _ _ ih => exact List.forall_mem_cons.mpr ⟨trivial, ih⟩

end DateText
end Interchange
