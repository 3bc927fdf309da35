/-
# What a numeric literal takes

`Spelling.Greedy` says, without a scanner, which literal a text begins with: each part is there when
the text goes on with its mark, and each run of digits goes up to where the digits end.  A text
begins with exactly one such literal, the one that the scan finds; and the literal alone, without
what follows it, is scanned as the same literal.

* `scan_eq_iff`: the scan finds the greedy literal;
* `Greedy.alone`: what follows a greedy literal can be left out.
-/
import Interchange.Numeral
import Interchange.Proofs.Text.Runs

namespace Interchange
namespace Literal

/-! ## 1. The parts -/

/-- `IsRun digits rest`: before `rest`, the digits are a run that cannot be longer; it may be
empty. -/
def IsRun (digits rest : List Char) : Prop :=
  (∀ c ∈ digits, c.isDigit = true) ∧ ∀ c ∈ rest.head?, c.isDigit = false

/-- A fraction before `rest`: absent when no point comes next, else a point with its run. -/
inductive IsFraction : Option (List Char) → List Char → Prop where
  | absent {rest : List Char} : '.' ∉ rest.head? → IsFraction none rest
  | present {digits rest : List Char} : IsRun digits rest → IsFraction (some digits) rest

/-- The sign of an exponent before `rest`: absent when neither sign comes next. -/
inductive IsSign : Option Char → List Char → Prop where
  | absent {rest : List Char} : '+' ∉ rest.head? → '-' ∉ rest.head? → IsSign none rest
  | plus {rest : List Char} : IsSign (some '+') rest
  | minus {rest : List Char} : IsSign (some '-') rest

/-- An exponent before `rest`: absent when neither letter comes next, else a letter with its sign
and its run. -/
inductive IsExponent : Option Exponent → List Char → Prop where
  | absent {rest : List Char} : 'e' ∉ rest.head? → 'E' ∉ rest.head? → IsExponent none rest
  | present {mark : Char} {sign : Option Char} {digits rest : List Char} :
      mark = 'e' ∨ mark = 'E' → IsSign sign (digits ++ rest) → IsRun digits rest →
      IsExponent (some ⟨mark, sign, digits⟩) rest

/-- **The literal before `rest` has taken all that it can**: the minus sign, the digits, the
fraction and the exponent. -/
structure Spelling.Greedy (s : Spelling) (rest : List Char) : Prop where
  minus : s.negative = false → '-' ∉ (s.text ++ rest).head?
  whole : IsRun s.whole (fractionText s.fraction ++ (exponentText s.exponent ++ rest))
  fraction : IsFraction s.fraction (exponentText s.exponent ++ rest)
  exponent : IsExponent s.exponent rest

/-! ## 2. Scanning the parts -/

theorem scanDigits_of_isRun {digits rest : List Char} (h : IsRun digits rest) :
    scanDigits (digits ++ rest) = (digits, rest) := by
  rw [scanDigits, (span_append h.1 h.2).1, (span_append h.1 h.2).2]

theorem isRun_scanDigits (text : List Char) : IsRun (scanDigits text).1 (scanDigits text).2 := by
  refine ⟨fun c hc => List.all_eq_true.mp List.all_takeWhile c hc, fun c hc => ?_⟩
  have h := List.head?_dropWhile_not Char.isDigit text
  rw [show (text.dropWhile Char.isDigit).head? = some c from hc] at h
  simpa using h

theorem scanFraction_of_isFraction {fraction : Option (List Char)} {rest : List Char}
    (h : IsFraction fraction rest) :
    scanFraction (fractionText fraction ++ rest) = (fraction, rest) := by
  cases h with
  | absent hpoint =>
    rw [fractionText, List.nil_append]
    fun_cases scanFraction rest with
    | case1 after => exact absurd rfl hpoint
    | case2 => rfl
  | present hrun => rw [fractionText, List.cons_append, scanFraction, scanDigits_of_isRun hrun]

theorem isFraction_scanFraction (text : List Char) :
    IsFraction (scanFraction text).1 (scanFraction text).2 := by
  fun_cases scanFraction text with
  | case1 rest => exact .present (isRun_scanDigits rest)
  | case2 _ hne =>
    refine .absent fun h => ?_
    obtain ⟨rest, rfl⟩ := List.head?_eq_some_iff.mp h
    exact hne rest rfl

theorem scanSign_of_isSign {sign : Option Char} {rest : List Char} (h : IsSign sign rest) :
    scanSign (sign.toList ++ rest) = (sign, rest) := by
  cases h with
  | plus | minus => rfl
  | absent hplus hminus =>
    rw [Option.toList_none, List.nil_append]
    fun_cases scanSign rest with
    | case1 c after hc =>
      rcases hc with rfl | rfl
      · exact absurd rfl hplus
      · exact absurd rfl hminus
    | case2 | case3 => rfl

theorem isSign_scanSign (text : List Char) : IsSign (scanSign text).1 (scanSign text).2 := by
  fun_cases scanSign text with
  | case1 c rest hc =>
    rcases hc with rfl | rfl
    · exact .plus
    · exact .minus
  | case2 c rest hc =>
    rw [not_or] at hc
    exact .absent (fun h => hc.1 (Option.some.inj h)) (fun h => hc.2 (Option.some.inj h))
  | case3 => exact .absent (by simp) (by simp)

theorem scanExponent_of_isExponent {exponent : Option Exponent} {rest : List Char}
    (h : IsExponent exponent rest) :
    scanExponent (exponentText exponent ++ rest) = (exponent, rest) := by
  cases h with
  | absent he hE =>
    rw [exponentText, List.nil_append]
    fun_cases scanExponent rest with
    | case1 c _ hc =>
      rcases hc with rfl | rfl
      · exact absurd rfl he
      · exact absurd rfl hE
    | case2 | case3 => rfl
  | present hmark hsign hrun =>
    rw [exponentText, List.cons_append, List.append_assoc, scanExponent, if_pos hmark,
      scanSign_of_isSign hsign]
    dsimp only
    rw [scanDigits_of_isRun hrun]

theorem isExponent_scanExponent (text : List Char) :
    IsExponent (scanExponent text).1 (scanExponent text).2 := by
  fun_cases scanExponent text with
  | case1 c rest hc sign unsigned hs =>
    have hsign := isSign_scanSign rest
    rw [hs, ← scanDigits_append unsigned] at hsign
    exact .present hc hsign (isRun_scanDigits unsigned)
  | case2 c rest hc =>
    rw [not_or] at hc
    exact .absent (fun h => hc.1 (Option.some.inj h)) (fun h => hc.2 (Option.some.inj h))
  | case3 => exact .absent (by simp) (by simp)

theorem scanMinus_minusText {negative : Bool} {rest : List Char}
    (h : negative = false → '-' ∉ rest.head?) :
    scanMinus (minusText negative ++ rest) = (negative, rest) := by
  cases negative with
  | true => rfl
  | false =>
    rw [minusText, List.nil_append]
    fun_cases scanMinus rest with
    | case1 after => exact absurd rfl (h rfl)
    | case2 => rfl

theorem not_minus_of_scanMinus {text : List Char} (h : (scanMinus text).1 = false) :
    '-' ∉ text.head? := by
  intro hminus
  obtain ⟨rest, rfl⟩ := List.head?_eq_some_iff.mp hminus
  exact absurd h (by simp [scanMinus])

/-! ## 3. Scanning a literal -/

namespace Spelling

theorem greedy_scan (text : List Char) : (scan text).1.Greedy (scan text).2 where
  minus hneg := by
    rw [text_scan]
    exact not_minus_of_scanMinus hneg
  whole := by
    simp only [scan]
    rw [scanExponent_append, scanFraction_append]
    exact isRun_scanDigits _
  fraction := by
    simp only [scan]
    rw [scanExponent_append]
    exact isFraction_scanFraction _
  exponent := isExponent_scanExponent _

/-- **The scan finds the greedy literal**, and no text begins with another one.  Part by part the
description leaves the scanner no choice. -/
theorem scan_eq_iff {text rest : List Char} {s : Spelling} :
    scan text = (s, rest) ↔ text = s.text ++ rest ∧ s.Greedy rest := by
  constructor
  · intro h
    have htext := text_scan text
    have hgreedy := greedy_scan text
    rw [h] at htext hgreedy
    exact ⟨htext.symm, hgreedy⟩
  · rintro ⟨rfl, h⟩
    have hminus : s.negative = false → '-' ∉ (s.whole ++ (fractionText s.fraction ++
        (exponentText s.exponent ++ rest))).head? := by
      intro hs
      have := h.minus hs
      simpa only [text, hs, minusText, List.nil_append, List.append_assoc] using this
    simp only [scan, text, List.append_assoc]
    rw [scanMinus_minusText hminus]
    dsimp only
    rw [scanDigits_of_isRun h.whole]
    dsimp only
    rw [scanFraction_of_isFraction h.fraction]
    dsimp only
    rw [scanExponent_of_isExponent h.exponent]

/-! ## 4. The literal alone -/

theorem mem_head?_append {c : Char} {front rest : List Char} (h : c ∈ front.head?) :
    c ∈ (front ++ rest).head? := by
  obtain ⟨after, rfl⟩ := List.head?_eq_some_iff.mp h
  rfl

theorem isRun_of_append {digits front rest : List Char} (h : IsRun digits (front ++ rest)) :
    IsRun digits front := ⟨h.1, fun c hc => h.2 c (mem_head?_append hc)⟩

/-- **What follows a greedy literal can be left out.** -/
theorem Greedy.alone {s : Spelling} {rest : List Char} (h : s.Greedy rest) : s.Greedy [] := by
  obtain ⟨negative, whole, fraction, exponent⟩ := s
  obtain ⟨hminus, hwhole, hfraction, hexponent⟩ := h
  refine ⟨fun hneg hc => hminus hneg ?_, ?_, ?_, ?_⟩
  · rw [List.append_nil] at hc
    exact mem_head?_append hc
  · rw [List.append_nil]
    rw [← List.append_assoc] at hwhole
    exact isRun_of_append hwhole
  · rw [List.append_nil]
    cases hfraction with
    | absent hpoint => exact .absent fun hc => hpoint (mem_head?_append hc)
    | present hrun => exact .present (isRun_of_append hrun)
  · cases hexponent with
    | absent he hE => exact .absent (by simp) (by simp)
    | present hmark hsign hrun =>
      refine .present hmark ?_ ⟨hrun.1, by simp⟩
      rw [List.append_nil]
      cases hsign with
      | plus => exact .plus
      | minus => exact .minus
      | absent hplus hminus =>
        exact .absent (fun hc => hplus (mem_head?_append hc)) fun hc => hminus (mem_head?_append hc)

end Spelling

end Literal
end Interchange
