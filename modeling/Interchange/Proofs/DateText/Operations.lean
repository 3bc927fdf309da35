/-
# Cutting and counting without a fault

Nothing goes wrong where a text is cut into tokens and where digits are counted.  A text is cut only
behind characters that were looked at, so that each place is between two characters.  A run of
digits that is too long is read as the largest number, and what is added to or multiplied has only a
few digits.

* `tokenize_eq`: the machine finds the tokens of a text;
* `number_eq`, `sliceField_eq`: it counts digits, and some of the digits of a run;
* `fractionMillis_eq`, `readCompact_eq`: it reads fractions of a second and whole dates.
-/
import Interchange.Proofs.DateText.Changes
import Interchange.Proofs.DateText.Machine
import Interchange.Proofs.DateText.Outcomes

namespace Interchange
namespace DateText

open Buffer

namespace Machine

/-! ## 1. Operations that go through -/

variable {α β : Type}

@[simp] theorem lift_ok (a : α) : lift (.ok a) = .ok a := rfl

@[simp] theorem lift_error (e : Error) : lift (.error e : Except Error α) = .error (.rejected e) :=
  rfl

theorem lift_ne_fault (x : Except Error α) (f : Fault) : lift x ≠ .error (.fault f) := by
  cases x with
  | ok a =>
    rw [lift_ok]
    exact fun h => nomatch h
  | error e =>
    rw [lift_error]
    exact fun h => nomatch h

theorem lift_eq_rejected_iff {x : Except Error α} {e : Error} :
    lift x = .error (.rejected e) ↔ x = .error e := by
  cases x with
  | ok a => simp
  | error e' => simp

theorem ok_bind {ε : Type} (a : α) (f : α → Except ε β) : (.ok a >>= f) = f a := rfl

theorem fit_of_mem {n : Int} (h : -(countLimit : Int) - 1 ≤ n ∧ n ≤ countLimit) : fit n = .ok n :=
  if_pos h

theorem fitNat_of_le {n : Nat} (h : n ≤ countLimit) : fitNat n = .ok n := if_pos h

theorem minus_of_le {a b : Nat} (h : b ≤ a) : minus a b = .ok (a - b) := if_pos h

theorem narrow_of_mem {value low high : Int} (h : low ≤ value ∧ value ≤ high) :
    narrow value low high = .ok value.toNat := if_pos h

theorem sliceTo_append (before after : List Char) :
    sliceTo (before ++ after) (byteLength before) = .ok before := by
  rw [sliceTo, splitAt?_append]

theorem sliceFrom_append (before after : List Char) :
    sliceFrom (before ++ after) (byteLength before) = .ok after := by
  rw [sliceFrom, splitAt?_append]

theorem sliceFrom_cons (c : Char) (rest : List Char) :
    sliceFrom (c :: rest) c.utf8Size = .ok rest := by
  have h := sliceFrom_append [c] rest
  rwa [byteLength_cons, byteLength_nil, Nat.add_zero] at h

/-! ## 2. Tokens -/

theorem isSign_eq (opening : Bool) (c : Char) (rest : List Char) :
    isSign opening c (c :: rest) =
      .ok (decide (c = '-' ∧ opening = true ∧ startsWithDigit rest = true)) := by
  unfold isSign
  split
  · next h =>
    obtain ⟨rfl, rfl⟩ := h
    have hslice : sliceFrom ('-' :: rest) 1 = .ok rest := sliceFrom_cons '-' rest
    rw [hslice]
    simp [Except.map]
  · next h =>
    rw [decide_eq_false fun ⟨hc, ho, _⟩ => h ⟨hc, ho⟩]

theorem slice_classEnd (p : Char → Bool) (text : List Char) :
    sliceTo text (classEnd p text) = .ok (text.takeWhile p) ∧
      sliceFrom text (classEnd p text) = .ok (text.dropWhile p) := by
  have hto := sliceTo_append (text.takeWhile p) (text.dropWhile p)
  have hfrom := sliceFrom_append (text.takeWhile p) (text.dropWhile p)
  rw [List.takeWhile_append_dropWhile] at hto hfrom
  exact ⟨hto, hfrom⟩

theorem tokenize_of_cut {opening : Bool} {c : Char} {rest text : List Char} {token : Option Token}
    (h : cut opening c (c :: text) = .ok (token, rest)) (hrest : rest.length ≤ text.length) :
    tokenize opening (c :: text) = (tokenize (isBlank c) rest).map (token.toList ++ ·) := by
  rw [tokenize, h]
  dsimp only
  rw [if_pos (by rw [List.length_cons]; omega)]

/-- **The tokens of a text are found without a fault.**  Each cut is behind characters that were
looked at, and each round takes one at least. -/
theorem tokenize_eq (opening : Bool) (text : List Char) :
    tokenize opening text = .ok (tokens opening text) := by
  fun_induction tokens opening text with
  | case1 opening => rw [tokenize]
  | case2 opening c rest h ih =>
    have hcut : cut opening c (c :: rest) = .ok (none, rest) := by
      simp only [cut, h, if_true, sliceFrom_cons]
      rfl
    rw [tokenize_of_cut hcut le_rfl, h, ih]
    rfl
  | case3 opening c rest h hm ih =>
    obtain ⟨rfl, rfl, hd⟩ := hm
    have hslice : sliceFrom ('-' :: rest) 1 = .ok rest := sliceFrom_cons '-' rest
    have hcut : cut true '-' ('-' :: rest) = .ok (some .leadingMinus, rest) := by
      simp only [cut, h, isSign_eq, hd, hslice]
      rfl
    rw [tokenize_of_cut hcut le_rfl, Bool.eq_false_of_not_eq_true h, ih]
    rfl
  | case4 opening c rest h hm hd ih =>
    obtain ⟨hto, hfrom⟩ := slice_classEnd Char.isDigit (c :: rest)
    have hcut : cut opening c (c :: rest) = .ok
        (some (.number (c :: rest.takeWhile Char.isDigit)), rest.dropWhile Char.isDigit) := by
      rw [List.takeWhile_cons_of_pos hd] at hto
      rw [List.dropWhile_cons_of_pos hd] at hfrom
      simp only [cut, h, isSign_eq, hm, hd, hto, hfrom]
      rfl
    rw [tokenize_of_cut hcut (List.dropWhile_suffix _).length_le, Bool.eq_false_of_not_eq_true h,
      ih]
    rfl
  | case5 opening c rest h hm hd ha ih =>
    obtain ⟨hto, hfrom⟩ := slice_classEnd Char.isAlpha (c :: rest)
    have hcut : cut opening c (c :: rest) = .ok
        (some (.word (c :: rest.takeWhile Char.isAlpha)), rest.dropWhile Char.isAlpha) := by
      rw [List.takeWhile_cons_of_pos ha] at hto
      rw [List.dropWhile_cons_of_pos ha] at hfrom
      simp only [cut, h, isSign_eq, hm, hd, ha, hto, hfrom]
      rfl
    rw [tokenize_of_cut hcut (List.dropWhile_suffix _).length_le, Bool.eq_false_of_not_eq_true h,
      ih]
    rfl
  | case6 opening c rest h hm hd ha ih =>
    have hcut : cut opening c (c :: rest) = .ok (some (.symbol c), rest) := by
      simp only [cut, h, isSign_eq, hm, hd, ha, sliceFrom_cons]
      rfl
    rw [tokenize_of_cut hcut le_rfl, Bool.eq_false_of_not_eq_true h, ih]
    rfl

/-! ## 3. Numbers -/

theorem byteLength_digits {digits : List Char} (h : ∀ c ∈ digits, c.isDigit = true) :
    byteLength digits = digits.length := byteLength_of_isPlain (isPlain_of_isDigit h)

/-- **Digits are read without a fault, however many there are**: too many of them are the largest
number. -/
theorem number_eq {digits : List Char} (h : IsDigits digits) : number digits = count digits := by
  unfold number parse? count
  by_cases hle : Decimal.value digits ≤ countLimit
  · rw [if_pos ⟨h, hle⟩, Option.getD_some, Nat.min_eq_left hle]
  · rw [if_neg fun hboth => hle hboth.2, Option.getD_none, Nat.min_eq_right (by omega)]

theorem quantity_eq {digits : List Char} (h : IsDigits digits) :
    quantity digits = .ofDigits false digits := by
  rw [quantity, number_eq h, byteLength_digits h.2]
  rfl

theorem value_le_countLimit {digits : List Char} (h : ∀ c ∈ digits, c.isDigit = true)
    (hshort : digits.length ≤ 18) : Decimal.value digits ≤ countLimit := by
  have hpower : Decimal.powerOfTen 18 ≤ countLimit := by decide +kernel
  have hle : Decimal.powerOfTen digits.length ≤ Decimal.powerOfTen 18 :=
    Nat.pow_le_pow_right (by decide) hshort
  have hlt := value_lt h
  omega

theorem parse?_eq {digits : List Char} (h : IsDigits digits) (hshort : digits.length ≤ 18) :
    parse? digits = some (Decimal.value digits) :=
  if_pos ⟨h, value_le_countLimit h.2 hshort⟩

/-- Some of the digits are cut out, if all of them or none are there. -/
theorem sliceField_eq {digits : List Char} (h : IsDigits digits) (start length : Nat)
    (hpos : 0 < length) (hshort : length ≤ 18)
    (hwhole : start + length ≤ digits.length ∨ digits.length ≤ start) :
    sliceField digits start (start + length) = Scan.slice digits start length := by
  rw [sliceField, get?_of_isPlain (isPlain_of_isDigit h.2), Scan.slice]
  by_cases hin : start + length ≤ digits.length
  · have hpart : IsDigits ((digits.drop start).take length) := h.part start length hpos (by omega)
    rw [if_pos hin, Option.bind_some, parse?_eq hpart ((List.length_take_le _ _).trans hshort),
      Option.getD_some]
  · rw [if_neg hin, List.drop_eq_nil_of_le (by omega), List.take_nil]
    rfl

theorem signed_of_le {negative : Bool} {value digits : Nat} (h : value ≤ countLimit) :
    signed negative value digits =
      .ok ⟨if negative then -(value : Int) else value, digits, negative⟩ := by
  cases negative
  · rfl
  · rw [signed, if_pos rfl, fit_of_mem (by omega)]
    rfl

theorem fractionMillis_eq {digits : List Char} (h : IsDigits digits) :
    fractionMillis digits = .ok (Scan.fractionMillis digits) := by
  have hhead : IsDigits (digits.take 3) :=
    h.part 0 3 (by decide) (List.length_pos_iff.mpr h.1)
  have hlength : (digits.take 3).length ≤ 3 := List.length_take_le 3 digits
  have hzeros : 3 - digits.length = 3 - (digits.take 3).length := by
    rw [List.length_take]
    omega
  have hmillis : Decimal.value (digits.take 3) * Decimal.powerOfTen (3 - (digits.take 3).length) =
      Scan.fractionMillis digits := by
    rw [Scan.fractionMillis, Decimal.value_append, Decimal.value_replicate_zero,
      List.length_replicate, hzeros, Nat.add_zero, Nat.mul_comm]
  have hscale : Decimal.powerOfTen (3 - (digits.take 3).length) ≤ Decimal.powerOfTen 3 :=
    Nat.pow_le_pow_right (by decide) (Nat.sub_le 3 _)
  have hlimit : Decimal.powerOfTen 3 ≤ countLimit := by decide +kernel
  have hlt : Scan.fractionMillis digits < 1000 := Scan.fractionMillis_lt h
  simp only [fractionMillis]
  rw [byteLength_digits hhead.2, narrow_of_mem (by omega), ok_bind, Int.toNat_natCast,
    minus_of_le hlength, ok_bind, fitNat_of_le (hscale.trans hlimit), ok_bind,
    parse?_eq hhead (by omega), Option.getD_some, hmillis, fitNat_of_le]
  exact (Nat.le_of_lt hlt).trans hlimit

theorem compactYearWidth_eq (width : Nat) :
    compactYearWidth width = .ok (Scan.compactYearWidth width) := by
  unfold compactYearWidth Scan.compactYearWidth
  split
  · rfl
  split
  · next h =>
    rw [minus_of_le (by omega)]
    rfl
  split
  · next h =>
    rw [minus_of_le (by omega)]
    rfl
  · rfl

variable {s : Scan}

/-- A number is collected with its sign, if it was not too large to be read. -/
theorem signed_ofDigits {negative : Bool} {digits : List Char}
    (h : Decimal.value digits ≤ countLimit) :
    signed negative (Decimal.value digits) digits.length = .ok (.ofDigits negative digits) := by
  rw [signed_of_le h, Quantity.ofDigits, count, Nat.min_eq_left h]

/-- **A whole date is read without a fault**: each of its numbers is in it, or it ends before. -/
theorem readCompact_eq {digits : List Char} (h : IsDigits digits) {yearWidth : Nat}
    (hwidth : Scan.compactYearWidth digits.length = some yearWidth) (negative : Bool) :
    readCompact s digits yearWidth negative = .ok (s.readCompact digits yearWidth negative) := by
  have hlong := Scan.compactYearWidth_cases hwidth
  have hyear : signed negative (sliceField digits 0 yearWidth) yearWidth =
      .ok (.ofDigits negative (digits.take yearWidth)) := by
    have hslice := sliceField_eq h 0 yearWidth (by omega) (by omega) (by omega)
    have hlength : (digits.take yearWidth).length = yearWidth := by
      rw [List.length_take]
      omega
    rw [Nat.zero_add] at hslice
    rw [hslice, Scan.slice, List.drop_zero, ← signed_ofDigits, hlength]
    exact value_le_countLimit (fun c hc => h.2 c (List.mem_of_mem_take hc)) (by omega)
  have hpart : ∀ start, start + 2 ≤ digits.length →
      quantity ((get? digits start (start + 2)).getD ['0']) =
        .ofDigits false ((digits.drop start).take 2) := by
    intro start hstart
    rw [get?_of_isPlain (isPlain_of_isDigit h.2), if_pos hstart, Option.getD_some,
      quantity_eq (h.part start 2 (by decide) (by omega))]
  simp only [readCompact]
  rw [hyear, ok_bind, hpart yearWidth (by omega), hpart (yearWidth + 2) (by omega),
    byteLength_digits h.2, sliceField_eq h (yearWidth + 4) 2 (by decide) (by decide) (by omega),
    sliceField_eq h (yearWidth + 6) 2 (by decide) (by decide) (by omega),
    sliceField_eq h (yearWidth + 8) 2 (by decide) (by decide) (by omega),
    sliceField_eq h (yearWidth + 10) 3 (by decide) (by decide) (by omega)]
  rfl

theorem pushNumber_eq {digits : List Char} (h : IsDigits digits) (negative : Bool) :
    pushNumber s digits negative = lift (s.pushNumber digits negative) := by
  have hle : count digits ≤ countLimit := Nat.min_le_right _ _
  unfold pushNumber Scan.pushNumber
  split
  · rw [number_eq h, byteLength_digits h.2, signed_of_le hle]
    rfl
  · rfl

end Machine
end DateText
end Interchange
