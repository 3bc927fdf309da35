/-
# Runs of characters

A scanner that takes the longest run of a class of characters finds a written run again, as long as
no character of its class follows.

* `span_append`: a run goes up to where it ends;
* `isDigits_padded`: a padded number is a run of digits;
* `value_lt`: a run of digits denotes less than the power of ten of its length;
* `eq_of_value_eq`, `lt_iff_value_lt`: runs of one length are told apart and ordered by their
  numbers.
-/
import Interchange.Decimal.Digits

namespace Interchange

/-! ## 1. Classes of characters -/

theorem toNat_of_isDigit {c : Char} (h : c.isDigit = true) : 48 ≤ c.toNat ∧ c.toNat ≤ 57 := by
  delta Char.isDigit at h
  have h48 : ('0' : Char).val.toNat = 48 := rfl
  have h57 : ('9' : Char).val.toNat = 57 := rfl
  simp only [Bool.and_eq_true, decide_eq_true_eq, UInt32.le_iff_toNat_le] at h
  show 48 ≤ c.val.toNat ∧ c.val.toNat ≤ 57
  omega

/-- The letters stand together but for some signs between the large and the small ones. -/
theorem toNat_of_isAlpha {c : Char} (h : c.isAlpha = true) : 65 ≤ c.toNat ∧ c.toNat ≤ 122 := by
  delta Char.isAlpha Char.isUpper Char.isLower at h
  simp only [Bool.or_eq_true, Bool.and_eq_true, decide_eq_true_eq, UInt32.le_iff_toNat_le] at h
  have hA : ('A' : Char).val.toNat = 65 := rfl
  have hZ : ('Z' : Char).val.toNat = 90 := rfl
  have ha : ('a' : Char).val.toNat = 97 := rfl
  have hz : ('z' : Char).val.toNat = 122 := rfl
  show 65 ≤ c.val.toNat ∧ c.val.toNat ≤ 122
  omega

theorem not_isAlpha_of_isDigit {c : Char} (h : c.isDigit = true) : c.isAlpha = false := by
  have hc : 48 ≤ c.val.toNat ∧ c.val.toNat ≤ 57 := toNat_of_isDigit h
  have hA : ('A' : Char).val.toNat = 65 := rfl
  have ha : ('a' : Char).val.toNat = 97 := rfl
  delta Char.isAlpha Char.isUpper Char.isLower
  simp only [Bool.or_eq_false_iff, Bool.and_eq_false_iff, decide_eq_false_iff_not,
    UInt32.le_iff_toNat_le]
  omega

theorem not_isDigit_of_isAlpha {c : Char} (h : c.isAlpha = true) : c.isDigit = false := by
  rw [← Bool.not_eq_true]
  intro hd
  rw [not_isAlpha_of_isDigit hd] at h
  exact absurd h (by decide)

theorem isAlpha_of_toLower {c : Char} (h : c.toLower.isAlpha = true) : c.isAlpha = true := by
  unfold Char.toLower at h
  split at h
  · next hupper =>
    have hc : c.isUpper = true := decide_eq_true hupper
    delta Char.isAlpha
    rw [hc, Bool.true_or]
  · exact h

theorem ne_minus_of_isDigit {c : Char} (h : c.isDigit = true) : c ≠ '-' := by
  rintro rfl
  exact absurd h (by decide)

theorem ne_minus_of_isAlpha {c : Char} (h : c.isAlpha = true) : c ≠ '-' := by
  rintro rfl
  exact absurd h (by decide)

/-! ## 2. Runs -/

/-- A run of digits, with at least one. -/
def IsDigits (digits : List Char) : Prop := digits ≠ [] ∧ ∀ c ∈ digits, c.isDigit = true

-- the conjunction may be decided by a run through all characters, of which there are finitely many
instance (digits : List Char) : Decidable (IsDigits digits) :=
  decidable_of_iff ((!digits.isEmpty && digits.all Char.isDigit) = true) (by simp [IsDigits])

/-- A run of letters, with at least one. -/
def IsLetters (letters : List Char) : Prop := letters ≠ [] ∧ ∀ c ∈ letters, c.isAlpha = true

theorem isLetters_of_all {letters : List Char}
    (h : (!letters.isEmpty && letters.all Char.isAlpha) = true) : IsLetters letters := by
  rw [Bool.and_eq_true, Bool.not_eq_true', List.isEmpty_eq_false_iff] at h
  exact ⟨h.1, List.all_eq_true.mp h.2⟩

@[simp] theorem isDigits_padded (width n : Nat) : IsDigits (Decimal.padded width n) := by
  refine ⟨fun h => ?_, fun c hc => Decimal.isDigit_of_mem_padded hc⟩
  exact Decimal.digits_ne_nil n (List.append_eq_nil_iff.mp h).2

theorem IsDigits.append {a b : List Char} (ha : IsDigits a) (hb : ∀ c ∈ b, c.isDigit = true) :
    IsDigits (a ++ b) := by
  refine ⟨fun h => ha.1 (List.append_eq_nil_iff.mp h).1, fun c hc => ?_⟩
  rcases List.mem_append.mp hc with h | h
  · exact ha.2 c h
  · exact hb c h

/-- A part of a run is a run, if there is anything of it. -/
theorem IsDigits.part {digits : List Char} (h : IsDigits digits) (start width : Nat)
    (hpos : 0 < width) (hstart : start < digits.length) :
    IsDigits ((digits.drop start).take width) := by
  refine ⟨fun hnil => ?_, fun c hc => h.2 c (List.mem_of_mem_drop (List.mem_of_mem_take hc))⟩
  have hlength := congrArg List.length hnil
  rw [List.length_take, List.length_drop, List.length_nil] at hlength
  omega

/-- **A run goes up to where it ends.** -/
theorem span_append {p : Char → Bool} {run rest : List Char} (hrun : ∀ c ∈ run, p c = true)
    (hrest : ∀ c ∈ rest.head?, p c = false) :
    (run ++ rest).takeWhile p = run ∧ (run ++ rest).dropWhile p = rest := by
  rw [List.takeWhile_append_of_pos hrun, List.dropWhile_append_of_pos hrun]
  cases rest with
  | nil => simp
  | cons c rest =>
    have hc := hrest c rfl
    simp [hc]

theorem value_cons (c : Char) (rest : List Char) : Decimal.value (c :: rest) =
    Decimal.powerOfTen rest.length * (c.toNat - 48) + Decimal.value rest := by
  have hfirst : Decimal.value [c] = c.toNat - 48 := Nat.zero_add _
  rw [← hfirst]
  exact Decimal.value_append [c] rest

/-- **A run of digits denotes less than the power of ten of its length.** -/
theorem value_lt {digits : List Char} (h : ∀ c ∈ digits, c.isDigit = true) :
    Decimal.value digits < Decimal.powerOfTen digits.length := by
  induction digits with
  | nil => decide
  | cons c rest ih =>
    have hrest := ih fun d hd => h d (List.mem_cons_of_mem c hd)
    have hc := toNat_of_isDigit (h c List.mem_cons_self)
    have hpower : Decimal.powerOfTen (c :: rest).length = Decimal.powerOfTen rest.length * 10 :=
      Nat.pow_succ ..
    rw [value_cons, hpower]
    calc Decimal.powerOfTen rest.length * (c.toNat - 48) + Decimal.value rest
        < Decimal.powerOfTen rest.length * (c.toNat - 48) + Decimal.powerOfTen rest.length := by
          omega
      _ = Decimal.powerOfTen rest.length * (c.toNat - 48 + 1) := by
          rw [Nat.mul_add, Nat.mul_one]
      _ ≤ Decimal.powerOfTen rest.length * 10 := Nat.mul_le_mul_left _ (by omega)

/-- **Runs of one length are told apart by their numbers.** -/
theorem eq_of_value_eq {a b : List Char} (ha : ∀ c ∈ a, c.isDigit = true)
    (hb : ∀ c ∈ b, c.isDigit = true) (hlength : a.length = b.length)
    (h : Decimal.value a = Decimal.value b) : a = b := by
  induction a generalizing b with
  | nil => exact (List.length_eq_zero_iff.mp hlength.symm).symm
  | cons c a ih =>
    obtain ⟨d, b, rfl⟩ := List.exists_cons_of_length_eq_add_one hlength.symm
    have hrest : a.length = b.length := Nat.succ.inj hlength
    have hdigits := fun e he => ha e (List.mem_cons_of_mem c he)
    have hdigits' := fun e he => hb e (List.mem_cons_of_mem d he)
    have hlt := value_lt hdigits
    have hlt' := value_lt hdigits'
    rw [value_cons, value_cons, ← hrest] at h
    rw [← hrest] at hlt'
    -- the first digit is the quotient by that power of ten, the others are the remainder
    have hpos : 0 < Decimal.powerOfTen a.length := Nat.zero_lt_of_lt hlt
    have hdiv := congrArg (· / Decimal.powerOfTen a.length) h
    have hmod := congrArg (· % Decimal.powerOfTen a.length) h
    simp only [Nat.mul_add_div hpos, Nat.mul_add_mod, Nat.div_eq_of_lt hlt, Nat.div_eq_of_lt hlt',
      Nat.mod_eq_of_lt hlt, Nat.mod_eq_of_lt hlt', Nat.add_zero] at hdiv hmod
    have hc := toNat_of_isDigit (ha c List.mem_cons_self)
    have hd := toNat_of_isDigit (hb d List.mem_cons_self)
    have hfirst : c = d := Char.toNat_inj.mp (by omega)
    rw [hfirst, ih hdigits hdigits' hrest hmod]

/-! ## 3. Order -/

/-- **Of two texts with beginnings of one length, the beginnings decide**, unless they are the
same. -/
theorem append_lt_append_iff {α : Type} [LT α] {a b : List α} (hlength : a.length = b.length)
    (s t : List α) : a ++ s < b ++ t ↔ a < b ∨ (a = b ∧ s < t) := by
  induction a generalizing b with
  | nil =>
    obtain rfl := List.length_eq_zero_iff.mp hlength.symm
    have hnil : ¬([] : List α) < [] := List.not_lt_nil []
    simp only [List.nil_append, hnil, true_and, false_or]
  | cons c a ih =>
    obtain ⟨d, b, rfl⟩ := List.exists_cons_of_length_eq_add_one hlength.symm
    rw [List.cons_append, List.cons_append, List.cons_lt_cons_iff, List.cons_lt_cons_iff,
      ih (Nat.succ.inj hlength), List.cons.injEq]
    constructor
    · rintro (hfirst | ⟨hfirst, hrest | ⟨hsame, hrest⟩⟩)
      · exact .inl (.inl hfirst)
      · exact .inl (.inr ⟨hfirst, hrest⟩)
      · exact .inr ⟨⟨hfirst, hsame⟩, hrest⟩
    · rintro ((hfirst | ⟨hfirst, hrest⟩) | ⟨⟨hfirst, hsame⟩, hrest⟩)
      · exact .inl hfirst
      · exact .inr ⟨hfirst, .inl hrest⟩
      · exact .inr ⟨hfirst, .inr ⟨hsame, hrest⟩⟩

/-- **Runs of one length are ordered like their numbers.** -/
theorem lt_iff_value_lt {a b : List Char} (ha : ∀ c ∈ a, c.isDigit = true)
    (hb : ∀ c ∈ b, c.isDigit = true) (hlength : a.length = b.length) :
    a < b ↔ Decimal.value a < Decimal.value b := by
  induction a generalizing b with
  | nil =>
    obtain rfl := List.length_eq_zero_iff.mp hlength.symm
    simp
  | cons c a ih =>
    obtain ⟨d, b, rfl⟩ := List.exists_cons_of_length_eq_add_one hlength.symm
    have hrest : a.length = b.length := Nat.succ.inj hlength
    have hdigits := fun e he => ha e (List.mem_cons_of_mem c he)
    have hdigits' := fun e he => hb e (List.mem_cons_of_mem d he)
    have hlt := value_lt hdigits
    have hlt' := value_lt hdigits'
    have hc := toNat_of_isDigit (ha c List.mem_cons_self)
    have hd := toNat_of_isDigit (hb d List.mem_cons_self)
    rw [value_cons, value_cons, List.cons_lt_cons_iff, ih hdigits hdigits' hrest, ← hrest]
    rw [← hrest] at hlt'
    rcases Nat.lt_trichotomy c.toNat d.toNat with hfirst | hfirst | hfirst
    · have hstep := Nat.mul_le_mul_left (Decimal.powerOfTen a.length)
        (show c.toNat - 48 + 1 ≤ d.toNat - 48 by omega)
      rw [Nat.mul_succ] at hstep
      exact iff_of_true (.inl hfirst) (by omega)
    · obtain rfl := Char.toNat_inj.mp hfirst
      have hirrefl : ¬c < c := Nat.lt_irrefl c.toNat
      simp only [hirrefl, true_and, false_or]
      omega
    · have hstep := Nat.mul_le_mul_left (Decimal.powerOfTen a.length)
        (show d.toNat - 48 + 1 ≤ c.toNat - 48 by omega)
      rw [Nat.mul_succ] at hstep
      refine iff_of_false ?_ (by omega)
      rintro (hlt | ⟨rfl, -⟩)
      · exact Nat.lt_asymm hlt hfirst
      · exact Nat.lt_irrefl _ hfirst

/-- **Numbers that fill a width are ordered by it**, and what follows decides between equal ones. -/
theorem padded_append_lt_iff {width m n : Nat} (hwidth : 0 < width)
    (hm : m < Decimal.powerOfTen width) (hn : n < Decimal.powerOfTen width) (s t : List Char) :
    Decimal.padded width m ++ s < Decimal.padded width n ++ t ↔ m < n ∨ (m = n ∧ s < t) := by
  have hlength : (Decimal.padded width m).length = (Decimal.padded width n).length := by
    rw [Decimal.length_padded hwidth hm, Decimal.length_padded hwidth hn]
  have hsame : Decimal.padded width m = Decimal.padded width n ↔ m = n := by
    constructor
    · intro h
      have hvalue := congrArg Decimal.value h
      rwa [Decimal.value_padded, Decimal.value_padded] at hvalue
    · rintro rfl
      rfl
  rw [append_lt_append_iff hlength,
    lt_iff_value_lt (isDigits_padded _ _).2 (isDigits_padded _ _).2 hlength, Decimal.value_padded,
    Decimal.value_padded, hsame]

end Interchange
