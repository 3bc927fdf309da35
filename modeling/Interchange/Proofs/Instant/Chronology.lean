/-
# Texts in chronological order

In the years 0 to 9999 three of the layouts write every field with a width of its own, from the year
down, and with the same separators in the same places.  Their texts therefore compare, byte by byte,
like the fields, and the fields compare like the instants.  What the layout leaves out does not
count: texts of the layout `stamp` are ordered by the millisecond, those of the two others by the
second.

* `write_lt_write_iff`: such texts are ordered like the fields that the layout keeps;
* `text_lt_text_iff`: the order of texts is the order of instants.
-/
import Mathlib.Data.Char
import Interchange.Proofs.DateText.Layouts
import Interchange.Proofs.Text.Bytes

namespace Interchange

open Calendar Decimal

namespace Instant

/-! ## 1. Texts of fixed width -/

/-- The layouts that write all fields as numbers, the year first; `gmt` begins with the name of a
weekday. -/
def Layout.Sortable : Layout → Prop
  | .gmt => False
  | .x509 | .sql | .stamp => True

def HasFourDigits (year : Int) : Prop := 0 ≤ year ∧ year ≤ 9999

instance (year : Int) : Decidable (HasFourDigits year) := inferInstanceAs (Decidable (_ ∧ _))

/-- **A year of four digits is ordered like its text**, and what follows decides within a year. -/
theorem yearText_append_lt_iff {year year' : Int} (hyear : HasFourDigits year)
    (hyear' : HasFourDigits year') (s s' : List Char) :
    yearText year ++ s < yearText year' ++ s' ↔ year < year' ∨ (year = year' ∧ s < s') := by
  obtain ⟨hlow, hhigh⟩ := hyear
  obtain ⟨hlow', hhigh'⟩ := hyear'
  have hten : powerOfTen 4 = 10000 := rfl
  have hlt : year.natAbs < year'.natAbs ↔ year < year' := by omega
  have heq : year.natAbs = year'.natAbs ↔ year = year' := by omega
  rw [yearText, yearText, if_neg (by omega), if_neg (by omega),
    padded_append_lt_iff (by decide) (by omega) (by omega), hlt, heq]

/-- **Numbers of two digits are ordered like their texts**, and what follows decides between equal
ones. -/
theorem padded_two_append_lt_iff {m n : Nat} (hm : m < 100) (hn : n < 100) (s s' : List Char) :
    padded 2 m ++ s < padded 2 n ++ s' ↔ m < n ∨ (m = n ∧ s < s') :=
  padded_append_lt_iff (by decide) hm hn s s'

theorem append_left_lt_iff (separator s s' : List Char) :
    separator ++ s < separator ++ s' ↔ s < s' := by
  have hirrefl : ¬separator < separator := List.lt_irrefl separator
  simp only [append_lt_append_iff rfl, hirrefl, true_and, false_or]

/-- **Dates are ordered like their texts**, and what follows decides within a day. -/
theorem dateText_append_lt_iff (separator : List Char) {d e : Date} (hd : d.Valid) (he : e.Valid)
    (hyear : HasFourDigits d.year) (hyear' : HasFourDigits e.year) (s s' : List Char) :
    dateText separator d ++ s < dateText separator e ++ s' ↔
      d.year < e.year ∨ (d.year = e.year ∧ (d.month < e.month ∨ (d.month = e.month ∧
        (d.day < e.day ∨ (d.day = e.day ∧ s < s'))))) := by
  have hmonth := hd.1
  have hmonth' := he.1
  simp only [dateText, List.append_assoc]
  rw [yearText_append_lt_iff hyear hyear', append_left_lt_iff,
    padded_two_append_lt_iff (by omega) (by omega), append_left_lt_iff,
    padded_two_append_lt_iff (DateText.day_lt hd) (DateText.day_lt he)]
  simp only [Nat.add_lt_add_iff_right, Nat.add_right_cancel_iff]

/-- **Clock times are ordered like their texts**, and what follows decides within a second. -/
theorem clockText_append_lt_iff (separator : List Char) {a b : Time} (ha : a.Valid) (hb : b.Valid)
    (s s' : List Char) :
    clockText separator a ++ s < clockText separator b ++ s' ↔
      a.hour < b.hour ∨ (a.hour = b.hour ∧ (a.minute < b.minute ∨ (a.minute = b.minute ∧
        (a.second < b.second ∨ (a.second = b.second ∧ s < s'))))) := by
  obtain ⟨hh, hm, hs, -⟩ := ha
  obtain ⟨hh', hm', hs', -⟩ := hb
  simp only [clockText, List.append_assoc]
  rw [padded_two_append_lt_iff (by omega) (by omega), append_left_lt_iff,
    padded_two_append_lt_iff (by omega) (by omega), append_left_lt_iff,
    padded_two_append_lt_iff (by omega) (by omega)]

/-! ## 2. The order of texts -/

/-- **Texts of fixed width are ordered like the fields that the layout keeps.**  The fields stand in
the text in the order in which they count, and each fills its width. -/
theorem write_lt_write_iff {layout : Layout} (hlayout : layout.Sortable) {t u : DateTime}
    (ht : t.Valid) (hu : u.Valid) (hyear : HasFourDigits t.date.year)
    (hyear' : HasFourDigits u.date.year) :
    layout.write t < layout.write u ↔ (layout.kept t).toMillis < (layout.kept u).toMillis := by
  have hms : t.time.millisecond < powerOfTen 3 := ht.2.2.2.2
  have hms' : u.time.millisecond < powerOfTen 3 := hu.2.2.2.2
  have hnil : ¬([] : List Char) < [] := List.not_lt_nil []
  have hnil' : ¬([] : List Int) < [] := List.not_lt_nil []
  -- the clock is followed by nothing, or by the millisecond, which is followed by nothing
  have hclock (separator : List Char) := clockText_append_lt_iff separator ht.2 hu.2 [] []
  have hmillis := padded_append_lt_iff (s := []) (t := []) (show 0 < 3 by decide) hms hms'
  simp only [List.append_nil, hnil, and_false, or_false] at hclock hmillis
  rw [DateTime.toMillis_lt_iff (layout.valid_kept ht).1 (layout.valid_kept hu).1]
  cases layout with
  | gmt => exact hlayout.elim
  | x509 =>
    rw [Layout.write, Layout.write, dateText_append_lt_iff [] ht.1 hu.1 hyear hyear', hclock]
    simp only [Layout.kept, DateTime.parts, List.cons_lt_cons_iff, Int.ofNat_lt, Int.natCast_inj,
      hnil', Int.lt_irrefl, and_false, or_false]
  | sql =>
    rw [Layout.write, Layout.write, List.append_assoc, List.append_assoc,
      dateText_append_lt_iff ['-'] ht.1 hu.1 hyear hyear', append_left_lt_iff, hclock]
    simp only [Layout.kept, DateTime.parts, List.cons_lt_cons_iff, Int.ofNat_lt, Int.natCast_inj,
      hnil', Int.lt_irrefl, and_false, or_false]
  | stamp =>
    rw [Layout.write, Layout.write, List.append_assoc, List.append_assoc,
      dateText_append_lt_iff [] ht.1 hu.1 hyear hyear',
      clockText_append_lt_iff [] ht.2 hu.2, hmillis]
    simp only [Layout.kept, DateTime.parts, List.cons_lt_cons_iff, Int.ofNat_lt, Int.natCast_inj,
      hnil', and_false, or_false]

/-- Such texts have one byte for each character. -/
theorem isPlain_write {layout : Layout} (hlayout : layout.Sortable) {t : DateTime}
    (hyear : HasFourDigits t.date.year) : Buffer.IsPlain (layout.write t) := by
  have hnumber (width n : Nat) : Buffer.IsPlain (padded width n) :=
    Buffer.isPlain_of_isDigit (isDigits_padded width n).2
  have hsigned : yearText t.date.year = padded 4 t.date.year.natAbs :=
    if_neg (Int.not_lt.mpr hyear.1)
  have hnil : Buffer.IsPlain [] := fun c hc => absurd hc List.not_mem_nil
  have hseparator (c : Char) (hc : 0 < c.toNat ∧ c.toNat < 0x80) : Buffer.IsPlain [c] :=
    Buffer.isPlain_cons.mpr ⟨hc, hnil⟩
  have hdash := hseparator '-' (by decide)
  have hblank := hseparator ' ' (by decide)
  have hcolon := hseparator ':' (by decide)
  cases layout with
  | gmt => exact hlayout.elim
  | x509 | sql | stamp =>
    simp only [Layout.write, dateText, clockText, hsigned, Buffer.isPlain_append, hnumber, hnil,
      hdash, hblank, hcolon, and_self]

/-- Texts of fixed width are the same exactly if the layout keeps the same of both. -/
theorem write_eq_write_iff {layout : Layout} (hlayout : layout.Sortable) {t u : DateTime}
    (ht : t.Valid) (hu : u.Valid) (hyear : HasFourDigits t.date.year)
    (hyear' : HasFourDigits u.date.year) :
    layout.write t = layout.write u ↔ (layout.kept t).toMillis = (layout.kept u).toMillis := by
  rw [← not_iff_not, ← ne_eq, ← ne_eq, ne_iff_lt_or_gt, ne_iff_lt_or_gt]
  exact or_congr (write_lt_write_iff hlayout ht hu hyear hyear')
    (write_lt_write_iff hlayout hu ht hyear' hyear)

/-! ## 3. The order of instants -/

/-- The instant has a date in a year of four digits.  A longer year, or one with a sign, compares by
its first characters and not by its value. -/
def InFourDigits (x : Instant) : Prop := ∃ t ∈ x.dateTime?, HasFourDigits t.date.year

/-- **Texts of one layout are ordered like their instants**, each counted in whole stretches of time
that the layout does not tell apart. -/
theorem text_order {layout : Layout} (hlayout : layout.Sortable) {x y : Instant} {a b : Int}
    (hx : x.millis.floor? = some a) (hy : y.millis.floor? = some b) (hxyear : x.InFourDigits)
    (hyyear : y.InFourDigits) :
    (Buffer.encode (x.text layout) < Buffer.encode (y.text layout) ↔
      a / layout.grain < b / layout.grain) ∧
    (x.text layout = y.text layout ↔ a / layout.grain = b / layout.grain) := by
  obtain ⟨t, ht, hyear⟩ := hxyear
  obtain ⟨u, hu, hyear'⟩ := hyyear
  have htext : x.text layout = layout.write t := by rw [text, ht]
  have htext' : y.text layout = layout.write u := by rw [text, hu]
  obtain ⟨-, rfl⟩ := (dateTime?_eq_some_iff hx).mp ht
  obtain ⟨-, rfl⟩ := (dateTime?_eq_some_iff hy).mp hu
  have hvalid := DateTime.valid_ofMillis a
  have hvalid' := DateTime.valid_ofMillis b
  rw [htext, htext', Buffer.encode_lt_encode_iff (isPlain_write hlayout hyear)
      (isPlain_write hlayout hyear'), write_lt_write_iff hlayout hvalid hvalid' hyear hyear',
    write_eq_write_iff hlayout hvalid hvalid' hyear hyear', layout.toMillis_kept hvalid,
    layout.toMillis_kept hvalid', DateTime.toMillis_ofMillis, DateTime.toMillis_ofMillis]
  cases layout <;> simp only [Layout.grain] <;> omega

/-- **In the years 0 to 9999 the order of texts, byte by byte, is the order of instants**: by the
millisecond in the layout `stamp`, and by the second in the layouts `sql` and `x509`.  Equal texts
are of the same millisecond or of the same second. -/
theorem text_lt_text_iff {x y : Instant} {a b : Int} (hx : x.millis.floor? = some a)
    (hy : y.millis.floor? = some b) (hxyear : x.InFourDigits) (hyyear : y.InFourDigits) :
    ((Buffer.encode (x.text .stamp) < Buffer.encode (y.text .stamp) ↔ a < b) ∧
      (x.text .stamp = y.text .stamp ↔ a = b)) ∧
    ∀ layout ∈ [Layout.sql, Layout.x509],
      (Buffer.encode (x.text layout) < Buffer.encode (y.text layout) ↔ a / 1000 < b / 1000) ∧
      (x.text layout = y.text layout ↔ a / 1000 = b / 1000) := by
  have horder (layout : Layout) (hlayout : layout.Sortable) :=
    text_order hlayout hx hy hxyear hyyear
  have hone : ∀ n : Int, n / Layout.stamp.grain = n := Int.ediv_one
  constructor
  · have hstamp := horder .stamp trivial
    rwa [hone, hone] at hstamp
  · intro layout hlayout
    rcases List.mem_pair.mp hlayout with rfl | rfl
    · exact horder .sql trivial
    · exact horder .x509 trivial

/-- Half a millisecond before the epoch, and the last second of the year 9999, in which only the
layout `stamp` tells two instants apart. -/
theorem text_lt_text_iff_before_epoch :
    let x : Instant := ⟨Double.ofRatio true 1 2⟩
    let y : Instant := ⟨Double.ofInt 253402300799000⟩
    let z : Instant := ⟨Double.ofInt 253402300799999⟩
    x.millis.floor? = some (-1) ∧ y.millis.floor? = some 253402300799000 ∧
      z.millis.floor? = some 253402300799999 ∧
      x.InFourDigits ∧ y.InFourDigits ∧ z.InFourDigits ∧
      x.text .stamp = "19691231235959999".toList ∧ y.text .sql = "9999-12-31 23:59:59".toList ∧
      Buffer.encode (x.text .stamp) < Buffer.encode (y.text .stamp) ∧
      Buffer.encode (x.text .x509) < Buffer.encode (y.text .x509) ∧
      Buffer.encode (y.text .stamp) < Buffer.encode (z.text .stamp) ∧
      y.text .sql = z.text .sql := by
  intro x y z
  have hx : x.millis.floor? = some (-1) := by decide +kernel
  have hy : y.millis.floor? = some 253402300799000 := by decide +kernel
  have hz : z.millis.floor? = some 253402300799999 := by decide +kernel
  have hxyear : x.InFourDigits :=
    ⟨⟨⟨1969, 11, 31⟩, ⟨23, 59, 59, 999⟩⟩, by decide +kernel, by decide⟩
  have hyyear : y.InFourDigits :=
    ⟨⟨⟨9999, 11, 31⟩, ⟨23, 59, 59, 0⟩⟩, by decide +kernel, by decide⟩
  have hzyear : z.InFourDigits :=
    ⟨⟨⟨9999, 11, 31⟩, ⟨23, 59, 59, 999⟩⟩, by decide +kernel, by decide⟩
  obtain ⟨⟨hstamp, -⟩, hseconds⟩ := text_lt_text_iff hx hy hxyear hyyear
  obtain ⟨⟨hstamp', -⟩, hseconds'⟩ := text_lt_text_iff hy hz hyyear hzyear
  exact ⟨hx, hy, hz, hxyear, hyyear, hzyear, by decide +kernel, by decide +kernel,
    hstamp.mpr (by decide), (hseconds .x509 (by decide)).1.mpr (by decide),
    hstamp'.mpr (by decide), (hseconds' .sql (by decide)).2.mpr (by decide)⟩

end Instant
end Interchange
