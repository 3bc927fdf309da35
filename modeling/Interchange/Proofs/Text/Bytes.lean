/-
# Texts as bytes

A text is a run of bytes in UTF-8.  Where every character takes one byte, the bytes are the
characters' numbers: the text is found again from them, and texts compare like their bytes.

A text can be cut only between two of its characters, and places in it are counted in bytes.

* `map_char_encode`: a plain text is found again from its bytes;
* `encode_lt_encode_iff`: plain texts are ordered like their bytes;
* `splitAt?_eq_some_iff`: where a text can be cut, and what the cut gives;
* `splitAt?_of_isPlain`, `get?_of_isPlain`: a plain text can be cut everywhere.
-/
import Interchange.Proofs.Text.Runs

namespace Interchange
namespace Buffer

/-! ## 1. Bytes -/

def encode (text : List Char) : List UInt8 := text.flatMap String.utf8EncodeChar

/-- Every character takes one byte, which is not zero: such a text stands in a buffer as it is, and
a zero byte ends it. -/
def IsPlain (text : List Char) : Prop := ∀ c ∈ text, 0 < c.toNat ∧ c.toNat < 0x80

theorem encode_of_isPlain {text : List Char} (h : IsPlain text) :
    encode text = text.map fun c => UInt8.ofNat c.toNat := by
  induction text with
  | nil => rfl
  | cons c rest ih =>
    have hc : c.val.toNat ≤ 0x7F := Nat.le_of_lt_succ (h c List.mem_cons_self).2
    have hbyte : String.utf8EncodeChar c = [UInt8.ofNat c.toNat] := by
      rw [String.utf8EncodeChar, if_pos hc]
      rfl
    rw [encode, List.flatMap_cons, hbyte, List.map_cons, ← ih fun d hd => h d (.tail c hd)]
    rfl

theorem toNat_byte {c : Char} (h : c.toNat < 0x80) : (UInt8.ofNat c.toNat).toNat = c.toNat := by
  rw [UInt8.toNat_ofNat']
  omega

theorem ne_zero_of_mem_encode {text : List Char} (h : IsPlain text) {b : UInt8}
    (hb : b ∈ encode text) : (b != 0) = true := by
  rw [encode_of_isPlain h, List.mem_map] at hb
  obtain ⟨c, hc, rfl⟩ := hb
  rw [bne_iff_ne]
  intro hzero
  have hnat := congrArg UInt8.toNat hzero
  rw [toNat_byte (h c hc).2] at hnat
  exact absurd hnat (Nat.ne_of_gt (h c hc).1)

/-- A plain text is found again from its bytes, one character for each. -/
theorem map_char_encode {text : List Char} (h : IsPlain text) :
    (encode text).map (fun b => Char.ofNat b.toNat) = text := by
  rw [encode_of_isPlain h, List.map_map]
  refine (List.map_congr_left fun c hc => ?_).trans (List.map_id' text)
  rw [Function.comp_apply, toNat_byte (h c hc).2, Char.ofNat_toNat]

/-! ## 2. Plain texts -/

theorem isPlain_append {a b : List Char} : IsPlain (a ++ b) ↔ IsPlain a ∧ IsPlain b :=
  List.forall_mem_append

theorem isPlain_cons {c : Char} {rest : List Char} :
    IsPlain (c :: rest) ↔ (0 < c.toNat ∧ c.toNat < 0x80) ∧ IsPlain rest :=
  List.forall_mem_cons

theorem isPlain_of_isDigit {text : List Char} (h : ∀ c ∈ text, c.isDigit = true) :
    IsPlain text := by
  intro c hc
  have hrange := toNat_of_isDigit (h c hc)
  omega

theorem isPlain_of_isAlpha {text : List Char} (h : ∀ c ∈ text, c.isAlpha = true) :
    IsPlain text := by
  intro c hc
  have hrange := toNat_of_isAlpha (h c hc)
  omega

/-- **Plain texts are ordered like their bytes.** -/
theorem encode_lt_encode_iff {a b : List Char} (ha : IsPlain a) (hb : IsPlain b) :
    encode a < encode b ↔ a < b := by
  rw [encode_of_isPlain ha, encode_of_isPlain hb]
  induction a generalizing b with
  | nil =>
    cases b with
    | nil => simp
    | cons d b => simp
  | cons c a ih =>
    cases b with
    | nil => simp
    | cons d b =>
      obtain ⟨hc, ha⟩ := isPlain_cons.mp ha
      obtain ⟨hd, hb⟩ := isPlain_cons.mp hb
      have hlt : UInt8.ofNat c.toNat < UInt8.ofNat d.toNat ↔ c < d := by
        rw [UInt8.lt_iff_toNat_lt, toNat_byte hc.2, toNat_byte hd.2]
        rfl
      have heq : UInt8.ofNat c.toNat = UInt8.ofNat d.toNat ↔ c = d := by
        rw [← UInt8.toNat_inj, toNat_byte hc.2, toNat_byte hd.2, Char.toNat_inj]
      rw [List.map_cons, List.map_cons, List.cons_lt_cons_iff, List.cons_lt_cons_iff, hlt, heq,
        ih ha hb]

/-! ## 3. Places in a text -/

/-- The number of bytes of a text, which is what its length is where places are counted in bytes. -/
def byteLength (text : List Char) : Nat := (encode text).length

@[simp] theorem byteLength_nil : byteLength [] = 0 := rfl

@[simp] theorem byteLength_cons (c : Char) (rest : List Char) :
    byteLength (c :: rest) = c.utf8Size + byteLength rest := by
  rw [byteLength, encode, List.flatMap_cons, List.length_append, String.length_utf8EncodeChar]
  rfl

theorem byteLength_of_isPlain {text : List Char} (h : IsPlain text) :
    byteLength text = text.length := by
  rw [byteLength, encode_of_isPlain h, List.length_map]

/-- Cuts a text behind a number of bytes, if it has so many and no character is cut in two. -/
def splitAt? : Nat → List Char → Option (List Char × List Char)
  | 0, text => some ([], text)
  | _ + 1, [] => none
  | n + 1, c :: rest =>
    if c.utf8Size ≤ n + 1 then
      (splitAt? (n + 1 - c.utf8Size) rest).map fun cut => (c :: cut.1, cut.2)
    else none

@[simp] theorem splitAt?_zero (text : List Char) : splitAt? 0 text = some ([], text) := by
  cases text <;> rfl

theorem splitAt?_append (before after : List Char) :
    splitAt? (byteLength before) (before ++ after) = some (before, after) := by
  induction before with
  | nil => exact splitAt?_zero after
  | cons c rest ih =>
    obtain ⟨n, hn⟩ : ∃ n, byteLength (c :: rest) = n + 1 := by
      refine Nat.exists_eq_succ_of_ne_zero ?_
      have hpos : 0 < c.utf8Size := c.utf8Size_pos
      rw [byteLength_cons]
      omega
    have hrest : n + 1 - c.utf8Size = byteLength rest := by
      rw [← hn, byteLength_cons, Nat.add_sub_cancel_left]
    have hfits : c.utf8Size ≤ n + 1 := by
      rw [← hn, byteLength_cons]
      exact Nat.le_add_right _ _
    rw [hn, List.cons_append, splitAt?, if_pos hfits, hrest, ih]
    rfl

/-- **A text can be cut behind those numbers of bytes that a beginning of it has.** -/
theorem splitAt?_eq_some_iff {n : Nat} {text before after : List Char} :
    splitAt? n text = some (before, after) ↔ text = before ++ after ∧ byteLength before = n := by
  constructor
  · intro h
    fun_induction splitAt? n text generalizing before with
    | case1 text =>
      obtain ⟨rfl, rfl⟩ := Prod.mk.inj (Option.some.inj h)
      exact ⟨rfl, rfl⟩
    | case2 n => contradiction
    | case3 n c rest hfits ih =>
      obtain ⟨⟨before, after⟩, hcut, heq⟩ := Option.map_eq_some_iff.mp h
      obtain ⟨rfl, rfl⟩ := Prod.mk.inj heq
      obtain ⟨rfl, hlength⟩ := ih hcut
      refine ⟨rfl, ?_⟩
      rw [byteLength_cons, hlength]
      omega
    | case4 n c rest hfits => contradiction
  · rintro ⟨rfl, rfl⟩
    exact splitAt?_append before after

/-- **A plain text can be cut everywhere**, and nowhere beyond its end. -/
theorem splitAt?_of_isPlain {text : List Char} (h : IsPlain text) (n : Nat) :
    splitAt? n text = if n ≤ text.length then some (text.take n, text.drop n) else none := by
  split
  · next hn =>
    have hplain : IsPlain (text.take n) := fun c hc => h c (List.mem_of_mem_take hc)
    refine splitAt?_eq_some_iff.mpr ⟨(List.take_append_drop n text).symm, ?_⟩
    rw [byteLength_of_isPlain hplain, List.length_take, Nat.min_eq_left hn]
  · next hn =>
    rw [Option.eq_none_iff_forall_not_mem]
    rintro ⟨before, after⟩ hcut
    obtain ⟨rfl, rfl⟩ := splitAt?_eq_some_iff.mp hcut
    rw [byteLength_of_isPlain (isPlain_append.mp h).1, List.length_append] at hn
    omega

/-- The part of a text between two places, if it can be cut at both. -/
def get? (text : List Char) (start stop : Nat) : Option (List Char) :=
  if start ≤ stop then
    (splitAt? start text).bind fun cut => (splitAt? (stop - start) cut.2).map Prod.fst
  else none

/-- **A plain text has a part between any two places in it.** -/
theorem get?_of_isPlain {text : List Char} (h : IsPlain text) {start length : Nat} :
    get? text start (start + length) =
      if start + length ≤ text.length then some ((text.drop start).take length) else none := by
  have hplain : IsPlain (text.drop start) := fun c hc => h c (List.mem_of_mem_drop hc)
  rw [get?, if_pos (Nat.le_add_right start length), splitAt?_of_isPlain h,
    Nat.add_sub_cancel_left]
  by_cases hstart : start ≤ text.length
  · rw [if_pos hstart, Option.bind_some, splitAt?_of_isPlain hplain, List.length_drop]
    by_cases hstop : start + length ≤ text.length
    · rw [if_pos hstop, if_pos (by omega)]
      rfl
    · rw [if_neg hstop, if_neg (by omega)]
      rfl
  · rw [if_neg hstart, if_neg (by omega)]
    rfl

end Buffer
end Interchange
