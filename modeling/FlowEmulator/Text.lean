import Mathlib.Data.List.TakeWhile
import Mathlib.Data.Nat.Digits.Defs

/-!
Text as bytes: hexadecimal, decimal and zero-padded decimal. Each format has a
reader that takes every written text back to what it was written from, so no
two values share a text.
-/
namespace FlowEmulator.Text

abbrev Bytes := List UInt8

/-- The bytes of an ASCII text. -/
def ascii (text : String) : Bytes := text.toList.map (fun c => c.toNat.toUInt8)

/-- The lower-case digit for a value below 16. -/
def hexDigit (n : Nat) : UInt8 := if n < 10 then (48+n).toUInt8 else (87+n).toUInt8

/-- Two lower-case digits for each byte, the high half first. -/
def hexEncode : Bytes → Bytes
  | [] => []
  | b :: rest => hexDigit (b.toNat / 16) :: hexDigit (b.toNat % 16) :: hexEncode rest

/-- The value of a digit in either case. -/
def fromHexChar (c : UInt8) : Option Nat :=
  if 48 ≤ c.toNat ∧ c.toNat ≤ 57 then some (c.toNat-48) else
  if 97 ≤ c.toNat ∧ c.toNat ≤ 102 then some (c.toNat-87) else
  if 65 ≤ c.toNat ∧ c.toNat ≤ 70 then some (c.toNat-55) else none

/-- The bytes of a hexadecimal text; none for an odd length or another character. -/
def hexDecode : Bytes → Option Bytes
  | [] => some []
  | high :: low :: rest =>
    match fromHexChar high, fromHexChar low with
    | some h, some l => (hexDecode rest).map ((16*h+l).toUInt8 :: ·)
    | _, _ => none
  | [_] => none

theorem fromHexChar_hexDigit {n : Nat} (small : n < 16) : fromHexChar (hexDigit n) = some n := by
  revert n
  decide

theorem hexDecode_hexEncode (bytes : Bytes) : hexDecode (hexEncode bytes) = some bytes := by
  induction bytes with
  | nil => rfl
  | cons b rest ih =>
    have bound := b.toNat_lt
    have high : fromHexChar (hexDigit (b.toNat / 16)) = some (b.toNat / 16) := fromHexChar_hexDigit (by omega)
    have low : fromHexChar (hexDigit (b.toNat % 16)) = some (b.toNat % 16) := fromHexChar_hexDigit (by omega)
    have whole : 16 * (b.toNat / 16) + b.toNat % 16 = b.toNat := by omega
    simp [hexEncode,hexDecode,high,low,ih,whole]

theorem hexEncode_injective : Function.Injective hexEncode := by
  intro left right same
  have read := hexDecode_hexEncode left
  rw [same,hexDecode_hexEncode] at read
  exact (Option.some.inj read).symm

theorem hexEncode_length (bytes : Bytes) : (hexEncode bytes).length = 2 * bytes.length := by
  induction bytes with
  | nil => rfl
  | cons b rest ih => simp only [hexEncode,List.length_cons,ih]; omega

/-- A written hexadecimal text holds digits only. -/
theorem hexEncode_digits {bytes : Bytes} {c : UInt8} (member : c ∈ hexEncode bytes) :
    (fromHexChar c).isSome := by
  induction bytes with
  | nil => simp [hexEncode] at member
  | cons b rest ih =>
    have bound := b.toNat_lt
    rcases List.mem_cons.mp member with same | later
    · rw [same,fromHexChar_hexDigit (by omega)]; rfl
    · rcases List.mem_cons.mp later with same | later
      · rw [same,fromHexChar_hexDigit (by omega)]; rfl
      · exact ih later

/-- The decimal text of a number, without leading zeros. -/
def decimal (n : Nat) : Bytes :=
  if n = 0 then [48] else (Nat.digits 10 n).reverse.map (fun d => (48+d).toUInt8)

/-- The decimal text filled up with leading zeros to a width; a longer text stays whole. -/
def paddedDecimal (width n : Nat) : Bytes :=
  List.replicate (width - (decimal n).length) 48 ++ decimal n

/-- The number a decimal text stands for, with or without leading zeros. -/
def decimalValue (text : Bytes) : Nat := Nat.ofDigits 10 (text.map (fun c => c.toNat-48)).reverse

theorem decimalValue_decimal (n : Nat) : decimalValue (decimal n) = n := by
  unfold decimal
  split
  · next zero => subst zero; rfl
  · have digit : ∀ d ∈ (Nat.digits 10 n).reverse, (48+d).toUInt8.toNat-48 = d := by
      intro d member
      have small : d < 10 := Nat.digits_lt_base (by decide) (List.mem_reverse.mp member)
      have fits : (48+d).toUInt8.toNat = 48+d := by simp; omega
      omega
    have digits : ((Nat.digits 10 n).reverse.map (fun d => (48+d).toUInt8)).map (fun c => c.toNat-48)
        = (Nat.digits 10 n).reverse := by
      rw [List.map_map]
      exact (List.map_congr_left digit).trans (List.map_id _)
    rw [decimalValue,digits,List.reverse_reverse,Nat.ofDigits_digits]

theorem decimalValue_paddedDecimal (width n : Nat) : decimalValue (paddedDecimal width n) = n := by
  have value := decimalValue_decimal n
  unfold decimalValue at value ⊢
  rw [paddedDecimal,List.map_append,List.reverse_append,Nat.ofDigits_append,List.map_replicate,
    List.reverse_replicate]
  rw [value]
  have zeros : ∀ k, Nat.ofDigits 10 (List.replicate k ((48 : UInt8).toNat-48)) = 0 :=
    fun k => Nat.ofDigits_replicate_zero
  rw [zeros]
  omega

theorem decimal_injective : Function.Injective decimal :=
  Function.LeftInverse.injective decimalValue_decimal

theorem paddedDecimal_injective (width : Nat) : Function.Injective (paddedDecimal width) :=
  Function.LeftInverse.injective (decimalValue_paddedDecimal width)

def isDigit (c : UInt8) : Bool := 48 ≤ c.toNat && c.toNat ≤ 57

/-- The unsigned 64-bit number at the front of a text, as `%d` scans it: the
    digits up to another character. There must be one, and the number must fit. -/
def scanUint64 (text : Bytes) : Option Nat :=
  let digits := text.takeWhile isDigit
  if digits = [] ∨ 2^64 ≤ decimalValue digits then none else some (decimalValue digits)

theorem decimal_digits {n : Nat} {c : UInt8} (member : c ∈ decimal n) : isDigit c = true := by
  unfold decimal at member
  split at member
  · rw [List.mem_singleton.mp member]
    rfl
  · obtain ⟨d,digit,rfl⟩ := List.mem_map.mp member
    have small : d < 10 := Nat.digits_lt_base (by decide) (List.mem_reverse.mp digit)
    have fits : (48+d).toUInt8.toNat = 48+d := by simp; omega
    unfold isDigit
    rw [fits]
    simp
    omega

theorem decimal_ne_nil (n : Nat) : decimal n ≠ [] := by
  unfold decimal
  split
  · exact List.cons_ne_nil _ _
  · next positive =>
    rw [Ne,List.map_eq_nil_iff,List.reverse_eq_nil_iff]
    exact Nat.digits_ne_nil_iff_ne_zero.mpr positive

/-- A number that fits is scanned back from its text. -/
theorem scanUint64_decimal {n : Nat} (fits : n < 2^64) : scanUint64 (decimal n) = some n := by
  have whole : (decimal n).takeWhile isDigit = decimal n :=
    List.takeWhile_eq_self_iff.mpr (fun c member => decimal_digits member)
  unfold scanUint64
  dsimp only
  rw [whole,decimalValue_decimal]
  exact if_neg (not_or.mpr ⟨decimal_ne_nil n,Nat.not_le.mpr fits⟩)

end FlowEmulator.Text
