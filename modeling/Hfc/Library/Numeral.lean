/-
Module: Hfc.Library.Numeral
Layer: Library
Purpose: Numerals in a text and the integers C makes of them: the digits at the head of a text,
  their value, `strtoul`, `strtol` and `atoi` with their leading blanks, sign, `0x` prefix and
  saturation, and the conversions to a 32-bit `int` and to a 64-bit `size_t`.
Imports: Hfc.Library.ByteText
Main exports: digitVal, digits, value, strtoul, strtol, atoi, toInt32, toSizeT, digits_append,
  strtoul_numeral, strtoul_digits, strtoul_of_no_digit, value_take_le, digits_take, toInt32_natCast,
  value_lt_pow, signedNumber, strtol_ten, atoi_digits, atoi_short
-/
import Hfc.Library.ByteText

namespace Numeral

open ByteText

/-- Value of an alphanumeric character as a digit, 36 for every other character. -/
def charVal (b : Byte) : Nat :=
  if 48 ≤ b.toNat ∧ b.toNat ≤ 57 then b.toNat - 48
  else if 97 ≤ b.toNat ∧ b.toNat ≤ 122 then b.toNat - 87
  else if 65 ≤ b.toNat ∧ b.toNat ≤ 90 then b.toNat - 55
  else 36

/-- Value of one digit in the given base. -/
def digitVal (base : Nat) (b : Byte) : Option Nat :=
  if charVal b < min base 36 then some (charVal b) else none

/-- The digits at the head of a text. -/
def digits (base : Nat) : Bytes → List Nat
  | [] => []
  | b :: text =>
      match digitVal base b with
      | some d => d :: digits base text
      | none => []

/-- The number a list of digits stands for, most significant digit first. -/
def value (base : Nat) (ds : List Nat) : Nat :=
  ds.foldl (fun acc d => acc * base + d) 0

/-- The characters `isspace` accepts in the C locale. -/
def isSpace (b : Byte) : Bool :=
  b.toNat = 32 || (9 ≤ b.toNat && b.toNat ≤ 13)

def ulongMax : Nat := 2 ^ 64 - 1

/-- Optional sign at the head of a text: whether it is a minus, and the text behind it. -/
def splitSign : Bytes → Bool × Bytes
  | b :: text =>
      if b = 45 then (true, text) else if b = 43 then (false, text) else (false, b :: text)
  | [] => (false, [])

/-- The text behind a `0x` prefix, which counts as one only when a hexadecimal digit follows it. -/
def dropHexPrefix (base : Nat) : Bytes → Bytes
  | z :: x :: d :: text =>
      if base = 16 ∧ z = 48 ∧ (x = 120 ∨ x = 88) ∧ (digitVal 16 d).isSome then d :: text
      else z :: x :: d :: text
  | text => text

/-- `strtoul` on a C string: blanks, a sign, the digits. A value that does not fit saturates, a
minus sign negates modulo `2 ^ 64`. -/
def strtoul (base : Nat) (text : Bytes) : Nat :=
  let signed := splitSign (text.dropWhile isSpace)
  let v := value base (digits base (dropHexPrefix base signed.2))
  if ulongMax < v then ulongMax
  else if signed.1 then (2 ^ 64 - v) % 2 ^ 64
  else v

def longMax : Int := 2 ^ 63 - 1
def longMin : Int := -2 ^ 63

/-- `strtol` on a C string in the given base; a value that does not fit saturates. -/
def strtol (base : Nat) (text : Bytes) : Int :=
  let signed := splitSign (text.dropWhile isSpace)
  let v : Int := value base (digits base (dropHexPrefix base signed.2))
  if signed.1 then max longMin (-v) else min v longMax

/-- Conversion to a 32-bit `int`, as the target does it. -/
def toInt32 (n : Int) : Int :=
  Int.bmod n (2 ^ 32)

/-- Conversion to a 64-bit `size_t`. -/
def toSizeT (n : Int) : Nat :=
  (n % 2 ^ 64).toNat

/-- `atoi`: the `long` of `strtol` in base ten as an `int`. -/
def atoi (text : Bytes) : Int :=
  toInt32 (strtol 10 text)

/-- A number that is an `int` is kept. -/
theorem toInt32_of_int {n : Int} (lower : -2 ^ 31 ≤ n) (upper : n < 2 ^ 31) : toInt32 n = n := by
  unfold toInt32
  rw [Int.bmod_eq_of_le] <;> omega

theorem toInt32_of_small {n : Nat} (small : n < 2 ^ 31) : toInt32 n = n :=
  toInt32_of_int (by omega) (by omega)

/-- The sum of two non-negative `int`s that is no `int` turns negative. -/
theorem toInt32_wraps {n : Int} (lower : 2 ^ 31 ≤ n) (upper : n < 2 ^ 32) : toInt32 n < 0 := by
  have equal : n = (n - 2 ^ 32) + (2 ^ 32 : Nat) * 1 := by omega
  unfold toInt32
  rw [equal, Int.add_mul_bmod_self_left, Int.bmod_eq_of_le] <;> omega

theorem toInt32_lt (n : Int) : toInt32 n < 2 ^ 31 := by
  have bound := @Int.bmod_lt n (2 ^ 32) (by decide)
  unfold toInt32
  omega

theorem toSizeT_natCast {n : Nat} (small : n < 2 ^ 64) : toSizeT n = n := by
  unfold toSizeT
  omega

theorem digitVal_isSome {base : Nat} {b : Byte} :
    (digitVal base b).isSome ↔ charVal b < min base 36 := by
  simp [digitVal]

/-- A digit is neither a blank nor a sign. -/
theorem not_space_of_digit {base : Nat} {b : Byte} (digit : (digitVal base b).isSome) :
    isSpace b = false ∧ b ≠ 45 ∧ b ≠ 43 := by
  have small : charVal b < 36 := by
    have bound := digitVal_isSome.mp digit
    omega
  have alphanumeric : 48 ≤ b.toNat := by
    unfold charVal at small
    split at small
    · omega
    · split at small
      · omega
      · split at small <;> omega
  refine ⟨?_, ?_, ?_⟩
  · simp only [isSpace, Bool.or_eq_false_iff, decide_eq_false_iff_not, Bool.and_eq_false_iff]
    omega
  · rintro rfl
    simp at alphanumeric
  · rintro rfl
    simp at alphanumeric

/-- Only the digits in front of a byte that is none are read. -/
theorem digits_append {base : Nat} {num rest : Bytes}
    (all : ∀ b ∈ num, (digitVal base b).isSome)
    (stops : ∀ b ∈ rest.head?, digitVal base b = none) :
    digits base (num ++ rest) = digits base num := by
  induction num with
  | nil =>
      cases rest with
      | nil => rfl
      | cons b rest =>
          have noDigit := stops b (by simp)
          simp [digits, noDigit]
  | cons b num ih =>
      obtain ⟨d, digit⟩ := Option.isSome_iff_exists.mp (all b (by simp))
      simp only [List.cons_append, digits, digit]
      rw [ih fun c member => all c (List.mem_cons_of_mem b member)]

/-- What stands behind a numeral does not start with a letter or a digit. -/
def EndsNumeral (rest : Bytes) : Prop :=
  ∀ b ∈ rest.head?, 36 ≤ charVal b

instance (rest : Bytes) : Decidable (EndsNumeral rest) :=
  inferInstanceAs (Decidable (∀ b ∈ rest.head?, 36 ≤ charVal b))

theorem EndsNumeral.digitVal_eq_none {rest : Bytes} (ends : EndsNumeral rest) (base : Nat) :
    ∀ b ∈ rest.head?, digitVal base b = none := by
  intro b member
  have big := ends b member
  simp only [digitVal, ite_eq_right_iff, reduceCtorEq, imp_false]
  omega

/-- Without an `x` behind a leading zero there is no prefix to drop. -/
theorem dropHexPrefix_eq_self {base : Nat} {text : Bytes}
    (bare : base = 16 → text.head? = some 48 → ∀ x ∈ text[1]?, x ≠ 120 ∧ x ≠ 88) :
    dropHexPrefix base text = text := by
  match text with
  | [] | [_] | [_, _] => rfl
  | z :: x :: d :: rest =>
      simp only [dropHexPrefix]
      split
      · rename_i prefixed
        have notX := bare prefixed.1 (by simp [prefixed.2.1]) x (by simp)
        rcases prefixed.2.2.1 with isX | isX
        · exact absurd isX notX.1
        · exact absurd isX notX.2
      · rfl

/-- A numeral carries no `0x` prefix. -/
theorem dropHexPrefix_numeral {base : Nat} {num rest : Bytes}
    (all : ∀ b ∈ num, (digitVal base b).isSome) (nonempty : num ≠ [])
    (ends : EndsNumeral rest) :
    dropHexPrefix base (num ++ rest) = num ++ rest := by
  apply dropHexPrefix_eq_self
  intro hex _ x second
  have notLetter : charVal x ≠ 33 := by
    match num, nonempty with
    | [_], _ =>
        have big := ends x (by simpa [List.head?_eq_getElem?] using second)
        omega
    | _ :: y :: _, _ =>
        have small := digitVal_isSome.mp (all y (by simp))
        have same : y = x := by simpa using second
        subst same
        omega
  constructor
  · rintro rfl
    exact notLetter (by decide)
  · rintro rfl
    exact notLetter (by decide)

/-- Blanks, then a numeral: `strtoul` gives its value, saturated. -/
theorem strtoul_numeral {base : Nat} {blanks num rest : Bytes}
    (spaces : ∀ b ∈ blanks, isSpace b = true)
    (all : ∀ b ∈ num, (digitVal base b).isSome) (nonempty : num ≠ [])
    (ends : EndsNumeral rest) :
    strtoul base (blanks ++ (num ++ rest)) = min (value base (digits base num)) ulongMax := by
  obtain ⟨d, tail, rfl⟩ := List.exists_cons_of_ne_nil nonempty
  obtain ⟨noSpace, noMinus, noPlus⟩ := not_space_of_digit (all d (by simp))
  have trimmed : (blanks ++ (d :: tail ++ rest)).dropWhile isSpace = d :: tail ++ rest := by
    rw [List.dropWhile_append_of_pos spaces]
    simp [noSpace]
  have unsigned : splitSign (d :: tail ++ rest) = (false, d :: tail ++ rest) := by
    simp [splitSign, noMinus, noPlus]
  have read : digits base (d :: tail ++ rest) = digits base (d :: tail) :=
    digits_append all (ends.digitVal_eq_none base)
  simp only [strtoul, trimmed, unsigned, dropHexPrefix_numeral all nonempty ends, read]
  split
  · omega
  · simp only [Bool.false_eq_true, if_false]
    omega

/-- Without blanks in front it does the same. -/
theorem strtoul_digits {base : Nat} {num rest : Bytes}
    (all : ∀ b ∈ num, (digitVal base b).isSome) (nonempty : num ≠ [])
    (ends : EndsNumeral rest) :
    strtoul base (num ++ rest) = min (value base (digits base num)) ulongMax := by
  have noBlanks : ∀ b ∈ ([] : Bytes), isSpace b = true := by simp
  have read := strtoul_numeral noBlanks all nonempty ends
  rwa [List.nil_append] at read

/-- No digit at the head of a text, no digits in it. -/
theorem digits_of_head {base : Nat} {text : Bytes}
    (noDigit : ∀ b ∈ text.head?, digitVal base b = none) : digits base text = [] :=
  digits_append (show ∀ b ∈ [], (digitVal base b).isSome by simp) noDigit

/-- A text without any digit of the base has the value zero. -/
theorem strtoul_of_no_digit {base : Nat} {text : Bytes}
    (noDigit : ∀ b ∈ text, digitVal base b = none) : strtoul base text = 0 := by
  have trimmed : ∀ b ∈ text.dropWhile isSpace, digitVal base b = none :=
    fun b member => noDigit b (List.dropWhile_subset _ member)
  have behindSign : ∀ b ∈ (splitSign (text.dropWhile isSpace)).2, digitVal base b = none := by
    intro b member
    apply trimmed b
    unfold splitSign at member
    split at member
    · rename_i c rest equal
      rw [equal]
      split at member
      · exact List.mem_cons_of_mem c member
      · split at member
        · exact List.mem_cons_of_mem c member
        · exact member
    · simp at member
  have noPrefix : dropHexPrefix base (splitSign (text.dropWhile isSpace)).2 =
      (splitSign (text.dropWhile isSpace)).2 := by
    apply dropHexPrefix_eq_self
    rintro rfl zero
    have zeroDigit := behindSign 48 (List.mem_of_mem_head? zero)
    exact absurd zeroDigit (by decide)
  have noDigits : digits base (splitSign (text.dropWhile isSpace)).2 = [] :=
    digits_of_head fun b member => behindSign b (List.mem_of_mem_head? member)
  simp [strtoul, noPrefix, noDigits, value, ulongMax]

/-- The value of a numeral that starts from an accumulated value. -/
theorem foldl_eq_zero {base : Nat} (positive : 0 < base) {acc : Nat} {ds : List Nat}
    (zero : ds.foldl (fun acc d => acc * base + d) acc = 0) : acc = 0 ∧ ∀ d ∈ ds, d = 0 := by
  induction ds generalizing acc with
  | nil => exact ⟨zero, by simp⟩
  | cons d ds ih =>
      obtain ⟨head, tail⟩ := ih zero
      obtain ⟨accZero, dZero⟩ := Nat.add_eq_zero_iff.mp head
      have accZero := (Nat.mul_eq_zero.mp accZero).resolve_right positive.ne'
      refine ⟨accZero, ?_⟩
      intro e member
      rcases List.mem_cons.mp member with rfl | later
      · exact dZero
      · exact tail e later

/-- Only zeros stand for zero. -/
theorem digits_eq_zero_of_value {base : Nat} (positive : 0 < base) {ds : List Nat}
    (zero : value base ds = 0) : ∀ d ∈ ds, d = 0 :=
  (foldl_eq_zero positive zero).2

/-- Every character of a numeral is one of its digits. -/
theorem mem_digits {base : Nat} {num : Bytes} (all : ∀ b ∈ num, (digitVal base b).isSome)
    {b : Byte} (member : b ∈ num) {d : Nat} (digit : digitVal base b = some d) :
    d ∈ digits base num := by
  induction num with
  | nil => simp at member
  | cons c num ih =>
      obtain ⟨e, first⟩ := Option.isSome_iff_exists.mp (all c (by simp))
      simp only [digits, first]
      rcases List.mem_cons.mp member with rfl | later
      · rw [first] at digit
        cases digit
        simp
      · exact List.mem_cons_of_mem e (ih (fun x h => all x (List.mem_cons_of_mem c h)) later)

/-- Every digit of a text is one of its characters. -/
theorem exists_of_mem_digits {base : Nat} {text : Bytes} {d : Nat} (member : d ∈ digits base text) :
    ∃ b ∈ text, digitVal base b = some d := by
  induction text with
  | nil => simp [digits] at member
  | cons c text ih =>
      simp only [digits] at member
      split at member
      · rename_i e first
        rcases List.mem_cons.mp member with rfl | later
        · exact ⟨c, by simp, first⟩
        · obtain ⟨b, inText, digit⟩ := ih later
          exact ⟨b, List.mem_cons_of_mem c inText, digit⟩
      · simp at member

/-- Digits that are all zero stand for zero. -/
theorem value_eq_zero {base : Nat} {ds : List Nat} (zeros : ∀ d ∈ ds, d = 0) :
    value base ds = 0 := by
  have same : ds = List.replicate ds.length 0 := List.eq_replicate_iff.mpr ⟨rfl, zeros⟩
  rw [same]
  generalize ds.length = n
  induction n with
  | zero => rfl
  | succ n ih => simpa [value, List.replicate_succ] using ih

theorem value_append (base : Nat) (front back : List Nat) :
    value base (front ++ back) = value base front * base ^ back.length + value base back := by
  have shift : ∀ acc : Nat, back.foldl (fun acc d => acc * base + d) acc =
      acc * base ^ back.length + value base back := by
    induction back with
    | nil => simp [value]
    | cons d back ih =>
        intro acc
        have first : value base (d :: back) = (0 * base + d) * base ^ back.length +
          value base back := ih _
        rw [List.foldl_cons, ih, first, List.length_cons, Nat.pow_succ', Nat.add_mul, Nat.zero_mul,
          Nat.zero_add, Nat.mul_assoc, Nat.add_assoc]
  have split : value base (front ++ back) =
      back.foldl (fun acc d => acc * base + d) (value base front) := List.foldl_append
  rw [split, shift]

/-- Digits that are left out at the end make a number no larger. -/
theorem value_take_le {base : Nat} (positive : 0 < base) (ds : List Nat) (n : Nat) :
    value base (ds.take n) ≤ value base ds := by
  have whole := value_append base (ds.take n) (ds.drop n)
  rw [List.take_append_drop] at whole
  have scale := Nat.le_mul_of_pos_right (value base (ds.take n))
    (Nat.pow_pos (n := (ds.drop n).length) positive)
  omega

/-- The digits of a numeral, one for each of its characters. -/
theorem digits_take {base : Nat} {num : Bytes} (all : ∀ b ∈ num, (digitVal base b).isSome)
    (n : Nat) : digits base (num.take n) = (digits base num).take n := by
  induction num generalizing n with
  | nil => simp [digits]
  | cons b num ih =>
      obtain ⟨d, digit⟩ := Option.isSome_iff_exists.mp (all b (by simp))
      cases n with
      | zero => rfl
      | succ n =>
          simp only [List.take_succ_cons, digits, digit]
          rw [ih fun c member => all c (List.mem_cons_of_mem b member)]

/-- An `int` is what is left of a number modulo `2 ^ 32`, negative from `2 ^ 31` on. -/
theorem toInt32_natCast (n : Nat) :
    toInt32 n =
      if n % 2 ^ 32 < 2 ^ 31 then ((n % 2 ^ 32 : Nat) : Int)
      else ((n % 2 ^ 32 : Nat) : Int) - 2 ^ 32 := by
  unfold toInt32
  rw [Int.bmod_def]
  split <;> split <;> omega

/-- A number that `strtoul` saturates and an `int` holds is kept only when it is small. -/
theorem toInt32_min_eq_self {n : Nat} : toInt32 (min n ulongMax : Nat) = n ↔ n < 2 ^ 31 := by
  constructor
  · intro kept
    have bound := toInt32_lt (min n ulongMax : Nat)
    omega
  · intro small
    rw [Nat.min_eq_left (by unfold ulongMax; omega), toInt32_of_small small]

/-- A digit is smaller than the base. -/
theorem lt_of_mem_digits {base : Nat} {text : Bytes} {d : Nat} (member : d ∈ digits base text) :
    d < base := by
  obtain ⟨b, -, digit⟩ := exists_of_mem_digits member
  unfold digitVal at digit
  split at digit
  · cases digit
    omega
  · simp at digit

theorem length_digits_le (base : Nat) (text : Bytes) :
    (digits base text).length ≤ text.length := by
  induction text with
  | nil => exact le_rfl
  | cons b text ih =>
      unfold digits
      split
      · simpa using ih
      · exact Nat.zero_le _

/-- A text with as many digits as characters has nothing else. -/
theorem all_digits_of_length {base : Nat} {text : Bytes}
    (whole : (digits base text).length = text.length) :
    ∀ b ∈ text, (digitVal base b).isSome := by
  induction text with
  | nil => simp
  | cons c text ih =>
      intro b member
      unfold digits at whole
      split at whole
      · rename_i d digit
        rcases List.mem_cons.mp member with rfl | later
        · simp [digit]
        · exact ih (by simpa using whole) b later
      · simp at whole

/-- A number of so many digits is smaller than that power of the base. -/
theorem value_lt_pow {base : Nat} {ds : List Nat} (small : ∀ d ∈ ds, d < base) :
    value base ds < base ^ ds.length := by
  induction ds using List.reverseRecOn with
  | nil => simp [value]
  | append_singleton ds d ih =>
      have front := ih fun e member => small e (List.mem_append_left [d] member)
      have last := small d (by simp)
      have scaled : (value base ds + 1) * base ≤ base ^ ds.length * base :=
        Nat.mul_le_mul_right base front
      rw [Nat.add_mul, Nat.one_mul] at scaled
      have digit : value base [d] = d := by simp [value]
      rw [value_append, List.length_append, List.length_singleton, Nat.pow_one, Nat.pow_succ, digit]
      omega

/-- What `atoi` reads: whether there is a minus, and the number behind blanks and sign. -/
def signedNumber (text : Bytes) : Bool × Nat :=
  let signed := splitSign (text.dropWhile isSpace)
  (signed.1, value 10 (digits 10 signed.2))

/-- `strtol` in base ten is that number with its sign, saturated. -/
theorem strtol_ten (text : Bytes) :
    strtol 10 text =
      if (signedNumber text).1 then max longMin (-((signedNumber text).2 : Int))
      else min ((signedNumber text).2 : Int) longMax := by
  have noPrefix : ∀ t : Bytes, dropHexPrefix 10 t = t :=
    fun t => dropHexPrefix_eq_self fun hex => absurd hex (by decide)
  simp only [strtol, noPrefix]
  rfl

/-- A text of digits is read as the number it is. -/
theorem signedNumber_digits {num : Bytes} (nonempty : num ≠ [])
    (all : ∀ b ∈ num, (digitVal 10 b).isSome) :
    signedNumber num = (false, value 10 (digits 10 num)) := by
  obtain ⟨b, rest, rfl⟩ := List.exists_cons_of_ne_nil nonempty
  obtain ⟨noSpace, noMinus, noPlus⟩ := not_space_of_digit (all b List.mem_cons_self)
  simp [signedNumber, splitSign, noSpace, noMinus, noPlus]

/-- A number that fits an `int` is what `atoi` makes of its digits. -/
theorem atoi_digits {num : Bytes} (nonempty : num ≠ [])
    (all : ∀ b ∈ num, (digitVal 10 b).isSome) (small : value 10 (digits 10 num) < 2 ^ 31) :
    atoi num = value 10 (digits 10 num) := by
  rw [atoi, strtol_ten, signedNumber_digits nonempty all, if_neg Bool.false_ne_true,
    min_eq_left (by unfold longMax; omega), toInt32_of_small small]

/-- A number that `atoi` reads from a text this short fits an `int`. -/
theorem atoi_short {text : Bytes} (short : text.length ≤ 9) :
    atoi text =
      if (signedNumber text).1 then -((signedNumber text).2 : Int) else (signedNumber text).2 := by
  have behindSign : ∀ t : Bytes, (splitSign t).2.length ≤ t.length := by
    intro t
    cases t with
    | nil => exact le_rfl
    | cons b t =>
        simp only [splitSign]
        split
        · exact t.length.le_succ
        · split
          · exact t.length.le_succ
          · exact le_rfl
  have few : (digits 10 (splitSign (text.dropWhile isSpace)).2).length ≤ 9 :=
    (((length_digits_le 10 _).trans (behindSign _)).trans
      (List.dropWhile_suffix _).length_le).trans short
  have small : (signedNumber text).2 < 10 ^ 9 :=
    (value_lt_pow fun d member => lt_of_mem_digits member).trans_le
      (Nat.pow_le_pow_right (by decide) few)
  rw [atoi, strtol_ten]
  unfold longMin longMax
  split
  · rw [max_eq_right (by omega), toInt32_of_int (by omega) (by omega)]
  · rw [min_eq_left (by omega), toInt32_of_int (by omega) (by omega)]

end Numeral
