import Mathlib.Data.List.Basic

/-! Text as UTF-16 code units, as scalar values and as UTF-8 bytes. What is ill-formed is
replaced, and a decoder drops the byte order mark before a text. -/

namespace TextCodec

def REPLACEMENT : Nat := 0xFFFD
def BYTE_ORDER_MARK : Nat := 0xFEFF

def isHigh (unit : UInt16) : Bool := 0xD800 ≤ unit.toNat && unit.toNat ≤ 0xDBFF
def isLow (unit : UInt16) : Bool := 0xDC00 ≤ unit.toNat && unit.toNat ≤ 0xDFFF
def isSurrogate (unit : UInt16) : Bool := 0xD800 ≤ unit.toNat && unit.toNat ≤ 0xDFFF

def paired (high low : UInt16) : Nat := 0x10000 + (high.toNat - 0xD800) * 0x400 + (low.toNat - 0xDC00)

/-- The scalar values of a text; a lone surrogate is replaced. -/
def scalars : List UInt16 → List Nat
  | [] => []
  | [unit] => [if isSurrogate unit then REPLACEMENT else unit.toNat]
  | unit :: next :: rest =>
    if isHigh unit && isLow next then paired unit next :: scalars rest
    else (if isSurrogate unit then REPLACEMENT else unit.toNat) :: scalars (next :: rest)

/-- Every surrogate of the text is in a pair. -/
def isWellFormed : List UInt16 → Bool
  | [] => true
  | [unit] => !isSurrogate unit
  | unit :: next :: rest =>
    if isHigh unit && isLow next then isWellFormed rest else !isSurrogate unit && isWellFormed (next :: rest)

/-- The code units of a scalar value. -/
def units (scalar : Nat) : List UInt16 :=
  if scalar < 0x10000 then [UInt16.ofNat scalar]
  else [UInt16.ofNat (0xD800 + (scalar - 0x10000) / 0x400), UInt16.ofNat (0xDC00 + (scalar - 0x10000) % 0x400)]

/-- The UTF-8 bytes of a scalar value. -/
def utf8 (scalar : Nat) : List UInt8 :=
  if scalar < 0x80 then [UInt8.ofNat scalar]
  else if scalar < 0x800 then [UInt8.ofNat (0xC0 + scalar / 0x40), UInt8.ofNat (0x80 + scalar % 0x40)]
  else if scalar < 0x10000 then
    [UInt8.ofNat (0xE0 + scalar / 0x1000), UInt8.ofNat (0x80 + scalar / 0x40 % 0x40),
      UInt8.ofNat (0x80 + scalar % 0x40)]
  else
    [UInt8.ofNat (0xF0 + scalar / 0x40000), UInt8.ofNat (0x80 + scalar / 0x1000 % 0x40),
      UInt8.ofNat (0x80 + scalar / 0x40 % 0x40), UInt8.ofNat (0x80 + scalar % 0x40)]

def encode (text : List UInt16) : List UInt8 := (scalars text).flatMap utf8

/-- Where a decoder stands: the bytes that the scalar value still needs, the least and the
greatest that the next one may be, and the value so far. -/
structure Decoder where
  needed : Nat := 0
  lower : Nat := 0x80
  upper : Nat := 0xBF
  value : Nat := 0

/-- A byte between two scalar values. -/
def first (byte : Nat) : List Nat × Decoder :=
  if byte ≤ 0x7F then ([byte], {})
  else if 0xC2 ≤ byte ∧ byte ≤ 0xDF then ([], { needed := 1, value := byte - 0xC0 })
  else if 0xE0 ≤ byte ∧ byte ≤ 0xEF then
    ([], { needed := 2, lower := if byte = 0xE0 then 0xA0 else 0x80, upper := if byte = 0xED then 0x9F else 0xBF
           value := byte - 0xE0 })
  else if 0xF0 ≤ byte ∧ byte ≤ 0xF4 then
    ([], { needed := 3, lower := if byte = 0xF0 then 0x90 else 0x80, upper := if byte = 0xF4 then 0x8F else 0xBF
           value := byte - 0xF0 })
  else ([REPLACEMENT], {})

def step (decoder : Decoder) (byte : Nat) : List Nat × Decoder :=
  if decoder.needed = 0 then first byte
  else if byte < decoder.lower ∨ decoder.upper < byte then
    -- the byte that does not continue the value starts over
    let (output, next) := first byte
    (REPLACEMENT :: output, next)
  else
    let value := decoder.value * 0x40 + (byte - 0x80)
    if decoder.needed = 1 then ([value], {}) else ([], { needed := decoder.needed - 1, value })

/-- The scalar values of some bytes. -/
def run : Decoder → List UInt8 → List Nat
  | decoder, [] => if decoder.needed = 0 then [] else [REPLACEMENT]
  | decoder, byte :: bytes =>
    let (output, next) := step decoder byte.toNat
    output ++ run next bytes

def dropMark : List Nat → List Nat
  | [] => []
  | scalar :: scalars => if scalar = BYTE_ORDER_MARK then scalars else scalar :: scalars

def decode (bytes : List UInt8) : List UInt16 := (dropMark (run {} bytes)).flatMap units

/-- What UTF-8 can carry. -/
def Scalar (scalar : Nat) : Prop := scalar < 0xD800 ∨ 0xE000 ≤ scalar ∧ scalar < 0x110000

variable {text : List UInt16} {unit high low : UInt16} {scalar : Nat}

theorem isSurrogate_iff : isSurrogate unit = true ↔ 0xD800 ≤ unit.toNat ∧ unit.toNat ≤ 0xDFFF := by
  simp only [isSurrogate, Bool.and_eq_true, decide_eq_true_eq]

theorem pair_iff : (isHigh high && isLow low) = true ↔
    (0xD800 ≤ high.toNat ∧ high.toNat ≤ 0xDBFF) ∧ 0xDC00 ≤ low.toNat ∧ low.toNat ≤ 0xDFFF := by
  simp only [isHigh, isLow, Bool.and_eq_true, decide_eq_true_eq]

/-- The units of a pair are read back from its scalar value. -/
theorem units_paired (pair : (isHigh high && isLow low) = true) : units (paired high low) = [high, low] := by
  obtain ⟨⟨highLeast, highMost⟩, lowLeast, lowMost⟩ := pair_iff.mp pair
  have large : ¬ paired high low < 0x10000 := by
    unfold paired
    omega
  have highs : 0xD800 + (paired high low - 0x10000) / 0x400 = high.toNat := by
    unfold paired
    omega
  have lows : 0xDC00 + (paired high low - 0x10000) % 0x400 = low.toNat := by
    unfold paired
    omega
  rw [units, if_neg large, highs, lows, UInt16.ofNat_toNat, UInt16.ofNat_toNat]

theorem units_single : units unit.toNat = [unit] := by
  rw [units, if_pos unit.toNat_lt, UInt16.ofNat_toNat]

theorem scalars_cons : ∃ scalar rest, scalars (unit :: text) = scalar :: rest := by
  cases text with
  | nil => exact ⟨_, _, rfl⟩
  | cons next text =>
    rw [scalars]
    split <;> exact ⟨_, _, rfl⟩

theorem scalars_single (single : isSurrogate unit = false) :
    ∃ rest, scalars (unit :: text) = unit.toNat :: rest := by
  cases text with
  | nil => exact ⟨[], by rw [scalars, single]; rfl⟩
  | cons next text =>
    have unpaired : ¬ (isHigh unit && isLow next) = true := fun pair => by
      have bounds := (pair_iff.mp pair).1
      rw [Bool.eq_false_iff] at single
      exact single (isSurrogate_iff.mpr ⟨bounds.1, by omega⟩)
    exact ⟨_, by rw [scalars, if_neg unpaired, single]; rfl⟩

/-- A text has as many units as its scalar values. -/
theorem units_scalars_length : ((scalars text).flatMap units).length = text.length := by
  have alone (unit : UInt16) : (units (if isSurrogate unit then REPLACEMENT else unit.toNat)).length = 1 := by
    split
    · rfl
    · rw [units_single, List.length_singleton]
  fun_induction scalars text with
  | case1 => rfl
  | case2 unit => rw [List.flatMap_singleton, alone, List.length_singleton]
  | case3 unit next rest pair ih =>
    rw [List.flatMap_cons, List.length_append, ih, units_paired pair]
    simp only [List.length_cons, List.length_nil]
    omega
  | case4 unit next rest pair ih =>
    rw [List.flatMap_cons, List.length_append, ih, alone]
    simp only [List.length_cons]
    omega

/-- A text is read back from its scalar values exactly where it is well-formed. -/
theorem units_scalars_iff : (scalars text).flatMap units = text ↔ isWellFormed text = true := by
  have alone (unit : UInt16) : units (if isSurrogate unit then REPLACEMENT else unit.toNat) = [unit] ↔
      isSurrogate unit = false := by
    cases surrogate : isSurrogate unit with
    | true =>
      obtain ⟨least, most⟩ := isSurrogate_iff.mp surrogate
      refine ⟨fun same => ?_, nofun⟩
      have value := congrArg UInt16.toNat (List.cons.inj same).1
      have replaced : (UInt16.ofNat REPLACEMENT).toNat = 0xFFFD := rfl
      rw [if_pos rfl, replaced] at value
      omega
    | false => exact ⟨fun _ => rfl, fun _ => units_single⟩
  fun_induction scalars text with
  | case1 => exact ⟨fun _ => rfl, fun _ => rfl⟩
  | case2 unit =>
    rw [List.flatMap_singleton, alone, isWellFormed, Bool.not_eq_true']
  | case3 unit next rest pair ih =>
    rw [List.flatMap_cons, units_paired pair, isWellFormed, if_pos pair]
    exact Iff.trans ⟨fun same => (List.cons.inj (List.cons.inj same).2).2, congrArg (unit :: next :: ·)⟩ ih
  | case4 unit next rest pair ih =>
    rw [List.flatMap_cons, isWellFormed, if_neg pair, Bool.and_eq_true, Bool.not_eq_true']
    refine Iff.trans ?_ (and_congr (alone unit) ih)
    constructor
    · intro same
      have one : (units (if isSurrogate unit then REPLACEMENT else unit.toNat)).length = [unit].length := by
        split
        · rfl
        · rw [units_single]
      exact List.append_inj same one
    · rintro ⟨head, tail⟩
      rw [head, tail]
      rfl

theorem scalars_valid : ∀ scalar ∈ scalars text, Scalar scalar := by
  have alone (unit : UInt16) : Scalar (if isSurrogate unit then REPLACEMENT else unit.toNat) := by
    have small := unit.toNat_lt
    split
    · exact .inr ⟨by decide, by decide⟩
    · rename_i single
      rw [isSurrogate_iff] at single
      unfold Scalar
      omega
  fun_induction scalars text with
  | case1 => exact nofun
  | case2 unit => exact fun scalar member => List.mem_singleton.mp member ▸ alone unit
  | case3 unit next rest pair ih =>
    refine List.forall_mem_cons.mpr ⟨?_, ih⟩
    obtain ⟨⟨highLeast, highMost⟩, lowLeast, lowMost⟩ := pair_iff.mp pair
    unfold Scalar paired
    omega
  | case4 unit next rest pair ih => exact List.forall_mem_cons.mpr ⟨alone unit, ih⟩

section Utf8
variable {rest : List UInt8}

theorem ofNat_toNat {value : Nat} (small : value < 256) : (UInt8.ofNat value).toNat = value := by
  rw [UInt8.toNat_ofNat', Nat.mod_eq_of_lt small]

/-- A byte that continues a value which needs more. -/
theorem run_continue {decoder : Decoder} {byte : Nat} (small : byte < 256) (more : 1 < decoder.needed)
    (inside : decoder.lower ≤ byte ∧ byte ≤ decoder.upper) :
    run decoder (UInt8.ofNat byte :: rest) =
      run { needed := decoder.needed - 1, value := decoder.value * 0x40 + (byte - 0x80) } rest := by
  rw [run, ofNat_toNat small, step, if_neg (by omega), if_neg (by omega), if_neg (by omega)]
  rfl

/-- The last byte of a value. -/
theorem run_last {decoder : Decoder} {byte value : Nat} (small : byte < 256) (last : decoder.needed = 1)
    (inside : decoder.lower ≤ byte ∧ byte ≤ decoder.upper)
    (total : decoder.value * 0x40 + (byte - 0x80) = value) :
    run decoder (UInt8.ofNat byte :: rest) = value :: run {} rest := by
  rw [run, ofNat_toNat small, step, if_neg (by omega), if_neg (by omega), if_pos last, total]
  rfl

theorem run_first {byte : Nat} (small : byte < 256) {decoder : Decoder} (starts : first byte = ([], decoder)) :
    run {} (UInt8.ofNat byte :: rest) = run decoder rest := by
  rw [run, ofNat_toNat small, step, if_pos rfl, starts]
  rfl

/-- The bytes of a scalar value are read as that value. -/
theorem run_utf8 (valid : Scalar scalar) : run {} (utf8 scalar ++ rest) = scalar :: run {} rest := by
  unfold Scalar at valid
  unfold utf8
  split
  · rename_i ascii
    rw [List.singleton_append, run, ofNat_toNat (by omega), step, if_pos rfl, first, if_pos (by omega)]
    rfl
  split
  · have starts : first (0xC0 + scalar / 0x40) = ([], { needed := 1, value := scalar / 0x40 }) := by
      rw [first, if_neg (by omega), if_pos (by omega), Nat.add_sub_cancel_left]
    rw [List.cons_append, List.singleton_append, run_first (by omega) starts]
    exact run_last (by omega) rfl (by simp only; omega) (by simp only; omega)
  split
  · have starts : first (0xE0 + scalar / 0x1000) =
        ([], { needed := 2, lower := if 0xE0 + scalar / 0x1000 = 0xE0 then 0xA0 else 0x80
               upper := if 0xE0 + scalar / 0x1000 = 0xED then 0x9F else 0xBF, value := scalar / 0x1000 }) := by
      rw [first, if_neg (by omega), if_neg (by omega), if_pos (by omega), Nat.add_sub_cancel_left]
    rw [List.cons_append, List.cons_append, List.singleton_append, run_first (by omega) starts,
      run_continue (by omega) (Nat.lt_add_left_iff_pos.mpr (by decide)) (by simp only; split <;> split <;> omega)]
    exact run_last (by omega) rfl (by simp only; omega) (by simp only; omega)
  · have starts : first (0xF0 + scalar / 0x40000) =
        ([], { needed := 3, lower := if 0xF0 + scalar / 0x40000 = 0xF0 then 0x90 else 0x80
               upper := if 0xF0 + scalar / 0x40000 = 0xF4 then 0x8F else 0xBF, value := scalar / 0x40000 }) := by
      rw [first, if_neg (by omega), if_neg (by omega), if_neg (by omega), if_pos (by omega),
        Nat.add_sub_cancel_left]
    rw [List.cons_append, List.cons_append, List.cons_append, List.singleton_append, run_first (by omega) starts,
      run_continue (by omega) (Nat.lt_add_left_iff_pos.mpr (by decide)) (by simp only; split <;> split <;> omega),
      run_continue (by omega) (Nat.lt_succ_self 1) (by simp only; omega)]
    exact run_last (by omega) rfl (by simp only; omega) (by simp only; omega)

theorem run_flatMap {values : List Nat} (valid : ∀ scalar ∈ values, Scalar scalar) :
    run {} (values.flatMap utf8) = values := by
  induction values with
  | nil => rfl
  | cons scalar values ih =>
    rw [List.flatMap_cons, run_utf8 (valid scalar (List.mem_cons_self ..)),
      ih fun other member => valid other (List.mem_cons_of_mem _ member)]

theorem utf8_length : 1 ≤ (utf8 scalar).length ∧ (utf8 scalar).length ≤ 3 * (units scalar).length := by
  have some_ : 1 ≤ (units scalar).length := by
    unfold units
    split <;> simp only [List.length_cons, List.length_nil] <;> omega
  unfold utf8
  split
  · simp only [List.length_cons, List.length_nil]
    omega
  split
  · simp only [List.length_cons, List.length_nil]
    omega
  split
  · simp only [List.length_cons, List.length_nil]
    omega
  · rename_i large
    rw [units, if_neg large]
    simp only [List.length_cons, List.length_nil]
    omega

/-- A text takes up to three bytes for each of its units. -/
theorem encode_length : (encode text).length ≤ 3 * text.length := by
  rw [← @units_scalars_length text, encode]
  induction scalars text with
  | nil => exact Nat.le_refl 0
  | cons scalar values ih =>
    have here := (@utf8_length scalar).2
    rw [List.flatMap_cons, List.flatMap_cons, List.length_append, List.length_append]
    omega

theorem encode_eq_nil : encode text = [] ↔ text = [] := by
  cases text with
  | nil => exact ⟨fun _ => rfl, fun _ => rfl⟩
  | cons unit text =>
    obtain ⟨scalar, values, same⟩ := @scalars_cons text unit
    refine ⟨fun none_ => ?_, nofun⟩
    have here := (@utf8_length scalar).1
    rw [encode, same, List.flatMap_cons, List.append_eq_nil_iff] at none_
    rw [none_.1] at here
    exact absurd here (by decide)

/-- A text is read back from its bytes exactly where it is well-formed and no byte order mark is
before it. -/
theorem decode_encode_iff : decode (encode text) = text ↔
    isWellFormed text = true ∧ text.head? ≠ some (UInt16.ofNat BYTE_ORDER_MARK) := by
  rw [decode, encode, run_flatMap scalars_valid, ← units_scalars_iff]
  have length := @units_scalars_length text
  cases values : scalars text with
  | nil =>
    rw [values] at length
    rw [List.length_eq_zero_iff.mp length.symm]
    exact ⟨fun _ => ⟨rfl, nofun⟩, fun _ => rfl⟩
  | cons scalar rest =>
    rw [dropMark]
    split
    · rename_i marked
      rw [values, List.flatMap_cons, List.length_append, marked] at length
      have one : (units BYTE_ORDER_MARK).length = 1 := rfl
      refine ⟨fun same => ?_, fun ⟨same, unmarked⟩ => absurd ?_ unmarked⟩
      · rw [one, same] at length
        omega
      · rw [← same, marked]
        rfl
    · rename_i unmarked
      refine ⟨fun same => ⟨same, fun marked => unmarked ?_⟩, And.left⟩
      cases text with
      | nil => cases marked
      | cons unit text =>
        obtain rfl : unit = UInt16.ofNat BYTE_ORDER_MARK := Option.some.inj marked
        obtain ⟨others, single⟩ := @scalars_single text (UInt16.ofNat BYTE_ORDER_MARK) rfl
        exact (List.cons.inj (values.symm.trans single)).1

end Utf8

end TextCodec
