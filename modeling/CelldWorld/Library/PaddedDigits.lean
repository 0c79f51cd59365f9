import Mathlib.Algebra.Group.Nat.Defs
import Mathlib.Data.Nat.Init
import Mathlib.Order.Basic

/-! Decimal numbers that are padded to a fixed width, whose texts come in the order of the
numbers. -/

namespace PaddedDigits

/-- A number with zeros before it up to a width. -/
def padded (width value : Nat) : List Char := List.leftpad width '0' (Nat.toDigits 10 value)

variable {α : Type} [LT α] {left right leftRest rightRest : List α} {width value : Nat}

/-- Texts of one length are compared before what follows them. -/
theorem append_lt_append (less : left < right) (length : left.length = right.length) :
    left ++ leftRest < right ++ rightRest := by
  induction left generalizing right with
  | nil =>
    rw [List.length_nil, eq_comm, List.length_eq_zero_iff] at length
    subst length
    exact absurd less (by simp)
  | cons first left ih =>
    cases right with
    | nil => cases length
    | cons second right =>
      rw [List.cons_lt_cons_iff] at less
      rw [List.cons_append, List.cons_append, List.cons_lt_cons_iff]
      rcases less with less | ⟨rfl, less⟩
      · exact .inl less
      · exact .inr ⟨rfl, ih less (Nat.succ.inj length)⟩

theorem padded_one (digit : value < 10) : padded 1 value = [value.digitChar] := by
  rw [padded, Nat.toDigits_of_lt_base digit]
  rfl

theorem digits_length (some_ : 0 < width) (fits : value < 10 ^ width) : (Nat.toDigits 10 value).length ≤ width :=
  (Nat.length_toDigits_le_iff (by decide) some_).mpr fits

theorem padded_length (some_ : 0 < width) (fits : value < 10 ^ width) : (padded width value).length = width := by
  have short := digits_length some_ fits
  rw [padded, List.leftpad, List.length_append, List.length_replicate]
  omega

/-- The last digit of a padded number, behind the others. -/
theorem padded_succ (some_ : 0 < width) (fits : value < 10 ^ (width + 1)) :
    padded (width + 1) value = padded width (value / 10) ++ [(value % 10).digitChar] := by
  have short : (Nat.toDigits 10 (value / 10)).length ≤ width := by
    refine digits_length some_ (Nat.div_lt_of_lt_mul ?_)
    rwa [Nat.mul_comm, ← Nat.pow_succ]
  unfold padded List.leftpad
  rcases Nat.lt_or_ge value 10 with digit | longer
  · have zero : value / 10 = 0 := Nat.div_eq_of_lt digit
    have rest : width = width - 1 + 1 := by omega
    rw [Nat.toDigits_of_lt_base digit, zero, Nat.toDigits_zero, Nat.mod_eq_of_lt digit, List.length_singleton,
      List.length_singleton, Nat.add_sub_cancel]
    rw [rest, List.replicate_succ', Nat.add_sub_cancel]
  · rw [Nat.toDigits_of_base_le (by decide) longer, List.length_append, List.length_singleton,
      ← List.append_assoc]
    rw [Nat.add_sub_add_right]

theorem digitChar_lt {left right : Nat} (less : left < right) (digit : right < 10) :
    left.digitChar < right.digitChar := by
  have each : ∀ right : Fin 10, ∀ left : Fin 10, left < right →
      left.val.digitChar < right.val.digitChar := by decide
  exact each ⟨right, digit⟩ ⟨left, Nat.lt_trans less digit⟩ less

theorem padded_lt {left right : Nat} (some_ : 0 < width) (less : left < right) (fits : right < 10 ^ width) :
    padded width left < padded width right := by
  induction width generalizing left right with
  | zero => exact absurd some_ (Nat.lt_irrefl 0)
  | succ width ih =>
    rcases Nat.eq_zero_or_pos width with rfl | wider
    · rw [Nat.zero_add, Nat.pow_one] at fits
      rw [Nat.zero_add, padded_one (Nat.lt_trans less fits), padded_one fits, List.cons_lt_cons_iff]
      exact .inl (digitChar_lt less fits)
    · have smaller : right / 10 < 10 ^ width := Nat.div_lt_of_lt_mul (by rwa [Nat.mul_comm, ← Nat.pow_succ])
      rw [padded_succ wider (Nat.lt_trans less fits), padded_succ wider fits]
      rcases Nat.lt_or_ge (left / 10) (right / 10) with higher | same
      · refine append_lt_append (ih wider higher smaller) ?_
        rw [padded_length wider smaller, padded_length wider (Nat.lt_trans higher smaller)]
      · have equal : left / 10 = right / 10 := Nat.le_antisymm (Nat.div_le_div_right (Nat.le_of_lt less)) same
        rw [equal]
        have last : [(left % 10).digitChar] < [(right % 10).digitChar] :=
          List.cons_lt_cons_iff.mpr (.inl (digitChar_lt (by omega) (Nat.mod_lt _ (by decide))))
        exact List.append_left_lt last

/-- Numbers of one width are compared before what follows them. -/
theorem padded_append_lt {left right : Nat} {leftRest rightRest : List Char} (some_ : 0 < width)
    (fits : right < 10 ^ width)
    (less : left < right ∨ left = right ∧ leftRest < rightRest) :
    padded width left ++ leftRest < padded width right ++ rightRest := by
  rcases less with less | ⟨rfl, less⟩
  · refine append_lt_append (padded_lt some_ less fits) ?_
    rw [padded_length some_ fits, padded_length some_ (Nat.lt_trans less fits)]
  · exact List.append_left_lt less

theorem padded_digits : (padded width value).all Char.isDigit = true := by
  refine List.all_eq_true.mpr fun c member => ?_
  rcases List.mem_append.mp member with zero | digit
  · rw [(List.mem_replicate.mp zero).2]
    rfl
  · exact Nat.isDigit_of_mem_toDigits (by decide) (by decide) digit

theorem exists_digitChar {c : Char} (digit : c.isDigit = true) : ∃ value < 10, value.digitChar = c := by
  have each : ∀ value : Fin 10, value.val.digitChar = Char.ofNat (48 + value) := by decide
  simp only [Char.isDigit, Bool.and_eq_true, decide_eq_true_eq] at digit
  have least : 48 ≤ c.toNat := digit.1
  have most : c.toNat ≤ 57 := digit.2
  refine ⟨c.toNat - 48, by omega, ?_⟩
  rw [each ⟨c.toNat - 48, by omega⟩, Nat.add_sub_cancel' least, Char.ofNat_toNat]

/-- Every text of digits is a padded number. -/
theorem exists_padded {digits : List Char} (some_ : 0 < width) (full : digits.length = width)
    (allDigits : digits.all Char.isDigit = true) : ∃ value < 10 ^ width, padded width value = digits := by
  induction width generalizing digits with
  | zero => exact absurd some_ (Nat.lt_irrefl 0)
  | succ width ih =>
    rcases List.eq_nil_or_concat digits with rfl | ⟨front, last, rfl⟩
    · cases full
    rw [List.concat_eq_append, List.length_append, List.length_singleton, Nat.add_right_cancel_iff] at full
    rw [List.concat_eq_append, List.all_append, Bool.and_eq_true, List.all_cons, Bool.and_eq_true] at allDigits
    obtain ⟨digit, small, rfl⟩ := exists_digitChar allDigits.2.1
    rcases Nat.eq_zero_or_pos width with rfl | wider
    · rw [List.concat_eq_append, List.length_eq_zero_iff.mp full]
      exact ⟨digit, small, padded_one small⟩
    · obtain ⟨value, fits, rfl⟩ := ih wider full allDigits.1
      have larger : 10 * value + digit < 10 ^ (width + 1) := by
        rw [Nat.pow_succ]
        omega
      refine ⟨10 * value + digit, larger, ?_⟩
      rw [List.concat_eq_append, padded_succ wider larger, show (10 * value + digit) / 10 = value by omega,
        show (10 * value + digit) % 10 = digit by omega]

end PaddedDigits
