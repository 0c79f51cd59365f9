import CelldWorld.Library.JsonText

/-! Base64 of bytes, as code units: `btoa` and the forgiving `atob`. -/

namespace Base64

open JsonText

def PAD : UInt16 := unit '='

/-- The letter of six bits. -/
def letter (sextet : Nat) : UInt16 :=
  if sextet < 26 then UInt16.ofNat (0x41 + sextet)
  else if sextet < 52 then UInt16.ofNat (0x47 + sextet)
  else if sextet < 62 then UInt16.ofNat (sextet - 4)
  else if sextet = 62 then unit '+'
  else unit '/'

def sextet (u : UInt16) : Option Nat :=
  if 0x41 ≤ u.toNat ∧ u.toNat ≤ 0x5A then some (u.toNat - 0x41)
  else if 0x61 ≤ u.toNat ∧ u.toNat ≤ 0x7A then some (u.toNat - 0x47)
  else if 0x30 ≤ u.toNat ∧ u.toNat ≤ 0x39 then some (u.toNat + 4)
  else if u = unit '+' then some 62
  else if u = unit '/' then some 63
  else none

/-- Three bytes are four sextets; the bits that a last group lacks are zero. -/
def sextets : List UInt8 → List Nat
  | [] => []
  | [a] => [a.toNat / 4, a.toNat % 4 * 16]
  | [a, b] => [a.toNat / 4, a.toNat % 4 * 16 + b.toNat / 16, b.toNat % 16 * 4]
  | a :: b :: c :: bytes =>
    a.toNat / 4 :: (a.toNat % 4 * 16 + b.toNat / 16) :: (b.toNat % 16 * 4 + c.toNat / 64) ::
      c.toNat % 64 :: sextets bytes

def bytes : List Nat → Option (List UInt8)
  | [] => some []
  | [_] => none
  | [a, b] => some [UInt8.ofNat (a * 4 + b / 16)]
  | [a, b, c] => some [UInt8.ofNat (a * 4 + b / 16), UInt8.ofNat (b % 16 * 16 + c / 4)]
  | a :: b :: c :: d :: rest => (bytes rest).map fun others =>
    UInt8.ofNat (a * 4 + b / 16) :: UInt8.ofNat (b % 16 * 16 + c / 4) :: UInt8.ofNat (c % 4 * 64 + d) :: others

/-- The signs that fill the last group of four. -/
def padding (letters : Nat) : List UInt16 := List.replicate ((4 - letters % 4) % 4) PAD

def encode (data : List UInt8) : List UInt16 :=
  (sextets data).map letter ++ padding (sextets data).length

def isSpace (u : UInt16) : Bool := u = 0x09 || u = 0x0A || u = 0x0C || u = 0x0D || u = 0x20

/-- Spaces are passed over, and a text of whole groups may end in one or two padding signs. -/
def decode (text : List UInt16) : Option (List UInt8) :=
  let solid := text.filter fun u => !isSpace u
  let letters := solid.takeWhile (· ≠ PAD)
  let signs := solid.drop letters.length
  if signs = [] ∨ (solid.length % 4 = 0 ∧ signs = List.replicate signs.length PAD ∧ signs.length ≤ 2) then
    (letters.mapM sextet).bind bytes
  else none

section Sextets
variable {data : List UInt8}

theorem sextet_letter {value : Nat} (small : value < 64) : sextet (letter value) = some value := by
  have each : ∀ value : Fin 64, sextet (letter value) = some value.val := by decide
  exact each ⟨value, small⟩

theorem letter_solid {value : Nat} (small : value < 64) :
    isSpace (letter value) = false ∧ letter value ≠ PAD := by
  have each : ∀ value : Fin 64, isSpace (letter value) = false ∧ letter value ≠ PAD := by decide
  exact each ⟨value, small⟩

theorem sextets_small : ∀ value ∈ sextets data, value < 64 := by
  fun_induction sextets data with
  | case1 => exact nofun
  | case2 a =>
    have most := a.toNat_lt
    simp only [List.mem_cons, List.not_mem_nil, or_false, forall_eq_or_imp, forall_eq]
    omega
  | case3 a b =>
    have mostA := a.toNat_lt
    have mostB := b.toNat_lt
    simp only [List.mem_cons, List.not_mem_nil, or_false, forall_eq_or_imp, forall_eq]
    omega
  | case4 a b c rest ih =>
    have mostA := a.toNat_lt
    have mostB := b.toNat_lt
    have mostC := c.toNat_lt
    simp only [List.mem_cons, forall_eq_or_imp]
    exact ⟨by omega, by omega, by omega, by omega, ih⟩

/-- No group is left with a single sextet. -/
theorem sextets_whole : (sextets data).length % 4 ≠ 1 := by
  fun_induction sextets data with
  | case1 | case2 | case3 => simp
  | case4 a b c rest ih =>
    simp only [List.length_cons]
    omega

theorem bytes_sextets : bytes (sextets data) = some data := by
  fun_induction sextets data with
  | case1 => rfl
  | case2 a =>
    have most := a.toNat_lt
    have first : a.toNat / 4 * 4 + a.toNat % 4 * 16 / 16 = a.toNat := by omega
    rw [bytes, first, UInt8.ofNat_toNat]
  | case3 a b =>
    have mostB := b.toNat_lt
    have first : a.toNat / 4 * 4 + (a.toNat % 4 * 16 + b.toNat / 16) / 16 = a.toNat := by omega
    have second : (a.toNat % 4 * 16 + b.toNat / 16) % 16 * 16 + b.toNat % 16 * 4 / 4 = b.toNat := by omega
    rw [bytes, first, second, UInt8.ofNat_toNat, UInt8.ofNat_toNat]
  | case4 a b c rest ih =>
    have mostB := b.toNat_lt
    have mostC := c.toNat_lt
    have first : a.toNat / 4 * 4 + (a.toNat % 4 * 16 + b.toNat / 16) / 16 = a.toNat := by omega
    have second : (a.toNat % 4 * 16 + b.toNat / 16) % 16 * 16 + (b.toNat % 16 * 4 + c.toNat / 64) / 4 =
        b.toNat := by
      omega
    have third : (b.toNat % 16 * 4 + c.toNat / 64) % 4 * 64 + c.toNat % 64 = c.toNat := by omega
    rw [bytes, ih, Option.map_some, first, second, third, UInt8.ofNat_toNat, UInt8.ofNat_toNat, UInt8.ofNat_toNat]

theorem mapM_sextet {values : List Nat} (small : ∀ value ∈ values, value < 64) :
    (values.map letter).mapM sextet = some values := by
  induction values with
  | nil => rfl
  | cons value values ih =>
    rw [List.map_cons, List.mapM_cons, sextet_letter (small value (.head _)),
      ih fun other member => small other (.tail _ member)]
    rfl

end Sextets

/-- The text of the bytes is the text of those bytes only. -/
theorem decode_encode {data : List UInt8} : decode (encode data) = some data := by
  have small := @sextets_small data
  have whole := @sextets_whole data
  have solid : (encode data).filter (fun u => !isSpace u) = encode data := by
    refine List.filter_eq_self.mpr fun u member => ?_
    rcases List.mem_append.mp member with member | member
    · obtain ⟨value, valueMember, rfl⟩ := List.mem_map.mp member
      rw [(letter_solid (small value valueMember)).1]
      rfl
    · rw [(List.mem_replicate.mp member).2]
      decide
  have plain : ∀ u ∈ (sextets data).map letter, decide (u ≠ PAD) = true := fun u member => by
    obtain ⟨value, valueMember, rfl⟩ := List.mem_map.mp member
    exact decide_eq_true (letter_solid (small value valueMember)).2
  have letters : (encode data).takeWhile (· ≠ PAD) = (sextets data).map letter := by
    rw [encode, List.takeWhile_append_of_pos plain, padding, List.takeWhile_replicate]
    simp
  have signs : (encode data).drop ((sextets data).map letter).length = padding (sextets data).length :=
    List.drop_left
  have length : (padding (sextets data).length).length = (4 - (sextets data).length % 4) % 4 :=
    List.length_replicate
  unfold decode
  simp only [solid, letters, signs]
  rw [if_pos, mapM_sextet small, Option.bind_some, bytes_sextets]
  refine .inr ⟨?_, ?_, ?_⟩
  · rw [encode, List.length_append, List.length_map, length]
    omega
  · rw [length, padding]
  · omega

end Base64
